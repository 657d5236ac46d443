import ClockStep.Breakpoints
import ClockStep.Machine.Basic

/-!
# Runs

A **run** lets the machine go for a number of cycles, a number of instructions, or without limit,
until something stops it. Before each stride of a run, the machine is stopped if the limit is used
up, or if it is about to start an instruction at a breakpoint; the breakpoint is cleared by that. A
request to stop is looked at before every cycle.

A run need not end, so running takes **fuel**, a bound on the strides and on the cycles of a stride;
without enough of it there is no outcome.

## Main results

* `stepInstruction_mono`, `runFrom_mono`: an outcome stays the same with more fuel.
-/

namespace ClockStep

/-- How far a run may go. -/
inductive Limit where
  | cycles (count : Nat)
  | instructions (count : Nat)
  /-- Until something stops the machine. -/
  | unbounded
deriving Repr, DecidableEq

/-- How many strides the limit allows, if it bounds them. -/
def Limit.strides : Limit → Option Nat
  | .cycles n | .instructions n => some n
  | .unbounded => none

/-- Why a run came to an end. -/
inductive StopReason where
  /-- The limit is used up. -/
  | completed
  /-- An instruction was about to start at a breakpoint. -/
  | breakpoint (address : Word)
  /-- The machine halted. -/
  | halted
  /-- The machine halted, and the session is to end. -/
  | exit
  /-- The operator asked to stop. -/
  | interrupted
deriving Repr, DecidableEq

/-- A halt stops a run; a running machine goes on. -/
def Status.stopReason : Status → Option StopReason
  | .running => none
  | .halted => some .halted
  | .exit => some .exit

namespace Machine

variable {γ κ : Type} [Core γ] [Keyboard κ]

/-- What a stride leaves: nothing to stop for, a reason to stop, or an error; and the machine. -/
abbrev Stride (γ κ : Type) := Except MachineError (Option StopReason) × Machine γ κ

/-- One cycle, unless the operator asked to stop. -/
def stepCycle (m : Machine γ κ) : Stride γ κ :=
  if m.cancelled then (.ok (some .interrupted), m)
  else match m.step with
    | (.ok status, m) => (.ok status.stopReason, m)
    | (.error e, m) => (.error e, m)

/-- Cycles until the machine is about to start an instruction, or is stopped. -/
def stepInstruction : Nat → Machine γ κ → Option (Stride γ κ)
  | 0, _ => none
  | fuel + 1, m =>
    match m.stepCycle with
    | (.ok none, m) => if m.atFetch then some (.ok none, m) else stepInstruction fuel m
    | stride => some stride

/-- One stride of a run. -/
def stride (limit : Limit) (fuel : Nat) (m : Machine γ κ) : Option (Stride γ κ) :=
  match limit with
  | .instructions _ => m.stepInstruction fuel
  | .cycles _ | .unbounded => some m.stepCycle

/-- How a run ended. -/
structure Outcome (γ κ : Type) where
  /-- The reason, or the error that broke the run off. -/
  result : Except MachineError StopReason
  machine : Machine γ κ
  breakpoints : Breakpoints

/-- The breakpoint that the machine stands at, when it is about to start an instruction there, and
the breakpoints without it. -/
def hit? (breakpoints : Breakpoints) (m : Machine γ κ) : Option (Word × Breakpoints) :=
  if m.atFetch then
    match breakpoints.erase m.lines.pc with
    | .ok rest => some (m.lines.pc, rest)
    | .error _ => none
  else none

/-- Goes on with a run that has a number of strides left, or any number. -/
def runFrom (limit : Limit) : Nat → Option Nat → Breakpoints → Machine γ κ → Option (Outcome γ κ)
  | 0, _, _, _ => none
  | fuel + 1, remaining, breakpoints, m =>
    if remaining = some 0 then some ⟨.ok .completed, m, breakpoints⟩
    else match m.hit? breakpoints with
      | some (address, rest) => some ⟨.ok (.breakpoint address), m, rest⟩
      | none =>
        match m.stride limit (fuel + 1) with
        | none => none
        | some (.ok none, m) => runFrom limit fuel (remaining.map (· - 1)) breakpoints m
        | some (.ok (some reason), m) => some ⟨.ok reason, m, breakpoints⟩
        | some (.error e, m) => some ⟨.error e, m, breakpoints⟩

/-- Runs until the limit is used up or something stops the machine. -/
def run (fuel : Nat) (limit : Limit) (breakpoints : Breakpoints) (m : Machine γ κ) :
    Option (Outcome γ κ) :=
  runFrom limit fuel limit.strides breakpoints m

/-! ### More fuel -/

/-- An instruction that has ended is the same with one more unit of fuel. -/
theorem stepInstruction_succ {fuel : Nat} {m : Machine γ κ} {s : Stride γ κ}
    (h : m.stepInstruction fuel = some s) : m.stepInstruction (fuel + 1) = some s := by
  induction fuel generalizing m with
  | zero => simp [stepInstruction] at h
  | succ fuel ih =>
    unfold stepInstruction at h ⊢
    split
    · next m' hm =>
      simp only [hm] at h
      split
      · next hf => simpa [hf] using h
      · next hf => exact ih (by simpa [hf] using h)
    · next hm => 
      split at h
      · next hm' => exact absurd hm' (hm _)
      · exact h

/-- An instruction that has ended is the same with more fuel. -/
theorem stepInstruction_mono {fuel fuel' : Nat} (hle : fuel ≤ fuel') {m : Machine γ κ}
    {s : Stride γ κ} (h : m.stepInstruction fuel = some s) :
    m.stepInstruction fuel' = some s := by
  induction hle with
  | refl => exact h
  | step _ ih => exact stepInstruction_succ ih

/-- A stride that has ended is the same with more fuel. -/
theorem stride_mono {limit : Limit} {fuel fuel' : Nat} (hle : fuel ≤ fuel') {m : Machine γ κ}
    {s : Stride γ κ} (h : m.stride limit fuel = some s) : m.stride limit fuel' = some s := by
  cases limit with
  | instructions n => exact stepInstruction_mono hle h
  | cycles n => exact h
  | unbounded => exact h

/-- A run that has ended is the same with one more unit of fuel. -/
theorem runFrom_succ {limit : Limit} {fuel : Nat} {remaining : Option Nat}
    {breakpoints : Breakpoints} {m : Machine γ κ} {o : Outcome γ κ}
    (h : runFrom limit fuel remaining breakpoints m = some o) :
    runFrom limit (fuel + 1) remaining breakpoints m = some o := by
  induction fuel generalizing remaining m with
  | zero => simp [runFrom] at h
  | succ fuel ih =>
    rw [runFrom] at h ⊢
    split
    · next hr => simpa [hr] using h
    · next hr =>
      simp only [hr, if_false] at h
      split
      · next hh => simpa [hh] using h
      · next hh =>
        simp only [hh] at h
        cases hs : m.stride limit (fuel + 1) with
        | none => simp [hs] at h
        | some s =>
          rw [stride_mono (Nat.le_succ _) hs]
          rw [hs] at h
          match s, h with
          | (.ok none, _), h => exact ih h
          | (.ok (some _), _), h => exact h
          | (.error _, _), h => exact h

/-- A run that has ended is the same with more fuel. -/
theorem runFrom_mono {limit : Limit} {fuel fuel' : Nat} (hle : fuel ≤ fuel')
    {remaining : Option Nat} {breakpoints : Breakpoints} {m : Machine γ κ} {o : Outcome γ κ}
    (h : runFrom limit fuel remaining breakpoints m = some o) :
    runFrom limit fuel' remaining breakpoints m = some o := by
  induction hle with
  | refl => exact h
  | step _ ih => exact runFrom_succ ih

end Machine

end ClockStep
