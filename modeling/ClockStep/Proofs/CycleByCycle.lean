import ClockStep.Proofs.BreakpointStops

/-!
# Runs, Cycle by Cycle

A run by instructions is a loop inside a loop, and the inner one looks at neither the breakpoints
nor the number of instructions left. `proceed` is the plain loop that a reader has in mind instead:
before each cycle the breakpoints and the operator are asked, and the first thing that stops the
machine is the outcome. It needs no fuel, since it is told how many cycles to try.

All three limits come down to it. Between two cycles of an instruction the machine is not at a
fetch, so that asking for a breakpoint there is no difference (`stepInstruction_eq_proceed`); and
what is left of the limit is looked at between strides only, where all of them agree.

## Main results

* `runFrom_of_proceed_error`, `runFrom_of_proceed_ok`: a run by cycles, or without limit, is
  `proceed` with the limit put on top.
* `exists_proceed_of_runFrom`: a run by instructions comes to what `proceed` comes to at some number
  of cycles.
* `instructions_agree_with_cycles`: the three limits drive the machine identically.
-/

namespace ClockStep

namespace Machine

variable {γ κ : Type} [Core γ] [Keyboard κ]

/-! ### The plain loop -/

/-- What a stride of a run comes to: a machine to go on with, or the outcome of the run. -/
def Stride.settle (breakpoints : Breakpoints) :
    Stride γ κ → Except (Outcome γ κ) (Machine γ κ)
  | (.ok none, m) => .ok m
  | (.ok (some reason), m) => .error ⟨.ok reason, m, breakpoints⟩
  | (.error e, m) => .error ⟨.error e, m, breakpoints⟩

/-- One cycle, unless something stops the machine before it or in it. -/
def attempt (breakpoints : Breakpoints) (m : Machine γ κ) :
    Except (Outcome γ κ) (Machine γ κ) :=
  match m.hit? breakpoints with
  | some (address, rest) => .error ⟨.ok (.breakpoint address), m, rest⟩
  | none => Stride.settle breakpoints m.stepCycle

/-- A number of cycles, up to the first thing that stops the machine. -/
def proceed (breakpoints : Breakpoints) :
    Nat → Machine γ κ → Except (Outcome γ κ) (Machine γ κ)
  | 0, m => .ok m
  | k + 1, m =>
    match m.attempt breakpoints with
    | .ok m => proceed breakpoints k m
    | .error o => .error o

variable {breakpoints : Breakpoints} {m m' : Machine γ κ} {o : Outcome γ κ} {k : Nat}

/-- Away from breakpoints, an attempt is one cycle. -/
theorem attempt_of_hit?_eq_none (h : m.hit? breakpoints = none) :
    m.attempt breakpoints = Stride.settle breakpoints m.stepCycle := by
  rw [attempt, h]

/-- Behind a cycle that goes on, one cycle less is left. -/
theorem proceed_succ_of_ok (h : m.attempt breakpoints = .ok m') (k : Nat) :
    proceed breakpoints (k + 1) m = proceed breakpoints k m' := by
  rw [proceed, h]

/-- A cycle that does not go on is the last. -/
theorem proceed_succ_of_error (h : m.attempt breakpoints = .error o) (k : Nat) :
    proceed breakpoints (k + 1) m = .error o := by
  rw [proceed, h]

/-- To get through some cycles is to get through the first one and then through the others. -/
theorem proceed_succ_eq_ok_iff :
    proceed breakpoints (k + 1) m = .ok m' ↔
      ∃ m₁, m.attempt breakpoints = .ok m₁ ∧ proceed breakpoints k m₁ = .ok m' := by
  rcases ha : m.attempt breakpoints with o | m₁
  · rw [proceed_succ_of_error ha]
    constructor
    · rintro ⟨⟩
    · rintro ⟨_, ⟨⟩, _⟩
  · rw [proceed_succ_of_ok ha]
    constructor
    · intro h
      exact ⟨m₁, rfl, h⟩
    · rintro ⟨_, ⟨⟩, h⟩
      exact h

/-- To be stopped within some cycles is to be stopped in the first one or within the others. -/
theorem proceed_succ_eq_error_iff :
    proceed breakpoints (k + 1) m = .error o ↔
      m.attempt breakpoints = .error o ∨
        ∃ m₁, m.attempt breakpoints = .ok m₁ ∧ proceed breakpoints k m₁ = .error o := by
  rcases ha : m.attempt breakpoints with o₁ | m₁
  · rw [proceed_succ_of_error ha]
    constructor
    · intro h
      exact Or.inl h
    · rintro (h | ⟨_, ⟨⟩, _⟩)
      exact h
  · rw [proceed_succ_of_ok ha]
    constructor
    · intro h
      exact Or.inr ⟨m₁, rfl, h⟩
    · rintro (h | ⟨_, ⟨⟩, h⟩)
      · cases h
      · exact h

/-- Cycles that went by are followed by others. -/
theorem proceed_add_of_ok {a : Nat} (h : proceed breakpoints a m = .ok m') (b : Nat) :
    proceed breakpoints (a + b) m = proceed breakpoints b m' := by
  induction a generalizing m with
  | zero =>
      cases h
      rw [Nat.zero_add]
  | succ a ih =>
      obtain ⟨m₁, ha, h⟩ := proceed_succ_eq_ok_iff.1 h
      rw [Nat.succ_add, proceed_succ_of_ok ha]
      exact ih h

/-! ### Counting cycles -/

/-- An attempt that leaves something to go on with has completed its cycle. -/
theorem cycles_of_attempt_ok (h : m.attempt breakpoints = .ok m') :
    m'.cycles = m.cycles + 1 := by
  rcases hh : m.hit? breakpoints with _ | ⟨address, rest⟩
  · rw [attempt_of_hit?_eq_none hh] at h
    rcases m.stepCycle_cases with hs | ⟨e, m₁, hs, -⟩ | ⟨status, m₁, hs, hcycles⟩ <;> rw [hs] at h
    · cases h
    · cases h
    · cases status <;> cases h
      exact hcycles
  · rw [attempt, hh] at h
    cases h

/-- An attempt that stops the machine has completed its cycle, or has not started it or not got
through it. It never says that a limit was used up. -/
theorem attempt_error (h : m.attempt breakpoints = .error o) :
    o.result ≠ .ok .completed ∧
      (o.machine.cycles = m.cycles ∨ o.machine.cycles = m.cycles + 1) := by
  rcases hh : m.hit? breakpoints with _ | ⟨address, rest⟩
  · rw [attempt_of_hit?_eq_none hh] at h
    rcases m.stepCycle_cases with hs | ⟨e, m₁, hs, hcycles⟩ | ⟨status, m₁, hs, hcycles⟩ <;>
      rw [hs] at h
    · cases h
      exact ⟨nofun, Or.inl rfl⟩
    · cases h
      exact ⟨nofun, Or.inl hcycles⟩
    · cases status <;> cases h
      · exact ⟨nofun, Or.inr hcycles⟩
      · exact ⟨nofun, Or.inr hcycles⟩
  · rw [attempt, hh] at h
    cases h
    exact ⟨nofun, Or.inl rfl⟩

/-- Each cycle that went on was counted. -/
theorem cycles_of_proceed_ok (h : proceed breakpoints k m = .ok m') :
    m'.cycles = m.cycles + k := by
  induction k generalizing m with
  | zero =>
      cases h
      rfl
  | succ k ih =>
      obtain ⟨m₁, ha, h⟩ := proceed_succ_eq_ok_iff.1 h
      have h₁ := cycles_of_attempt_ok ha
      have h₂ := ih h
      omega

/-- What stops short of its cycles is not completed. -/
theorem result_of_proceed_error (h : proceed breakpoints k m = .error o) :
    o.result ≠ .ok .completed := by
  induction k generalizing m with
  | zero => cases h
  | succ k ih =>
      rcases proceed_succ_eq_error_iff.1 h with ha | ⟨m₁, -, h⟩
      · exact (attempt_error ha).1
      · exact ih h

/-- What stops the machine does so within one cycle more than the completed ones. -/
theorem exists_cycles_of_proceed_error (h : proceed breakpoints k m = .error o) :
    ∃ j, o.machine.cycles = m.cycles + j ∧ proceed breakpoints (j + 1) m = .error o := by
  induction k generalizing m with
  | zero => cases h
  | succ k ih =>
      rcases proceed_succ_eq_error_iff.1 h with ha | ⟨m₁, ha, h⟩
      · rcases (attempt_error ha).2 with hcycles | hcycles
        · exact ⟨0, hcycles, proceed_succ_of_error ha 0⟩
        · exact ⟨1, hcycles, proceed_succ_of_error ha 1⟩
      · obtain ⟨j, hcycles, hj⟩ := ih h
        have h₁ := cycles_of_attempt_ok ha
        refine ⟨j + 1, by omega, ?_⟩
        rw [proceed_succ_of_ok ha]
        exact hj

/-! ### Turns of a run -/

/-- One turn of a run that has not used up its limit: a look at the breakpoints, and a stride if there
is none to stop at. -/
def turn (limit : Limit) (fuel : Nat) (breakpoints : Breakpoints) (m : Machine γ κ) :
    Option (Except (Outcome γ κ) (Machine γ κ)) :=
  match m.hit? breakpoints with
  | some (address, rest) => some (.error ⟨.ok (.breakpoint address), m, rest⟩)
  | none => (m.stride limit fuel).map (Stride.settle breakpoints)

/-- Away from breakpoints, a turn is one stride. -/
theorem turn_of_hit?_eq_none (limit : Limit) (fuel : Nat) (h : m.hit? breakpoints = none) :
    m.turn limit fuel breakpoints = (m.stride limit fuel).map (Stride.settle breakpoints) := by
  rw [turn, h]

/-- At a breakpoint, a turn takes it out and stops. -/
theorem turn_of_hit?_eq_some {address : Word} {rest : Breakpoints} (limit : Limit) (fuel : Nat)
    (h : m.hit? breakpoints = some (address, rest)) :
    m.turn limit fuel breakpoints = some (.error ⟨.ok (.breakpoint address), m, rest⟩) := by
  rw [turn, h]

/-- A run that has not used up its limit is a turn and, if this leaves something to go on with, the
rest of the run. -/
theorem runFrom_succ_of_ne {limit : Limit} {remaining : Option Nat} (fuel : Nat)
    (hr : remaining ≠ some 0) :
    runFrom limit (fuel + 1) remaining breakpoints m =
      (m.turn limit (fuel + 1) breakpoints).bind fun
        | .ok m => runFrom limit fuel (remaining.map (· - 1)) breakpoints m
        | .error o => some o := by
  rw [runFrom, if_neg hr, turn]
  rcases m.hit? breakpoints with _ | ⟨address, rest⟩
  · rcases m.stride limit (fuel + 1) with _ | ⟨(e | _ | reason), m₁⟩ <;> rfl
  · rfl

/-! ### Runs by cycles, and without limit -/

/-- One turn of a run whose strides are cycles. -/
theorem runFrom_succ_of_stride_eq {limit : Limit} {remaining : Option Nat} (fuel : Nat)
    (hl : ∀ (fuel : Nat) (m : Machine γ κ), m.stride limit fuel = some m.stepCycle)
    (hr : remaining ≠ some 0) :
    runFrom limit (fuel + 1) remaining breakpoints m =
      match m.attempt breakpoints with
      | .ok m => runFrom limit fuel (remaining.map (· - 1)) breakpoints m
      | .error o => some o := by
  have hturn : m.turn limit (fuel + 1) breakpoints = some (m.attempt breakpoints) := by
    rw [turn, attempt, hl]
    cases m.hit? breakpoints <;> rfl
  rw [runFrom_succ_of_ne fuel hr, hturn]
  rfl

/-- What stops the plain loop is the outcome of a run by cycles whose limit reaches that far. -/
theorem runFrom_of_proceed_error {limit : Limit} {fuel : Nat} {remaining : Option Nat}
    (hl : ∀ (fuel : Nat) (m : Machine γ κ), m.stride limit fuel = some m.stepCycle)
    (h : proceed breakpoints k m = .error o) (hk : k ≤ fuel)
    (hr : ∀ r, remaining = some r → k ≤ r) :
    runFrom limit fuel remaining breakpoints m = some o := by
  induction k generalizing m fuel remaining with
  | zero => cases h
  | succ k ih =>
      obtain ⟨fuel, rfl⟩ : ∃ f, fuel = f + 1 := ⟨fuel - 1, by omega⟩
      have hr₀ : remaining ≠ some 0 := fun h₀ => by
        have := hr 0 h₀
        omega
      rw [runFrom_succ_of_stride_eq fuel hl hr₀]
      rcases proceed_succ_eq_error_iff.1 h with ha | ⟨m₁, ha, h⟩
      · rw [ha]
      · rw [ha]
        refine ih h (by omega) fun r hr' => ?_
        obtain ⟨r₁, hr₁, rfl⟩ := Option.map_eq_some_iff.1 hr'
        have := hr r₁ hr₁
        omega

/-- A run by cycles that nothing stops uses up its limit. -/
theorem runFrom_of_proceed_ok {limit : Limit} {fuel : Nat}
    (hl : ∀ (fuel : Nat) (m : Machine γ κ), m.stride limit fuel = some m.stepCycle)
    (h : proceed breakpoints k m = .ok m') (hk : k < fuel) :
    runFrom limit fuel (some k) breakpoints m = some ⟨.ok .completed, m', breakpoints⟩ := by
  induction k generalizing m fuel with
  | zero =>
      cases h
      obtain ⟨fuel, rfl⟩ : ∃ f, fuel = f + 1 := ⟨fuel - 1, by omega⟩
      rw [runFrom, if_pos rfl]
  | succ k ih =>
      obtain ⟨fuel, rfl⟩ : ∃ f, fuel = f + 1 := ⟨fuel - 1, by omega⟩
      obtain ⟨m₁, ha, h⟩ := proceed_succ_eq_ok_iff.1 h
      rw [runFrom_succ_of_stride_eq fuel hl (by simp), ha]
      exact ih h (by omega)

/-! ### Runs by instructions -/

/-- An instruction from a machine that stands at no breakpoint comes to what the plain loop comes
to at some number of cycles: the machine is at no fetch between them. -/
theorem stepInstruction_eq_proceed {fuel : Nat} {s : Stride γ κ}
    (hm : m.hit? breakpoints = none) (h : m.stepInstruction fuel = some s) :
    ∃ k, proceed breakpoints k m = Stride.settle breakpoints s := by
  induction fuel generalizing m with
  | zero => cases h
  | succ fuel ih =>
      have ha := attempt_of_hit?_eq_none hm
      rw [stepInstruction] at h
      rcases hs : m.stepCycle with ⟨(e | _ | reason), m₁⟩ <;> rw [hs] at h ha
      · cases h
        exact ⟨1, proceed_succ_of_error ha 0⟩
      · dsimp only at h
        split at h
        · cases h
          exact ⟨1, proceed_succ_of_ok ha 0⟩
        · next hf =>
          have hm₁ : m₁.hit? breakpoints = none := by rw [hit?, if_neg hf]
          obtain ⟨k, hk⟩ := ih hm₁ h
          exact ⟨k + 1, by rw [proceed_succ_of_ok ha, hk]⟩
      · cases h
        exact ⟨1, proceed_succ_of_error ha 0⟩

/-- A run by instructions ends where the plain loop is stopped, or where it has got to after some
number of cycles. -/
theorem exists_proceed_of_runFrom {n fuel : Nat} {remaining : Option Nat}
    (h : runFrom (.instructions n) fuel remaining breakpoints m = some o) :
    ∃ k, proceed breakpoints k m = .error o ∨
      ∃ m', proceed breakpoints k m = .ok m' ∧ o = ⟨.ok .completed, m', breakpoints⟩ := by
  induction fuel generalizing remaining m with
  | zero => cases h
  | succ fuel ih =>
      by_cases hr : remaining = some 0
      · rw [runFrom, if_pos hr] at h
        cases h
        exact ⟨0, Or.inr ⟨m, rfl, rfl⟩⟩
      rcases hh : m.hit? breakpoints with _ | ⟨address, rest⟩
      · rw [runFrom_succ_of_ne fuel hr, turn_of_hit?_eq_none _ _ hh] at h
        obtain ⟨_, ht, h⟩ := Option.bind_eq_some_iff.1 h
        obtain ⟨s, hs, rfl⟩ := Option.map_eq_some_iff.1 ht
        obtain ⟨a, ha⟩ := stepInstruction_eq_proceed hh hs
        rcases hset : Stride.settle breakpoints s with o₁ | m₁ <;> rw [hset] at h ha
        · cases h
          exact ⟨a, Or.inl ha⟩
        · obtain ⟨k, hk⟩ := ih h
          refine ⟨a + k, ?_⟩
          rw [proceed_add_of_ok ha]
          exact hk
      · rw [runFrom_succ_of_ne fuel hr, turn_of_hit?_eq_some _ _ hh] at h
        cases h
        refine ⟨1, Or.inl (proceed_succ_of_error ?_ 0)⟩
        rw [attempt, hh]

/-- **The limits of a run drive the machine identically.** Let a run by instructions end after `k`
completed cycles. If it used up its limit, so does a run by `k` cycles, with the same outcome. If
something stopped it, this stops a run without limit in the same way, and any run by more than `k`
cycles. -/
theorem instructions_agree_with_cycles {fuel n : Nat}
    (h : m.run fuel (.instructions n) breakpoints = some o) :
    ∃ k, o.machine.cycles = m.cycles + k ∧
      (o.result = .ok .completed →
        ∀ fuel' > k, m.run fuel' (.cycles k) breakpoints = some o) ∧
      (o.result ≠ .ok .completed →
        ∀ fuel' > k, m.run fuel' .unbounded breakpoints = some o ∧
          ∀ c > k, m.run fuel' (.cycles c) breakpoints = some o) := by
  obtain ⟨a, ha | ⟨m', ha, rfl⟩⟩ := exists_proceed_of_runFrom h
  · obtain ⟨k, hcycles, hk⟩ := exists_cycles_of_proceed_error ha
    refine ⟨k, hcycles, fun hresult => absurd hresult (result_of_proceed_error ha), ?_⟩
    intro _ fuel' hfuel
    constructor
    · exact runFrom_of_proceed_error (fun _ _ => rfl) hk hfuel nofun
    · intro c hc
      refine runFrom_of_proceed_error (fun _ _ => rfl) hk hfuel fun r hr => ?_
      cases hr
      exact hc
  · refine ⟨a, cycles_of_proceed_ok ha, fun _ fuel' hfuel => ?_, fun hne => absurd rfl hne⟩
    exact runFrom_of_proceed_ok (fun _ _ => rfl) ha hfuel

/-- The bench machine, told to go for five instructions, stops after ten cycles at a breakpoint, and
does the same without limit and by eleven cycles. -/
theorem instructions_agree_with_cycles_bench :
    ∃ o, benchAtFetch.run 20 (.instructions 5) benchStops = some o ∧
      o.result = .ok (.breakpoint 2) ∧ o.machine.cycles = 10 ∧
      benchAtFetch.run 20 .unbounded benchStops = some o ∧
      benchAtFetch.run 20 (.cycles 11) benchStops = some o := by
  obtain ⟨o, ho⟩ : ∃ o, benchAtFetch.run 20 (.instructions 5) benchStops = some o :=
    Option.isSome_iff_exists.1 rfl
  have hmap : (benchAtFetch.run 20 (.instructions 5) benchStops).map
      (fun o => (o.result, o.machine.cycles)) = some (.ok (.breakpoint 2), 10) := rfl
  rw [ho] at hmap
  obtain ⟨hresult, hten⟩ := Prod.mk.inj (Option.some.inj hmap)
  obtain ⟨k, hcycles, -, hstopped⟩ := instructions_agree_with_cycles ho
  have hk : k = 10 := by
    rw [hten] at hcycles
    change 10 = 0 + k at hcycles
    omega
  subst hk
  have hne : o.result ≠ .ok .completed := by
    rw [hresult]
    nofun
  obtain ⟨hunbounded, hmore⟩ := hstopped hne 20 (by decide)
  exact ⟨o, ho, hresult, hten, hunbounded, hmore 11 (by decide)⟩

end Machine

end ClockStep
