import ClockStep.Machine.Run

/-!
# A Core under Observation

How often a machine evaluates its core, with which inputs, and when it has the lines recorded, does
not show in what the core does, and a core need not remember it. An **observed** core does: it is any
core, with a log to which every evaluation and every record is added.

The log is not part of the behaviour. Forgetting it turns a machine over the observed core into one
over the core alone, and whatever is called on the two, they stay the same but for the log
(`forget_performAll`). So what the log shows of the observed core, the machine does to any core.

## Main results

* `forget_step`, `forget_run`, `forget_reset`: forgetting the log before or after is the same.
* `forget_performAll`: so it is for any number of calls.
-/

namespace ClockStep

/-- What a machine does to its core. -/
inductive Observation where
  /-- The core is evaluated with some inputs. -/
  | evaluated (inputs : InputLines)
  /-- The core is told to record its lines at a time. -/
  | recorded (time : Nat)
deriving Repr, DecidableEq

/-- A core with a log, the latest observation at the end. -/
structure Observed (γ : Type) where
  core : γ
  log : List Observation := []

instance {γ : Type} [Core γ] : Core (Observed γ) where
  lines o := Core.lines o.core
  evaluate inputs o memory :=
    let (core, memory) := Core.evaluate inputs o.core memory
    (⟨core, o.log ++ [.evaluated inputs]⟩, memory)
  record time o := ⟨Core.record time o.core, o.log ++ [.recorded time]⟩

namespace Machine

variable {γ κ : Type}

/-! ### Calls -/

/-- What can be called on a machine. -/
inductive Call where
  /-- A cycle outside of reset. -/
  | cycle
  /-- A cycle of reset. -/
  | resetCycle
  /-- An instruction, or what is left of it. -/
  | instruction (fuel : Nat)
  | run (fuel : Nat) (limit : Limit) (breakpoints : Breakpoints)
  | reset
  /-- An interrupt is raised by hand. -/
  | raise (request : Interrupt)
  /-- The operator asks to stop, or a request to stop is forgotten. -/
  | cancel (requested : Bool)
  /-- A word is written to memory. -/
  | write (address value : Word)

/-- The machine that a call leaves, whether or not it ends in an error; there is none if the fuel of
the call is too little. -/
def Call.perform [Core γ] [Keyboard κ] : Call → Machine γ κ → Option (Machine γ κ)
  | .cycle, m => some m.step.2
  | .resetCycle, m => some m.resetStep
  | .instruction fuel, m => (m.stepInstruction fuel).map (·.2)
  | .run fuel limit breakpoints, m => (m.run fuel limit breakpoints).map (·.machine)
  | .reset, m => some m.reset
  | .raise request, m => some (m.raise request)
  | .cancel requested, m => some { m with cancelled := requested }
  | .write address value, m => some { m with memory := m.memory.set address value }

/-- The machine that calls leave, one after the other. -/
def performAll [Core γ] [Keyboard κ] (calls : List Call) (m : Machine γ κ) :
    Option (Machine γ κ) :=
  calls.foldlM (fun m call => call.perform m) m

/-! ### Forgetting the log -/

/-- The machine over the core alone. -/
def forget (m : Machine (Observed γ) κ) : Machine γ κ := { m with core := m.core.core }

variable [Core γ]

/-- A half period goes on below as it does with the log. -/
theorem forget_halfPeriod (clock : Bool) (m : Machine (Observed γ) κ) :
    (m.halfPeriod clock).forget = m.forget.halfPeriod clock := by
  obtain ⟨core, memory, ⟨haltOnStop, traced⟩, _⟩ := m
  cases traced <;> rfl

/-- So does a clock period. -/
theorem forget_clockPeriod (m : Machine (Observed γ) κ) :
    m.clockPeriod.forget = m.forget.clockPeriod := by
  have hhalves : ((m.driveInterrupts.halfPeriod true).halfPeriod false).forget =
      (m.forget.driveInterrupts.halfPeriod true).halfPeriod false := by
    rw [forget_halfPeriod, forget_halfPeriod]
    rfl
  exact congrArg (fun m : Machine γ κ => { m with cycles := m.cycles + 1 }) hhalves

/-- So does a tick of the receiver. -/
theorem forget_listen (m : Machine (Observed γ) κ) :
    m.forget.listen = (m.listen.1, m.listen.2.forget) := by
  have htick : m.forget.receiver.tick .standard m.forget.lines.transmit =
      m.receiver.tick .standard m.lines.transmit := rfl
  rw [listen, listen, htick]
  rcases m.receiver.tick .standard m.lines.transmit with ⟨receiver, _ | byte⟩
  · rfl
  · dsimp only
    rw [show m.forget.console = m.console from rfl]
    rcases m.console.send byte with ⟨(cause | ⟨⟩), console⟩ <;> rfl

/-- So does a reset. -/
theorem forget_reset (m : Machine (Observed γ) κ) : m.reset.forget = m.forget.reset := by
  have hrepeat : ∀ (n : Nat) (m : Machine (Observed γ) κ),
      (Nat.repeat resetStep n m).forget = Nat.repeat resetStep n m.forget := by
    intro n m
    induction n with
    | zero => rfl
    | succ n ih =>
        rw [Nat.repeat, Nat.repeat, ← ih]
        exact forget_clockPeriod _
  have hreset : ∀ {γ : Type} [Core γ] (m : Machine γ κ), m.reset =
      let held := Nat.repeat resetStep resetCycles
        { m.note [.resetting] with inputs := { m.inputs with reset := true } }
      { held with inputs := { held.inputs with reset := false } } := fun _ => rfl
  have hraised : ({ m.note [.resetting] with
        inputs := { m.inputs with reset := true } } : Machine (Observed γ) κ).forget =
      { m.forget.note [.resetting] with inputs := { m.forget.inputs with reset := true } } := rfl
  rw [hreset, hreset, ← hraised, ← hrepeat]
  rfl

variable [Keyboard κ]

omit [Core γ] in
/-- So does a poll of the keyboard. -/
theorem forget_pollKeyboard (m : Machine (Observed γ) κ) :
    m.pollKeyboard.forget = m.forget.pollKeyboard := by
  rw [pollKeyboard, pollKeyboard, show m.forget.keyboard = m.keyboard from rfl]
  rcases Keyboard.poll m.keyboard with ⟨⟨(cause | _ | character), cancels, notices⟩, keyboard⟩ <;>
    rfl

/-- So does a cycle, with the same result. -/
theorem forget_step (m : Machine (Observed γ) κ) :
    m.forget.step = (m.step.1, m.step.2.forget) := by
  rw [step, step, forget_listen]
  rcases m.listen with ⟨(e | ⟨⟩), m'⟩
  · rfl
  · dsimp only
    rw [← forget_pollKeyboard, ← forget_clockPeriod]
    generalize m'.pollKeyboard.clockPeriod = m''
    rw [show m''.forget.lines = m''.lines from rfl]
    split <;> rfl

/-- So does a stride of one cycle. -/
theorem forget_stepCycle (m : Machine (Observed γ) κ) :
    m.forget.stepCycle = (m.stepCycle.1, m.stepCycle.2.forget) := by
  rw [stepCycle, stepCycle, show m.forget.cancelled = m.cancelled from rfl, forget_step]
  split
  · rfl
  · rcases m.step with ⟨(e | status), m'⟩ <;> rfl

/-- So does a stride of one instruction. -/
theorem forget_stepInstruction (fuel : Nat) (m : Machine (Observed γ) κ) :
    m.forget.stepInstruction fuel = (m.stepInstruction fuel).map fun s => (s.1, s.2.forget) := by
  induction fuel generalizing m with
  | zero => rfl
  | succ fuel ih =>
      rw [stepInstruction, stepInstruction, forget_stepCycle]
      rcases m.stepCycle with ⟨(e | _ | reason), m'⟩
      · rfl
      · dsimp only
        rw [show m'.forget.atFetch = m'.atFetch from rfl]
        split
        · rfl
        · exact ih m'
      · rfl

/-- So does either stride. -/
theorem forget_stride (limit : Limit) (fuel : Nat) (m : Machine (Observed γ) κ) :
    m.forget.stride limit fuel = (m.stride limit fuel).map fun s => (s.1, s.2.forget) := by
  cases limit with
  | instructions n => exact forget_stepInstruction fuel m
  | cycles n => exact congrArg some m.forget_stepCycle
  | unbounded => exact congrArg some m.forget_stepCycle

/-- The outcome of a run over the core alone. -/
def Outcome.forget (o : Outcome (Observed γ) κ) : Outcome γ κ :=
  ⟨o.result, o.machine.forget, o.breakpoints⟩

/-- So does a run, by induction on the fuel. -/
theorem forget_runFrom (limit : Limit) (fuel : Nat) (remaining : Option Nat)
    (breakpoints : Breakpoints) (m : Machine (Observed γ) κ) :
    runFrom limit fuel remaining breakpoints m.forget =
      (runFrom limit fuel remaining breakpoints m).map Outcome.forget := by
  induction fuel generalizing remaining m with
  | zero => rfl
  | succ fuel ih =>
      rw [runFrom, runFrom, show m.forget.hit? breakpoints = m.hit? breakpoints from rfl,
        forget_stride]
      by_cases hr : remaining = some 0
      · rw [if_pos hr, if_pos hr]
        rfl
      rw [if_neg hr, if_neg hr]
      rcases m.hit? breakpoints with _ | ⟨address, rest⟩
      · rcases m.stride limit (fuel + 1) with _ | ⟨(e | _ | reason), m'⟩
        · rfl
        · rfl
        · exact ih _ m'
        · rfl
      · rfl

/-- Forgetting the log before or after a run is the same. -/
theorem forget_run (fuel : Nat) (limit : Limit) (breakpoints : Breakpoints)
    (m : Machine (Observed γ) κ) :
    m.forget.run fuel limit breakpoints = (m.run fuel limit breakpoints).map Outcome.forget :=
  forget_runFrom limit fuel limit.strides breakpoints m

/-- So does every call, and a call fails below exactly when it does with the log. -/
theorem Call.forget_perform (call : Call) (m : Machine (Observed γ) κ) :
    call.perform m.forget = (call.perform m).map forget := by
  cases call with
  | cycle => exact congrArg (fun s => some s.2) m.forget_step
  | resetCycle => exact congrArg some m.forget_clockPeriod.symm
  | instruction fuel =>
      rw [perform, perform, forget_stepInstruction, Option.map_map, Option.map_map]
      rfl
  | run fuel limit breakpoints =>
      rw [perform, perform, forget_run, Option.map_map, Option.map_map]
      rfl
  | reset => exact congrArg some m.forget_reset.symm
  | raise request | cancel requested | write address value => rfl

/-- **Observing a core changes nothing.** Whatever is called on a machine over an observed core, it
leaves, but for the log, what it leaves over the core alone. -/
theorem forget_performAll (calls : List Call) (m : Machine (Observed γ) κ) :
    performAll calls m.forget = (performAll calls m).map forget := by
  induction calls generalizing m with
  | nil => rfl
  | cons call calls ih =>
      rw [performAll, performAll, List.foldlM_cons, List.foldlM_cons, Call.forget_perform]
      cases call.perform m with
      | none => rfl
      | some m' => exact ih m'

end Machine

end ClockStep
