import ClockStep.Proofs.Course

/-!
# What Becomes of a Raise

All devices share one request line, and a cycle asks the keyboard before it looks at the core's
acknowledge. This module follows a raise through any life of a machine over the bench core: cycles
in and outside of reset, raises by hand, and in between changes of whatever is not the interrupt
controller.

`Operation.record` performs an operation with a record of its **events**: the requests that were
raised, and the drives of the interrupt lines, each with the inputs that the core was evaluated
with. The events alone determine what the controller does next (`InterruptController.after`), so
what the core has seen is a matter of the events before (`history_explained`), and the fate of a
raise one of the drives that follow it.

A raise stays on the lines up to the first drive at which the core acknowledges. The acknowledge
line does not say which request it is for: if it is still up for an earlier one at the first drive
after a raise, that raise never reaches the core (`raise_lost_to_earlier_acknowledge`).

## Main results

* `run_eq_history`, `reset_eq_history`: runs and resets are among the histories.
* `history_explained`: what the core sees follows from the events before.
* `raise_shown_iff`: the drives at which a raise is shown to the core.
-/

namespace ClockStep

/-! ### Events -/

/-- The request that the inputs of the core carry. -/
def InputLines.request (inputs : InputLines) : Interrupt :=
  { vector := inputs.vector, priority := inputs.priority, data := inputs.data }

/-- One **drive** of the interrupt lines. -/
structure Drive where
  /-- Whether the core acknowledges when the lines are driven. -/
  acknowledge : Bool
  /-- The inputs that the core is then evaluated with while the clock is high. -/
  high : InputLines
  /-- The inputs that the core is then evaluated with while the clock is low. -/
  low : InputLines

/-- The inputs of the two evaluations. -/
def Drive.inputs (d : Drive) : List InputLines := [d.high, d.low]

/-- What concerns the interrupt controller. -/
inductive Event where
  | raised (request : Interrupt)
  | driven (drive : Drive)

/-- The event of a poll, if it brought a character. -/
def Poll.events (poll : Poll) : List Event :=
  match poll.character? with
  | some character => [.raised (.ofKey character)]
  | none => []

namespace InterruptController

/-- The controller after the core's acknowledge was passed to it. -/
def heed (acknowledge : Bool) (c : InterruptController) : InterruptController :=
  if acknowledge then c.acknowledge else c

/-- The controller after an event. -/
def after (c : InterruptController) : Event → InterruptController
  | .raised request => c.raise request
  | .driven d => (c.heed d.acknowledge).afterDrive

/-- The inputs of a drive are those that the controller has for the core. -/
def Shows (c : InterruptController) (d : Drive) : Prop :=
  ∀ inputs ∈ d.inputs,
    inputs.request = c.latest ∧ inputs.deviceReady = (c.pending && !d.acknowledge)

/-- The drives among some events show what a controller has that starts with them. -/
def Explains : InterruptController → List Event → Prop
  | _, [] => True
  | c, .raised request :: events => Explains (c.raise request) events
  | c, .driven d :: events => c.Shows d ∧ Explains (c.after (.driven d)) events

/-- Events are explained exactly when each part is, the second by what the first leaves. -/
theorem explains_append {c : InterruptController} {events later : List Event} :
    c.Explains (events ++ later) ↔ c.Explains events ∧ (events.foldl after c).Explains later := by
  induction events generalizing c with
  | nil => exact ⟨fun h => ⟨trivial, h⟩, And.right⟩
  | cons event events ih =>
      cases event with
      | raised request => exact ih
      | driven d =>
          rw [List.cons_append, Explains, Explains, ih, and_assoc]
          rfl

/-- The events of a poll leave what the poll leaves. -/
theorem foldl_after_poll (c : InterruptController) (poll : Poll) :
    poll.events.foldl after c = c.afterPoll poll := by
  rw [Poll.events, afterPoll]
  cases poll.character? <;> rfl

/-- A poll shows nothing that would need to be explained. -/
theorem explains_poll (c : InterruptController) (poll : Poll) : c.Explains poll.events := by
  rw [Poll.events]
  cases poll.character? <;> trivial

/-- Heeding an acknowledgement leaves the latest raise. -/
@[simp] theorem latest_heed (acknowledge : Bool) (c : InterruptController) :
    (c.heed acknowledge).latest = c.latest := by
  cases acknowledge <;> rfl

/-- A raise is pending until an acknowledgement is heeded. -/
@[simp] theorem pending_heed (acknowledge : Bool) (c : InterruptController) :
    (c.heed acknowledge).pending = (c.pending && !acknowledge) := by
  cases acknowledge <;> simp [heed, InterruptController.acknowledge]

/-- Drives leave the latest request alone, and let it wait until the core acknowledges. -/
theorem foldl_after_driven (c : InterruptController) (drives : List Drive) :
    ((drives.map Event.driven).foldl after c).latest = c.latest ∧
      ((drives.map Event.driven).foldl after c).pending =
        (c.pending && drives.all (!·.acknowledge)) := by
  induction drives generalizing c with
  | nil => simp
  | cons d drives ih =>
      obtain ⟨hlatest, hpending⟩ := ih (c.after (.driven d))
      rw [List.map_cons, List.foldl_cons, hlatest, hpending, List.all_cons, after, afterDrive]
      exact ⟨latest_heed _ c, by simp [Bool.and_assoc]⟩

end InterruptController

namespace Machine

variable {κ : Type}

/-! ### One operation -/

/-- A half period leaves the bench core with the inputs that it was evaluated with. -/
theorem seen_halfPeriod (clock : Bool) (m : Machine BenchCore κ) :
    (m.halfPeriod clock).core.seen = { m.inputs with clock } := by
  have hedge : ∀ (inputs : InputLines) (c : BenchCore) (memory : Memory),
      (BenchCore.risingEdge inputs c memory).1.seen = c.seen := by
    intro inputs c memory
    rw [BenchCore.risingEdge]
    split <;> rfl
  have hcore : (Core.evaluate { m.inputs with clock } m.core m.memory).1.seen =
      { m.inputs with clock } := by
    cases clock with
    | false => rfl
    | true => exact hedge _ _ _
  rw [halfPeriod]
  dsimp only
  split
  · exact hcore
  · exact hcore

/-- The drive of a clock period that starts with the machine. -/
def drive (m : Machine BenchCore κ) : Drive where
  acknowledge := m.lines.acknowledge
  high := (m.driveInterrupts.halfPeriod true).core.seen
  low := m.clockPeriod.core.seen

/-- A clock period is one drive to the interrupts. -/
theorem interrupts_clockPeriod (m : Machine BenchCore κ) :
    m.clockPeriod.interrupts = m.interrupts.after (.driven m.drive) :=
  rfl

/-- The core sees what the controller has for it. -/
theorem shows_drive (m : Machine BenchCore κ) : m.interrupts.Shows m.drive := by
  have hhigh : m.drive.high =
      { (m.interrupts.heed m.lines.acknowledge).driven m.inputs with clock := true } :=
    seen_halfPeriod true m.driveInterrupts
  have hlow : m.drive.low =
      { (m.interrupts.heed m.lines.acknowledge).driven m.inputs with clock := false } :=
    seen_halfPeriod false (m.driveInterrupts.halfPeriod true)
  intro inputs h
  rw [Drive.inputs, List.mem_cons, List.mem_singleton] at h
  rcases h with rfl | rfl
  · rw [hhigh]
    exact ⟨InterruptController.latest_heed _ _, InterruptController.pending_heed _ _⟩
  · rw [hlow]
    exact ⟨InterruptController.latest_heed _ _, InterruptController.pending_heed _ _⟩

variable [Keyboard κ]

/-- A cycle outside of reset, with its events. -/
def recordCycle (m : Machine BenchCore κ) : List Event × Machine BenchCore κ :=
  match m.listen with
  | (.error _, m) => ([], m)
  | (.ok (), m) =>
    ((Keyboard.poll m.keyboard).1.events ++ [.driven m.pollKeyboard.drive],
      m.pollKeyboard.clockPeriod.finish.2)

/-- Forgetting the events gives the cycle. -/
theorem recordCycle_snd (m : Machine BenchCore κ) : m.recordCycle.2 = m.step.2 := by
  rw [recordCycle, step]
  rcases m.listen with ⟨(e | ⟨⟩), m'⟩
  · rfl
  · dsimp only
    rw [finish]
    split <;> rfl

/-- A poll is its events to the interrupts. -/
theorem interrupts_pollKeyboard (m : Machine BenchCore κ) :
    m.pollKeyboard.interrupts =
      (Keyboard.poll m.keyboard).1.events.foldl InterruptController.after m.interrupts := by
  obtain ⟨journal, h⟩ := m.pollKeyboard_eq
  rw [h, InterruptController.foldl_after_poll]

/-- What can happen to a machine. -/
inductive Operation (κ : Type) where
  /-- A cycle outside of reset. -/
  | cycle
  /-- A cycle of reset. -/
  | resetCycle
  /-- An interrupt is raised by hand. -/
  | raise (request : Interrupt)
  /-- The surroundings change: all but the interrupt controller becomes as in another machine. -/
  | arrange (other : Machine BenchCore κ)

/-- An operation on a machine, with its events. -/
def Operation.record : Operation κ → Machine BenchCore κ → List Event × Machine BenchCore κ
  | .cycle, m => m.recordCycle
  | .resetCycle, m => ([.driven m.drive], m.resetStep)
  | .raise request, m => ([.raised request], m.raise request)
  | .arrange other, m => ([], { other with interrupts := m.interrupts })

/-- **One operation.** What the core sees in it follows from the controller and the events before,
and the events lead to the controller that it leaves. -/
theorem Operation.record_explained (operation : Operation κ) (m : Machine BenchCore κ) :
    m.interrupts.Explains (operation.record m).1 ∧
      (operation.record m).2.interrupts =
        (operation.record m).1.foldl InterruptController.after m.interrupts := by
  cases operation with
  | cycle =>
      have hlisten := m.interrupts_listen
      rw [record, recordCycle]
      rcases h : m.listen with ⟨(e | ⟨⟩), m'⟩ <;> rw [h] at hlisten
      · exact ⟨trivial, hlisten⟩
      · have hpoll := m'.interrupts_pollKeyboard
        rw [hlisten] at hpoll
        dsimp only
        rw [InterruptController.explains_append, List.foldl_append, ← hpoll, interrupts_finish]
        exact ⟨⟨InterruptController.explains_poll _ _, shows_drive _, trivial⟩,
          interrupts_clockPeriod _⟩
  | resetCycle => exact ⟨⟨m.shows_drive, trivial⟩, m.interrupts_clockPeriod⟩
  | raise request => exact ⟨trivial, rfl⟩
  | arrange other => exact ⟨trivial, rfl⟩

/-! ### Histories -/

/-- Operations on a machine, one after the other, with their events. -/
def history : List (Operation κ) → Machine BenchCore κ → List Event × Machine BenchCore κ
  | [], m => ([], m)
  | operation :: operations, m =>
    let (events, m) := operation.record m
    let (later, m) := history operations m
    (events ++ later, m)

/-- **A whole history.** -/
theorem history_explained (operations : List (Operation κ)) (m : Machine BenchCore κ) :
    m.interrupts.Explains (history operations m).1 ∧
      (history operations m).2.interrupts =
        (history operations m).1.foldl InterruptController.after m.interrupts := by
  induction operations generalizing m with
  | nil => exact ⟨trivial, rfl⟩
  | cons operation operations ih =>
      obtain ⟨hfirst, hcontroller⟩ := operation.record_explained m
      obtain ⟨hlater, hend⟩ := ih (operation.record m).2
      rw [hcontroller] at hlater hend
      rw [history]
      dsimp only
      rw [InterruptController.explains_append, List.foldl_append]
      exact ⟨⟨hfirst, hlater⟩, hend⟩

/-! ### Runs and resets are histories -/

/-- Cycles that follow each other are a history. -/
theorem history_of_path {m m' : Machine BenchCore κ} {starts : List (Machine BenchCore κ)}
    (h : Path m starts m') :
    (history (List.replicate starts.length .cycle) m).2 = m' := by
  induction h with
  | nil m => rfl
  | cons _ ih =>
      rw [List.length_cons, List.replicate_succ, history]
      dsimp only
      rw [Operation.record, recordCycle_snd]
      exact ih

/-- A run that ends is a history of cycles. -/
theorem run_eq_history {fuel : Nat} {limit : Limit} {breakpoints : Breakpoints}
    {m : Machine BenchCore κ} {o : Outcome BenchCore κ}
    (h : m.run fuel limit breakpoints = some o) :
    ∃ n, o.machine = (history (List.replicate n .cycle) m).2 :=
  ⟨_, (history_of_path (course_path h)).symm⟩

/-- A reset is a history: the reset line goes up, a few cycles go by, and it goes down. -/
theorem reset_eq_history (m : Machine BenchCore κ) :
    ∃ held, m.reset = (history (.arrange held ::
      (List.replicate resetCycles .resetCycle ++ [.arrange m.reset])) m).2 :=
  ⟨{ m.note [.resetting] with inputs := { m.inputs with reset := true } }, rfl⟩

/-! ### The fate of a raise -/

/-- **A raise is shown to the core up to the first drive at which the core acknowledges.** Take a
raise in any history, and a drive after it with no later raise in between. The inputs of the drive
carry the request, whatever has happened; they say that a device waits if and only if the core has
not acknowledged, neither at this drive nor at one since the raise. -/
theorem raise_shown_iff {operations : List (Operation κ)} {m : Machine BenchCore κ}
    (before later : List Event) {request : Interrupt} (drives : List Drive) {d : Drive}
    (h : (history operations m).1 =
      before ++ .raised request :: (drives.map .driven ++ .driven d :: later)) :
    ∀ inputs ∈ d.inputs,
      inputs.request = request ∧
      (inputs.deviceReady = true ↔
        d.acknowledge = false ∧ ∀ d' ∈ drives, d'.acknowledge = false) := by
  obtain ⟨hexplained, -⟩ := history_explained operations m
  rw [h, InterruptController.explains_append] at hexplained
  obtain ⟨-, hraised⟩ := hexplained
  rw [InterruptController.Explains, InterruptController.explains_append] at hraised
  obtain ⟨-, hshows, -⟩ := hraised
  generalize before.foldl InterruptController.after m.interrupts = c at hshows
  obtain ⟨hlatest, hpending⟩ := (c.raise request).foldl_after_driven drives
  intro inputs hinputs
  obtain ⟨hrequest, hready⟩ := hshows inputs hinputs
  rw [hlatest] at hrequest
  rw [hpending] at hready
  refine ⟨hrequest, ?_⟩
  rw [hready]
  simp [InterruptController.raise, and_comm]

/-- A raise by hand that meets the acknowledge line low is shown to the bench core, which takes it;
its acknowledge ends this at the next drive. -/
theorem raise_shown_iff_bench :
    ∃ d₁ d₂ : Drive,
      (history [.raise { vector := 0x81 }, .cycle, .cycle] benchAtFetch).1 =
        [.raised { vector := 0x81 }, .driven d₁, .driven d₂] ∧
      d₁.high.deviceReady = true ∧ d₂.high.deviceReady = false := by
  obtain ⟨d₁, d₂, hlog, h₁, h₂⟩ : ∃ d₁ d₂ : Drive,
      (history [.raise { vector := 0x81 }, .cycle, .cycle] benchAtFetch).1 =
        [.raised { vector := 0x81 }, .driven d₁, .driven d₂] ∧
      d₁.acknowledge = false ∧ d₂.acknowledge = true :=
    ⟨_, _, rfl, rfl, rfl⟩
  have hfirst := raise_shown_iff [] [.driven d₂] [] hlog d₁.high (List.mem_cons_self ..)
  have hsecond := raise_shown_iff [] [] [d₁] hlog d₂.high (List.mem_cons_self ..)
  refine ⟨d₁, d₂, hlog, hfirst.2.2 ⟨h₁, List.forall_mem_nil _⟩, ?_⟩
  rw [Bool.eq_false_iff]
  intro hready
  rw [(hsecond.2.1 hready).1] at h₂
  cases h₂

/-- **A raise may be lost.** Two keys are pressed one cycle after the other. When the second one is
raised the core still acknowledges the first one, and the lines are driven for the second key with
no device waiting: not every raise is shown to the core by the first drive after it. -/
theorem raise_lost_to_earlier_acknowledge :
    ¬∀ (operations : List (Operation BenchKeyboard)) (m : Machine BenchCore BenchKeyboard)
      (before later : List Event) (request : Interrupt) (d : Drive),
      (history operations m).1 = before ++ .raised request :: .driven d :: later →
        ∀ inputs ∈ d.inputs, inputs.request = request ∧ inputs.deviceReady = true := by
  intro h
  let m : Machine BenchCore BenchKeyboard :=
    { benchAtFetch with keyboard := { keys := [.character 0x6b, .character 0x6c] } }
  obtain ⟨d₁, d₂, hlog, hready⟩ : ∃ d₁ d₂ : Drive,
      (history [.cycle, .cycle] m).1 =
        [.raised (.ofKey 0x6b), .driven d₁, .raised (.ofKey 0x6c), .driven d₂] ∧
      d₂.high.deviceReady = false :=
    ⟨_, _, rfl, rfl⟩
  have hshown := h [.cycle, .cycle] m [.raised (.ofKey 0x6b), .driven d₁] [] (.ofKey 0x6c) d₂ hlog
    d₂.high (List.mem_cons_self ..)
  rw [hready] at hshown
  cases hshown.2

end Machine

end ClockStep
