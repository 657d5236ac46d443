import ClockStep.Core.Bench
import ClockStep.Machine.Run

/-!
# What a Cycle Leaves

A cycle does one of two things (`step_cases`). Either the console refuses a received byte: then
receiver and console have changed and nothing else. Or the keyboard is asked, the interrupt lines
are driven and the core goes through a whole clock period. Everything that is said elsewhere about
the cycles of a run comes from this case distinction; the steps of a cycle are not opened again.

## Main results

* `exists_held`: what holds of a reset, by its cycles.
* `step_cases`: the two outcomes of a cycle, with the machine that each leaves; `eq_of_step_ok` and
  `eq_of_step_error` go from the outcome to the machine.
* `cycles_of_step_ok`, `cycles_of_step_error`: the cycle counter counts the completed cycles.
* `stepCycle_cases`: the same for a cycle of a run, which may also not be started.
-/

namespace ClockStep

/-- The interrupt controller after a poll: a character is raised, anything else is not. -/
def InterruptController.afterPoll (c : InterruptController) (poll : Poll) : InterruptController :=
  match poll.character? with
  | some character => c.raise (.ofKey character)
  | none => c

namespace Machine

variable {γ κ : Type}

/-! ### The parts of a cycle -/

/-- Asking the keyboard changes the keyboard, the interrupt controller, the operator's request to
stop and the journal; of the journal it only matters that it is written to. -/
theorem pollKeyboard_eq [Keyboard κ] (m : Machine γ κ) :
    ∃ journal, m.pollKeyboard =
      { m with
        interrupts := m.interrupts.afterPoll (Keyboard.poll m.keyboard).1
        keyboard := (Keyboard.poll m.keyboard).2
        cancelled := m.cancelled || (Keyboard.poll m.keyboard).1.cancels
        journal } := by
  rcases h : Keyboard.poll m.keyboard with ⟨⟨answer, cancels, notices⟩, keyboard⟩
  rcases answer with cause | _ | character <;>
    simp only [pollKeyboard, h, InterruptController.afterPoll, Poll.character?] <;>
    exact ⟨_, rfl⟩

/-- A poll of the keyboard does not count. -/
@[simp] theorem cycles_pollKeyboard [Keyboard κ] (m : Machine γ κ) :
    m.pollKeyboard.cycles = m.cycles := by
  obtain ⟨journal, h⟩ := m.pollKeyboard_eq
  rw [h]

variable [Core γ]

/-- Listening changes the receiver and the console at most. -/
theorem listen_snd (m : Machine γ κ) :
    ∃ receiver console, m.listen.2 = { m with receiver, console } := by
  rw [listen]
  split
  · exact ⟨_, _, rfl⟩
  · split <;> exact ⟨_, _, rfl⟩

/-- A tick of the receiver leaves the interrupts. -/
theorem interrupts_listen (m : Machine γ κ) : m.listen.2.interrupts = m.interrupts := by
  obtain ⟨receiver, console, h⟩ := m.listen_snd
  rw [h]

/-- A clock period counts one cycle. -/
@[simp] theorem cycles_clockPeriod (m : Machine γ κ) : m.clockPeriod.cycles = m.cycles + 1 :=
  rfl

/-- Cycles of reset that follow each other may be counted from either end. -/
theorem repeat_resetStep (n : Nat) (m : Machine γ κ) :
    Nat.repeat resetStep n m.resetStep = Nat.repeat resetStep (n + 1) m := by
  induction n with
  | zero => rfl
  | succ n ih => exact congrArg resetStep ih

/-- What the raised reset line establishes and each cycle of reset keeps holds when the line is put
down again. -/
theorem exists_held {P : Machine γ κ → Prop} {m : Machine γ κ}
    (hstart : P { m.note [.resetting] with inputs := { m.inputs with reset := true } })
    (hstep : ∀ m : Machine γ κ, P m → P m.resetStep) :
    ∃ held : Machine γ κ, P held ∧
      m.reset = { held with inputs := { held.inputs with reset := false } } := by
  have hrepeat : ∀ (n : Nat) (m : Machine γ κ), P m → P (Nat.repeat resetStep n m) := by
    intro n m hm
    induction n with
    | zero => exact hm
    | succ n ih => exact hstep _ ih
  exact ⟨_, hrepeat resetCycles _ hstart, rfl⟩

/-! ### The outcomes of a cycle -/

/-- How a cycle ends that was not broken off: with a notice if the core halted. -/
def finish (m : Machine γ κ) : Status × Machine γ κ :=
  if m.lines.halt then
    (if m.settings.haltOnStop then .exit else .halted, m.note [.halted m.cycles])
  else (.running, m)

/-- The end of a cycle does not count. -/
theorem cycles_finish (m : Machine γ κ) : m.finish.2.cycles = m.cycles := by
  rw [finish]
  split <;> rfl

/-- The end of a cycle leaves the interrupts. -/
theorem interrupts_finish (m : Machine γ κ) : m.finish.2.interrupts = m.interrupts := by
  rw [finish]
  split <;> rfl

variable [Keyboard κ]

/-- A cycle is broken off by the console, which leaves all but the receiver and the console as they
were; or it is completed by a poll of the keyboard and a clock period. -/
theorem step_cases (m : Machine γ κ) :
    ∃ receiver console,
      (∃ e, m.step = (.error e, { m with receiver, console })) ∨
      m.step = (.ok ({ m with receiver, console }.pollKeyboard.clockPeriod.finish).1,
        ({ m with receiver, console }.pollKeyboard.clockPeriod.finish).2) := by
  obtain ⟨receiver, console, h⟩ := m.listen_snd
  refine ⟨receiver, console, ?_⟩
  rw [step]
  rcases hl : m.listen with ⟨(e | ⟨⟩), m'⟩
  · rw [hl] at h
    obtain rfl : m' = _ := h
    exact Or.inl ⟨e, rfl⟩
  · rw [hl] at h
    obtain rfl : m' = _ := h
    right
    rw [finish]
    dsimp only
    split <;> rfl

/-- What a completed cycle leaves. -/
theorem eq_of_step_ok {m m' : Machine γ κ} {s : Status} (h : m.step = (.ok s, m')) :
    ∃ receiver console, { m with receiver, console }.pollKeyboard.clockPeriod.finish = (s, m') := by
  obtain ⟨receiver, console, ⟨e, he⟩ | hs⟩ := m.step_cases
  · rw [he] at h
    cases h
  · rw [hs] at h
    obtain ⟨hstatus, hleft⟩ := Prod.mk.inj h
    exact ⟨receiver, console, Prod.ext (Except.ok.inj hstatus) hleft⟩

/-- What a cycle leaves that is broken off. -/
theorem eq_of_step_error {m m' : Machine γ κ} {e : MachineError} (h : m.step = (.error e, m')) :
    ∃ receiver console, m' = { m with receiver, console } := by
  obtain ⟨receiver, console, ⟨e', he⟩ | hs⟩ := m.step_cases
  · rw [he] at h
    exact ⟨receiver, console, (Prod.mk.inj h).2.symm⟩
  · rw [hs] at h
    cases h

/-- A completed cycle counts. -/
theorem cycles_of_step_ok {m m' : Machine γ κ} {s : Status} (h : m.step = (.ok s, m')) :
    m'.cycles = m.cycles + 1 := by
  obtain ⟨receiver, console, hfinish⟩ := eq_of_step_ok h
  have hcycles := cycles_finish { m with receiver, console }.pollKeyboard.clockPeriod
  rwa [hfinish, cycles_clockPeriod, cycles_pollKeyboard] at hcycles

/-- A cycle that is broken off does not count. -/
theorem cycles_of_step_error {m m' : Machine γ κ} {e : MachineError}
    (h : m.step = (.error e, m')) : m'.cycles = m.cycles := by
  obtain ⟨receiver, console, rfl⟩ := eq_of_step_error h
  rfl

/-! ### A cycle of a run -/

/-- After a request to stop, a stride of one cycle is interrupted before it. -/
theorem stepCycle_of_cancelled {m : Machine γ κ} (h : m.cancelled = true) :
    m.stepCycle = (.ok (some .interrupted), m) := by
  rw [stepCycle, if_pos h]

/-- Without one, a stride of one cycle is that cycle. -/
theorem stepCycle_of_not_cancelled {m : Machine γ κ} (h : m.cancelled = false) :
    m.stepCycle = (m.step.1.map Status.stopReason, m.step.2) := by
  rw [stepCycle, if_neg (by simp [h])]
  rcases m.step with ⟨(e | s), m'⟩ <;> rfl

/-- A cycle of a run is not started, or is broken off, or is completed and counts. -/
theorem stepCycle_cases (m : Machine γ κ) :
    m.stepCycle = (.ok (some .interrupted), m) ∨
    (∃ e m', m.stepCycle = (.error e, m') ∧ m'.cycles = m.cycles) ∨
    ∃ status m', m.stepCycle = (.ok (Status.stopReason status), m') ∧
      m'.cycles = m.cycles + 1 := by
  rcases hc : m.cancelled with _ | _
  · rw [stepCycle_of_not_cancelled hc]
    rcases hs : m.step with ⟨(e | status), m'⟩
    · exact Or.inr (Or.inl ⟨e, m', rfl, cycles_of_step_error hs⟩)
    · exact Or.inr (Or.inr ⟨status, m', rfl, cycles_of_step_ok hs⟩)
  · exact Or.inl (stepCycle_of_cancelled hc)

/-! ### The bench core -/

omit [Keyboard κ] in
/-- A clock period does to the bench core what its evaluation with the clock high does: the one with
the clock low, and the recording, leave their traces and nothing else. -/
theorem core_clockPeriod_eq (m : Machine BenchCore κ) :
    ∃ seen recorded, m.clockPeriod.core =
      { (m.core.evaluate { m.driveInterrupts.inputs with clock := true } m.memory).1 with
        seen, recorded } := by
  rw [clockPeriod, halfPeriod, halfPeriod]
  dsimp only
  split <;> exact ⟨_, _, rfl⟩

/-- A bench machine that is about to fetch from address zero of an empty memory. -/
def benchAtFetch : Machine BenchCore BenchKeyboard where
  core := { lines := { microPc := fetchState } }
  memory := { cells := Vector.replicate memorySize 0, entry := 0 }
  keyboard := {}

end Machine

end ClockStep
