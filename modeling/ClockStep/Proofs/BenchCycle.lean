import ClockStep.Proofs.Cycle

/-!
# A Cycle of the Bench Machine

`step_cases` says what a cycle does to any machine; this module goes on where it stops, at the
evaluation of the core, for the bench core. A completed cycle is one rising edge: outside of reset
the acknowledge line and the serial line are set, and unless the core is halted the micro-sequencer
does one step (`BenchCore.sequence`); then the changes laid out for the edge hit the lines. What the
acknowledge line and the serial line are set to is left open here, since nothing that the
micro-sequencer does depends on them.

## Main results

* `exists_struck`: a completed cycle is one step of the micro-sequencer.
* `Struck.restarts`, `Struck.rests`, `Struck.advances`: which step it is.
-/

namespace ClockStep

namespace BenchCore

/-- The lines and the memory that a rising edge leaves of those given, before the changes laid out
for it hit the lines. -/
def sequence (store : Option (Word × Word)) (inputs : InputLines) (lines : OutputLines)
    (memory : Memory) : OutputLines × Memory :=
  if inputs.reset then (lines.restart inputs.resetVector, memory)
  else if lines.halt then (lines, memory)
  else advance id (execute store) lines memory

/-- At a rising edge, the sequencer sees the lines as they are but for the acknowledgement and the
serial line. -/
theorem risingEdge_eq_sequence (inputs : InputLines) (c : BenchCore) (memory : Memory) :
    ∃ acknowledge transmit serial taken, c.risingEdge inputs memory =
      ({ c with
          lines := (sequence c.store inputs { c.lines with acknowledge, transmit } memory).1
          serial, taken },
        (sequence c.store inputs { c.lines with acknowledge, transmit } memory).2) := by
  rw [risingEdge]
  by_cases hreset : inputs.reset = true
  · refine ⟨c.lines.acknowledge, c.lines.transmit, c.serial, c.taken, ?_⟩
    rw [if_pos hreset, sequence, if_pos hreset]
  · obtain ⟨acknowledge, hanswer⟩ :
        ∃ acknowledge, c.lines.answer inputs = { c.lines with acknowledge } := by
      rw [OutputLines.answer]
      split
      · exact ⟨_, rfl⟩
      · split <;> exact ⟨_, rfl⟩
    refine ⟨acknowledge, (Uart.nextLevel c.serial).1, (Uart.nextLevel c.serial).2,
      if c.lines.takesInterrupt inputs then c.taken.push inputs.data else c.taken, ?_⟩
    rw [if_neg hreset, sequence, if_neg hreset, hanswer]

/-- So it does when the core is evaluated with the clock high; what is laid out is struck behind
it. -/
theorem evaluate_eq_sequence {inputs : InputLines} (hclock : inputs.clock = true) (c : BenchCore)
    (memory : Memory) :
    ∃ acknowledge transmit serial taken, c.evaluate inputs memory =
      (strike { c with
          lines := (sequence c.store inputs { c.lines with acknowledge, transmit } memory).1
          seen := inputs, edges := c.edges + 1, serial, taken },
        (sequence c.store inputs { c.lines with acknowledge, transmit } memory).2) := by
  obtain ⟨acknowledge, transmit, serial, taken, hedge⟩ :=
    risingEdge_eq_sequence inputs { c with seen := inputs, edges := c.edges + 1 } memory
  refine ⟨acknowledge, transmit, serial, taken, ?_⟩
  rw [evaluate, if_pos hclock]
  exact congrArg (fun result : BenchCore × Memory => (result.1.strike, result.2)) hedge

end BenchCore

namespace Machine

variable {κ : Type}

/-- `Struck m m' before after`: a completed cycle leads from `m` to `m'`. The micro-sequencer makes
`after` of the lines `before`, and the changes laid out for the edge hit `after`. -/
structure Struck (m m' : Machine BenchCore κ) (before after : OutputLines) : Prop where
  /-- The acknowledge line and the serial line are set first. -/
  before_eq : ∃ acknowledge transmit, before = { m.lines with acknowledge, transmit }
  sequence : ∃ inputs : InputLines, inputs.reset = m.inputs.reset ∧
    BenchCore.sequence m.core.store inputs before m.memory = (after, m'.memory)
  lines : m'.lines = { m'.core with lines := after }.strike.lines
  events : m'.core.events = m.core.events
  edges : m'.core.edges = m.core.edges + 1
  store : m'.core.store = m.core.store
  reset : m'.inputs.reset = m.inputs.reset

/-- Of the two halves of a clock period, only the first reaches memory. -/
theorem memory_clockPeriod_eq (m : Machine BenchCore κ) :
    m.clockPeriod.memory =
      (m.core.evaluate { m.driveInterrupts.inputs with clock := true } m.memory).2 :=
  rfl

/-- A clock period is the sequencer's step between two strikes. -/
theorem struck_clockPeriod (m : Machine BenchCore κ) :
    ∃ before after, m.Struck m.clockPeriod before after := by
  obtain ⟨acknowledge, transmit, serial, taken, hedge⟩ :=
    m.core.evaluate_eq_sequence
      (rfl : ({ m.driveInterrupts.inputs with clock := true } : InputLines).clock = true) m.memory
  obtain ⟨seen, recorded, hcore⟩ := m.core_clockPeriod_eq
  have hmemory := m.memory_clockPeriod_eq
  rw [hedge] at hcore hmemory
  refine ⟨{ m.lines with acknowledge, transmit }, _, ⟨acknowledge, transmit, rfl⟩,
    ⟨{ m.driveInterrupts.inputs with clock := true }, rfl, Prod.ext rfl hmemory.symm⟩,
    ?_, ?_, ?_, ?_, rfl⟩
  · rw [lines, hcore]
    rfl
  all_goals
    rw [hcore]
    rfl

namespace Struck

variable {m m' : Machine BenchCore κ} {before after : OutputLines}

/-- In reset the micro-sequencer goes to the fetch. -/
theorem restarts (h : m.Struck m' before after) (hreset : m.inputs.reset = true) :
    after.microPc = fetchState := by
  obtain ⟨inputs, hinputs, hsequence⟩ := h.sequence
  rw [BenchCore.sequence, hinputs, if_pos hreset] at hsequence
  obtain ⟨rfl, -⟩ := Prod.mk.inj hsequence
  rfl

/-- A halted core stays as it is. -/
theorem rests (h : m.Struck m' before after) (hreset : m.inputs.reset = false)
    (hhalt : m.lines.halt = true) : after = before := by
  obtain ⟨acknowledge, transmit, rfl⟩ := h.before_eq
  obtain ⟨inputs, hinputs, hsequence⟩ := h.sequence
  rw [BenchCore.sequence, hinputs, if_neg (by simp [hreset]), if_pos hhalt] at hsequence
  exact (Prod.mk.inj hsequence).1.symm

/-- Otherwise the micro-sequencer does a step. -/
theorem advances (h : m.Struck m' before after) (hreset : m.inputs.reset = false)
    (hhalt : m.lines.halt = false) :
    advance id (BenchCore.execute m.core.store) before m.memory = (after, m'.memory) := by
  obtain ⟨acknowledge, transmit, rfl⟩ := h.before_eq
  obtain ⟨inputs, hinputs, hsequence⟩ := h.sequence
  rwa [BenchCore.sequence, hinputs, if_neg (by simp [hreset]), if_neg (by simp [hhalt])]
    at hsequence

end Struck

variable [Keyboard κ]

/-- **A completed cycle is one step of the micro-sequencer.** -/
theorem exists_struck {m m' : Machine BenchCore κ} {status : Status}
    (h : m.step = (.ok status, m')) : ∃ before after, m.Struck m' before after := by
  obtain ⟨receiver, console, hfinish⟩ := eq_of_step_ok h
  obtain ⟨journal, hpoll⟩ := { m with receiver, console }.pollKeyboard_eq
  obtain ⟨before, after, hstruck⟩ := { m with receiver, console }.pollKeyboard.struck_clockPeriod
  refine ⟨before, after, ?_⟩
  rw [hpoll] at hstruck hfinish
  -- what is left of the cycle notes a halt, and nothing more
  rw [finish] at hfinish
  split at hfinish <;> obtain ⟨-, rfl⟩ := Prod.mk.inj hfinish <;>
    exact ⟨hstruck.before_eq, hstruck.sequence, hstruck.lines, hstruck.events, hstruck.edges,
      hstruck.store, hstruck.reset⟩

end Machine

end ClockStep
