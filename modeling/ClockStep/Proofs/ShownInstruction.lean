import ClockStep.Proofs.BenchCycle
import ClockStep.Proofs.Halts

/-!
# The Instruction that is Shown

Before the instruction register holds the instruction in progress, a machine shows the word that the
program counter points to. But the program counter moves on with the first cycle of the instruction,
when the word is fetched: in the three micro-states that follow the machine shows the word behind
the instruction, in the last of them although the instruction register holds the right one by then.
It names the instruction in progress at the fetch and when it is about to execute it.

`Phase` says how far an instruction has come, one constructor for each micro-state of the walk, and
what the program counter, the data register and the instruction register hold there. A step of the
micro-sequencer goes from one phase to the next one (`Phase.advance`), so does a cycle
(`Underway.cycle`), and what is shown is read off the phase (`Phase.shown`).

## Convention

Time is counted in completed cycles. A cycle that the console breaks off is not one of them, and
leaves what is shown as it is.

## Main results

* `Underway.path`: in which phase an instruction is, so many cycles after its fetch.
* `shown_word`: which word is shown in each phase, and when it is that of the instruction.
* `next_word_shown`: a machine that shows the next word.
-/

namespace ClockStep

/-! ### The phases of an instruction -/

/-- `Phase pc word k lines`: `k` cycles ago the instruction at `pc` was about to be fetched, which
is `word`. -/
inductive Phase (pc word : Word) : Nat → OutputLines → Prop
  | fetch {lines : OutputLines} (state : lines.microPc = 18) (counter : lines.pc = pc) :
      Phase pc word 0 lines
  | fetched {lines : OutputLines} (state : lines.microPc = 33) (counter : lines.pc = pc + 1)
      (data : lines.mdr = word) : Phase pc word 1 lines
  | moved {lines : OutputLines} (state : lines.microPc = 28) (counter : lines.pc = pc + 1)
      (data : lines.mdr = word) : Phase pc word 2 lines
  | latched {lines : OutputLines} (state : lines.microPc = 30) (counter : lines.pc = pc + 1)
      (register : lines.ir = word) : Phase pc word 3 lines
  | decoded {lines : OutputLines} (state : lines.microPc = 32) (counter : lines.pc = pc + 1)
      (register : lines.ir = word) : Phase pc word 4 lines

namespace Phase

variable {pc word : Word} {k : Nat} {lines : OutputLines}

/-- Neither the acknowledge line nor the serial line has to do with it. -/
theorem answered (h : Phase pc word k lines) (acknowledge transmit : Bool) :
    Phase pc word k { lines with acknowledge, transmit } := by
  cases h with
  | fetch state counter => exact .fetch state counter
  | fetched state counter data => exact .fetched state counter data
  | moved state counter data => exact .moved state counter data
  | latched state counter register => exact .latched state counter register
  | decoded state counter register => exact .decoded state counter register

/-- Until it is executed, an instruction leaves memory alone and goes on to its next phase. -/
theorem advance (h : Phase pc word k lines) (hk : k < 4) (execute : Execute) {memory : Memory}
    (hword : memory.get pc = word) :
    Phase pc word (k + 1) (ClockStep.advance id execute lines memory).1 ∧
      (ClockStep.advance id execute lines memory).2 = memory ∧
      (ClockStep.advance id execute lines memory).1.halt = lines.halt := by
  cases h with
  | fetch state counter =>
      rw [ClockStep.advance, if_pos state]
      refine ⟨.fetched rfl ?_ ?_, rfl, rfl⟩
      · exact congrArg (· + 1) counter
      · rw [← hword, ← counter]
        rfl
  | fetched state counter data =>
      rw [ClockStep.advance, if_neg (by simp [state]), if_pos state]
      exact ⟨.moved rfl counter data, rfl, rfl⟩
  | moved state counter data =>
      rw [ClockStep.advance, if_neg (by simp [state]), if_neg (by simp [state]), if_pos state]
      exact ⟨.latched rfl counter data, rfl, rfl⟩
  | latched state counter register =>
      rw [ClockStep.advance, if_neg (by simp [state]), if_neg (by simp [state]),
        if_neg (by simp [state]), if_pos state]
      exact ⟨.decoded rfl counter register, rfl, rfl⟩
  | decoded => exact absurd hk (Nat.lt_irrefl 4)

/-- What is shown in a phase. -/
theorem shown {memory : Memory} (h : Phase pc word k lines) (hword : memory.get pc = word) :
    [18, 33, 28, 30, 32][k]? = some lines.microPc ∧
    lines.instructionWord memory =
      memory.get (if lines.microPc = 18 ∨ lines.microPc = 32 then pc else pc + 1) := by
  rw [OutputLines.instructionWord]
  cases h with
  | fetch state counter => simp [state, counter, preDecodeStates]
  | fetched state counter data => simp [state, counter, preDecodeStates]
  | moved state counter data => simp [state, counter, preDecodeStates]
  | latched state counter register => simp [state, counter, preDecodeStates]
  | decoded state counter register => simp [state, register, preDecodeStates, hword]

end Phase

namespace BenchCore

/-- None of the changes laid out for a core hits it at the next so many rising edges. -/
def QuietFor (edges : Nat) (c : BenchCore) : Prop :=
  ∀ event ∈ c.events, ¬(c.edges < event.edge ∧ event.edge ≤ c.edges + edges)

/-- Where nothing is laid out for this edge, nothing is struck. -/
theorem strike_eq_self {c : BenchCore} (h : ∀ event ∈ c.events, event.edge ≠ c.edges) :
    c.strike = c := by
  have hdue : c.events.filter (fun event => event.edge == c.edges) = [] := by
    rw [List.filter_eq_nil_iff]
    intro event hevent
    simpa using h event hevent
  rw [strike, hdue]
  rfl

end BenchCore

namespace Machine

variable {κ : Type}

/-! ### Cycle by cycle -/

/-- A machine that was at a fetch, `m₀`, is still in the same instruction so many cycles later. -/
structure Underway (m₀ m : Machine BenchCore κ) (k : Nat) : Prop where
  cycles : m.cycles = m₀.cycles + k
  memory : m.memory = m₀.memory
  running : m.lines.halt = false
  reset : m.inputs.reset = false
  quiet : m.core.QuietFor (4 - k)
  phase : Phase m₀.lines.pc (m₀.memory.get m₀.lines.pc) k m.lines

/-- At a fetch, an instruction is under way for no cycle yet. -/
theorem underway_self {m : Machine BenchCore κ} (hfetch : m.atFetch = true)
    (hrunning : m.lines.halt = false) (hreset : m.inputs.reset = false)
    (hquiet : m.core.QuietFor 4) : m.Underway m 0 where
  cycles := rfl
  memory := rfl
  running := hrunning
  reset := hreset
  quiet := hquiet
  phase := .fetch (atFetch_iff.1 hfetch) rfl

/-- No change hits the core at the next edge, and one edge less is left to be quiet. -/
theorem Struck.quiet {m m' : Machine BenchCore κ} {before after : OutputLines} {edges : Nat}
    (h : m.Struck m' before after) (hquiet : m.core.QuietFor (edges + 1)) :
    m'.lines = after ∧ m'.core.QuietFor edges := by
  constructor
  · rw [h.lines, BenchCore.strike_eq_self]
    intro event hevent hedge
    dsimp only at hevent hedge
    rw [h.events] at hevent
    rw [h.edges] at hedge
    exact hquiet event hevent (by omega)
  · intro event hevent hdue
    rw [h.events] at hevent
    rw [h.edges] at hdue
    exact hquiet event hevent (by omega)

variable [Keyboard κ]

/-- **A completed cycle goes on to the next phase.** -/
theorem Underway.cycle {m₀ m m' : Machine BenchCore κ} {k : Nat} {status : Status}
    (h : m₀.Underway m k) (hk : k < 4) (hs : m.step = (.ok status, m')) :
    m₀.Underway m' (k + 1) := by
  obtain ⟨before, after, hstruck⟩ := exists_struck hs
  obtain ⟨hlines, hquiet⟩ := hstruck.quiet (show m.core.QuietFor ((4 - (k + 1)) + 1) by
    rw [show 4 - (k + 1) + 1 = 4 - k by omega]
    exact h.quiet)
  obtain ⟨acknowledge, transmit, rfl⟩ := hstruck.before_eq
  have hword : m.memory.get m₀.lines.pc = m₀.memory.get m₀.lines.pc := by rw [h.memory]
  obtain ⟨hphase, hmemory, hhalt⟩ := (h.phase.answered acknowledge transmit).advance hk
    (BenchCore.execute m.core.store) hword
  rw [hstruck.advances h.reset h.running] at hphase hmemory hhalt
  exact {
    cycles := by rw [cycles_of_step_ok hs, h.cycles, Nat.add_assoc]
    memory := hmemory.trans h.memory
    running := by rw [hlines]; exact hhalt.trans h.running
    reset := hstruck.reset.trans h.reset
    quiet := hquiet
    phase := hlines ▸ hphase }

/-- A cycle that is broken off changes nothing here. -/
theorem Underway.broken {m₀ m m' : Machine BenchCore κ} {k : Nat} {e : MachineError}
    (h : m₀.Underway m k) (hs : m.step = (.error e, m')) : m₀.Underway m' k := by
  obtain ⟨receiver, console, rfl⟩ := eq_of_step_error hs
  exact ⟨h.cycles, h.memory, h.running, h.reset, h.quiet, h.phase⟩

/-- So far as four cycles reach, the instruction is in the phase that the cycles tell. -/
theorem Underway.path {m₀ m m' : Machine BenchCore κ} {starts : List (Machine BenchCore κ)}
    {k : Nat} (h : m₀.Underway m k) (hpath : Path m starts m')
    (hcycles : m'.cycles ≤ m₀.cycles + 4) : ∃ k', m₀.Underway m' k' := by
  induction hpath generalizing k with
  | nil m => exact ⟨k, h⟩
  | @cons m m' starts hlater ih =>
      rcases hs : m.step with ⟨e | status, m₁⟩ <;> rw [hs] at hlater ih
      · exact ih (h.broken hs) hcycles
      · have hlt : k < 4 := by
          have hle : m₁.cycles ≤ m'.cycles := by
            rw [hlater.cycles]
            exact Nat.le_add_right _ _
          have hnext := cycles_of_step_ok hs
          have hcount := h.cycles
          omega
        exact ih (h.cycle hlt hs) hcycles

/-! ### What is shown -/

/-- **Which word is shown, in the course of an instruction.** The micro-state is that of the walk,
and the word is that of the instruction before it is fetched and once it is decoded. In the three
cycles between it is the word behind the instruction, so the instruction is named only if the two
words are the same. -/
theorem shown_word {m m' : Machine BenchCore κ} {starts : List (Machine BenchCore κ)}
    (hpath : Path m starts m') (hcycles : m'.cycles ≤ m.cycles + 4) (hfetch : m.atFetch = true)
    (hrunning : m.lines.halt = false) (hreset : m.inputs.reset = false)
    (hquiet : m.core.QuietFor 4) :
    [18, 33, 28, 30, 32][m'.cycles - m.cycles]? = some m'.lines.microPc ∧
    m'.instructionWord = m.memory.get
      (if m'.lines.microPc = 18 ∨ m'.lines.microPc = 32 then m.lines.pc else m.lines.pc + 1) ∧
    (m'.instructionWord = m.memory.get m.lines.pc ↔
      m'.lines.microPc = 18 ∨ m'.lines.microPc = 32 ∨
        m.memory.get (m.lines.pc + 1) = m.memory.get m.lines.pc) := by
  obtain ⟨k, h⟩ := (underway_self hfetch hrunning hreset hquiet).path hpath hcycles
  obtain ⟨hstate, hshown⟩ := h.phase.shown rfl
  have hword : m'.instructionWord = m.memory.get
      (if m'.lines.microPc = 18 ∨ m'.lines.microPc = 32 then m.lines.pc else m.lines.pc + 1) := by
    rw [instructionWord, h.memory]
    exact hshown
  refine ⟨?_, hword, ?_⟩
  · rw [h.cycles, Nat.add_sub_cancel_left]
    exact hstate
  · rw [hword]
    by_cases hnamed : m'.lines.microPc = 18 ∨ m'.lines.microPc = 32
    · rw [if_pos hnamed]
      exact iff_of_true rfl (hnamed.imp_right Or.inl)
    · rw [if_neg hnamed]
      refine ⟨fun hsame => .inr (.inr hsame), ?_⟩
      rintro (hfetch' | hdecoded | hsame)
      · exact absurd (.inl hfetch') hnamed
      · exact absurd (.inr hdecoded) hnamed
      · exact hsame

/-- A bench machine that is about to fetch one word, with another word behind it. -/
def benchTwoWords : Machine BenchCore BenchKeyboard where
  core := { lines := { microPc := fetchState } }
  memory := { cells := (Vector.replicate memorySize 0).set 0 0x1021, entry := 0 }
  keyboard := {}

/-- Three cycles later the instruction register holds the word already, and the word behind it is
shown. -/
theorem shown_word_bench :
    ∃ m' starts, Path benchTwoWords starts m' ∧ m'.cycles ≤ benchTwoWords.cycles + 4 ∧
      benchTwoWords.atFetch = true ∧ benchTwoWords.lines.halt = false ∧
      benchTwoWords.inputs.reset = false ∧ benchTwoWords.core.QuietFor 4 ∧
      m'.lines.microPc = 30 ∧ m'.lines.ir = 0x1021 ∧ m'.instructionWord = 0 := by
  have hpath : Path benchTwoWords _ benchTwoWords.step.2.step.2.step.2 :=
    .cons (.cons (.cons (.nil _)))
  have hquiet : benchTwoWords.core.QuietFor 4 := fun event hevent => by cases hevent
  obtain ⟨-, hword, -⟩ := shown_word hpath (by decide) rfl rfl rfl hquiet
  exact ⟨_, _, hpath, by decide, rfl, rfl, rfl, hquiet, rfl, rfl, hword⟩

/-- **The instruction in progress is not the one that is shown in each of its micro-states.** -/
theorem next_word_shown :
    ¬∀ (m m' : Machine BenchCore BenchKeyboard) (starts : List (Machine BenchCore BenchKeyboard)),
      Path m starts m' → m'.cycles ≤ m.cycles + 4 → m.atFetch = true → m.lines.halt = false →
      m.inputs.reset = false → m.core.QuietFor 4 →
      m'.instructionWord = m.memory.get m.lines.pc := by
  intro h
  have hquiet : benchTwoWords.core.QuietFor 4 := fun event hevent => by cases hevent
  have hsame := h benchTwoWords _ _ (.cons (.nil _)) (by decide) rfl rfl rfl hquiet
  exact absurd hsame (by decide)

end Machine

end ClockStep
