import ClockStep.Core.Lines
import ClockStep.Keyboard.Piped
import ClockStep.Uart.Receiver

/-!
# The bench core

A core for trying the machine out: the levels of its serial line, the store that it executes for
opcode 7 and sudden changes of its output lines are all laid out beforehand, and it remembers what
happened to it. `BenchKeyboard` is the keyboard that goes with it.

## Main results

* `strike_keeps`, `advance_lines`, `advance_pc`: what a rising edge leaves of the lines.
-/

namespace ClockStep

/-- Changes that hit the output lines at a rising edge, counted from one. -/
structure BenchEvent where
  /-- The rising edge. -/
  edge : Nat
  /-- The changes, in order. -/
  changes : List LineChange
deriving Repr, DecidableEq

/-- The state of a bench core. -/
structure BenchCore where
  lines : OutputLines := {}
  /-- The levels that are still to appear on the serial line, as runs. -/
  serial : List (Bool × Nat) := []
  /-- The changes laid out for later. -/
  events : List BenchEvent := []
  /-- The address and the word that opcode 7 stores. -/
  store : Option (Word × Word) := none
  /-- The rising edges so far. -/
  edges : Nat := 0
  /-- The inputs at the last evaluation. -/
  seen : InputLines := {}
  /-- The data of the interrupts taken. -/
  taken : Array Word := #[]
  /-- The times that were recorded. -/
  recorded : Array Nat := #[]
deriving Repr

namespace BenchCore

/-- Opcode 7 stores the word laid out for it; the others do nothing. -/
def execute (store : Option (Word × Word)) : Execute := fun lines memory =>
  match store with
  | some (address, value) =>
    if lines.ir.field 12 4 = 7#4 then
      (lines, (memory.access { enable := true, write := true, address, dataIn := value }).2)
    else (lines, memory)
  | none => (lines, memory)

/-- A rising edge without the events laid out for it. -/
def risingEdge (inputs : InputLines) (c : BenchCore) (memory : Memory) : BenchCore × Memory :=
  if inputs.reset then ({ c with lines := c.lines.restart inputs.resetVector }, memory)
  else
    let taken := if c.lines.takesInterrupt inputs then c.taken.push inputs.data else c.taken
    let (level, serial) := Uart.nextLevel c.serial
    let lines := { c.lines.answer inputs with transmit := level }
    let (lines, memory) :=
      if lines.halt then (lines, memory) else advance id (execute c.store) lines memory
    ({ c with lines, serial, taken }, memory)

/-- The changes laid out for the present edge. -/
def strike (c : BenchCore) : BenchCore :=
  let due := c.events.filter fun event => event.edge == c.edges
  { c with lines := due.foldl (fun lines event => lines.changeAll event.changes) c.lines }

/-- Settles the core; only a high clock changes its lines. -/
def evaluate (inputs : InputLines) (c : BenchCore) (memory : Memory) : BenchCore × Memory :=
  if inputs.clock then
    let c := { c with seen := inputs, edges := c.edges + 1 }
    let (c, memory) := c.risingEdge inputs memory
    (c.strike, memory)
  else ({ c with seen := inputs }, memory)

instance : Core BenchCore where
  lines := BenchCore.lines
  evaluate := evaluate
  record time c := { c with recorded := c.recorded.push time }

/-! ### What a rising edge keeps of the lines -/

/-- What none of the changes laid out touches is as it was before the present ones hit. -/
theorem strike_keeps {α : Type} (f : OutputLines → α) {c : BenchCore}
    (h : ∀ event ∈ c.events, ∀ change ∈ event.changes, ∀ lines : OutputLines,
      f (lines.change change) = f lines) :
    f c.strike.lines = f c.lines := by
  have hdue : ∀ (due : List BenchEvent) (lines : OutputLines), (∀ event ∈ due, event ∈ c.events) →
      f (due.foldl (fun lines event => lines.changeAll event.changes) lines) = f lines := by
    intro due
    induction due with
    | nil => exact fun lines _ => rfl
    | cons event due ih =>
        intro lines hmem
        rw [List.foldl_cons, ih _ fun e he => hmem e (List.mem_cons_of_mem _ he)]
        exact lines.changeAll_keeps f (h event (hmem event (List.mem_cons_self ..)))
  exact hdue _ _ fun event hevent => (List.mem_filter.1 hevent).1

/-- Executing an instruction that does not halt leaves the lines alone. -/
theorem execute_fst (store : Option (Word × Word)) (lines : OutputLines) (memory : Memory) :
    (execute store lines memory).1 = lines := by
  unfold execute
  split
  · split <;> rfl
  · rfl

/-- The lines that an instruction may change: the serial line and the acknowledge line are not among
them. -/
theorem advance_lines (store : Option (Word × Word)) (lines : OutputLines) (memory : Memory) :
    ∃ pc ir microPc halt mar mdr, (advance id (execute store) lines memory).1 =
      { lines with pc, ir, microPc, halt, mar, mdr } := by
  unfold advance
  split
  · exact ⟨_, _, _, _, _, _, rfl⟩
  split
  · exact ⟨_, _, _, _, _, _, rfl⟩
  split
  · exact ⟨_, _, _, _, _, _, rfl⟩
  split
  · exact ⟨_, _, _, _, _, _, rfl⟩
  by_cases hhalt : lines.holdsHalt = true
  · rw [if_pos hhalt]
    exact ⟨_, _, _, _, _, _, rfl⟩
  · rw [if_neg hhalt]
    dsimp only
    rw [execute_fst]
    exact ⟨_, _, _, _, _, _, rfl⟩

/-- The program counter moves on when a word is fetched. -/
theorem advance_pc (store : Option (Word × Word)) (lines : OutputLines) (memory : Memory) :
    (advance id (execute store) lines memory).1.pc =
      if lines.microPc = 18 then lines.pc + 1 else lines.pc := by
  unfold advance
  split
  · rfl
  split
  · rfl
  split
  · rfl
  split
  · rfl
  by_cases hhalt : lines.holdsHalt = true
  · rw [if_pos hhalt]
  · rw [if_neg hhalt]
    dsimp only
    rw [execute_fst]

end BenchCore

/-- What the bench keyboard answers to one poll. -/
inductive KeyPress where
  | character (b : Byte)
  | nothing
  | failure (text : String)
deriving Repr, DecidableEq

/-- The state of a bench keyboard. -/
structure BenchKeyboard where
  /-- The answers to the next polls. -/
  keys : List KeyPress := []
  /-- The polls so far. -/
  polls : Nat := 0
  /-- The polls, counted from one, at which the operator asks to stop. -/
  stops : List Nat := []
deriving Repr, DecidableEq

namespace BenchKeyboard

/-- The poll from which on the operator always asks to stop. -/
def patience : Nat := 200000

/-- One poll takes the next answer; when there is none left, nothing is typed. -/
def poll (k : BenchKeyboard) : Poll × BenchKeyboard :=
  let polls := k.polls + 1
  let answer := match k.keys with
    | .character b :: _ => .ok (some b)
    | .failure text :: _ => .error (.other text)
    | .nothing :: _ | [] => .ok none
  ({ answer, cancels := patience ≤ polls || k.stops.contains polls },
    { k with keys := k.keys.tail, polls })

instance : Keyboard BenchKeyboard := ⟨poll⟩

end BenchKeyboard

end ClockStep
