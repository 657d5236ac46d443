import ClockStep.Memory

/-!
# The lines of a core, and its micro-sequencer

A **core** is a synchronous processor seen from outside: it is given `InputLines`, evaluated, and
read through its `OutputLines`. An evaluation may access memory. The class `Core` is all that the
rest of the library knows about a core.

The cores of this library have a micro-sequencer in common. An instruction walks through the
micro-states 18, 33, 28, 30 and 32, one per rising edge of the clock: the word at the program counter
is fetched, moved to the instruction register and, in whatever state follows, executed. `TRAP x25`
halts; what else an instruction does is the core's own.

## Main results

* `advance_microPc`: the walk through the micro-states.
-/

namespace ClockStep

/-- What the core is given. -/
structure InputLines where
  clock : Bool := false
  reset : Bool := false
  /-- The address to start from after a reset. -/
  resetVector : Word := 0
  vector : Byte := 0
  priority : Byte := 0
  data : Word := 0
  /-- A device waits to be served. -/
  deviceReady : Bool := false
  /-- The pulse that answers an acknowledge. -/
  acknowledgeClear : Bool := false
deriving Repr, DecidableEq

/-- What the core shows. -/
structure OutputLines where
  pc : Word := 0
  ir : Word := 0
  /-- The state of the micro-sequencer. -/
  microPc : Byte := 0
  psr : Word := 0
  registers : Vector Word 8 := Vector.replicate 8 0
  halt : Bool := false
  /-- The serial line, high when nothing is sent. -/
  transmit : Bool := true
  /-- The core takes the pending interrupt. -/
  acknowledge : Bool := false
  bus : Word := 0
  mar : Word := 0
  mdr : Word := 0
  dsr : Word := 0
  ddr : Word := 0
  mcr : Word := 0
deriving Repr, DecidableEq

/-- A synchronous processor whose state is a value of type `γ`. -/
class Core (γ : Type) where
  /-- The lines as they stand after the last evaluation. -/
  lines : γ → OutputLines
  /-- Settles the core for the given inputs; its memory accesses are served on the way. -/
  evaluate : InputLines → γ → Memory → γ × Memory
  /-- Notes the lines at a time, for a waveform. -/
  record : Nat → γ → γ

/-- The micro-state in which a new instruction starts. -/
def fetchState : Byte := 18

/-- The micro-states in which the instruction register still holds the previous instruction. -/
def preDecodeStates : List Byte := [18, 33, 28, 30]

namespace OutputLines

/-- Whether a new instruction starts with the next cycle. -/
def atFetch (lines : OutputLines) : Bool := lines.microPc == fetchState

/-- The word of the instruction in progress: before the instruction register holds it, the word that
the program counter points to. -/
def instructionWord (lines : OutputLines) (memory : Memory) : Word :=
  if lines.microPc ∈ preDecodeStates then memory.get lines.pc else lines.ir

end OutputLines

/-- One output line and the value it is forced to. -/
inductive LineChange where
  | pc (value : Word)
  | ir (value : Word)
  | microPc (value : Byte)
  | psr (value : Word)
  /-- The registers from the first one on. -/
  | registers (values : List Word)
  | halt (value : Bool)
  | transmit (value : Bool)
  | acknowledge (value : Bool)
  | bus (value : Word)
  | mar (value : Word)
  | mdr (value : Word)
  | dsr (value : Word)
  | ddr (value : Word)
  | mcr (value : Word)
deriving Repr, DecidableEq

namespace OutputLines

/-- The lines with one of them forced. -/
def change (lines : OutputLines) : LineChange → OutputLines
  | .pc v => { lines with pc := v }
  | .ir v => { lines with ir := v }
  | .microPc v => { lines with microPc := v }
  | .psr v => { lines with psr := v }
  | .registers vs =>
    { lines with registers := Vector.ofFn fun i => vs[i.val]?.getD lines.registers[i] }
  | .halt v => { lines with halt := v }
  | .transmit v => { lines with transmit := v }
  | .acknowledge v => { lines with acknowledge := v }
  | .bus v => { lines with bus := v }
  | .mar v => { lines with mar := v }
  | .mdr v => { lines with mdr := v }
  | .dsr v => { lines with dsr := v }
  | .ddr v => { lines with ddr := v }
  | .mcr v => { lines with mcr := v }

/-- The lines with several of them forced, one after the other. -/
def changeAll (lines : OutputLines) (changes : List LineChange) : OutputLines :=
  changes.foldl change lines

/-- Changes that each keep something of the lines keep it together. -/
theorem changeAll_keeps {α : Type} (f : OutputLines → α) (lines : OutputLines)
    {changes : List LineChange}
    (h : ∀ change ∈ changes, ∀ lines : OutputLines, f (lines.change change) = f lines) :
    f (lines.changeAll changes) = f lines := by
  rw [changeAll]
  induction changes generalizing lines with
  | nil => rfl
  | cons change changes ih =>
      rw [List.foldl_cons, ih _ fun c hc => h c (List.mem_cons_of_mem _ hc)]
      exact h change (List.mem_cons_self ..) lines

end OutputLines

end ClockStep

/-! ### The micro-sequencer -/

namespace ClockStep

namespace OutputLines

/-- The lines after a rising edge with the reset line high. -/
def restart (lines : OutputLines) (vector : Word) : OutputLines :=
  { lines with pc := vector, microPc := fetchState, ir := 0, halt := false }

/-- The acknowledge line after a rising edge: the clear pulse puts it down, a waiting device up. -/
def answer (lines : OutputLines) (inputs : InputLines) : OutputLines :=
  if inputs.acknowledgeClear then { lines with acknowledge := false }
  else if inputs.deviceReady && !lines.acknowledge then { lines with acknowledge := true }
  else lines

/-- Whether a rising edge takes the pending interrupt. -/
def takesInterrupt (lines : OutputLines) (inputs : InputLines) : Bool :=
  !inputs.acknowledgeClear && inputs.deviceReady && !lines.acknowledge

/-- Whether the instruction register holds the trap that halts. -/
def holdsHalt (lines : OutputLines) : Bool :=
  lines.ir.field 12 4 == 0xF#4 && lines.ir.low == 0x25

end OutputLines

/-- How a core executes the instruction in its instruction register, halting aside. -/
abbrev Execute := OutputLines → Memory → OutputLines × Memory

/-- What a core does besides fetching a word. -/
abbrev Fetch := OutputLines → OutputLines

/-- The micro-sequencer's part of a rising edge, for a core that is neither reset nor halted. -/
def advance (onFetch : Fetch) (execute : Execute) (lines : OutputLines) (memory : Memory) :
    OutputLines × Memory :=
  if lines.microPc = 18 then
    let (response, memory) := memory.access { enable := true, address := lines.pc }
    ({ onFetch lines with
        mar := lines.pc, mdr := response.dataOut, pc := lines.pc + 1, microPc := 33 }, memory)
  else if lines.microPc = 33 then ({ lines with microPc := 28 }, memory)
  else if lines.microPc = 28 then ({ lines with ir := lines.mdr, microPc := 30 }, memory)
  else if lines.microPc = 30 then ({ lines with microPc := 32 }, memory)
  else
    let (lines, memory) :=
      if lines.holdsHalt then ({ lines with halt := true }, memory) else execute lines memory
    ({ lines with microPc := fetchState }, memory)

/-- The micro-state that follows a micro-state. -/
def nextMicroState (state : Byte) : Byte :=
  if state = 18 then 33 else if state = 33 then 28 else if state = 28 then 30
  else if state = 30 then 32 else 18

/-- Whatever is fetched and executed, the micro-states follow each other. -/
theorem advance_microPc (onFetch : Fetch) (execute : Execute) (lines : OutputLines)
    (memory : Memory) :
    (advance onFetch execute lines memory).1.microPc = nextMicroState lines.microPc := by
  unfold advance nextMicroState
  repeat' split
  all_goals rfl

end ClockStep
