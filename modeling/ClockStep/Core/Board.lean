import ClockStep.Core.Lines
import ClockStep.FileTree
import ClockStep.Text.Basic
import ClockStep.Uart.Receiver

/-!
# The board core, and the waveform file

The core that the debugger drives as a program. It has a serial transmitter of its own, which opcode
13 starts, and writes a waveform as one line of text per half period if it is asked to.

The waveform goes to a file as text. It is written in blocks, each as soon as it is full, and what is
left when the program ends. The place in the file is kept between the writes, so whatever else is
written to the same file in between is written over from there on.

## Main results

* `putOver_drop_putOver_take`: what is written in two parts is there as a whole.
-/

namespace ClockStep

/-- The state of a board core. -/
structure BoardCore where
  lines : OutputLines := {}
  /-- The levels of the frame that is being sent, as runs. -/
  frame : List (Bool × Nat) := []
  /-- The inputs at the last evaluation. -/
  seen : InputLines := {}
  /-- The lines of the waveform, if one is written. -/
  waveform : Option (Array String) := none
deriving Repr

namespace BoardCore

/-- The rising edges that a bit stays on the serial line. -/
def bitEdges : Nat := 434

/-- Where opcode 7 stores its own instruction word: its low byte into a page of its own. -/
def storeAddress (ir : Word) : Word := 0x4000 ||| (ir &&& 0xFF)

/-- Opcode 7 stores the instruction word; opcode 13 hands its low byte to the display. -/
def execute : Execute := fun lines memory =>
  if lines.ir.field 12 4 = 7#4 then
    (lines, (memory.access
      { enable := true, write := true, address := storeAddress lines.ir, dataIn := lines.ir }).2)
  else if lines.ir.field 12 4 = 13#4 then ({ lines with ddr := lines.ir &&& 0xFF }, memory)
  else (lines, memory)

/-- Whether the next step of the micro-sequencer executes an instruction. -/
def executes (lines : OutputLines) : Bool := lines.microPc ∉ preDecodeStates

/-- The frame that a step of the micro-sequencer starts, if it executes opcode 13. -/
def startedFrame? (lines : OutputLines) : Option (List (Bool × Nat)) :=
  if executes lines && lines.ir.field 12 4 == 13#4 then
    some (Uart.frame bitEdges lines.ir.low)
  else none

/-- The registers after a reset, each with its own number in every digit. -/
def resetRegisters : Vector Word 8 := Vector.ofFn fun i => UInt16.ofNat (0x1111 * i.val)

/-- The lines after a reset. -/
def restart (lines : OutputLines) (vector : Word) : OutputLines :=
  { lines.restart vector with
    psr := 0x8002, dsr := 0x8000, mcr := 0x8000, registers := resetRegisters }

/-- The lines once a halt put the clock control register to zero. -/
def settleHalt (before after : OutputLines) : OutputLines :=
  if after.halt && !before.halt then { after with mcr := 0 } else after

/-- A rising edge. -/
def risingEdge (inputs : InputLines) (c : BoardCore) (memory : Memory) : BoardCore × Memory :=
  if inputs.reset then ({ c with lines := restart c.lines inputs.resetVector }, memory)
  else
    let (level, frame) := Uart.nextLevel c.frame
    let lines := { c.lines.answer inputs with transmit := level }
    if lines.halt then ({ c with lines, frame }, memory)
    else
      let (next, memory) := advance (fun l => { l with bus := l.pc }) execute lines memory
      ({ c with lines := settleHalt lines next, frame := (startedFrame? lines).getD frame }, memory)

/-- Settles the core; only a high clock changes its lines. -/
def evaluate (inputs : InputLines) (c : BoardCore) (memory : Memory) : BoardCore × Memory :=
  let c := { c with seen := inputs }
  if inputs.clock then c.risingEdge inputs memory else (c, memory)

/-- A line of the waveform as a digit. -/
def digit (b : Bool) : String := if b then "1" else "0"

/-- The waveform's line for a time. -/
def waveformLine (time : Nat) (c : BoardCore) : String :=
  toString time ++ " clk=" ++ digit c.seen.clock ++ " rst=" ++ digit c.seen.reset ++
    " pc=" ++ Text.hexWord c.lines.pc ++ " upc=" ++ toString c.lines.microPc.toNat ++
    " irq=" ++ digit c.seen.deviceReady ++ "," ++ Text.hexPadded 2 c.seen.vector.toNat ++ "," ++
    toString c.seen.priority.toNat ++ "," ++ Text.hexWord c.seen.data ++
    " clr=" ++ digit c.seen.acknowledgeClear ++ " ack=" ++ digit c.lines.acknowledge

instance : Core BoardCore where
  lines := BoardCore.lines
  evaluate := evaluate
  record time c := { c with waveform := c.waveform.map fun w => w.push (c.waveformLine time) }

end BoardCore

end ClockStep

/-! ### The waveform file -/

namespace ClockStep.Waveform

/-- How many bytes are written at a time. -/
def blockSize : Nat := 4096

/-- The bytes of the waveform that the core recorded. -/
def bytes (core : BoardCore) : List Byte :=
  match core.waveform with
  | some lines => Text.Utf8.encode (lines.foldl (fun text line => text ++ line ++ "\n") "")
  | none => []

/-- How many of so many bytes are in full blocks. -/
def inBlocks (length : Nat) : Nat := length - length % blockSize

/-- Bytes put over others from an offset on; a gap before it is filled with zeros. -/
def putOver (offset : Nat) (bytes old : List Byte) : List Byte :=
  (old.take offset).rightpad offset 0 ++ bytes ++ old.drop (offset + bytes.length)

/-- The files with bytes put into the waveform's file from an offset on, if there is one. -/
def write (path : Option String) (offset : Nat) (bytes : List Byte) (files : FileTree) : FileTree :=
  match path with
  | none => files
  | some path =>
    let written := do files.write path (putOver offset bytes (← files.read path))
    match written with
    | .ok files => files
    | .error _ => files

/-- The files with the full blocks of the waveform. -/
def writeBlocks (core : BoardCore) (path : Option String) (files : FileTree) : FileTree :=
  let bytes := bytes core
  write path 0 (bytes.take (inBlocks bytes.length)) files

/-- The files with the rest of the waveform, behind its full blocks. -/
def writeRest (core : BoardCore) (path : Option String) (files : FileTree) : FileTree :=
  let bytes := bytes core
  let offset := inBlocks bytes.length
  write path offset (bytes.drop offset) files

/-- Putting the first bytes into an empty file and the rest behind them leaves all of them. -/
theorem putOver_drop_putOver_take {offset : Nat} {bytes : List Byte} (h : offset ≤ bytes.length) :
    putOver offset (bytes.drop offset) (putOver 0 (bytes.take offset) []) = bytes := by
  have hfirst : putOver 0 (bytes.take offset) [] = bytes.take offset := by
    simp [putOver, List.rightpad]
  have hlength : (bytes.take offset).length = offset := by simp [h]
  have hend : (bytes.take offset).drop (offset + (bytes.drop offset).length) = [] :=
    List.drop_eq_nil_of_le (by omega)
  rw [hfirst, putOver, hend, List.append_nil, List.take_of_length_le (by omega), List.rightpad,
    hlength, Nat.sub_self, List.replicate_zero, List.append_nil, List.take_append_drop]

end ClockStep.Waveform
