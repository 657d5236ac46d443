import ClockStep.Command.Invocation
import ClockStep.Instruction.Text
import ClockStep.Session.Basic

/-!
# Commands at work

What each command does in a session and what it tells the operator.
-/

namespace ClockStep.Session

open Command (Failure Invocation)
open Text (hexWord)

variable {γ κ : Type}

/-- Tells the operator something. -/
def tell (text : String) : Action γ κ Failure Unit := say .output .bold text

/-- Tells the operator several things, a line each. -/
def tellAll (texts : List String) : Action γ κ Failure Unit := texts.forM tell

/-! ### Reports -/

/-- The line that help shows for a command. -/
def helpLine (d : Command.Descriptor) : String :=
  "  " ++ " or ".intercalate d.spellings ++ "  " ++ d.usage ++ "-- " ++ d.description

/-- A bit of a word as a digit. -/
def bitText (w : Word) (index : Nat) : String := if w.bit index then "1" else "0"

/-- Two registers side by side. -/
def registerPair (registers : Vector Word 8) (i : Fin 4) : String :=
  "R" ++ toString (2 * i.val) ++ " -> x" ++ hexWord registers[2 * i.val] ++ "  ;  R" ++
    toString (2 * i.val + 1) ++ " -> x" ++ hexWord registers[2 * i.val + 1]

/-- The program counter, the status register taken apart, and the general registers. -/
def registersReport (lines : OutputLines) : List String :=
  [ "PC -> x" ++ hexWord lines.pc,
    "PSR -> x" ++ hexWord lines.psr ++ ": CC -> [N=" ++ bitText lines.psr 2 ++ "; Z=" ++
      bitText lines.psr 1 ++ "; P=" ++ bitText lines.psr 0 ++ "] Priv -> " ++
      bitText lines.psr 15 ++ " Priority=x" ++ Text.hex (lines.psr.field 8 3).toNat ] ++
    (List.finRange 4).map (registerPair lines.registers)

/-- The registers inside the data path. -/
def microStateReport (lines : OutputLines) : List String :=
  [ "Bus Output -> x" ++ hexWord lines.bus,
    "IR         -> x" ++ hexWord lines.ir,
    "uPC        -> " ++ toString lines.microPc.toNat,
    "MAR -> x" ++ hexWord lines.mar ++ "  ;  MDR -> x" ++ hexWord lines.mdr,
    "DSR -> x" ++ hexWord lines.dsr ++ "  ;  DDR -> x" ++ hexWord lines.ddr,
    "MCR -> x" ++ hexWord lines.mcr ]

/-- The breakpoints, numbered in ascending order. -/
def breakpointsReport (breakpoints : Breakpoints) : List String :=
  "Breakpoint List:" ::
    breakpoints.toList.mapIdx fun i address => "  " ++ toString i ++ ": x" ++ hexWord address

variable [Core γ]

/-- Where the machine stands. -/
def positionReport (m : Machine γ κ) : List String :=
  [ "  Cycles elapsed: " ++ toString m.cycles,
    "  uPC now at " ++ toString m.lines.microPc.toNat,
    "  PC now at x" ++ hexWord m.lines.pc ++ ": " ++ m.instructionWord.disassembly ]

/-! ### Effects -/

/-- Prints the words from an address on, fewer if memory ends before. -/
def dump (start : Word) (count : Nat) : Action γ κ Failure Unit := do
  let s ← get
  let words := s.machine.memory.slice start.toNat count
  if words.length < count then
    say .output .boldYellow
      ("  Only " ++ toString words.length ++ " words left from x" ++ hexWord start ++
        ", dump clamped")
  let s ← get
  let (result, printer) := s.printer.hexdump start.toNat (bytesOfWords words)
  set { s with printer }
  match result with
  | .ok () => pure ()
  | .error cause => throw (.output cause)

/-- Changes the breakpoints, or fails with the reason against it. -/
def changeBreakpoints (change : Breakpoints → Except BreakpointError Breakpoints) :
    Action γ κ Failure Unit := do
  let s ← get
  match change s.breakpoints with
  | .ok breakpoints => set { s with breakpoints }
  | .error e => throw (.breakpoint e)

/-- Lets the machine run and tells why it stopped and where. -/
def runLoop [Keyboard κ] (fuel : Nat) (limit : Limit) : Action γ κ Failure Flow := do
  match ← drive fuel limit with
  | .completed => pure ()
  | .breakpoint address => tell ("Breakpoint at x" ++ hexWord address ++ " reached")
  | .halted => tell "Machine halted."
  | .exit =>
    tell "Machine halted."
    tell "  Quitting. Goodbye."
    return .quit
  | .interrupted => say .output .boldYellow "Execution interrupted by CTRL+C!"
  tellAll (positionReport (← get).machine)
  return .continue

/-- Carries out a command. -/
def perform [Keyboard κ] (fuel : Nat) : Invocation → Action γ κ Failure Flow
  | .help => do
    tellAll (Command.registry.map helpLine)
    return .continue
  | .step count => runLoop fuel (.cycles count)
  | .stepInstruction count => runLoop fuel (.instructions count)
  | .continue => runLoop fuel .unbounded
  | .registers => do
    tellAll (registersReport (← get).machine.lines)
    return .continue
  | .microState => do
    tellAll (microStateReport (← get).machine.lines)
    return .continue
  | .allRegisters => do
    let lines := (← get).machine.lines
    tellAll (registersReport lines ++ ["=============================="] ++ microStateReport lines)
    return .continue
  | .peek address => do
    tell ("  x" ++ hexWord address ++ ": x" ++ hexWord ((← get).machine.memory.get address))
    return .continue
  | .poke address value => do
    modify fun s => { s with machine.memory := s.machine.memory.set address value.toUInt16 }
    return .continue
  | .dumpMemory start count => do
    dump start count
    return .continue
  | .quit => do
    tell "  Quitting. Goodbye."
    return .quit
  | .interrupt request => do
    tell ("Raising IRQ: x" ++ Text.hexPadded 2 request.vector.toNat ++ ", Priority=" ++
      toString request.priority.toNat ++ ", Data=x" ++ hexWord request.data)
    modify fun s => { s with machine := s.machine.raise request }
    return .continue
  | .print => do
    let m := (← get).machine
    tell ("  x" ++ hexWord m.lines.pc ++ ": " ++ m.instructionWord.disassembly)
    return .continue
  | .breakRemove address => do
    changeBreakpoints (·.erase address)
    tell ("  Breakpoint at x" ++ hexWord address ++ " removed")
    return .continue
  | .breakList => do
    tellAll (breakpointsReport (← get).breakpoints)
    return .continue
  | .break address => do
    changeBreakpoints (·.insert address)
    tell ("  Breakpoint set at x" ++ hexWord address)
    return .continue

end ClockStep.Session
