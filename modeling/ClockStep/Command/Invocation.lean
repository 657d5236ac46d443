import ClockStep.Breakpoints
import ClockStep.Command.Registry
import ClockStep.Machine.Basic
import ClockStep.Text.Basic

/-!
# Commands with their arguments

A command line is read word by word, words being separated by blanks. A word can be taken as it is
or as a number; a number that is refused is taken off the line all the same. Numbers are unsigned
and have 64 bits. A hexadecimal one may start with `0x` or `x`.

An **invocation** is a command whose arguments were read and found in range. Words after the last
argument do not matter. Arguments are read from left to right and the first bad one decides; only
for an interrupt are all three read before any range is looked at, the data first.

A **failure** is why a command did not do what it says. Most failures are told to the operator and
forgotten; those of the machine and of the output end the session.

## Main results

* `next_append`: taking a word off a line gives it back with the blanks before it.
-/

/-! ### Failures -/

namespace ClockStep.Command

/-- Why a command failed. -/
inductive Failure where
  /-- A word is not a hexadecimal number, or is missing. -/
  | invalidHex (word : String)
  /-- A word is not a decimal number, or is missing. -/
  | invalidDec (word : String)
  /-- An address needs more than 16 bits. -/
  | addressOutOfRange (value : Nat)
  /-- A value needs more than 8 bits. -/
  | byteOutOfRange (value : Nat)
  /-- An interrupt vector needs more than 8 bits. -/
  | vectorOutOfRange (value : Nat)
  /-- An interrupt priority is above 7. -/
  | priorityOutOfRange (value : Nat)
  /-- The data of an interrupt need more than 16 bits. -/
  | dataOutOfRange (value : Nat)
  /-- A breakpoint is there already, or is not. -/
  | breakpoint (cause : BreakpointError)
  /-- The machine cannot go on. -/
  | machine (cause : MachineError)
  /-- The output refused a write. -/
  | output (cause : SystemError)
deriving Repr, DecidableEq

namespace Failure

/-- The wording of a failure. -/
def message : Failure → String
  | invalidHex word => "'" ++ word ++ "' is not a valid positive hexadecimal integer"
  | invalidDec word => "'" ++ word ++ "' is not a valid positive decimal integer"
  | addressOutOfRange v => "Address x" ++ Text.hex v ++ " is out of range"
  | byteOutOfRange v => "Byte value x" ++ Text.hex v ++ " is out of range"
  | vectorOutOfRange v => "Interrupt vector x" ++ Text.hex v ++ " is out of range"
  | priorityOutOfRange v => "Priority " ++ toString v ++ " is out of range, expected 0 to 7"
  | dataOutOfRange v => "Interrupt data x" ++ Text.hex v ++ " does not fit into 16 bits"
  | breakpoint cause => cause.message
  | machine cause => cause.message
  | output cause => cause.message

/-- What lies behind a failure, each cause in its own words. -/
def causes : Failure → List String
  | breakpoint cause => [cause.message]
  | machine cause => cause.message :: cause.causes
  | output cause => [cause.message]
  | _ => []

/-- Whether the line was malformed, so that the command's usage is shown. -/
def isMalformed : Failure → Bool
  | invalidHex _ | invalidDec _ => true
  | _ => false

end Failure

end ClockStep.Command

/-! ### The words of a line -/

namespace ClockStep.Command

open Text (trimStart isBlank readDigits?)

/-- The part of a command line that was not read yet. -/
structure Tokens where
  rest : List Char
deriving Repr, DecidableEq

namespace Tokens

/-- All of a line. -/
def ofLine (line : String) : Tokens := { rest := line.toList }

/-- The next word, empty when there is none left, and what follows it. -/
def next (t : Tokens) : List Char × Tokens :=
  let text := trimStart t.rest
  (text.takeWhile (!isBlank ·), { rest := text.dropWhile (!isBlank ·) })

/-- Whether no word is left. -/
def isEmpty (t : Tokens) : Bool := (trimStart t.rest).isEmpty

/-- What numbers have to stay below. -/
def numberLimit : Nat := UInt64.size

/-- The number that digits stand for, if they are digits and it is small enough. -/
def number? (base : Nat) (digits : List Char) : Option Nat :=
  (readDigits? base digits).filter (· < numberLimit)

/-- A hexadecimal number without the mark before it. -/
def dropHexMark : List Char → List Char
  | '0' :: 'x' :: digits | '0' :: 'X' :: digits | 'x' :: digits | 'X' :: digits => digits
  | digits => digits

/-- The next word as a hexadecimal number. -/
def nextHex (t : Tokens) : Except Failure Nat × Tokens :=
  let (word, t) := t.next
  match number? 16 (dropHexMark word) with
  | some n => (.ok n, t)
  | none => (.error (.invalidHex (String.ofList word)), t)

/-- The next word as a decimal number. -/
def nextDec (t : Tokens) : Except Failure Nat × Tokens :=
  let (word, t) := t.next
  match number? 10 word with
  | some n => (.ok n, t)
  | none => (.error (.invalidDec (String.ofList word)), t)

/-- The next word as a hexadecimal address of 16 bits. -/
def nextAddress (t : Tokens) : Except Failure Word × Tokens :=
  match t.nextHex with
  | (.ok n, t) =>
    (if n < UInt16.size then .ok (UInt16.ofNat n) else .error (.addressOutOfRange n), t)
  | (.error e, t) => (.error e, t)

/-- The next word as a decimal count, or `default` when no word is left. -/
def nextCount (default : Nat) (t : Tokens) : Except Failure Nat × Tokens :=
  if t.isEmpty then (.ok default, t) else t.nextDec

/-- A word, what follows it and the blanks before it make up what was there. -/
theorem next_append (t : Tokens) :
    t.rest = t.rest.takeWhile isBlank ++ (t.next.1 ++ t.next.2.rest) := by
  simp only [next, List.takeWhile_append_dropWhile, trimStart]

end Tokens

end ClockStep.Command

/-! ### Invocations -/

namespace ClockStep.Command

/-- A command with its arguments. -/
inductive Invocation where
  | help
  | step (count : Nat)
  | stepInstruction (count : Nat)
  | continue
  | registers
  | microState
  | allRegisters
  | peek (address : Word)
  | poke (address : Word) (value : Byte)
  | dumpMemory (start : Word) (count : Nat)
  | quit
  | interrupt (request : Interrupt)
  | print
  | breakRemove (address : Word)
  | breakList
  | break (address : Word)
deriving Repr, DecidableEq

/-- The highest priority of an interrupt. -/
def maxPriority : Nat := 7

namespace Invocation

/-- Reads the arguments of an interrupt: vector, priority and data. -/
def readInterrupt (args : Tokens) : Except Failure Interrupt := do
  let (vector, args) := args.nextHex
  let vector ← vector
  let (priority, args) := args.nextDec
  let priority ← priority
  let (data, _) := args.nextHex
  let data ← data
  if UInt16.size ≤ data then throw (.dataOutOfRange data)
  if UInt8.size ≤ vector then throw (.vectorOutOfRange vector)
  if maxPriority < priority then throw (.priorityOutOfRange priority)
  return { vector := UInt8.ofNat vector, priority := UInt8.ofNat priority, data := UInt16.ofNat data }

/-- Reads an address and the byte to put there. -/
def readPoke (args : Tokens) : Except Failure (Word × Byte) := do
  let (address, args) := args.nextAddress
  let address ← address
  let (value, _) := args.nextHex
  let value ← value
  if UInt8.size ≤ value then throw (.byteOutOfRange value)
  return (address, UInt8.ofNat value)

/-- Reads an address and a number of words. -/
def readDump (args : Tokens) : Except Failure (Word × Nat) := do
  let (start, args) := args.nextAddress
  let start ← start
  let (count, _) := args.nextDec
  return (start, ← count)

/-- Reads the arguments of a command. -/
def read (command : Command) (args : Tokens) : Except Failure Invocation :=
  match command with
  | .help => .ok .help
  | .step => (args.nextCount 1).1.map .step
  | .stepInstruction => (args.nextCount 1).1.map .stepInstruction
  | .continue => .ok .continue
  | .registers => .ok .registers
  | .microState => .ok .microState
  | .allRegisters => .ok .allRegisters
  | .peek => args.nextAddress.1.map .peek
  | .poke => (readPoke args).map fun arg => .poke arg.1 arg.2
  | .dumpMemory => (readDump args).map fun arg => .dumpMemory arg.1 arg.2
  | .quit => .ok .quit
  | .interrupt => (readInterrupt args).map .interrupt
  | .print => .ok .print
  | .breakRemove => args.nextAddress.1.map .breakRemove
  | .breakList => .ok .breakList
  | .break => args.nextAddress.1.map .break

end Invocation

end ClockStep.Command
