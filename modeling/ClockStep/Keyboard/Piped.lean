import ClockStep.Journal

/-!
# Keyboards, and the piped one

A keyboard is asked once per cycle whether there is a character. The class `Keyboard` is all that
the machine knows about one; a poll may also carry the operator's request to stop.

Keyboard input may come from a file or a pipe. A reader then moves bytes from the source into a
queue at its own pace, and polls take them from there, so that a poll never waits. A poll has two
halves: it sees to it that the reader was started (`PipedKeyboard.started`), and then it looks into
the queue (`PipedKeyboard.receive`). Until the first poll the source is left alone. When the source
ends or fails the reader is finished, and the first poll that finds the queue empty after that notes
the end.
-/

/-! ### Keyboards -/

namespace ClockStep

/-- The answer to a poll. -/
structure Poll where
  /-- The character that was waiting, if any, or why the keyboard could not be asked. -/
  answer : Except SystemError (Option Byte) := .ok none
  /-- Whether the operator asked to stop. -/
  cancels : Bool := false
  /-- What the keyboard has to note. -/
  notices : List Notice := []

/-- The character that a poll brought, if it brought one. -/
def Poll.character? (p : Poll) : Option Byte :=
  match p.answer with
  | .ok character? => character?
  | .error _ => none

/-- A source of characters whose state is a value of type `κ`. -/
class Keyboard (κ : Type) where
  /-- Asks for a character, without waiting for one. -/
  poll : κ → Poll × κ

/-- A keyboard that never has a character. -/
inductive SilentKeyboard where
  | silent
deriving Repr, DecidableEq

instance : Keyboard SilentKeyboard := ⟨fun k => ({}, k)⟩

end ClockStep

/-! ### The piped keyboard -/

namespace ClockStep

/-- What the reader of a piped keyboard is doing. -/
inductive ReaderState where
  | idle
  | reading
  | finished
deriving Repr, DecidableEq

/-- A keyboard fed from a source of bytes. -/
structure PipedKeyboard where
  /-- The bytes that are still in the source. -/
  source : List Byte
  /-- How the source fails behind its last byte, if it does. -/
  failure : Option SystemError := none
  reader : ReaderState := .idle
  /-- The bytes that were read and not yet taken. -/
  queue : List Byte := []
  /-- Whether the end was noticed. -/
  closed : Bool := false
deriving Repr, DecidableEq

namespace PipedKeyboard

/-- One step of the reader: it moves a byte, or notices the end of the source. -/
def readerStep (k : PipedKeyboard) : List Notice × PipedKeyboard :=
  match k.reader, k.source with
  | .reading, b :: rest => ([], { k with source := rest, queue := k.queue ++ [b] })
  | .reading, [] => (k.failure.toList.map .inputFailed, { k with reader := .finished })
  | .idle, _ | .finished, _ => ([], k)

/-- The keyboard with its reader started. -/
def started (k : PipedKeyboard) : PipedKeyboard :=
  if k.reader = .idle then { k with reader := .reading } else k

/-- Starting the reader is all that it is. -/
theorem started_eq (k : PipedKeyboard) : k.started = { k with reader := k.started.reader } := by
  rw [started]
  split <;> rfl

/-- Takes the first byte out of the queue. There is none in an empty one, and if the reader is
finished there will be none; this is noted once. -/
def receive (k : PipedKeyboard) : Poll × PipedKeyboard :=
  if k.closed then ({}, k)
  else match k.queue with
    | b :: rest => ({ answer := .ok (some b) }, { k with queue := rest })
    | [] =>
      if k.reader = .finished then ({ notices := [.inputEnded] }, { k with closed := true })
      else ({}, k)

/-- One poll. -/
def poll (k : PipedKeyboard) : Poll × PipedKeyboard := k.started.receive

instance : Keyboard PipedKeyboard := ⟨poll⟩

/-- Lets the reader go on for a number of steps. -/
def readAhead : Nat → PipedKeyboard → List Notice × PipedKeyboard
  | 0, k => ([], k)
  | n + 1, k =>
    let (noted, k) := k.readerStep
    let (later, k) := readAhead n k
    (noted ++ later, k)

/-- Polls a number of times, collecting the characters and the notices. -/
def pollTimes : Nat → PipedKeyboard → List Byte × List Notice × PipedKeyboard
  | 0, k => ([], [], k)
  | n + 1, k =>
    let (poll, k) := k.poll
    let (bytes, notices, k) := pollTimes n k
    (poll.character?.toList ++ bytes, poll.notices ++ notices, k)

/-- Polls once, lets the reader come to its end, and polls until the end is noticed. -/
def drain (k : PipedKeyboard) : List Byte × List Notice :=
  let size := k.source.length
  let (first, k) := k.poll
  let (read, k) := k.readAhead (size + 1)
  let (bytes, notices, _) := k.pollTimes (size + 1)
  (bytes, first.notices ++ read ++ notices)

end PipedKeyboard

end ClockStep
