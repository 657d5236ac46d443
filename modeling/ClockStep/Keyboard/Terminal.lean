import ClockStep.Journal
import ClockStep.Keyboard.Key
import ClockStep.Keyboard.Piped

/-!
# The terminal, and the keyboard on it

The operator's terminal is in line mode, where it edits lines itself and a newline returns to the
start of the line, or in raw mode, where every byte arrives as it is typed. The machine runs with
the terminal in raw mode; if it cannot be switched, that is noted and the run goes on.

The keys that the operator types while the machine runs are a keyboard. A key with a character
brings it to the machine, control-c asks to stop, and the other keys are swallowed. If the terminal
cannot be asked, that is told once, and nothing is ever typed from then on.
-/

/-! ### The terminal -/

namespace ClockStep

/-- A terminal, or the lack of one. -/
structure Terminal where
  /-- Whether there is a terminal to switch. -/
  attached : Bool := true
  /-- Whether it is in raw mode. -/
  raw : Bool := false
  /-- The control sequences written on entering raw mode. -/
  written : Array Byte := #[]
deriving Repr, DecidableEq

namespace Terminal

/-- The control sequence that lets long lines wrap: `ESC [ ? 7 h`. -/
def enableLineWrap : List Byte := [0x1B, 0x5B, 0x3F, 0x37, 0x68]

/-- Switches to raw mode, or notes why not. -/
def enterRaw (t : Terminal) : List Notice × Terminal :=
  if t.attached then
    ([], { t with raw := true, written := enableLineWrap.foldl Array.push t.written })
  else ([.rawModeRefused .noDevice], t)

/-- Switches back to line mode. -/
def leaveRaw (t : Terminal) : Terminal := { t with raw := false }

/-- Whether lines are edited by the terminal. -/
def inLineMode (t : Terminal) : Bool := t.attached && !t.raw

end Terminal

end ClockStep

/-! ### The terminal keyboard -/

namespace ClockStep

/-- A keyboard that is the operator's terminal. -/
structure TerminalKeyboard where
  /-- Whether there is a terminal. -/
  attached : Bool := true
  /-- The keys that were typed and not yet asked for. -/
  keys : List Key := []
  /-- The bytes of an unfinished key. -/
  unfinished : List Byte := []
  /-- Whether asking was given up. -/
  disabled : Bool := false
deriving Repr, DecidableEq

namespace TerminalKeyboard

/-- Why a terminal that is not there cannot be asked. -/
def unavailable : SystemError := .other "Failed to initialize input reader"

/-- Bytes arrive from the terminal. -/
def type (bytes : List Byte) (k : TerminalKeyboard) : TerminalKeyboard :=
  let (keys, unfinished) := Key.readAll k.unfinished bytes
  { k with keys := k.keys ++ keys, unfinished }

/-- One poll looks at one key. -/
def poll (k : TerminalKeyboard) : Poll × TerminalKeyboard :=
  if k.disabled then ({}, k)
  else if !k.attached then
    ({ answer := .error unavailable, notices := [.pollingDisabled unavailable] },
      { k with disabled := true })
  else match k.keys with
    | [] => ({}, k)
    | key :: rest =>
      let k := { k with keys := rest }
      if key.isStop then ({ cancels := true }, k) else ({ answer := .ok key.byte? }, k)

instance : Keyboard TerminalKeyboard := ⟨poll⟩

/-- What a poll gave that is worth telling. -/
inductive Yield where
  | byte (b : Byte)
  | stop
  | failure (cause : SystemError)
deriving Repr, DecidableEq

/-- What a poll gave, if anything. -/
def yield? (poll : Poll) : Option Yield :=
  if poll.cancels then some .stop
  else match poll.answer with
    | .ok (some b) => some (.byte b)
    | .ok none => none
    | .error cause => some (.failure cause)

/-- Polls a number of times: what the polls gave, what they noted, and the keyboard after them. -/
def pollTimes : Nat → TerminalKeyboard → List Yield × List Notice × TerminalKeyboard
  | 0, k => ([], [], k)
  | n + 1, k =>
    let (poll, k) := k.poll
    let (yields, notices, k) := pollTimes n k
    ((yield? poll).toList ++ yields, poll.notices ++ notices, k)

/-- Lets bytes arrive and polls until their keys are used up, and at least once. -/
def answer (bytes : List Byte) (k : TerminalKeyboard) :
    List Yield × List Notice × TerminalKeyboard :=
  let k := k.type bytes
  pollTimes (k.keys.length + 1) k

end TerminalKeyboard

end ClockStep
