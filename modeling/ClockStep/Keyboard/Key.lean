import ClockStep.Text.Basic
import ClockStep.Word

/-!
# Keys, and their bytes

What the operator can press, and how a terminal tells of it. A terminal in raw mode sends a key as
one byte or as a sequence of them. Most sequences start with the escape character; since that is a
key of its own, an escape alone is told from the start of a sequence by whether more bytes have
arrived. Bytes are read one by one; `Key.read` says what the bytes since the last key amount to.

Some terminals tell of a key by a number: the code point of its character, or a code point of a
private area for a key without one. Behind it, all of them optional, come the character that the key
has with shift, the modifiers that are held, and whether the key was pressed, repeated or let go:

    number:shifted;modifiers:event

Anything that follows is left unread.
-/

/-! ### Keys -/

namespace ClockStep

/-- What a key stands for. -/
inductive KeyCode where
  | char (c : Char)
  | enter
  | backspace
  | tab
  | escape
  /-- The cursor key that points up. -/
  | up
  /-- Any other key without a character. -/
  | other
deriving Repr, DecidableEq

/-- A key as it is pressed. -/
structure Key where
  code : KeyCode
  control : Bool := false
  alt : Bool := false
  /-- Whether any other modifier is held and told of. -/
  further : Bool := false
deriving Repr, DecidableEq

/-- What bytes since the last key amount to. -/
inductive KeyReading where
  /-- More bytes are needed. -/
  | incomplete
  /-- No key is sent like this. -/
  | unreadable
  | key (k : Key)
deriving Repr, DecidableEq

namespace Key

/-- The reading of a key without modifiers. -/
def found (code : KeyCode) : KeyReading := .key { code }

/-- The byte that a key brings to the machine, if it has one. -/
def byte? (k : Key) : Option Byte :=
  match k.code with
  | .char c => if c.toNat < 0x80 then some (UInt8.ofNat c.toNat) else none
  | .enter => some 0x0A
  | .backspace => some 0x08
  | .tab => some 0x09
  | .escape => some 0x1B
  | .up | .other => none

/-- Whether a key asks to stop: `c` with the control key and nothing else. -/
def isStop (k : Key) : Bool := k == { code := .char 'c', control := true }

end Key

end ClockStep

/-! ### Numbered keys -/

namespace ClockStep

/-- The modifiers that are held with a key. -/
structure Modifiers where
  shift : Bool := false
  alt : Bool := false
  control : Bool := false
  /-- Any other modifier. -/
  further : Bool := false
deriving Repr, DecidableEq

namespace Modifiers

/-- The modifiers that a number stands for: one more than a sum of powers of two. -/
def ofNumber (number : Nat) : Modifiers :=
  let bits := number - 1
  { shift := bits.testBit 0
    alt := bits.testBit 1
    control := bits.testBit 2
    further := bits.testBit 3 || bits.testBit 4 || bits.testBit 5 }

/-- The modifiers with that of a modifier key, if the number is one of those: shift, control, alt
and three more on the left, then the same on the right. -/
def withKey (number : Nat) (m : Modifiers) : Modifiers :=
  match number with
  | 57441 | 57447 => { m with shift := true }
  | 57442 | 57448 => { m with control := true }
  | 57443 | 57449 => { m with alt := true }
  | 57444 | 57445 | 57446 | 57450 | 57451 | 57452 => { m with further := true }
  | _ => m

end Modifiers

namespace Key

/-- A number below a limit, in decimal digits, perhaps behind a plus sign. -/
def number? (limit : Nat) (text : String) : Option Nat :=
  let digits := match text.toList with
    | '+' :: rest => rest
    | digits => digits
  (Text.readDigits? 10 digits).filter (· < limit)

/-- The character with a code point. -/
def character? (code : Nat) : Option Char :=
  if code.isValidChar then some (Char.ofNat code) else none

/-- The characters of the keypad, with its enter key among them, by number. -/
def keypad : List KeyCode :=
  [.char '0', .char '1', .char '2', .char '3', .char '4', .char '5', .char '6', .char '7',
   .char '8', .char '9', .char '.', .char '/', .char '*', .char '-', .char '+', .enter, .char '=',
   .char ',']

/-- The number of the first key of the keypad. -/
def keypadStart : Nat := 57399

/-- The numbers of keys without a character, as closed ranges: locks and the like, function keys,
the keypad's cursor keys, media keys, modifier keys. -/
def silentRanges : List (Nat × Nat) :=
  [(57358, 57363), (57376, 57398), (57417, 57427), (57428, 57440), (57441, 57454)]

/-- The key of a character. With shift, the tab key has no character. -/
def ofCharacter (shift : Bool) (c : Char) : KeyCode :=
  if c = '\x1B' then .escape
  else if c = '\r' then .enter
  else if c = '\t' then (if shift then .other else .tab)
  else if c = '\x7F' then .backspace
  else .char c

/-- The key of a number. -/
def ofNumber? (shift : Bool) (number : Nat) : Option KeyCode :=
  if keypadStart ≤ number && number < keypadStart + keypad.length then
    keypad[number - keypadStart]?
  else if silentRanges.any fun range => range.1 ≤ number && number ≤ range.2 then some .other
  else (character? number).map (ofCharacter shift)

/-- What was done to a key. -/
inductive Event where
  | press
  | repetition
  | release
deriving Repr, DecidableEq

/-- The event of a number. -/
def Event.ofNumber : Nat → Event
  | 2 => .repetition
  | 3 => .release
  | _ => .press

/-- Reads modifiers and event; without readable modifiers, none are held and the key was pressed. -/
def readModifiers (part : String) : Modifiers × Event :=
  match part.splitOn ":" with
  | modifiers :: events =>
    match number? UInt8.size modifiers with
    | some number =>
      (.ofNumber number, .ofNumber ((events.head?.bind (number? UInt8.size)).getD 1))
    | none => ({}, .press)
  | [] => ({}, .press)

/-- Reads the parts of a numbered key. Only a key that is pressed comes through, and with shift held
it stands for the character that is told for that. -/
def readNumbered (bytes : List Byte) : KeyReading :=
  match Text.Utf8.decode? bytes with
  | none => .unreadable
  | some text =>
    let parts := text.splitOn ";"
    let codes := (parts.headD "").splitOn ":"
    let (modifiers, event) := readModifiers ((parts[1]?).getD "")
    match codes.head?.bind (number? UInt32.size) with
    | none => .unreadable
    | some number =>
      match ofNumber? modifiers.shift number with
      | none => .unreadable
      | some code =>
        let modifiers := modifiers.withKey number
        let shifted :=
          if modifiers.shift then
            (codes[1]?.bind (number? UInt32.size)).bind character?
          else none
        if event ≠ .press then found .other
        else match shifted with
          | some c =>
            .key
              { code := .char c, control := modifiers.control, alt := modifiers.alt
                further := modifiers.further }
          | none =>
            .key
              { code, control := modifiers.control, alt := modifiers.alt
                further := modifiers.shift || modifiers.further }

end Key

end ClockStep

/-! ### Keys as bytes -/

namespace ClockStep

namespace Key

/-- Whether a byte ends a control sequence. -/
def endsSequence (b : Byte) : Bool := 64 ≤ b && b ≤ 126

/-- How a paste begins, behind `ESC [`. -/
def pasteStart : List Byte := [0x32, 0x30, 0x30, 0x7E]

/-- How a paste ends. -/
def pasteEnd : List Byte := [0x1B, 0x5B, 0x32, 0x30, 0x31, 0x7E]

/-- Reads a control sequence that starts with a digit: a paste, which is swallowed, a numbered key,
or a key without a character. -/
def readDigits (bytes : List Byte) : KeyReading :=
  match bytes.tail.getLast? with
  | none => .incomplete
  | some b =>
    if !endsSequence b then .incomplete
    else if pasteStart.isPrefixOf bytes then
      if pasteEnd.isSuffixOf bytes then found .other else .incomplete
    else if b = 0x75 then readNumbered bytes.dropLast
    else found .other

/-- Reads what a terminal answers about itself, behind `ESC [ ?`. -/
def readReport (bytes : List Byte) : KeyReading :=
  match bytes.getLast? with
  | some 0x63 => found .other
  | some 0x75 => if 2 ≤ bytes.length then found .other else .incomplete
  | _ => .incomplete

/-- Reads what a mouse did, behind `ESC [ <`. -/
def readMouse (bytes : List Byte) : KeyReading :=
  match bytes.getLast? with
  | some 0x4D | some 0x6D => found .other
  | _ => .incomplete

/-- Reads what follows `ESC [`. -/
def readBracket : List Byte → KeyReading
  | [] => .incomplete
  | 0x5B :: [] => .incomplete
  | 0x5B :: b :: _ => if 0x41 ≤ b && b ≤ 0x45 then found .other else .unreadable
  | 0x4D :: rest => if rest.length < 3 then .incomplete else found .other
  | 0x3C :: rest => readMouse rest
  | 0x3F :: rest => readReport rest
  | first :: rest =>
    if first = 0x41 then found .up
    else if [0x42, 0x43, 0x44, 0x46, 0x48, 0x49, 0x4F, 0x50, 0x51, 0x53, 0x5A].contains first then
      found .other
    else if 0x30 ≤ first && first ≤ 0x39 then readDigits (first :: rest)
    else .unreadable

/-- Reads what follows `ESC O`. -/
def readFunction : List Byte → KeyReading
  | [] => .incomplete
  | b :: _ =>
    if b = 0x41 then found .up
    else if [0x42, 0x43, 0x44, 0x46, 0x48, 0x50, 0x51, 0x52, 0x53].contains b then found .other
    else .unreadable

/-- How many bytes a character takes that starts with the given byte. -/
def characterBytes? (b : Byte) : Option Nat :=
  if b < 0x80 then some 1
  else if b < 0xC0 then none
  else if b < 0xE0 then some 2
  else if b < 0xF0 then some 3
  else if b < 0xF8 then some 4
  else none

/-- Reads a character. -/
def readCharacter (bytes : List Byte) : KeyReading :=
  match (Text.Utf8.decode? bytes).map String.toList with
  | some (c :: _) => found (.char c)
  | _ =>
    match bytes.head?.bind characterBytes? with
    | none => .unreadable
    | some needed =>
      if bytes.tail.all (fun b => b &&& 0xC0 == 0x80) && bytes.length < needed then .incomplete
      else .unreadable

/-- Reads a byte that is a key by itself or starts a character. -/
def readPlain (bytes : List Byte) : KeyReading :=
  match bytes with
  | [] => .incomplete
  | b :: _ =>
    if b = 0x0D then found .enter
    else if b = 0x09 then found .tab
    else if b = 0x7F then found .backspace
    else if b = 0x00 then .key { code := .char ' ', control := true }
    else if b ≤ 0x1A then .key { code := .char (Char.ofNat (b.toNat + 0x60)), control := true }
    else if 0x1C ≤ b && b ≤ 0x1F then
      .key { code := .char (Char.ofNat (b.toNat - 0x1C + '4'.toNat)), control := true }
    else readCharacter bytes

/-- The same key with the alt key held. -/
def withAlt : KeyReading → KeyReading
  | .key k => .key { k with alt := true }
  | reading => reading

/-- Reads the bytes since the last key; `more` tells that further bytes have arrived. -/
def read (more : Bool) : List Byte → KeyReading
  | 0x1B :: rest =>
    match rest with
    | [] => if more then .incomplete else found .escape
    | 0x4F :: rest => readFunction rest
    | 0x5B :: rest => readBracket rest
    | 0x1B :: _ => found .escape
    | rest => withAlt (read more rest)
  | bytes => readPlain bytes

/-- How many bytes are taken from the terminal at a time. -/
def batch : Nat := 1024

/-- Reads bytes that arrive after the bytes of an unfinished key: the keys, and the bytes of the key
that is unfinished at the end; `full` tells that more bytes may have arrived than these. -/
def readFrom (full : Bool) (pending : List Byte) : List Byte → List Key × List Byte
  | [] => ([], pending)
  | b :: rest =>
    match read (!rest.isEmpty || full) (pending ++ [b]) with
    | .incomplete => readFrom full (pending ++ [b]) rest
    | .unreadable => readFrom full [] rest
    | .key k =>
      let (keys, pending) := readFrom full [] rest
      (k :: keys, pending)

/-- Reads bytes that arrive together. If the last batch of them is full, there may be more. -/
def readAll (pending bytes : List Byte) : List Key × List Byte :=
  readFrom (bytes.length % batch = 0) pending bytes

end Key

end ClockStep
