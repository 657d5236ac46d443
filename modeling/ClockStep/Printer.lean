import ClockStep.Sink
import ClockStep.Text.Basic

/-!
# The printer

Writes lines to the operator, in colour if there is colour. A **painter** dresses a text up for a
terminal, by something before it and something behind it. A line goes to the sink in pieces: those
that switch its style on, the text, those that switch the style off, and the newline; so a sink that
closes in the middle of a line keeps the pieces before.

Memory is dumped in rows of sixteen bytes: the address of the row, the bytes in hexadecimal in groups
of two, and the characters they stand for. Two bytes make a word and rows are labelled with word
addresses. A row that is not full is filled up with dashes.
-/

/-! ### Styles and painters -/

namespace ClockStep

/-- The look of a text. -/
inductive Style where
  | plain
  | bold
  | boldYellow
  | boldRed
  | gray
  | red
  | green
  | yellow
  | purple
  | cyan
deriving Repr, DecidableEq

/-- Whoever dresses texts up: what is written before a text in some style, and what behind it, both
in pieces. -/
structure Painter where
  /-- What switches a style on. -/
  opening : Style → List String
  /-- What switches it off again. -/
  closing : Style → List String

namespace Painter

/-- What stands before a painted text. -/
def front (painter : Painter) (style : Style) : String := String.join (painter.opening style)

/-- What stands behind a painted text. -/
def back (painter : Painter) (style : Style) : String := String.join (painter.closing style)

end Painter

namespace Style

/-- The character that starts a control sequence. -/
def escape : Char := '\x1b'

/-- A text in a style, if there is somebody to paint it. -/
def paint (painter? : Option Painter) (style : Style) (text : String) : String :=
  match painter? with
  | some painter => painter.front style ++ text ++ painter.back style
  | none => text

/-- The numbers that switch a style on at an ANSI terminal, with what is between them, in the pieces
in which they are written. -/
def codes : Style → List String
  | plain => []
  | bold => ["1"]
  | boldYellow => ["1", ";", "33"]
  | boldRed => ["1", ";", "31"]
  | gray => ["38;5;", "240"]
  | red => ["31"]
  | green => ["32"]
  | yellow => ["33"]
  | purple => ["35"]
  | cyan => ["36"]

end Style

/-- The painter for ANSI terminals. It leaves a text in no style alone. -/
def Painter.ansi : Painter where
  opening style :=
    match style.codes with
    | [] => []
    | codes => "\x1b[" :: (codes ++ ["m"])
  closing style :=
    match style.codes with
    | [] => []
    | _ => ["\x1b[0m"]

end ClockStep

/-! ### Memory dumps -/

namespace ClockStep.Hexdump

/-- The bytes in a row. -/
def rowBytes : Nat := 16

/-- The character shown for a byte: itself if it is printable ASCII, a dot otherwise. -/
def shownAs (b : UInt8) : Char :=
  if 0x20 ≤ b ∧ b ≤ 0x7E then Char.ofNat b.toNat else '.'

/-- The colour that a byte is shown in, by its kind of character. -/
def styleOf (b : UInt8) : Style :=
  if 'A'.toNat ≤ b.toNat ∧ b.toNat ≤ 'z'.toNat then .yellow
  else if '!'.toNat ≤ b.toNat ∧ b.toNat ≤ '~'.toNat then .cyan
  else if b = 0x0A ∨ b = 0x0D then .green
  else if b = 0x07 ∨ b = 0x08 ∨ b = 0x0C ∨ b = 0x1B then .red
  else if b = 0xFF then .purple
  else .gray

/-- The bytes in pieces of the given size, the last one possibly shorter. -/
def chunks (size : Nat) (bytes : List UInt8) : List (List UInt8) :=
  match bytes with
  | [] => []
  | b :: rest =>
    (b :: rest.take (size - 1)) :: chunks size (rest.drop (size - 1))
termination_by bytes.length
decreasing_by simp only [List.length_drop, List.length_cons]; omega

/-- The column of a byte in hexadecimal; even columns start a group. -/
def hexColumn (painter? : Option Painter) (row : List UInt8) (column : Nat) : String :=
  (if column % 2 = 0 then " " else "") ++
    match row[column]? with
    | some b => (styleOf b).paint painter? (Text.hexByteUpper b)
    | none => Style.red.paint painter? "--"

/-- The column of a byte as a character; there is a gap in the middle. -/
def charColumn (painter? : Option Painter) (row : List UInt8) (column : Nat) : String :=
  (if column ≠ 0 ∧ column % 8 = 0 then " " else "") ++
    match row[column]? with
    | some b => (styleOf b).paint painter? (String.singleton (shownAs b))
    | none => Style.red.paint painter? "-"

/-- A row at a word address. -/
def row (painter? : Option Painter) (address : Nat) (bytes : List UInt8) : String :=
  let columns := List.range rowBytes
  "|" ++ Style.gray.paint painter? (Text.hexPadded 4 address) ++ "|" ++
    String.join (columns.map (hexColumn painter? bytes)) ++ " |" ++
    String.join (columns.map (charColumn painter? bytes)) ++ "|"

/-- The rows of a dump that starts at a word address. -/
def rows (painter? : Option Painter) (base : Nat) (bytes : List UInt8) : List String :=
  (chunks rowBytes bytes).mapIdx fun i bytes => row painter? (base + i * rowBytes / 2) bytes

end ClockStep.Hexdump

/-! ### Printing -/

namespace ClockStep

/-- The operator's output. -/
structure Printer where
  /-- Whether text is dressed up. -/
  color : Bool := false
  /-- Who dresses it up. -/
  painter : Painter := .ansi
  /-- Where the text goes. -/
  sink : Sink := {}

namespace Printer

/-- Who dresses text up, if it is dressed up. -/
def painter? (p : Printer) : Option Painter := if p.color then some p.painter else none

/-- Without colour nobody does. -/
theorem painter?_of_color_eq_false {p : Printer} (h : p.color = false) : p.painter? = none := by
  rw [painter?, h]
  rfl

/-- With colour the painter does. -/
theorem painter?_of_color_eq_true {p : Printer} (h : p.color = true) :
    p.painter? = some p.painter := by
  rw [painter?, h]
  rfl

/-- The pieces of a line. -/
def linePieces (painter? : Option Painter) (style : Style) (text : String) : List String :=
  match painter? with
  | some painter => painter.opening style ++ text :: (painter.closing style ++ ["\n"])
  | none => [text, "\n"]

/-- Writes pieces of text one after the other, up to the first that cannot be written. -/
def writeAll (p : Printer) (pieces : List String) : Except SystemError Unit × Printer :=
  let (result, sink) := p.sink.writePieces (pieces.map Text.Utf8.encode)
  (result, { p with sink })

/-- Prints a line. -/
def line (p : Printer) (style : Style) (text : String) : Except SystemError Unit × Printer :=
  p.writeAll (linePieces p.painter? style text)

/-- Dumps bytes, the first of them being at the given word address. -/
def hexdump (p : Printer) (base : Nat) (bytes : List UInt8) : Except SystemError Unit × Printer :=
  p.writeAll ((Hexdump.rows p.painter? base bytes).flatMap fun row => [row, "\n"])

end Printer

end ClockStep
