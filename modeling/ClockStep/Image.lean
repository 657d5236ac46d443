import ClockStep.Journal
import ClockStep.Memory

/-!
# Images

An **image** is what a program or an operating system is loaded from: two bytes of origin, then the
words that go to the origin and after it, all big-endian. A missing last byte counts as zero, and
words beyond the end of memory are dropped.

While images are being loaded, words are **raw**: two bytes as they follow each other in the file,
taken for a word in the byte order of the host. Only when all images are in place are the words put
into the order that they stand for, all of memory at once.

Without an operating system the machine starts at the program's origin. With one, the program is
laid over the operating system, the program's origin is left in the cell at `userEntryCell`, and the
machine starts at `supervisorEntry`.

## Main results

* `ByteOrder.fromBig_native`: a word ends up the same on hosts of either byte order.
* `placed_getElem`: after placing words at an origin, a cell holds the word that reaches it, or
  what it held before.
-/

namespace ClockStep

/-- The cell that the operating system takes the user program's origin from. -/
abbrev userEntryCell : Nat := 0x0200

/-- Where the machine starts when an operating system is loaded. -/
def supervisorEntry : Word := 0x02CA

/-- The bytes of an image and the name they are known under. -/
structure Image where
  /-- The name of the file, for messages. -/
  name : String
  /-- Origin and words. -/
  bytes : List Byte
deriving Repr, DecidableEq

/-- Why images could not be loaded. -/
inductive LoadError where
  /-- The file cannot be read. -/
  | unreadable (path : String) (cause : SystemError)
  /-- The image is too short to hold its origin. -/
  | missingOrigin (path : String)
deriving Repr, DecidableEq

/-- The wording of a load error. -/
def LoadError.message : LoadError → String
  | .unreadable path cause => "Could not open image file '" ++ path ++ "': " ++ cause.message
  | .missingOrigin path => "Image '" ++ path ++ "' is missing its 2 byte origin header"

/-- What lies behind a load error, each cause in its own words. -/
def LoadError.causes : LoadError → List String
  | .unreadable _ cause => [cause.message]
  | .missingOrigin _ => []

/-! ### Byte order -/

/-- Which byte of a word the host keeps first. -/
inductive ByteOrder where
  /-- The less significant byte. -/
  | little
  /-- The more significant byte. -/
  | big
deriving Repr, DecidableEq

namespace ByteOrder

/-- The word that two bytes are to the host. -/
def native (order : ByteOrder) (first second : Byte) : Word :=
  match order with
  | little => .ofBytes second first
  | big => .ofBytes first second

/-- The word that a big-endian word stands for which the host took for one of its own. -/
def fromBig (order : ByteOrder) (w : Word) : Word :=
  match order with
  | little => .ofBytes w.low w.high
  | big => w

/-- Two bytes of a file stand for the same word on every host. -/
@[simp] theorem fromBig_native (order : ByteOrder) (first second : Byte) :
    order.fromBig (order.native first second) = .ofBytes first second := by
  cases order with
  | little => rw [native, fromBig, Word.low_ofBytes, Word.high_ofBytes]
  | big => rfl

/-- Zero is zero in either order of bytes. -/
@[simp] theorem fromBig_zero (order : ByteOrder) : order.fromBig 0 = 0 := by
  cases order <;> rfl

end ByteOrder

/-! ### Reading an image -/

/-- The raw words of bytes, two for each. -/
def rawWords (order : ByteOrder) : List Byte → List Word
  | first :: second :: rest => order.native first second :: rawWords order rest
  | [first] => [order.native first 0]
  | [] => []

/-- The bytes of words, the high byte first. -/
def bytesOfWords (words : List Word) : List Byte := words.flatMap fun w => [w.high, w.low]

/-- The raw origin of an image and the raw words that go there. -/
def Image.layout? (image : Image) (order : ByteOrder) : Option (Word × List Word) :=
  match image.bytes with
  | first :: second :: payload => some (order.native first second, rawWords order payload)
  | _ => none

/-- Memory with nothing in it. -/
def Cells.blank : Cells := Vector.replicate memorySize 0

/-- The cells after words were put at an address and the ones after it; words beyond the end of
memory are dropped. -/
def Cells.placed (cells : Cells) (origin : Nat) : List Word → Cells
  | [] => cells
  | w :: rest =>
    if h : origin < memorySize then Cells.placed (cells.set origin w) (origin + 1) rest else cells

/-- An image in place: the cells with it, its origin, and what was noted on the way. -/
structure Placement where
  /-- The raw cells with the image in them. -/
  cells : Cells
  /-- The raw word for where the image went. -/
  rawOrigin : Word
  /-- What was noted. -/
  notices : List Notice

/-- Puts an image into raw cells at its origin. -/
def Image.place (image : Image) (order : ByteOrder) (role : ImageRole) (cells : Cells) :
    Except LoadError Placement :=
  match image.layout? order with
  | none => .error (.missingOrigin image.name)
  | some (rawOrigin, words) =>
    let origin := order.fromBig rawOrigin
    let truncated := memorySize - origin.toNat < words.length
    .ok { cells := cells.placed origin.toNat words
          rawOrigin
          notices := .loading role origin ::
            if truncated then [.truncated role image.name] else [] }

/-- Memory from raw cells with all images in place. -/
def Memory.ofRaw (order : ByteOrder) (cells : Cells) (entry : Word) : Memory :=
  { cells := cells.map order.fromBig, entry }

/-- Loads a program, over an operating system if one is given. What was noted is there also when
loading fails. -/
def Memory.load (program : Image) (system : Option Image) (order : ByteOrder := .little) :
    List Notice × Except LoadError Memory :=
  match system with
  | none =>
    match program.place order .program .blank with
    | .error e => ([], .error e)
    | .ok placed =>
      (placed.notices, .ok (.ofRaw order placed.cells (order.fromBig placed.rawOrigin)))
  | some system =>
    match system.place order .system .blank with
    | .error e => ([], .error e)
    | .ok below =>
      match program.place order .program below.cells with
      | .error e => (below.notices, .error e)
      | .ok placed =>
        (below.notices ++ placed.notices,
          .ok (.ofRaw order (placed.cells.set userEntryCell placed.rawOrigin) supervisorEntry))

/-! ### What is in the cells -/

/-- A cell that words were placed over holds the word that reaches it; any other keeps its own. -/
theorem Cells.placed_getElem (words : List Word) (cells : Cells) (origin a : Nat)
    (ha : a < memorySize) :
    (cells.placed origin words)[a] =
      if origin ≤ a then words[a - origin]?.getD cells[a] else cells[a] := by
  induction words generalizing cells origin with
  | nil => simp [placed]
  | cons w rest ih =>
    unfold placed
    split
    · rw [ih]
      by_cases h₁ : origin + 1 ≤ a
      · have h₂ : a - origin = a - (origin + 1) + 1 := by omega
        have h₃ : origin ≠ a := by omega
        simp [h₁, h₂, h₃, show origin ≤ a by omega]
      · by_cases h₂ : origin = a
        · subst h₂
          simp [h₁]
        · have h₃ : ¬ origin ≤ a := by omega
          simp [h₁, h₂, h₃]
    · next h => simp [show ¬ origin ≤ a by omega]

end ClockStep
