import ClockStep.Text.Basic
import ClockStep.Word

/-!
# Memory

Memory is one array of 65536 words, whose size is part of its type, together with the address that
the machine starts from. Addresses in requests are natural numbers of any size, and one beyond the
array is refused; the machine's own addresses are words and always lie inside.

Each word is also two bytes, the more significant one at the even byte address.

## Main results

* `slice_eq_extract`: the bounds of a slice do not overflow, wherever it starts and however long it
  is to be.
-/

namespace ClockStep

/-- The number of words in memory. -/
abbrev memorySize : Nat := 65536

/-- The words of memory, by address. -/
abbrev Cells := Vector Word memorySize

/-- Memory: its words and the entry point found when it was loaded. -/
structure Memory where
  /-- The words by address. -/
  cells : Cells
  /-- The address that the machine starts from. -/
  entry : Word

/-- An access outside of memory. -/
inductive MemoryError where
  | outOfRange (address size : Nat)
deriving Repr, DecidableEq

/-- The wording of a memory error. -/
def MemoryError.message : MemoryError → String
  | .outOfRange address size =>
    "Address 0x" ++ Text.hexPadded 4 address ++ " is out of range, memory holds 0x" ++
      Text.hex size ++ " words"

/-- What the core asks of memory in one access. -/
structure MemoryRequest where
  /-- Whether there is a request at all. -/
  enable : Bool := false
  /-- Whether the word is to be replaced. -/
  write : Bool := false
  /-- The word's address. -/
  address : Word := 0
  /-- The word to write. -/
  dataIn : Word := 0
deriving Repr, DecidableEq

/-- Memory's answer to an access. -/
structure MemoryResponse where
  /-- The word that stood at the address. -/
  dataOut : Word := 0
  /-- Set when there was a request. -/
  ready : Bool := false
deriving Repr, DecidableEq

namespace Memory

/-- Memory is shown by its size and entry point. -/
def inspection (m : Memory) : String :=
  "Memory \x7b words: 0x" ++ Text.hex memorySize ++ ", entry_point: x" ++ Text.hexWord m.entry ++
    " \x7d"

/-! ### Words -/

/-- The word at an address of the machine. -/
def get (m : Memory) (address : Word) : Word := m.cells.get ⟨address.toNat, address.toNat_lt⟩

/-- Replaces the word at an address of the machine. -/
def set (m : Memory) (address value : Word) : Memory :=
  { m with cells := m.cells.set address.toNat value address.toNat_lt }

/-- Refuses an address outside of memory. -/
def refuse {α : Type} (address : Nat) : Except MemoryError α :=
  .error (.outOfRange address memorySize)

/-- The word at an address. -/
def read (m : Memory) (address : Nat) : Except MemoryError Word :=
  if h : address < memorySize then .ok m.cells[address] else refuse address

/-- Replaces the word at an address: what the call answers, and what memory is then. -/
def writeInPlace (m : Memory) (address : Nat) (value : Word) : Except MemoryError Unit × Memory :=
  if h : address < memorySize then (.ok (), { m with cells := m.cells.set address value })
  else (refuse address, m)

/-- Memory with the word at an address replaced, or why there is none to replace. -/
def write (m : Memory) (address : Nat) (value : Word) : Except MemoryError Memory :=
  match m.writeInPlace address value with
  | (.ok (), m) => .ok m
  | (.error e, _) => .error e

/-- A sum of addresses, which have 64 bits; one that needs more becomes the largest of them. -/
def saturatingAdd (a b : Nat) : Nat := min (a + b) (UInt64.size - 1)

/-- At most `count` words from `start` on, cut off at the end of memory. -/
def slice (m : Memory) (start count : Nat) : List Word :=
  let first := min start memorySize
  let last := min (saturatingAdd first count) memorySize
  (m.cells.toArray.extract first last).toList

/-- The addresses that hold a word other than zero, in ascending order, with these words. -/
def nonzero (m : Memory) : List (Nat × Word) :=
  (m.cells.toList.zipIdx.filter fun cell => cell.1 != 0).map fun cell => (cell.2, cell.1)

/-! ### Bytes -/

/-- The byte at a byte address; an address outside is reported as that of its word. -/
def readByte (m : Memory) (byteAddress : Nat) : Except MemoryError Byte := do
  let word ← m.read (byteAddress / 2)
  return if byteAddress % 2 = 0 then word.high else word.low

/-- Replaces the byte at a byte address and keeps the other byte of its word: what the call answers,
and what memory is then. -/
def writeByteInPlace (m : Memory) (byteAddress : Nat) (value : Byte) :
    Except MemoryError Unit × Memory :=
  match m.read (byteAddress / 2) with
  | .ok word =>
    m.writeInPlace (byteAddress / 2)
      (if byteAddress % 2 = 0 then .ofBytes value word.low else .ofBytes word.high value)
  | .error e => (.error e, m)

/-- Memory with the byte at a byte address replaced, or why there is none to replace. -/
def writeByte (m : Memory) (byteAddress : Nat) (value : Byte) : Except MemoryError Memory :=
  match m.writeByteInPlace byteAddress value with
  | (.ok (), m) => .ok m
  | (.error e, _) => .error e

/-! ### The core's access -/

/-- Serves an access of the core: the answer is the word from before it. -/
def access (m : Memory) (request : MemoryRequest) : MemoryResponse × Memory :=
  if request.enable then
    let response := { dataOut := m.get request.address, ready := true }
    (response, if request.write then m.set request.address request.dataIn else m)
  else ({}, m)

/-! ### Inside memory and outside -/

/-- An address inside is read as its word. -/
theorem read_of_lt {m : Memory} {a : Nat} (h : a < memorySize) : m.read a = .ok m.cells[a] :=
  dif_pos h

/-- An address outside is refused. -/
theorem read_of_not_lt {m : Memory} {a : Nat} (h : ¬ a < memorySize) : m.read a = refuse a :=
  dif_neg h

/-- A write inside replaces the word at its address. -/
theorem writeInPlace_of_lt {m : Memory} {a : Nat} (h : a < memorySize) (v : Word) :
    m.writeInPlace a v = (.ok (), { m with cells := m.cells.set a v }) :=
  dif_pos h

/-- An address outside of memory is not written to, and nothing changes. -/
theorem writeInPlace_of_not_lt {m : Memory} {a : Nat} (h : ¬ a < memorySize) (v : Word) :
    m.writeInPlace a v = (refuse a, m) :=
  dif_neg h

/-- The bounds of a slice saturate and are clamped; what lies between them is what lies between
`start` and `start + count`. -/
theorem slice_eq_extract (m : Memory) (start count : Nat) :
    m.slice start count = (m.cells.toArray.extract start (start + count)).toList := by
  refine List.ext_getElem? fun i => ?_
  simp only [slice, saturatingAdd, Array.getElem?_toList, Array.getElem?_extract,
    Vector.size_toArray]
  have hwide : memorySize < UInt64.size := by decide
  by_cases hstart : start < memorySize
  · rw [Nat.min_eq_left (Nat.le_of_lt hstart)]
    congr 2
    omega
  · rw [if_neg (by omega), if_neg (by omega)]

end Memory

end ClockStep
