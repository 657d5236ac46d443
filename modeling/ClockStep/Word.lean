/-!
# Words, and computations without a result

The machine's words have 16 bits, its bytes 8. A **field** of a word is a run of bits, given by its
lowest bit and its width; read as a signed number it is in two's complement.

A **fault** is a computation that has no result: an unsigned 32-bit operation that leaves its
range, or a bit field that does not lie inside a word. The namespace `Checked` holds the 32-bit
operations that report one.

## Main results

* `ofBytes_high_low`: a word is put together from its two bytes.
-/

/-! ### Faults -/

namespace ClockStep

/-- Why a computation has no result. -/
inductive Fault where
  /-- A sum needs more than 32 bits. -/
  | sumTooLarge
  /-- A difference is negative. -/
  | differenceNegative
  /-- A product needs more than 32 bits. -/
  | productTooLarge
  /-- A division by zero. -/
  | zeroDivisor
  /-- A range of bits that ends before it starts. -/
  | reversedRange (first last : Nat)
  /-- A range of bits that ends beyond the word. -/
  | bitBeyondWord (last : Nat)
  /-- A field to extend that is empty or wider than the word. -/
  | badWidth
deriving Repr, DecidableEq

/-- What is reported for a fault. -/
def Fault.message : Fault → String
  | .sumTooLarge => "attempt to add with overflow"
  | .differenceNegative => "attempt to subtract with overflow"
  | .productTooLarge => "attempt to multiply with overflow"
  | .zeroDivisor => "attempt to divide by zero"
  | .reversedRange first last =>
    "wrong direction of from: " ++ toString first ++ " and to: " ++ toString last
  | .bitBeyondWord last => "index: " ++ toString last ++ " to u16 is greater than maximum value 15"
  | .badWidth => "width must be within 1..=16"

/-! ### Checked 32-bit arithmetic

Operands and results are numbers below `UInt32.size`. -/

namespace Checked

/-- The sum, if it has 32 bits. -/
def add (a b : Nat) : Except Fault Nat :=
  if a + b < UInt32.size then .ok (a + b) else .error .sumTooLarge

/-- The difference, if it is not negative. -/
def sub (a b : Nat) : Except Fault Nat :=
  if b ≤ a then .ok (a - b) else .error .differenceNegative

/-- The product, if it has 32 bits. -/
def mul (a b : Nat) : Except Fault Nat :=
  if a * b < UInt32.size then .ok (a * b) else .error .productTooLarge

/-- The quotient rounded down, if there is one. -/
def div (a b : Nat) : Except Fault Nat :=
  if b = 0 then .error .zeroDivisor else .ok (a / b)

end Checked

end ClockStep

/-! ### Words -/

namespace ClockStep

/-- A machine word. -/
abbrev Word := UInt16

/-- A byte. -/
abbrev Byte := UInt8

namespace Word

/-- The word with the given high and low byte. -/
def ofBytes (high low : Byte) : Word := UInt16.ofNat (256 * high.toNat + low.toNat)

/-- The more significant byte. -/
def high (w : Word) : Byte := UInt8.ofNat (w.toNat / 256)

/-- The less significant byte. -/
def low (w : Word) : Byte := UInt8.ofNat (w.toNat % 256)

/-- The `width` bits of `w` from bit `first` upwards. -/
def field (w : Word) (first width : Nat) : BitVec width := w.toBitVec.extractLsb' first width

/-- Whether the bit with the given index is set. -/
def bit (w : Word) (index : Nat) : Bool := w.toBitVec.getLsbD index

/-- Ones in the lowest `width` places and zeros above them. They are one less than a power of two
that may have no place in a word, so they are worked out with 32 bits. -/
def lowOnes (width : Nat) : BitVec 16 := ((1#32 <<< width) - 1#32).setWidth 16

/-- The bits from index `first` to index `last`, both included: a shift brings them to the lowest
places, and what is above them is masked. A range is refused when it is reversed, which is looked at
first, or when it ends beyond bit 15. -/
def bitRange (w : Word) (first last : Nat) : Except Fault Nat :=
  if last < first then .error (.reversedRange first last)
  else if 15 < last then .error (.bitBeyondWord last)
  else .ok (w.toBitVec >>> first &&& lowOnes (last - first + 1)).toNat

/-- The lowest `width` bits as a signed number; the bits above them do not matter. A shift pushes
those out, and a shift back fills their places with the sign. -/
def signExtend (w : Word) (width : Nat) : Except Fault Int :=
  if 0 < width ∧ width ≤ 16 then
    .ok ((w.toBitVec <<< (16 - width)).sshiftRight (16 - width)).toInt
  else .error .badWidth

/-! ### Words and bytes -/

/-- The high byte counts 256 times. -/
theorem toNat_ofBytes (high low : Byte) :
    (ofBytes high low).toNat = 256 * high.toNat + low.toNat := by
  have h₁ := high.toNat_lt
  have h₂ := low.toNat_lt
  simp [ofBytes]
  omega

/-- The high byte is the quotient by 256. -/
theorem toNat_high (w : Word) : w.high.toNat = w.toNat / 256 := by
  have h := w.toNat_lt
  simp [high]
  omega

/-- The low byte is the remainder by 256. -/
theorem toNat_low (w : Word) : w.low.toNat = w.toNat % 256 := by
  simp [low]

/-- A word is put together from its two bytes. -/
theorem ofBytes_high_low (w : Word) : ofBytes w.high w.low = w := by
  apply UInt16.toNat_inj.1
  rw [toNat_ofBytes, toNat_high, toNat_low]
  omega

/-- The high byte is read back. -/
theorem high_ofBytes (high low : Byte) : (ofBytes high low).high = high := by
  apply UInt8.toNat_inj.1
  have h := low.toNat_lt
  rw [toNat_high, toNat_ofBytes]
  omega

/-- The low byte is read back. -/
theorem low_ofBytes (high low : Byte) : (ofBytes high low).low = low := by
  apply UInt8.toNat_inj.1
  have h := low.toNat_lt
  rw [toNat_low, toNat_ofBytes]
  omega

end Word

end ClockStep
