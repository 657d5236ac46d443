import ClockStep.Instruction.Basic
import Mathlib.Data.Int.ModEq

/-!
# Bit Fields as Numbers

The bits of a word from one index to another are read with a shift and a mask, and the lowest bits
are read as a signed number with a shift to the left and an arithmetic one back. This module says
which numbers these are, by division and congruence, and that the readers agree with each other and
with the fields that an instruction is decoded from.

A signed number of `width` bits is told by two things: it lies in the range of this width, and it is
congruent to the word (`IsSigned`). There is one such number, and it is the balanced remainder of
the word (`isSigned_iff`).

## Convention

Indexes and widths are any numbers; those that do not fit into a word are refused.

## Main results

* `toNat_field`, `toInt_field`: fields by division and by the balanced remainder.
* `bitRange_eq`, `signExtend_eq`: the readers by shifts give the fields.
* `bitRange_eq_ok_iff`, `signExtend_eq_ok_iff`: they answer exactly on ranges and widths that lie
  inside a word.
* `bit_fields_exact`: when the readers refuse, and what they give otherwise.
-/

namespace ClockStep.Word

variable {w : Word} {first last width : Nat}

/-! ### Fields -/

/-- A field is a quotient by a power of two, and a remainder by another. -/
theorem toNat_field (w : Word) (first width : Nat) :
    (w.field first width).toNat = w.toNat / 2 ^ first % 2 ^ width := by
  rw [field, BitVec.extractLsb'_toNat, Nat.shiftRight_eq_div_pow]
  rfl

/-- Read as signed, the low bits are the balanced remainder. -/
theorem toInt_field (w : Word) (width : Nat) :
    (w.field 0 width).toInt = Int.bmod w.toNat (2 ^ width) := by
  rw [field, BitVec.toInt_extractLsb', Nat.shiftRight_zero]
  rfl

/-! ### Ranges -/

/-- The mask of low bits is one less than a power of two. -/
theorem toNat_lowOnes (h : width ≤ 16) : (lowOnes width).toNat = 2 ^ width - 1 := by
  have hle : 2 ^ width ≤ 2 ^ 16 := Nat.pow_le_pow_right (by decide) h
  have hpos : 0 < 2 ^ width := Nat.two_pow_pos width
  rw [lowOnes, BitVec.toNat_setWidth, BitVec.toNat_sub, BitVec.toNat_shiftLeft]
  simp only [BitVec.toNat_ofNat, Nat.shiftLeft_eq]
  omega

/-- A shift and a mask make a field. -/
theorem toNat_shift_mask (w : Word) (first : Nat) (h : width ≤ 16) :
    (w.toBitVec >>> first &&& lowOnes width).toNat = (w.field first width).toNat := by
  rw [BitVec.toNat_and, toNat_lowOnes h, Nat.and_two_pow_sub_one_eq_mod, BitVec.toNat_ushiftRight,
    Nat.shiftRight_eq_div_pow, toNat_field]
  rfl

/-- What is read of a range, when it is not refused, is a field. -/
theorem bitRange_eq (w : Word) (first last : Nat) :
    w.bitRange first last =
      if last < first then .error (.reversedRange first last)
      else if 15 < last then .error (.bitBeyondWord last)
      else .ok (w.field first (last - first + 1)).toNat := by
  rw [bitRange]
  split_ifs with hreversed hbeyond
  · rfl
  · rfl
  · rw [toNat_shift_mask w first (by omega)]

/-- A range is read exactly when it runs upwards inside the word. -/
theorem bitRange_eq_ok_iff {n : Nat} :
    w.bitRange first last = .ok n ↔
      first ≤ last ∧ last ≤ 15 ∧ n = (w.field first (last - first + 1)).toNat := by
  rw [bitRange_eq]
  split_ifs with hreversed hbeyond
  · exact iff_of_false nofun fun h => absurd h.1 (Nat.not_le.2 hreversed)
  · exact iff_of_false nofun fun h => absurd h.2.1 (Nat.not_le.2 hbeyond)
  · rw [Except.ok.injEq, eq_comm]
    exact ⟨fun h => ⟨Nat.not_lt.1 hreversed, Nat.not_lt.1 hbeyond, h⟩, fun h => h.2.2⟩

/-! ### Signed numbers -/

/-- A number is the lowest `width` bits of a word in two's complement. -/
structure IsSigned (w : Word) (width : Nat) (v : Int) : Prop where
  lower : -2 ^ (width - 1) ≤ v
  upper : v < 2 ^ (width - 1)
  congruent : v ≡ w.toNat [ZMOD 2 ^ width]

/-- **There is one such number.** -/
theorem isSigned_iff (h : 0 < width) {v : Int} :
    w.IsSigned width v ↔ v = (w.field 0 width).toInt := by
  have hhalf : 2 ^ width = 2 * 2 ^ (width - 1) := by
    rw [← pow_succ', Nat.sub_add_cancel h]
  have hhalf' : ((2 ^ width : Nat) : Int) = 2 * 2 ^ (width - 1) := by
    rw [hhalf]
    push_cast
    rfl
  rw [toInt_field, eq_comm, Int.bmod_eq_iff (Nat.two_pow_pos width), hhalf']
  have hcongruent : v ≡ w.toNat [ZMOD 2 ^ width] ↔ 2 * 2 ^ (width - 1) ∣ v - (w.toNat : Int) := by
    rw [Int.modEq_comm, Int.modEq_iff_dvd, ← hhalf']
    push_cast
    rfl
  constructor
  · rintro ⟨hlower, hupper, hcong⟩
    exact ⟨by omega, by omega, hcongruent.1 hcong⟩
  · rintro ⟨hlower, hupper, hcong⟩
    exact ⟨by omega, by omega, hcongruent.2 hcong⟩

/-- Shifted to the left, the bits above a field are gone, and shifted back arithmetically, the field
is a signed number. -/
theorem toInt_shift_back (w : Word) (h : 0 < width) (h' : width ≤ 16) :
    ((w.toBitVec <<< (16 - width)).sshiftRight (16 - width)).toInt = (w.field 0 width).toInt := by
  have hsplit : 2 ^ 16 = 2 ^ (16 - width) * 2 ^ width := by
    rw [← pow_add, Nat.sub_add_cancel h']
  have heven : 2 ∣ 2 ^ width := dvd_pow_self 2 h.ne'
  have hpos : 0 < 2 ^ (16 - width) := Nat.two_pow_pos _
  have hleft : (w.toBitVec <<< (16 - width)).toInt =
      (2 ^ (16 - width) : Nat) * Int.bmod w.toNat (2 ^ width) := by
    rw [← Int.mod_bmod_mul_of_pos _ _ hpos heven, ← hsplit, BitVec.toInt_shiftLeft,
      Nat.shiftLeft_eq, Nat.mul_comm]
    push_cast
    rfl
  rw [BitVec.toInt_sshiftRight, hleft, toInt_field, Int.shiftRight_eq_div_pow]
  exact Int.mul_ediv_cancel_left _ (by exact_mod_cast hpos.ne')

/-- What is read as a signed number, when the width is not refused, is a field. -/
theorem signExtend_eq (w : Word) (width : Nat) :
    w.signExtend width =
      if 0 < width ∧ width ≤ 16 then .ok (w.field 0 width).toInt else .error .badWidth := by
  rw [signExtend]
  split_ifs with hwidth
  · rw [toInt_shift_back w hwidth.1 hwidth.2]
  · rfl

/-- A field is extended exactly when it is not empty and lies inside the word. -/
theorem signExtend_eq_ok_iff {v : Int} :
    w.signExtend width = .ok v ↔ 0 < width ∧ width ≤ 16 ∧ v = (w.field 0 width).toInt := by
  rw [signExtend_eq]
  split_ifs with hwidth
  · rw [Except.ok.injEq, eq_comm]
    exact ⟨fun h => ⟨hwidth.1, hwidth.2, h⟩, fun h => h.2.2⟩
  · exact iff_of_false nofun fun h => hwidth ⟨h.1, h.2.1⟩

/-- Only widths of one to sixteen are extended. -/
theorem signExtend_eq_error_iff {fault : Fault} :
    w.signExtend width = .error fault ↔ fault = .badWidth ∧ (width = 0 ∨ 16 < width) := by
  rw [signExtend_eq]
  split_ifs with hwidth
  · exact iff_of_false nofun fun h => by omega
  · rw [Except.error.injEq, eq_comm, and_iff_left]
    omega

/-! ### Bits -/

/-- A single bit is a range. -/
theorem bitRange_self {index : Nat} (h : index ≤ 15) :
    w.bitRange index index = .ok (w.bit index).toNat := by
  refine bitRange_eq_ok_iff.2 ⟨le_rfl, h, ?_⟩
  rw [toNat_field, Nat.sub_self, zero_add, pow_one]
  exact Nat.toNat_testBit w.toNat index

/-- The highest bit of a field is its sign. -/
theorem toInt_field_eq_ite (w : Word) (h : 0 < width) :
    (w.field 0 width).toInt =
      (w.field 0 width).toNat - if w.bit (width - 1) then 2 ^ width else 0 := by
  have hmsb : (w.field 0 width).msb = w.bit (width - 1) := by
    rw [BitVec.msb_eq_getLsbD_last, field, BitVec.getLsbD_extractLsb', bit, zero_add,
      decide_eq_true (Nat.sub_lt h Nat.one_pos), Bool.true_and]
  rw [BitVec.toInt_eq_msb_cond, hmsb]
  split_ifs
  · push_cast
    rfl
  · rw [sub_zero]

/-! ### The readers -/

/-- **Bit fields and signed numbers are exact.** A range that is reversed is refused, and this is
looked at first; so is one that ends beyond the word; any other range is the word divided by a power
of two, and the remainder by another. A signed number is refused when its width is zero or more than
that of a word, and only then. Otherwise it is the one number of this width that is congruent to the
word, so that bits above it do not matter; it is the range of its bits, less a power of two if the
highest of them is set; and it is what an instruction has as an offset of this width, or as an
immediate. -/
theorem bit_fields_exact (w : Word) :
    (∀ first last : Nat, w.bitRange first last =
      if last < first then .error (.reversedRange first last)
      else if 15 < last then .error (.bitBeyondWord last)
      else .ok (w.toNat / 2 ^ first % 2 ^ (last - first + 1))) ∧
    (∀ index ≤ 15, w.bitRange index index = .ok (w.bit index).toNat) ∧
    (∀ width fault, w.signExtend width = .error fault ↔
      fault = .badWidth ∧ (width = 0 ∨ 16 < width)) ∧
    (∀ width, 0 < width → width ≤ 16 → ∃ (v : Int) (n : Nat),
      w.signExtend width = .ok v ∧ w.bitRange 0 (width - 1) = .ok n ∧
      (∀ v', w.IsSigned width v' ↔ v' = v) ∧
      (∀ w' : Word, w'.toNat ≡ w.toNat [MOD 2 ^ width] → w'.signExtend width = .ok v) ∧
      v = (n : Int) - (if w.bit (width - 1) then 2 ^ width else 0) ∧
      v = (w.field 0 width).toInt) ∧
    w.signExtend 5 = .ok w.immediate := by
  refine ⟨fun first last => ?_, fun index h => bitRange_self h,
    fun width fault => signExtend_eq_error_iff, fun width h h' => ?_, ?_⟩
  · rw [bitRange_eq, toNat_field]
  · have hrange : w.bitRange 0 (width - 1) = .ok (w.field 0 width).toNat := by
      refine bitRange_eq_ok_iff.2 ⟨Nat.zero_le _, by omega, ?_⟩
      rw [Nat.sub_zero, Nat.sub_add_cancel h]
    refine ⟨_, _, signExtend_eq_ok_iff.2 ⟨h, h', rfl⟩, hrange, fun v' => isSigned_iff h,
      fun w' hlow => signExtend_eq_ok_iff.2 ⟨h, h', ?_⟩, toInt_field_eq_ite w h, rfl⟩
    have hsame : (w'.field 0 width).toNat = (w.field 0 width).toNat := by
      rw [toNat_field, toNat_field, pow_zero, Nat.div_one, Nat.div_one]
      exact hlow
    rw [BitVec.eq_of_toNat_eq hsame]
  · exact signExtend_eq_ok_iff.2 ⟨by decide, by decide, rfl⟩

/-- All of a word is a range, and so is its highest bit; nine bits of which the highest is set are
negative whatever is above them, and seventeen are too many. -/
theorem bit_fields_exact_negative :
    (0xFF00 : Word).bitRange 0 15 = .ok 0xFF00 ∧ (0xFF00 : Word).bitRange 15 15 = .ok 1 ∧
      (0xFF00 : Word).signExtend 9 = .ok (-256) ∧
      (0xFF00 : Word).signExtend 17 = .error .badWidth := by
  obtain ⟨hrange, hbit, hrefused, hsigned, -⟩ := bit_fields_exact 0xFF00
  obtain ⟨v, n, hv, -, hunique, -⟩ := hsigned 9 (by decide) (by decide)
  have hbits : (0xFF00 : Word).IsSigned 9 (-256) := ⟨by decide, by decide, by decide⟩
  rw [hv, ← (hunique _).1 hbits]
  exact ⟨hrange 0 15, hbit 15 le_rfl, rfl, (hrefused 17 _).2 ⟨rfl, .inr (by decide)⟩⟩

end ClockStep.Word
