import ClockStep.Instruction.Basic

/-!
# Words of Instructions

`Instruction.encode` makes a word of an instruction: the number of its opcode, and below it the
operands where `Instruction.decode` finds them. A word may say more than its instruction does, in
bits that the opcode does not use; `encode` makes these bits zero.

## Main results

* `decode_encode`: the word of an instruction is decoded as this instruction.
-/

namespace ClockStep

/-- The number of an opcode. -/
def Opcode.number (opcode : Opcode) : BitVec 4 := .ofNat 4 opcode.ctorIdx

/-- Opcodes stand in their table in the order of their numbers. -/
theorem Opcode.table_number (opcode : Opcode) : Opcode.table[opcode.number.toFin] = opcode := by
  cases opcode <;> rfl

namespace Instruction

/-- The opcode of an instruction. -/
def opcode : Instruction → Opcode
  | branch .. => .br
  | add .. => .add
  | and .. => .and
  | not .. => .not
  | load .. => .ld
  | loadIndirect .. => .ldi
  | loadAddress .. => .lea
  | loadBased .. => .ldr
  | store .. => .st
  | storeIndirect .. => .sti
  | storeBased .. => .str
  | call .. | callRegister .. => .jsr
  | jump .. => .jmp
  | returnFromInterrupt => .rti
  | reserved => .reserved
  | trap .. => .trap

/-- Bits 11 to 0, of which `front` is the upper three. -/
def upper (front : BitVec 3) (rest : BitVec 9) : BitVec 12 := front ++ rest

/-- Bits 8 to 0, of which `front` is the upper three. -/
def middle (front : BitVec 3) (rest : BitVec 6) : BitVec 9 := front ++ rest

/-- Bits 5 to 0 of an addition or conjunction. -/
def operandBits : Operand → BitVec 6
  | .register source => 0#3 ++ source
  | .immediate value => 1#1 ++ value

/-- Bits 11 to 0 of an instruction. -/
def operands : Instruction → BitVec 12
  | branch n z p offset => upper (BitVec.ofBool n ++ (BitVec.ofBool z ++ BitVec.ofBool p)) offset
  | add target source operand | and target source operand =>
    upper target (middle source (operandBits operand))
  | not target source => upper target (middle source 0)
  | load r offset | loadIndirect r offset | loadAddress r offset | store r offset
  | storeIndirect r offset => upper r offset
  | loadBased r base offset | storeBased r base offset => upper r (middle base offset)
  | call offset => 1#1 ++ offset
  | callRegister base | jump base => upper 0 (middle base 0)
  | returnFromInterrupt | reserved => 0
  | trap vector => 0#4 ++ vector

/-- The word of an instruction. -/
def encode (i : Instruction) : Word := .ofBitVec (i.opcode.number ++ i.operands)

/-! ### Decoding a word that was made -/

/-- The bits of three behind nine. -/
theorem getLsbD_upper (front : BitVec 3) (rest : BitVec 9) (index : Nat) :
    (upper front rest).getLsbD index =
      if index < 9 then rest.getLsbD index else front.getLsbD (index - 9) :=
  BitVec.getLsbD_append

/-- The bits of three behind six. -/
theorem getLsbD_middle (front : BitVec 3) (rest : BitVec 6) (index : Nat) :
    (middle front rest).getLsbD index =
      if index < 6 then rest.getLsbD index else front.getLsbD (index - 6) :=
  BitVec.getLsbD_append

/-- The front of three bits before nine is read back. -/
theorem upper_front (front : BitVec 3) (rest : BitVec 9) :
    (upper front rest).extractLsb' 9 3 = front :=
  BitVec.extractLsb'_append_eq_left

/-- The front of three bits before six is read back. -/
theorem middle_front (front : BitVec 3) (rest : BitVec 6) :
    (middle front rest).extractLsb' 6 3 = front :=
  BitVec.extractLsb'_append_eq_left

/-- A field below the front is a field of the rest. -/
theorem upper_below (front : BitVec 3) (rest : BitVec 9) {first width : Nat}
    (h : first + width ≤ 9) :
    (upper front rest).extractLsb' first width = rest.extractLsb' first width :=
  BitVec.extractLsb'_append_eq_of_add_le h

/-- Below the front, the other bits are read back. -/
theorem middle_below (front : BitVec 3) (rest : BitVec 6) {first width : Nat}
    (h : first + width ≤ 6) :
    (middle front rest).extractLsb' first width = rest.extractLsb' first width :=
  BitVec.extractLsb'_append_eq_of_add_le h

/-- Below the opcode, the bits of an instruction are those of its operands. -/
theorem bit_encode (i : Instruction) {index : Nat} (h : index < 12) :
    i.encode.bit index = i.operands.getLsbD index := by
  rw [encode, Word.bit, BitVec.getLsbD_append, if_pos h]

/-- A field below the opcode is a field of the operands. -/
theorem field_encode (i : Instruction) {first width : Nat} (h : first + width ≤ 12) :
    i.encode.field first width = i.operands.extractLsb' first width :=
  BitVec.extractLsb'_append_eq_of_add_le h

/-- The opcode of an instruction is read back from its word. -/
theorem opcode_encode (i : Instruction) : i.encode.opcode = i.opcode := by
  have hfield : i.encode.field 12 4 = i.opcode.number := BitVec.extractLsb'_append_eq_left
  exact (congrArg (fun number : BitVec 4 => Opcode.table[number.toFin]) hfield).trans
    i.opcode.table_number

/-- The second operand is read back from behind the registers. -/
theorem operand_encode {i : Instruction} {target source : Register} {operand : Operand}
    (h : i.operands = upper target (middle source (operandBits operand))) :
    i.encode.operand = operand := by
  have hlow {width : Nat} (hw : width ≤ 6) :
      i.encode.field 0 width = (operandBits operand).extractLsb' 0 width := by
    rw [field_encode _ (by omega), h, upper_below _ _ (by omega), middle_below _ _ (by omega)]
  have hmode : i.encode.isImmediate = (operandBits operand).getLsbD 5 := by
    rw [Word.isImmediate, bit_encode _ (by decide), h, getLsbD_upper, getLsbD_middle]
    rfl
  rw [Word.operand, hmode, Word.lowerRegister, hlow (by decide), hlow (by decide)]
  cases operand with
  | register source =>
      rw [operandBits, BitVec.getLsbD_append, if_neg (by simp)]
      exact congrArg Operand.register BitVec.extractLsb'_append_eq_right
  | immediate value =>
      rw [operandBits, BitVec.getLsbD_append, if_pos (by simp)]
      exact congrArg Operand.immediate BitVec.extractLsb'_append_eq_right

/-- **The word of an instruction is decoded as this instruction.** -/
theorem decode_encode (i : Instruction) : decode i.encode = i := by
  rw [decode, opcode_encode]
  cases i with
  | branch n z p offset =>
      simp (disch := decide) only [opcode, bit_encode, field_encode, operands, upper_below,
        BitVec.extractLsb'_eq_self, getLsbD_upper, BitVec.getLsbD_append]
      simp
  | add target source operand =>
      have hoperand : (add target source operand).encode.operand = operand := operand_encode rfl
      simp (disch := decide) only [opcode, hoperand, Word.upperRegister, Word.middleRegister,
        field_encode, operands, upper_front, upper_below, middle_front]
  | and target source operand =>
      have hoperand : (and target source operand).encode.operand = operand := operand_encode rfl
      simp (disch := decide) only [opcode, hoperand, Word.upperRegister, Word.middleRegister,
        field_encode, operands, upper_front, upper_below, middle_front]
  | call offset =>
      have hmode : (call offset).encode.bit 11 = true := by
        rw [bit_encode _ (by decide), operands, BitVec.getLsbD_append]
        rfl
      have hoffset : (call offset).encode.field 0 11 = offset := by
        rw [field_encode _ (by decide)]
        exact BitVec.extractLsb'_append_eq_right
      simp only [opcode, hmode, hoffset, if_true]
  | callRegister base =>
      have hmode : (callRegister base).encode.bit 11 = false := by
        rw [bit_encode _ (by decide), operands, getLsbD_upper]
        rfl
      simp (disch := decide) only [opcode, hmode, Word.middleRegister, field_encode, operands,
        upper_below, middle_front]
      rfl
  | trap vector =>
      have hvector : (trap vector).encode.field 0 8 = vector := by
        rw [field_encode _ (by decide)]
        exact BitVec.extractLsb'_append_eq_right
      simp only [opcode, hvector]
  | _ =>
      simp (disch := decide) only [opcode, Word.upperRegister, Word.middleRegister, field_encode,
        operands, upper_front, upper_below, middle_front, middle_below, BitVec.extractLsb'_eq_self]

end Instruction

end ClockStep
