import ClockStep.Proofs.Assembly

/-!
# What a Disassembly Tells

A disassembly tells the opcode of a word and every bit that the opcode uses, and nothing else. The
bits that are not used are listed by opcode (`Word.Unused`), from the layout of the instructions and
not from how they are decoded; two instructions leave different bits unused in their two modes, and
the bit that tells the mode is used in both.

The two sides meet in the **canonical** word of an instruction, the one that the assembler makes: it
is the word itself with the unused bits at zero (`bit_canonical`), and two words have the same
disassembly exactly when they have the same canonical word (`disassembly_eq_iff`). The first is a
statement about bits, the second one about texts; the theorem puts them together.

## Main results

* `bit_canonical`: what is left of a word when it is disassembled and assembled again.
* `disassembly_faithful`: when two words have the same disassembly, and what is recovered from it.
-/

namespace ClockStep

open Instruction

/-- No two numbers have the same opcode. -/
theorem Opcode.number_table (number : BitVec 4) : Opcode.table[number.toFin].number = number := by
  revert number
  decide

namespace Word

/-- The bits that the opcode of a word does not use. The second operand of an addition or
conjunction, and the destination of a call, leave different bits unused in their two modes. -/
def Unused (w : Word) (index : Nat) : Prop :=
  match w.opcode with
  | .add | .and => w.bit 5 = false ∧ 3 ≤ index ∧ index ≤ 4
  | .jsr => w.bit 11 = false ∧ (9 ≤ index ∧ index ≤ 10 ∨ index ≤ 5)
  | .not => index ≤ 5
  | .jmp => 9 ≤ index ∧ index ≤ 11 ∨ index ≤ 5
  | .trap => 8 ≤ index ∧ index ≤ 11
  | .rti | .reserved => index ≤ 11
  | .br | .ld | .ldi | .lea | .ldr | .st | .sti | .str => False

/-- The word that is made of the disassembly of a word. -/
def canonical (w : Word) : Word := encode (decode w)

/-! ### What is kept of a word -/

/-- `Keeps w unused first kept`: read as bits from `first` upwards, `kept` is what is left of `w`
with the bits that are unused at zero. -/
def Keeps (w : Word) (unused : Nat → Prop) (first : Nat) {width : Nat} (kept : BitVec width) :
    Prop :=
  ∀ index < width,
    kept.getLsbD index = true ↔ w.bit (first + index) = true ∧ ¬ unused (first + index)

namespace Keeps

variable {w : Word} {unused : Nat → Prop} {first : Nat}

/-- A field is kept as a whole. -/
theorem field {width : Nat} (h : ∀ index < width, ¬ unused (first + index)) :
    w.Keeps unused first (w.field first width) := by
  intro index hindex
  rw [Word.field, bit, BitVec.getLsbD_extractLsb', decide_eq_true hindex, Bool.true_and]
  exact (and_iff_left (h index hindex)).symm

/-- Zeros are what is kept of bits that are unused. -/
theorem zero {width : Nat} (h : ∀ index < width, unused (first + index)) :
    w.Keeps unused first (BitVec.ofNat width 0) := by
  intro index hindex
  rw [BitVec.getLsbD_zero]
  exact iff_of_false Bool.false_ne_true fun hkept => hkept.2 (h index hindex)

/-- A bit that is known needs no field. -/
theorem ofBool {b : Bool} (hbit : w.bit first = b) (h : ¬ unused first) :
    w.Keeps unused first (BitVec.ofBool b) := by
  intro index hindex
  obtain rfl : index = 0 := by omega
  rw [Nat.add_zero, hbit, and_iff_left h]
  cases b <;> rfl

/-- Fields side by side keep a word if each keeps its own bits. -/
theorem append {m n : Nat} {front : BitVec m} {rest : BitVec n}
    (hfront : w.Keeps unused (first + n) front) (hrest : w.Keeps unused first rest) :
    w.Keeps unused first (front ++ rest) := by
  intro index hindex
  rw [BitVec.getLsbD_append]
  split
  · next hlow => exact hrest index hlow
  · have h := hfront (index - n) (by omega)
    rwa [show first + n + (index - n) = first + index by omega] at h

end Keeps

/-- The mode decides what is kept of a second operand. -/
theorem keeps_operand {w : Word} {unused : Nat → Prop}
    (h : ∀ index < 6, unused index ↔ w.bit 5 = false ∧ 3 ≤ index ∧ index ≤ 4) :
    w.Keeps unused 0 (operandBits w.operand) := by
  rw [operand, isImmediate]
  cases hmode : w.bit 5 with
  | true =>
      rw [if_pos rfl]
      refine .append (.ofBool hmode ?_) (.field fun index hindex => ?_)
      all_goals
        rw [h _ (by omega), hmode]
        exact fun hunused => Bool.false_ne_true hunused.1.symm
  | false =>
      rw [if_neg (by decide)]
      -- of the three zeros in front, the first one is the mode and the others are unused
      change w.Keeps unused 0 ((BitVec.ofBool false ++ 0#2) ++ w.lowerRegister)
      refine .append (.append (.ofBool hmode ?_) (.zero fun index hindex => ?_))
        (.field fun index hindex => ?_)
      all_goals
        rw [h _ (by omega), hmode]
        simp only [eq_self, true_and]
        omega

/-- A word is decoded to an instruction with its opcode. -/
theorem opcode_decode (w : Word) : (decode w).opcode = w.opcode := by
  rw [decode]
  cases w.opcode with
  | jsr => dsimp only; split <;> rfl
  | _ => rfl

/-- **Below the opcode, an instruction keeps of its word what the opcode uses.** -/
theorem keeps_operands (w : Word) : w.Keeps w.Unused 0 (decode w).operands := by
  rw [decode]
  cases hopcode : w.opcode with
  | br =>
      have hused (index : Nat) : ¬ w.Unused index := by simp [Unused, hopcode]
      refine .append (.append ?_ (.append ?_ ?_)) (.field fun index _ => hused _)
      · exact .ofBool rfl (hused 11)
      · exact .ofBool rfl (hused 10)
      · exact .ofBool rfl (hused 9)
  | ld | ldi | lea | st | sti =>
      have hused (index : Nat) : ¬ w.Unused index := by simp [Unused, hopcode]
      exact .append (.field fun index _ => hused _) (.field fun index _ => hused _)
  | ldr | str =>
      have hused (index : Nat) : ¬ w.Unused index := by simp [Unused, hopcode]
      exact .append (.field fun index _ => hused _)
        (.append (.field fun index _ => hused _) (.field fun index _ => hused _))
  | add | and =>
      have hunused (index : Nat) :
          w.Unused index ↔ w.bit 5 = false ∧ 3 ≤ index ∧ index ≤ 4 := by
        rw [Unused, hopcode]
      refine .append (.field fun index hindex => ?_) (.append (.field fun index hindex => ?_)
        (keeps_operand fun index _ => hunused index))
      all_goals
        rw [hunused]
        omega
  | not =>
      have hunused (index : Nat) : w.Unused index ↔ index ≤ 5 := by rw [Unused, hopcode]
      refine .append (.field fun index hindex => ?_)
        (.append (.field fun index hindex => ?_) (.zero fun index hindex => ?_))
      all_goals
        rw [hunused]
        omega
  | jsr =>
      have hunused (index : Nat) :
          w.Unused index ↔ w.bit 11 = false ∧ (9 ≤ index ∧ index ≤ 10 ∨ index ≤ 5) := by
        rw [Unused, hopcode]
      cases hmode : w.bit 11 with
      | true =>
          refine .append (.ofBool hmode ?_) (.field fun index hindex => ?_)
          all_goals
            rw [hunused, hmode]
            exact fun h => Bool.false_ne_true h.1.symm
      | false =>
          -- as in a second operand, the first one of the zeros in front is the mode
          change w.Keeps _ 0 ((BitVec.ofBool false ++ 0#2) ++ (w.middleRegister ++ 0#6))
          refine .append (.append (.ofBool hmode ?_) (.zero fun index hindex => ?_))
            (.append (.field fun index hindex => ?_) (.zero fun index hindex => ?_))
          all_goals
            rw [hunused, hmode]
            simp only [eq_self, true_and]
            omega
  | jmp =>
      have hunused (index : Nat) : w.Unused index ↔ 9 ≤ index ∧ index ≤ 11 ∨ index ≤ 5 := by
        rw [Unused, hopcode]
      refine .append (.zero fun index hindex => ?_)
        (.append (.field fun index hindex => ?_) (.zero fun index hindex => ?_))
      all_goals
        rw [hunused]
        omega
  | trap =>
      have hunused (index : Nat) : w.Unused index ↔ 8 ≤ index ∧ index ≤ 11 := by
        rw [Unused, hopcode]
      refine .append (.zero fun index hindex => ?_) (.field fun index hindex => ?_)
      all_goals
        rw [hunused]
        omega
  | rti | reserved =>
      have hunused (index : Nat) : w.Unused index ↔ index ≤ 11 := by rw [Unused, hopcode]
      refine .zero fun index hindex => ?_
      rw [hunused]
      omega

/-! ### The canonical word -/

/-- No opcode leaves bits of its own unused. -/
theorem lt_of_unused {w : Word} {index : Nat} (h : w.Unused index) : index < 12 := by
  cases hopcode : w.opcode <;> simp only [Unused, hopcode] at h <;> omega

/-- **What is disassembled and assembled again has lost the unused bits only**: they are zero. -/
theorem bit_canonical {w : Word} {index : Nat} (h : index < 16) :
    w.canonical.bit index = true ↔ w.bit index = true ∧ ¬ w.Unused index := by
  have hopcode : w.Keeps w.Unused 12 (decode w).opcode.number := by
    rw [opcode_decode, opcode, Opcode.number_table]
    refine .field fun index _ hunused => ?_
    have hlt := lt_of_unused hunused
    omega
  have hbits := hopcode.append w.keeps_operands index h
  rwa [Nat.zero_add] at hbits

/-- The canonical word has the opcode of the word. -/
theorem opcode_canonical (w : Word) : w.canonical.opcode = w.opcode := by
  rw [canonical, opcode_encode, opcode_decode]

/-- A word is determined by its bits. -/
theorem eq_of_bit_eq {v w : Word} (h : ∀ index < 16, v.bit index = w.bit index) : v = w :=
  UInt16.toBitVec_inj.1 (BitVec.eq_of_getLsbD_eq h)

/-- The bit that tells the mode of an instruction is used, so words that agree on the bits that both
of them use leave the same bits unused. -/
theorem unused_congr {v w : Word} (hopcode : v.opcode = w.opcode)
    (hbits : ∀ index < 16, ¬ v.Unused index → ¬ w.Unused index → v.bit index = w.bit index)
    (index : Nat) : v.Unused index ↔ w.Unused index := by
  simp only [Unused, hopcode] at hbits ⊢
  generalize w.opcode = opcode at hbits
  cases opcode with
  | add | and => rw [hbits 5 (by decide) (by simp) (by simp)]
  | jsr => rw [hbits 11 (by decide) (by simp) (by simp)]
  | _ => exact Iff.rfl

/-! ### Disassembling and assembling -/

/-- What a word disassembles to is assembled to its canonical word. -/
theorem assemble?_disassembly (w : Word) : assemble? w.disassembly = some w.canonical := by
  rw [assemble?, disassembly, read?_text]
  rfl

/-- The canonical word is decoded to the same instruction. -/
theorem decode_canonical (w : Word) : decode w.canonical = decode w := decode_encode _

/-- Two words disassemble alike exactly when they have the same canonical word. -/
theorem disassembly_eq_iff {v w : Word} :
    v.disassembly = w.disassembly ↔ v.canonical = w.canonical := by
  constructor
  · intro h
    have hassembled : assemble? v.disassembly = assemble? w.disassembly := by rw [h]
    rw [assemble?_disassembly, assemble?_disassembly] at hassembled
    exact Option.some.inj hassembled
  · intro h
    rw [disassembly, disassembly, ← decode_canonical v, ← decode_canonical w, h]

/-- Two words have the same canonical word when they agree on the opcode and the bits it uses. -/
theorem canonical_eq_iff {v w : Word} :
    v.canonical = w.canonical ↔
      v.opcode = w.opcode ∧ ∀ index < 16, ¬ v.Unused index → v.bit index = w.bit index := by
  constructor
  · intro h
    have hopcode : v.opcode = w.opcode := by rw [← opcode_canonical v, h, opcode_canonical]
    have hboth : ∀ index < 16, ¬ v.Unused index → ¬ w.Unused index →
        v.bit index = w.bit index := by
      intro index hindex hv hw
      rw [Bool.eq_iff_iff, ← and_iff_left (a := v.bit index = true) hv,
        ← and_iff_left (a := w.bit index = true) hw, ← bit_canonical hindex, ← bit_canonical hindex,
        h]
    refine ⟨hopcode, fun index hindex hv => hboth index hindex hv ?_⟩
    rwa [← unused_congr hopcode hboth]
  · rintro ⟨hopcode, hbits⟩
    have hunused := unused_congr hopcode fun index hindex hv _ => hbits index hindex hv
    refine eq_of_bit_eq fun index hindex => ?_
    rw [Bool.eq_iff_iff, bit_canonical hindex, bit_canonical hindex, ← hunused]
    refine and_congr_left fun hv => ?_
    rw [hbits index hindex hv]

/-- **A disassembly tells the opcode of a word, each bit that the opcode uses, and nothing else.**
-/
theorem disassembly_faithful :
    (∀ v w : Word, v.disassembly = w.disassembly ↔
      v.opcode = w.opcode ∧ ∀ index < 16, ¬ v.Unused index → v.bit index = w.bit index) ∧
    ∀ w : Word, ∃ w', assemble? w.disassembly = some w' ∧ decode w' = decode w ∧
      w'.opcode = w.opcode ∧
      ∀ index < 16, (w'.bit index = true ↔ w.bit index = true ∧ ¬ w.Unused index) := by
  refine ⟨fun v w => disassembly_eq_iff.trans canonical_eq_iff, fun w => ?_⟩
  exact ⟨w.canonical, assemble?_disassembly w, decode_canonical w, opcode_canonical w,
    fun index hindex => bit_canonical hindex⟩

/-- Bit 4 is not used in this mode, and it is lost. -/
example : (0x1293 : Word).disassembly = "ADD DR=R1, SR1=R2, SR2=R3" ∧
    assemble? "ADD DR=R1, SR1=R2, SR2=R3" = some 0x1283 := by
  decide

end Word

end ClockStep
