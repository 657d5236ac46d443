import ClockStep.Instruction.Text
import ClockStep.Proofs.Encoding
import Mathlib.Data.List.Basic

/-!
# Assembly

The way back from the text of an instruction to the instruction and its word. Reading knows nothing
of how a text came about: its beginning tells the format, the operands follow under their names, and
a text that goes on behind the last operand is refused, as is a number that does not fit its
operand.

## Main results

* `read?_append`: the beginning of a text is enough to tell its format.
* `read?_text`: the text of an instruction is read as this instruction.
-/

namespace ClockStep

open Text (digitValue? readDigits? hexPadded digitValue?_digitChar readDigits?_toDigits)

namespace Instruction

/-! ### Reading the parts of a text -/

/-- What follows a beginning of a text. -/
def behind? (beginning : String) (text : List Char) : Option (List Char) :=
  beginning.toList.isPrefixOf? text

/-- A register under its name, and what follows it. -/
def register? (name : String) (text : List Char) : Option (Register × List Char) := do
  match ← behind? (name ++ "=R") text with
  | [] => none
  | c :: rest => return (.ofNat 3 (← digitValue? 8 c), rest)

/-- A decimal number with its sign. -/
def integer? : List Char → Option Int
  | '-' :: digits => (readDigits? 10 digits).map fun n => -(n : Int)
  | digits => (readDigits? 10 digits).map Int.ofNat

/-- A signed operand under its name, with nothing behind it. -/
def signed? (width : Nat) (name : String) (text : List Char) : Option (BitVec width) := do
  let value ← integer? (← behind? (name ++ "=") text)
  let operand := BitVec.ofInt width value
  if operand.toInt = value then some operand else none

/-- Whether a text begins with a letter, and what follows it. -/
def flag (letter : Char) : List Char → Bool × List Char
  | [] => (false, [])
  | c :: rest => if c = letter then (true, rest) else (false, c :: rest)

/-- Two hexadecimal digits, and what follows them. -/
def byte? : List Char → Option (BitVec 8 × List Char)
  | high :: low :: rest => do
    return (.ofNat 8 (16 * (← digitValue? 16 high) + (← digitValue? 16 low)), rest)
  | _ => none

/-! ### The formats -/

/-- No further operands. -/
def nothing? (i : Instruction) (text : List Char) : Option Instruction :=
  if text.isEmpty then some i else none

/-- A base register. -/
def base? (make : Register → Instruction) (text : List Char) : Option Instruction := do
  let (base, rest) ← register? "BaseR" text
  nothing? (make base) rest

/-- A register and an offset from the program counter. -/
def offset? (name : String) (make : Register → BitVec 9 → Instruction) (text : List Char) :
    Option Instruction := do
  let (r, rest) ← register? name text
  return make r (← signed? 9 "PCoffset9" (← behind? ", " rest))

/-- A register and an offset from a base register. -/
def based? (name : String) (make : Register → Register → BitVec 6 → Instruction)
    (text : List Char) : Option Instruction := do
  let (r, rest) ← register? name text
  let (base, rest) ← register? "baseR" (← behind? ", " rest)
  return make r base (← signed? 6 "offset6" (← behind? ", " rest))

/-- The second operand of an addition or conjunction. -/
def operand? (text : List Char) : Option Operand :=
  match register? "SR2" text with
  | some (r, rest) => if rest.isEmpty then some (.register r) else none
  | none => (signed? 5 "imm5" text).map Operand.immediate

/-- The operands of an addition or conjunction. -/
def arithmetic? (make : Register → Register → Operand → Instruction) (text : List Char) :
    Option Instruction := do
  let (target, rest) ← register? "DR" text
  let (source, rest) ← register? "SR1" (← behind? ", " rest)
  return make target source (← operand? (← behind? ", " rest))

/-- The operands of a complement. -/
def not? (text : List Char) : Option Instruction := do
  let (target, rest) ← register? "DR" text
  let (source, rest) ← register? "SR" (← behind? ", " rest)
  nothing? (not target source) rest

/-- The condition flags and the offset of a branch. -/
def branch? (text : List Char) : Option Instruction := do
  let (n, text) := flag 'n' text
  let (z, text) := flag 'z' text
  let (p, text) := flag 'p' text
  return branch n z p (← signed? 9 "PCoffset9" (← behind? ") " text))

/-- A trap vector with the name of its service routine. -/
def trap? (text : List Char) : Option Instruction := do
  let (vector, rest) ← byte? text
  nothing? (trap vector) (← behind? (" (" ++ routineText vector ++ ")") rest)

/-- How the texts begin, and what reads the rest of them. -/
def formats : List (String × (List Char → Option Instruction)) :=
  [("BR (", branch?), ("ADD ", arithmetic? add), ("AND ", arithmetic? and), ("NOT ", not?),
    ("LD ", offset? "DR" load), ("LDI ", offset? "DR" loadIndirect),
    ("LEA ", offset? "DR" loadAddress), ("LDR ", based? "DR" loadBased),
    ("ST ", offset? "SR" store), ("STI ", offset? "SR" storeIndirect),
    ("STR ", based? "SR" storeBased),
    ("JSR ", fun text => (signed? 11 "PCoffset11" text).map call),
    ("JSRR ", base? callRegister), ("JMP ", base? jump), ("RET", nothing? (jump 7)),
    ("RTI", nothing? returnFromInterrupt), ("Reserved opcode (1101)", nothing? reserved),
    ("TRAP vec=x", trap?)]

/-- Reads the text of an instruction. -/
def read? (text : List Char) : Option Instruction :=
  (formats.findSome? fun format => (behind? format.1 text).map format.2).join

/-! ### Reading parts that were printed -/

/-- What follows a beginning is found behind it. -/
theorem behind?_append (beginning : String) (rest : List Char) :
    behind? beginning (beginning.toList ++ rest) = some rest :=
  List.isPrefixOf?_eq_some_iff_append_eq.2 rfl

/-- A number is shown with its decimal digits. -/
theorem toList_toString (n : Nat) : (toString n).toList = Nat.toDigits 10 n := by
  simp [toString]

/-- A register is read back, up to what follows. -/
theorem register?_text (name : String) (r : Register) (rest : List Char) :
    register? name ((registerText name r).toList ++ rest) = some (r, rest) := by
  have hr : r.toNat < 8 := r.isLt
  have hdigit : (toString r.toNat).toList = [r.toNat.digitChar] := by
    rw [toList_toString, Nat.toDigits_of_lt_base (Nat.lt_trans hr (by decide))]
  rw [register?, registerText, String.toList_append, List.append_assoc, behind?_append, hdigit]
  simp [digitValue?_digitChar (by decide) hr]

/-- A number with a sign is read back. -/
theorem integer?_toString (v : Int) : integer? (toString v).toList = some v := by
  cases v with
  | ofNat n =>
      have htext : (toString (Int.ofNat n)).toList = Nat.toDigits 10 n := toList_toString n
      have hread := readDigits?_toDigits (by decide) (by decide : 10 ≤ 16) n
      rw [htext]
      unfold integer?
      split
      · -- a minus sign is no digit
        next digits hminus =>
        rw [hminus] at hread
        cases hread
      · rw [hread]
        rfl
  | negSucc n =>
      have htext : (toString (Int.negSucc n)).toList = '-' :: (toString (n + 1)).toList :=
        String.toList_append
      rw [htext, toList_toString, integer?, readDigits?_toDigits (by decide) (by decide)]
      rfl

/-- A signed field is read back. -/
theorem signed?_text {width : Nat} (name : String) (v : BitVec width) :
    signed? width name (signedText name v).toList = some v := by
  rw [signed?, signedText, String.toList_append, behind?_append]
  simp only [Option.bind_eq_bind, Option.bind_some, integer?_toString, BitVec.ofInt_toInt, if_true]

/-- A byte is read back, up to what follows. -/
theorem byte?_text (v : BitVec 8) (rest : List Char) :
    byte? ((hexPadded 2 v.toNat).toList ++ rest) = some (v, rest) := by
  have hv : v.toNat < 256 := v.isLt
  have hdigits : (hexPadded 2 v.toNat).toList =
      [(v.toNat / 16).digitChar, (v.toNat % 16).digitChar] := by
    rw [hexPadded, String.toList_ofList, Nat.toDigits_eq_if (by decide)]
    split
    · next h =>
      rw [Nat.div_eq_of_lt h, Nat.mod_eq_of_lt h]
      rfl
    · rw [Nat.toDigits_of_lt_base (by omega)]
      rfl
  rw [hdigits, List.cons_append, List.cons_append, List.nil_append, byte?,
    digitValue?_digitChar (by decide) (by omega), digitValue?_digitChar (by decide) (by omega)]
  simp [Nat.div_add_mod]

/-! ### Reading operands that were printed -/

/-- The instructions without operands are read from their names alone. -/
theorem nothing?_nil (i : Instruction) : nothing? i [] = some i := rfl

/-- A base register is read back as the only operand. -/
theorem base?_text (make : Register → Instruction) (base : Register) :
    base? make (registerText "BaseR" base).toList = some (make base) := by
  rw [← List.append_nil (registerText "BaseR" base).toList, base?, register?_text]
  rfl

/-- A register and an offset to the program counter are read back. -/
theorem offset?_text (name : String) (make : Register → BitVec 9 → Instruction) (r : Register)
    (offset : BitVec 9) :
    offset? name make ((registerText name r).toList ++
      (", ".toList ++ (signedText "PCoffset9" offset).toList)) = some (make r offset) := by
  rw [offset?, register?_text]
  simp only [Option.bind_eq_bind, Option.bind_some, behind?_append, signed?_text]
  rfl

/-- A register, a base register and an offset are read back. -/
theorem based?_text (name : String) (make : Register → Register → BitVec 6 → Instruction)
    (r base : Register) (offset : BitVec 6) :
    based? name make ((registerText name r).toList ++
      (", ".toList ++ ((registerText "baseR" base).toList ++
        (", ".toList ++ (signedText "offset6" offset).toList)))) = some (make r base offset) := by
  rw [based?, register?_text]
  simp only [Option.bind_eq_bind, Option.bind_some, behind?_append, register?_text, signed?_text]
  rfl

/-- The second operand of an arithmetic instruction is read back, register or number. -/
theorem operand?_text (operand : Operand) :
    operand? (operandText operand).toList = some operand := by
  cases operand with
  | register source =>
      rw [operand?, operandText, ← List.append_nil (registerText "SR2" source).toList,
        register?_text]
      rfl
  | immediate value =>
      have hnone : register? "SR2" (signedText "imm5" value).toList = none := by
        rw [signedText, String.toList_append, String.toList_append, List.append_assoc]
        rfl
      rw [operand?, operandText, hnone]
      exact congrArg (Option.map Operand.immediate) (signed?_text "imm5" value)

/-- The operands of an arithmetic instruction are read back. -/
theorem arithmetic?_text (make : Register → Register → Operand → Instruction)
    (target source : Register) (operand : Operand) :
    arithmetic? make ((registerText "DR" target).toList ++
      (", ".toList ++ ((registerText "SR1" source).toList ++
        (", ".toList ++ (operandText operand).toList)))) = some (make target source operand) := by
  rw [arithmetic?, register?_text]
  simp only [Option.bind_eq_bind, Option.bind_some, behind?_append, register?_text, operand?_text]
  rfl

/-- The operands of a complement are read back. -/
theorem not?_text (target source : Register) :
    not? ((registerText "DR" target).toList ++ (", ".toList ++ (registerText "SR" source).toList)) =
      some (not target source) := by
  rw [← List.append_nil (registerText "SR" source).toList, not?, register?_text]
  simp only [Option.bind_eq_bind, Option.bind_some, behind?_append, register?_text]
  rfl

/-- The flags and the offset of a branch are read back. -/
theorem branch?_text (n z p : Bool) (offset : BitVec 9) :
    branch? ((flagsText n z p).toList ++
      (") ".toList ++ (signedText "PCoffset9" offset).toList)) = some (branch n z p offset) := by
  have hflags (text : List Char) :
      branch? ((flagsText n z p).toList ++ (") ".toList ++ text)) =
        (signed? 9 "PCoffset9" text).bind fun offset => some (branch n z p offset) := by
    cases n <;> cases z <;> cases p <;> rfl
  rw [hflags, signed?_text]
  rfl

/-- The vector of a trap is read back, whatever name its routine has. -/
theorem trap?_text (vector : BitVec 8) :
    trap? ((hexPadded 2 vector.toNat).toList ++
      (" (".toList ++ ((routineText vector).toList ++ ")".toList))) = some (trap vector) := by
  have hname : " (".toList ++ ((routineText vector).toList ++ ")".toList) =
      (" (" ++ routineText vector ++ ")").toList ++ [] := by
    simp only [String.toList_append, List.append_assoc, List.append_nil]
  rw [trap?, byte?_text, hname]
  simp only [Option.bind_eq_bind, Option.bind_some, behind?_append]
  rfl

/-! ### Reading an instruction that was printed -/

/-- No format begins as another one does, so the beginning of a text tells its format. -/
theorem read?_append {beginning : String} {operands? : List Char → Option Instruction}
    (h : (beginning, operands?) ∈ formats) (rest : List Char) :
    read? (beginning.toList ++ rest) = operands? rest := by
  simp only [formats, List.mem_cons, List.not_mem_nil, or_false, Prod.mk.injEq] at h
  rcases h with ⟨rfl, rfl⟩ | ⟨rfl, rfl⟩ | ⟨rfl, rfl⟩ | ⟨rfl, rfl⟩ | ⟨rfl, rfl⟩ | ⟨rfl, rfl⟩ |
    ⟨rfl, rfl⟩ | ⟨rfl, rfl⟩ | ⟨rfl, rfl⟩ | ⟨rfl, rfl⟩ | ⟨rfl, rfl⟩ | ⟨rfl, rfl⟩ | ⟨rfl, rfl⟩ |
    ⟨rfl, rfl⟩ | ⟨rfl, rfl⟩ | ⟨rfl, rfl⟩ | ⟨rfl, rfl⟩ | ⟨rfl, rfl⟩ <;> rfl

/-- **The text of an instruction is read as this instruction.** -/
theorem read?_text (i : Instruction) : read? i.text.toList = some i := by
  have hread (beginning : String) (operands? : List Char → Option Instruction) {rest : List Char}
      (hmem : (beginning, operands?) ∈ formats) (hrest : operands? rest = some i) :
      read? (beginning.toList ++ rest) = some i :=
    (read?_append hmem rest).trans hrest
  cases i <;> simp only [text, String.toList_append, List.append_assoc]
  case branch n z p offset => exact hread "BR (" _ (by simp [formats]) (branch?_text n z p offset)
  case add target source operand =>
    exact hread "ADD " _ (by simp [formats]) (arithmetic?_text add target source operand)
  case and target source operand =>
    exact hread "AND " _ (by simp [formats]) (arithmetic?_text and target source operand)
  case not target source => exact hread "NOT " _ (by simp [formats]) (not?_text target source)
  case load target offset =>
    exact hread "LD " _ (by simp [formats]) (offset?_text "DR" load target offset)
  case loadIndirect target offset =>
    exact hread "LDI " _ (by simp [formats]) (offset?_text "DR" loadIndirect target offset)
  case loadAddress target offset =>
    exact hread "LEA " _ (by simp [formats]) (offset?_text "DR" loadAddress target offset)
  case loadBased target base offset =>
    exact hread "LDR " _ (by simp [formats]) (based?_text "DR" loadBased target base offset)
  case store source offset =>
    exact hread "ST " _ (by simp [formats]) (offset?_text "SR" store source offset)
  case storeIndirect source offset =>
    exact hread "STI " _ (by simp [formats]) (offset?_text "SR" storeIndirect source offset)
  case storeBased source base offset =>
    exact hread "STR " _ (by simp [formats]) (based?_text "SR" storeBased source base offset)
  case call offset =>
    exact hread "JSR " (fun text => (signed? 11 "PCoffset11" text).map call) (by simp [formats])
      (congrArg (Option.map call) (signed?_text "PCoffset11" offset))
  case callRegister base =>
    exact hread "JSRR " _ (by simp [formats]) (base?_text callRegister base)
  case jump base =>
    split
    · next h =>
      rw [h] at hread ⊢
      exact hread "RET" _ (by simp [formats]) (nothing?_nil (jump 7))
    · rw [String.toList_append]
      exact hread "JMP " _ (by simp [formats]) (base?_text jump base)
  case returnFromInterrupt =>
    exact hread "RTI" _ (by simp [formats]) (nothing?_nil returnFromInterrupt)
  case reserved =>
    exact hread "Reserved opcode (1101)" _ (by simp [formats]) (nothing?_nil reserved)
  case trap vector => exact hread "TRAP vec=x" _ (by simp [formats]) (trap?_text vector)

end Instruction

/-- The word that a text stands for, if it is the text of an instruction. -/
def assemble? (text : String) : Option Word :=
  (Instruction.read? text.toList).map Instruction.encode

end ClockStep
