import ClockStep.Proofs.ControlSequences
import ClockStep.Proofs.Dumps
import ClockStep.Proofs.LineWords
import ClockStep.Proofs.SessionRuns

/-!
# What the Operator Is Told

Every text that a session tells its operator is a line: there is no newline in it. Nor is there an
escape in it, unless it repeats a word of the operator's that has one. This module goes through the
texts. They are put together of literals, of numbers, and of the words of a line that cannot be read
as numbers.

## Main results

* `isPlain_registersReport`, `isPlain_positionReport` and so on: the reports.
* `isPlain_message`: the failures of commands whose words are those of a line.
* `isPlain_row`: the rows of a dump.
-/

namespace ClockStep

namespace Text

/-- A text is **plain** if it has neither an escape nor a newline. -/
structure IsPlain (text : String) : Prop where
  escape : Style.escape ∉ text.toList
  newline : '\n' ∉ text.toList

/-- Plain are the texts without an escape and without a newline. -/
theorem isPlain_iff {text : String} :
    IsPlain text ↔ ∀ c ∈ text.toList, c ≠ Style.escape ∧ c ≠ '\n' := by
  constructor
  · rintro ⟨hescape, hnewline⟩ c hc
    exact ⟨fun h => hescape (h ▸ hc), fun h => hnewline (h ▸ hc)⟩
  · intro h
    exact ⟨fun hc => (h _ hc).1 rfl, fun hc => (h _ hc).2 rfl⟩

/-- The bytes of a plain text contain no escape. -/
theorem IsPlain.escapeByte_not_mem {text : String} (h : IsPlain text) :
    escapeByte ∉ Utf8.encode text :=
  fun hmem => h.escape (Utf8.mem_encode (by decide) hmem)

/-- The bytes of a plain text contain no newline. -/
theorem IsPlain.newline_not_mem {text : String} (h : IsPlain text) :
    ClockStep.newline ∉ Utf8.encode text :=
  fun hmem => h.newline (Utf8.mem_encode (by decide) hmem)

/-- Literals are checked character by character. -/
theorem isPlain_ofList {text : List Char}
    (h : (text.all fun c => c != Style.escape && c != '\n') = true) :
    IsPlain (String.ofList text) := by
  refine isPlain_iff.2 fun c hc => ?_
  rw [String.toList_ofList] at hc
  simpa using List.all_eq_true.1 h c hc

/-- A text put together of two is plain exactly when both are. -/
theorem isPlain_append {front back : String} :
    IsPlain (front ++ back) ↔ IsPlain front ∧ IsPlain back := by
  simp only [isPlain_iff, String.toList_append, List.forall_mem_append]

/-- A text of printable characters is plain. -/
theorem isPlain_of_isPrintable {text : String}
    (h : ∀ c ∈ text.toList, Hexdump.IsPrintable c) : IsPlain text := by
  refine isPlain_iff.2 fun c hc => ⟨?_, ?_⟩
  · rintro rfl
    exact absurd (h _ hc) (by decide)
  · rintro rfl
    exact absurd (h _ hc) (by decide)

/-- A choice between plain texts is plain. -/
theorem isPlain_ite {p : Prop} [Decidable p] {text other : String} (h : IsPlain text)
    (hother : IsPlain other) : IsPlain (if p then text else other) := by
  split
  · exact h
  · exact hother

/-- Plain texts joined by a plain separator are a plain text. -/
theorem isPlain_intercalate {separator : String} (h : IsPlain separator) {texts : List String}
    (htexts : ∀ text ∈ texts, IsPlain text) : IsPlain (separator.intercalate texts) := by
  rw [isPlain_iff, String.toList_intercalate]
  induction texts with
  | nil => exact List.forall_mem_nil _
  | cons text rest ih =>
      obtain ⟨htext, hrest⟩ := List.forall_mem_cons.1 htexts
      cases rest with
      | nil =>
          rw [List.map_singleton, List.intercalate_singleton]
          exact isPlain_iff.1 htext
      | cons next rest =>
          rw [List.map_cons, List.map_cons, List.intercalate_cons_cons, ← List.map_cons]
          simp only [List.forall_mem_append]
          exact ⟨⟨isPlain_iff.1 htext, isPlain_iff.1 h⟩, ih hrest⟩

/-! ### Numbers -/

/-- The numerals up to base 16 are plain. -/
theorem IsNumeral.isPlain {base : Nat} (hbase : base ≤ 16) {text : String} {n : Nat}
    (h : IsNumeral base text.toList n) : IsPlain text :=
  isPlain_of_isPrintable (h.forall_mem fun _ _ hdigit =>
    hdigit.of_forall_lt Hexdump.IsPrintable hbase (by decide))

/-- Padded hexadecimal digits are plain. -/
theorem isPlain_hexPadded (width n : Nat) : IsPlain (hexPadded width n) :=
  (isNumeral_hexPadded width n).isPlain (Nat.le_refl 16)

/-- The text of a word is plain. -/
theorem isPlain_hexWord (w : Word) : IsPlain (hexWord w) := isPlain_hexPadded 4 w.toNat

/-- Hexadecimal digits are plain. -/
theorem isPlain_hex (n : Nat) : IsPlain (hex n) := by
  refine IsNumeral.isPlain (Nat.le_refl 16) (n := n) ?_
  rw [hex, String.toList_ofList]
  exact isNumeral_toDigits (by decide) (Nat.le_refl 16) n

/-- Decimal digits are plain. -/
theorem isPlain_toString (n : Nat) : IsPlain (toString n) := by
  refine IsNumeral.isPlain (show 10 ≤ 16 by decide) (n := n) ?_
  rw [show (toString n).toList = Nat.toDigits 10 n by simp [toString]]
  exact isNumeral_toDigits (by decide) (by decide) n

/-- Decimal digits behind a sign are plain. -/
theorem isPlain_toString_int (v : Int) : IsPlain (toString v) := by
  rw [Int.toString_eq_repr, Int.repr_eq_if]
  exact isPlain_ite (isPlain_toString _) (isPlain_append.2 ⟨isPlain_ofList rfl, isPlain_toString _⟩)

end Text

open Text (IsPlain isPlain_append isPlain_ofList isPlain_ite isPlain_hexPadded isPlain_hexWord
  isPlain_hex isPlain_toString isPlain_toString_int)

/-! ### Instructions -/

namespace Instruction

/-- A register is shown plainly exactly when its name is plain. -/
theorem isPlain_registerText {name : String} {r : Register} :
    IsPlain (registerText name r) ↔ IsPlain name := by
  simp only [registerText, isPlain_append, isPlain_toString, and_true, and_iff_left_iff_imp]
  exact fun _ => isPlain_ofList rfl

/-- A signed field is shown plainly exactly when its name is plain. -/
theorem isPlain_signedText {width : Nat} {name : String} {v : BitVec width} :
    IsPlain (signedText name v) ↔ IsPlain name := by
  simp only [signedText, isPlain_append, isPlain_toString_int, and_true, and_iff_left_iff_imp]
  exact fun _ => isPlain_ofList rfl

/-- An operand is shown plainly. -/
theorem isPlain_operandText (operand : Operand) : IsPlain (operandText operand) := by
  cases operand with
  | register r => exact isPlain_registerText.2 (isPlain_ofList rfl)
  | immediate v => exact isPlain_signedText.2 (isPlain_ofList rfl)

/-- The flags of a branch are shown plainly. -/
theorem isPlain_flagsText (n z p : Bool) : IsPlain (flagsText n z p) := by
  simp only [flagsText, isPlain_append]
  and_intros <;> exact isPlain_ite (isPlain_ofList rfl) (isPlain_ofList rfl)

/-- A trap routine is shown plainly, whether it has a name or not. -/
theorem isPlain_routineText (vector : BitVec 8) : IsPlain (routineText vector) := by
  rw [routineText]
  split
  · next routine _ => cases routine <;> exact isPlain_ofList rfl
  · exact isPlain_ofList rfl

/-- Every instruction disassembles to a plain text. -/
theorem isPlain_text (instruction : Instruction) : IsPlain instruction.text := by
  cases instruction with
  | jump base =>
      exact isPlain_ite (isPlain_ofList rfl) (isPlain_append.2
        ⟨isPlain_ofList rfl, isPlain_registerText.2 (isPlain_ofList rfl)⟩)
  | _ =>
      simp only [text, isPlain_append, isPlain_registerText, isPlain_signedText,
        isPlain_operandText, isPlain_flagsText, isPlain_routineText, isPlain_hexPadded, and_true]
      and_intros <;> exact isPlain_ofList rfl

end Instruction

/-! ### Rows -/

namespace Hexdump

/-- The row of a dump is plain without colour, whatever its bytes are. -/
theorem isPlain_row (address : Nat) (bytes : List Byte) : IsPlain (row none address bytes) :=
  Text.isPlain_of_isPrintable (isPrintable_row address bytes)

end Hexdump

/-! ### Commands -/

namespace Command

/-- What the registry says of a command is plain. -/
theorem isPlain_of_mem_registry : ∀ d ∈ registry,
    IsPlain d.usage ∧ IsPlain d.description ∧ ∀ spelling ∈ d.spellings, IsPlain spelling := by
  simp only [registry, List.forall_mem_cons, List.not_mem_nil, false_imp_iff, implies_true,
    and_true]
  and_intros <;> exact isPlain_ofList rfl

/-- The words that a failure repeats are plain. -/
def Failure.WordIsPlain : Failure → Prop
  | invalidHex word | invalidDec word => IsPlain word
  | _ => True

/-- The messages of failures that concern one command only, the words of the line apart. -/
theorem Failure.isPlain_message {failure : Failure} (hword : failure.WordIsPlain)
    (hmachine : ∀ cause, failure ≠ .machine cause) (houtput : ∀ cause, failure ≠ .output cause) :
    IsPlain failure.message := by
  have haround : ∀ {front middle back : String}, IsPlain front → IsPlain middle → IsPlain back →
      IsPlain (front ++ middle ++ back) := fun hfront hmiddle hback =>
    isPlain_append.2 ⟨isPlain_append.2 ⟨hfront, hmiddle⟩, hback⟩
  cases failure with
  | invalidHex word | invalidDec word =>
      exact haround (isPlain_ofList rfl) hword (isPlain_ofList rfl)
  | addressOutOfRange v | byteOutOfRange v | vectorOutOfRange v | dataOutOfRange v =>
      exact haround (isPlain_ofList rfl) (isPlain_hex v) (isPlain_ofList rfl)
  | priorityOutOfRange v =>
      exact haround (isPlain_ofList rfl) (isPlain_toString v) (isPlain_ofList rfl)
  | breakpoint cause =>
      cases cause with
      | alreadySet address =>
          exact haround (isPlain_ofList rfl) (isPlain_hexWord address) (isPlain_ofList rfl)
      | notSet address => exact isPlain_append.2 ⟨isPlain_ofList rfl, isPlain_hexWord address⟩
  | machine cause => exact absurd rfl (hmachine cause)
  | output cause => exact absurd rfl (houtput cause)

/-! A number that cannot be read is the word itself; it is repeated to the operator. -/

/-- A word of a text has nothing that the text does not have, and no blank. -/
theorem isPlain_of_mem_words {text word : List Char} (hescape : Style.escape ∉ text)
    (h : word ∈ Text.words text) : IsPlain (String.ofList word) := by
  have hruns := Text.runs_words text
  generalize Text.words text = runs at h hruns
  induction hruns with
  | blanks => cases h
  | @run blanks run rest runs _ _ hunbroken _ _ ih =>
      rw [List.mem_append, List.mem_append, not_or, not_or] at hescape
      obtain rfl | hlater := List.mem_cons.1 h
      · constructor
        · rw [String.toList_ofList]
          exact hescape.2.1
        · rw [String.toList_ofList]
          exact fun hc => absurd (hunbroken _ hc) (by decide)
      · exact ih hescape.2.2 hlater

/-- The arguments on a line without escapes are plain: newlines are among the blanks. -/
theorem isPlain_argument {text : List Char} (hescape : Style.escape ∉ text) (i : Nat) :
    IsPlain (String.ofList (argument (Text.words text) i)) := by
  rw [argument]
  cases hword : (Text.words text)[i]? with
  | none => exact isPlain_ofList rfl
  | some word => exact isPlain_of_mem_words hescape (List.mem_of_getElem? hword)

/-- Where the arguments are plain, so are those that a failed check repeats. -/
theorem Check.wordIsPlain {args : List (List Char)}
    (hargs : ∀ i, IsPlain (String.ofList (argument args i))) (command : Command) :
    ∀ check ∈ argumentChecks args command, check.failure.WordIsPlain := by
  have haddress : ∀ check ∈ Check.ofAddress (argument args 0), check.failure.WordIsPlain :=
    List.forall_mem_cons.2 ⟨hargs 0, List.forall_mem_singleton.2 trivial⟩
  cases command with
  | step | stepInstruction =>
      rw [argumentChecks]
      split
      · exact List.forall_mem_nil _
      · exact List.forall_mem_singleton.2 (hargs 0)
  | peek | «break» | breakRemove => exact haddress
  | poke =>
      refine List.forall_mem_append.2 ⟨haddress, List.forall_mem_cons.2 ⟨hargs 1, ?_⟩⟩
      exact List.forall_mem_singleton.2 trivial
  | dumpMemory =>
      exact List.forall_mem_append.2 ⟨haddress, List.forall_mem_singleton.2 (hargs 1)⟩
  | interrupt =>
      simp only [argumentChecks, List.forall_mem_cons, List.not_mem_nil, false_imp_iff,
        implies_true, and_true]
      exact ⟨hargs 0, hargs 1, hargs 2, trivial, trivial, trivial⟩
  | help | «continue» | registers | microState | allRegisters | quit | print | breakList =>
      exact List.forall_mem_nil _

/-- What a failure to read arguments repeats is a word of the line. -/
theorem Failure.wordIsPlain_of_read {command : Command} {t : Tokens} {failure : Failure}
    (hescape : Style.escape ∉ t.rest) (h : Invocation.read command t = .error failure) :
    failure.WordIsPlain := by
  rw [Invocation.read_eq_checked ∅, Check.checked] at h
  split at h
  · next check hcheck =>
      cases h
      exact Check.wordIsPlain (isPlain_argument hescape) command check
        (List.mem_of_find?_eq_some hcheck)
  · cases h

end Command

/-! ### Reports -/

namespace Session

variable {γ κ : Type}

/-- The help says of every command one plain line. -/
theorem isPlain_helpLine {d : Command.Descriptor} (h : d ∈ Command.registry) :
    IsPlain (helpLine d) := by
  obtain ⟨husage, hdescription, hspellings⟩ := Command.isPlain_of_mem_registry d h
  have hjoined := Text.isPlain_intercalate (isPlain_ofList rfl : IsPlain " or ") hspellings
  simp only [helpLine, isPlain_append, husage, hdescription, hjoined, and_true]
  and_intros <;> exact isPlain_ofList rfl

/-- A line of the register report is plain. -/
theorem isPlain_registerPair (registers : Vector Word 8) (i : Fin 4) :
    IsPlain (registerPair registers i) := by
  simp only [registerPair, isPlain_append, isPlain_hexWord, isPlain_toString, and_true]
  and_intros <;> exact isPlain_ofList rfl

/-- The register report is made of plain texts. -/
theorem isPlain_registersReport (lines : OutputLines) :
    ∀ text ∈ registersReport lines, IsPlain text := by
  have hbit : ∀ w index, IsPlain (bitText w index) := fun w index =>
    isPlain_ite (isPlain_ofList rfl) (isPlain_ofList rfl)
  simp only [registersReport, List.forall_mem_append, List.forall_mem_cons, List.forall_mem_map,
    List.not_mem_nil, false_imp_iff, implies_true, isPlain_registerPair, isPlain_append,
    isPlain_hexWord, isPlain_hex, hbit, and_true]
  and_intros <;> exact isPlain_ofList rfl

/-- The report of the micro-state is made of plain texts. -/
theorem isPlain_microStateReport (lines : OutputLines) :
    ∀ text ∈ microStateReport lines, IsPlain text := by
  simp only [microStateReport, List.forall_mem_cons, List.not_mem_nil, false_imp_iff, implies_true,
    isPlain_append, isPlain_hexWord, isPlain_toString, and_true]
  and_intros <;> exact isPlain_ofList rfl

/-- The list of the breakpoints is made of plain texts. -/
theorem isPlain_breakpointsReport (breakpoints : Breakpoints) :
    ∀ text ∈ breakpointsReport breakpoints, IsPlain text := by
  refine List.forall_mem_cons.2 ⟨isPlain_ofList rfl, fun text htext => ?_⟩
  obtain ⟨i, -, rfl⟩ := List.mem_mapIdx.1 htext
  simp only [isPlain_append, isPlain_hexWord, isPlain_toString, and_true]
  and_intros <;> exact isPlain_ofList rfl

variable [Core γ]

/-- What is told when the machine stops is made of plain texts. -/
theorem isPlain_positionReport (m : Machine γ κ) : ∀ text ∈ positionReport m, IsPlain text := by
  have hdisassembly : ∀ w : Word, IsPlain w.disassembly := fun w => Instruction.isPlain_text _
  simp only [positionReport, List.forall_mem_cons, List.not_mem_nil, false_imp_iff, implies_true,
    isPlain_append, isPlain_hexWord, isPlain_toString, hdisassembly, and_true]
  and_intros <;> exact isPlain_ofList rfl

end Session

end ClockStep
