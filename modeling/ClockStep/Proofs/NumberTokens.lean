import ClockStep.Proofs.CommandGrammar
import Mathlib.Data.List.Forall2
import Mathlib.Data.Nat.Digits.Defs
import Mathlib.Tactic.Ring

/-!
# The Numbers on a Command Line

A word of a command line is a number or is refused. The reader decides that from left to right, with
a mark to be dropped first and a limit to be looked at last; this module says which words are numbers
without the reader. A digit is a character that stands for a value below the base (`IsDigit`), a
numeral is made of digits, and its number is that of their values, the first being the most
significant one (`IsNumeral`); a hexadecimal numeral may have one of four marks before it
(`IsHexNumeral`). No numeral starts with a mark itself, so that it does not matter in which order the
reader looks for them.

The grammar is about single words. How they are found on the line is said in the same way: what is
read off a line is its blanks, a word, and what stays on it (`Splits`).

## Main results

* `readDigits?_eq_some_iff`: the digits that are read are the numerals.
* `hexValue?_eq_some_iff`, `decValue?_eq_some_iff`: the words that are numbers, and which ones.
* `splits_next`, `next_of_splits`: taking a word off a line.
* `numbers_read_by_grammar`: what is read off any line, and that printed numbers are read back.
-/

namespace ClockStep

/-! ### Numerals -/

namespace Text

/-- A character that stands for a value below the base, letters being of either case. -/
def IsDigit (base value : Nat) (c : Char) : Prop :=
  value < base ∧ (c = value.digitChar ∨ c = value.digitChar.toUpper)

/-- A text of digits, at least one, that stands for a number. -/
def IsNumeral (base : Nat) (text : List Char) (n : Nat) : Prop :=
  ∃ values : List Nat, values ≠ [] ∧ List.Forall₂ (IsDigit base) values text ∧
    n = Nat.ofDigits base values.reverse

variable {base : Nat}

/-- The characters of a range are those at a distance from its first one. -/
theorem eq_ofNat_of_le {first last c : Char} (h : first ≤ c ∧ c ≤ last) :
    c = Char.ofNat (first.toNat + (c.toNat - first.toNat)) ∧
      c.toNat - first.toNat ≤ last.toNat - first.toNat := by
  have hfirst : first.toNat ≤ c.toNat := h.1
  have hlast : c.toNat ≤ last.toNat := h.2
  refine ⟨?_, by omega⟩
  rw [Nat.add_sub_cancel' hfirst, Char.ofNat_toNat]

/-- A character has a value exactly if it is a digit. -/
theorem digitValue?_eq_some_iff (hbase : base ≤ 16) {c : Char} {value : Nat} :
    digitValue? base c = some value ↔ IsDigit base value c := by
  constructor
  · intro h
    obtain ⟨hvalue, hlt⟩ := Option.filter_eq_some_iff.1 h
    refine ⟨of_decide_eq_true hlt, ?_⟩
    have hdecimal : ∀ d ≤ 9, Char.ofNat (48 + d) = d.digitChar := by decide
    have hlower : ∀ d ≤ 5, Char.ofNat (97 + d) = (d + 10).digitChar := by decide
    have hupper : ∀ d ≤ 5, Char.ofNat (65 + d) = (d + 10).digitChar.toUpper := by decide
    split at hvalue
    · next hrange =>
      obtain ⟨hc, hle⟩ := eq_ofNat_of_le hrange
      obtain rfl := Option.some.inj hvalue
      exact .inl (hc.trans (hdecimal _ hle))
    split at hvalue
    · next hrange =>
      obtain ⟨hc, hle⟩ := eq_ofNat_of_le hrange
      obtain rfl := Option.some.inj hvalue
      exact .inl (hc.trans (hlower _ hle))
    split at hvalue
    · next hrange =>
      obtain ⟨hc, hle⟩ := eq_ofNat_of_le hrange
      obtain rfl := Option.some.inj hvalue
      exact .inr (hc.trans (hupper _ hle))
    · cases hvalue
  · rintro ⟨hlt, rfl | rfl⟩
    · exact digitValue?_digitChar hbase hlt
    · have key : ∀ d < 16, digitValue? 16 d.digitChar.toUpper = some d := by decide
      have hvalue := key value (Nat.lt_of_lt_of_le hlt hbase)
      rw [digitValue?, Option.filter_eq_some_iff] at hvalue ⊢
      exact ⟨hvalue.1, decide_eq_true hlt⟩

/-- The first digit is worth its place among the others. -/
theorem ofDigits_reverse_cons (start value : Nat) (values : List Nat) :
    start * base ^ (value :: values).length + Nat.ofDigits base (value :: values).reverse =
      (base * start + value) * base ^ values.length + Nat.ofDigits base values.reverse := by
  rw [List.reverse_cons, Nat.ofDigits_append, Nat.ofDigits_singleton, List.length_reverse,
    List.length_cons]
  ring

/-- What is read behind a number that was read so far. -/
theorem readDigitsFrom?_eq_some_iff (hbase : base ≤ 16) {text : List Char} {start n : Nat} :
    readDigitsFrom? base start text = some n ↔
      ∃ values : List Nat, List.Forall₂ (IsDigit base) values text ∧
        n = start * base ^ values.length + Nat.ofDigits base values.reverse := by
  induction text generalizing start with
  | nil =>
      rw [readDigitsFrom?, Option.some.injEq]
      constructor
      · rintro rfl
        exact ⟨[], .nil, by simp⟩
      · rintro ⟨_, ⟨⟩, hn⟩
        simpa using hn.symm
  | cons c rest ih =>
      refine Iff.trans (Option.bind_eq_some_iff (x := digitValue? base c)) ?_
      constructor
      · rintro ⟨value, hvalue, hrest⟩
        obtain ⟨values, hvalues, rfl⟩ := ih.1 hrest
        exact ⟨value :: values, .cons ((digitValue?_eq_some_iff hbase).1 hvalue) hvalues,
          (ofDigits_reverse_cons start value values).symm⟩
      · rintro ⟨_, hvalues, rfl⟩
        cases hvalues with
        | @cons value _ values _ hvalue hvalues =>
            exact ⟨value, (digitValue?_eq_some_iff hbase).2 hvalue,
              ih.2 ⟨values, hvalues, ofDigits_reverse_cons start value values⟩⟩

/-- **The digits that are read are the numerals.** -/
theorem readDigits?_eq_some_iff (hbase : base ≤ 16) {text : List Char} {n : Nat} :
    readDigits? base text = some n ↔ IsNumeral base text n := by
  cases text with
  | nil =>
      refine iff_of_false nofun ?_
      rintro ⟨values, hvalues, hdigits, -⟩
      cases hdigits
      exact hvalues rfl
  | cons c rest =>
      rw [readDigits?, if_neg (by simp), readDigitsFrom?_eq_some_iff hbase]
      constructor
      · rintro ⟨values, hdigits, rfl⟩
        refine ⟨values, ?_, hdigits, by rw [Nat.zero_mul, Nat.zero_add]⟩
        rintro rfl
        cases hdigits
      · rintro ⟨values, -, hdigits, rfl⟩
        exact ⟨values, hdigits, by rw [Nat.zero_mul, Nat.zero_add]⟩

/-- The printed digits of a number are a numeral for it. -/
theorem isNumeral_toDigits (hbase : 2 ≤ base) (hbase' : base ≤ 16) (n : Nat) :
    IsNumeral base (Nat.toDigits base n) n :=
  (readDigits?_eq_some_iff hbase').1 (readDigits?_toDigits hbase hbase' n)

/-- Zeros in front of a numeral do not matter. -/
theorem IsNumeral.replicate_append (hbase : 0 < base) {text : List Char} {n : Nat}
    (h : IsNumeral base text n) (count : Nat) :
    IsNumeral base (List.replicate count '0' ++ text) n := by
  obtain ⟨values, hvalues, hdigits, rfl⟩ := h
  have hzeros : List.Forall₂ (IsDigit base) (List.replicate count 0) (List.replicate count '0') := by
    induction count with
    | zero => exact .nil
    | succ count ih => exact .cons ⟨hbase, .inl rfl⟩ ih
  refine ⟨List.replicate count 0 ++ values, by simp [hvalues], List.rel_append hzeros hdigits, ?_⟩
  rw [List.reverse_append, List.reverse_replicate, Nat.ofDigits_append_replicate_zero]

/-- Padded hexadecimal digits are a numeral of the value. -/
theorem isNumeral_hexPadded (width n : Nat) : IsNumeral 16 (hexPadded width n).toList n := by
  rw [hexPadded, String.toList_ofList, List.leftpad]
  exact (isNumeral_toDigits (by decide) (Nat.le_refl 16) n).replicate_append (by decide) _

/-- What holds of each digit, in either case of letters. -/
theorem IsDigit.of_forall_lt {value : Nat} {c : Char} (h : IsDigit base value c) (P : Char → Prop)
    (hbase : base ≤ 16) (hP : ∀ d < 16, P d.digitChar ∧ P d.digitChar.toUpper) : P c := by
  obtain ⟨hlt, rfl | rfl⟩ := h
  · exact (hP value (Nat.lt_of_lt_of_le hlt hbase)).1
  · exact (hP value (Nat.lt_of_lt_of_le hlt hbase)).2

/-- A digit is neither a blank nor part of a mark. -/
theorem IsDigit.ne_mark (hbase : base ≤ 16) {value : Nat} {c : Char} (h : IsDigit base value c) :
    isBlank c = false ∧ c ≠ 'x' ∧ c ≠ 'X' :=
  h.of_forall_lt (fun c => isBlank c = false ∧ c ≠ 'x' ∧ c ≠ 'X') hbase (by decide)

/-- What holds of all digits holds of what numerals are made of. -/
theorem IsNumeral.forall_mem {text : List Char} {n : Nat} (h : IsNumeral base text n)
    {P : Char → Prop} (hP : ∀ value c, IsDigit base value c → P c) : ∀ c ∈ text, P c := by
  obtain ⟨values, -, hdigits, -⟩ := h
  clear * - hdigits hP
  induction hdigits with
  | nil => exact List.forall_mem_nil _
  | cons hdigit _ ih => exact List.forall_mem_cons.2 ⟨hP _ _ hdigit, ih⟩

/-- A digit is neither a blank nor the mark of a prefix. -/
theorem IsNumeral.ne_mark (hbase : base ≤ 16) {text : List Char} {n : Nat}
    (h : IsNumeral base text n) : ∀ c ∈ text, isBlank c = false ∧ c ≠ 'x' ∧ c ≠ 'X' :=
  h.forall_mem fun _ _ hdigit => hdigit.ne_mark hbase

/-- A numeral is a word: it is not empty, and there is no blank in it. -/
theorem IsNumeral.isWord (hbase : base ≤ 16) {text : List Char} {n : Nat}
    (h : IsNumeral base text n) : text ≠ [] ∧ ∀ c ∈ text, isBlank c = false := by
  refine ⟨?_, fun c hc => (h.ne_mark hbase c hc).1⟩
  obtain ⟨values, hvalues, hdigits, -⟩ := h
  rintro rfl
  cases hdigits
  exact hvalues rfl

/-- The marks that may stand before a hexadecimal numeral. -/
def hexMarks : List (List Char) := [['0', 'x'], ['0', 'X'], ['x'], ['X'], []]

/-- A hexadecimal numeral, with a mark or without. -/
def IsHexNumeral (text : List Char) (n : Nat) : Prop :=
  ∃ mark ∈ hexMarks, ∃ digits, text = mark ++ digits ∧ IsNumeral 16 digits n

/-- So is a hexadecimal numeral. -/
theorem IsHexNumeral.isWord {text : List Char} {n : Nat} (h : IsHexNumeral text n) :
    text ≠ [] ∧ ∀ c ∈ text, isBlank c = false := by
  obtain ⟨mark, hmark, digits, rfl, hdigits⟩ := h
  obtain ⟨hsome, hunbroken⟩ := hdigits.isWord (Nat.le_refl 16)
  have hmarks : ∀ mark ∈ hexMarks, mark.all (!isBlank ·) = true := by decide
  refine ⟨fun hnil => hsome (List.append_eq_nil_iff.1 hnil).2, fun c hc => ?_⟩
  rcases List.mem_append.1 hc with hc | hc
  · simpa using List.all_eq_true.1 (hmarks mark hmark) c hc
  · exact hunbroken c hc

/-- The ways in which a number is printed in hexadecimal. -/
def hexRenderings (n : Nat) : List String := [hex n, "x" ++ hexPadded 4 n, "0x" ++ hex n]

/-- All of them are hexadecimal numerals. -/
theorem isHexNumeral_of_mem_hexRenderings {n : Nat} {text : String} (h : text ∈ hexRenderings n) :
    IsHexNumeral text.toList n := by
  have hdigits : IsNumeral 16 (hex n).toList n := by
    rw [hex, String.toList_ofList]
    exact isNumeral_toDigits (by decide) (Nat.le_refl 16) n
  simp only [hexRenderings, List.mem_cons, List.not_mem_nil, or_false] at h
  rcases h with rfl | rfl | rfl
  · exact ⟨[], by decide, _, rfl, hdigits⟩
  · exact ⟨['x'], by decide, _, String.toList_append, isNumeral_hexPadded 4 n⟩
  · exact ⟨['0', 'x'], by decide, _, String.toList_append, hdigits⟩

end Text

/-! ### The words that are numbers -/

namespace Command

open Text (IsNumeral IsHexNumeral hexMarks isBlank isNumeral_toDigits)

namespace Tokens

/-- What is left of a text is what follows one of the marks. -/
theorem exists_dropHexMark (text : List Char) :
    ∃ mark ∈ hexMarks, text = mark ++ dropHexMark text := by
  rw [dropHexMark.eq_def]
  split
  · exact ⟨['0', 'x'], by decide, rfl⟩
  · exact ⟨['0', 'X'], by decide, rfl⟩
  · exact ⟨['x'], by decide, rfl⟩
  · exact ⟨['X'], by decide, rfl⟩
  · exact ⟨[], by decide, rfl⟩

/-- A text that has no part of a mark in it is left as it is. -/
theorem dropHexMark_of_ne {text : List Char} (h : ∀ c ∈ text, c ≠ 'x' ∧ c ≠ 'X') :
    dropHexMark text = text := by
  rw [dropHexMark.eq_def]
  split
  · exact absurd rfl (h 'x' (by simp)).1
  · exact absurd rfl (h 'X' (by simp)).2
  · exact absurd rfl (h 'x' (by simp)).1
  · exact absurd rfl (h 'X' (by simp)).2
  · rfl

/-- Whichever mark a numeral has, it is the numeral that is left. -/
theorem dropHexMark_append {mark digits : List Char} (hmark : mark ∈ hexMarks)
    (h : ∀ c ∈ digits, c ≠ 'x' ∧ c ≠ 'X') : dropHexMark (mark ++ digits) = digits := by
  simp only [hexMarks, List.mem_cons, List.not_mem_nil, or_false] at hmark
  rcases hmark with rfl | rfl | rfl | rfl | rfl
  · rfl
  · rfl
  · rfl
  · rfl
  · exact dropHexMark_of_ne h

end Tokens

/-- A word has a decimal value exactly when it is a decimal numeral below 2 ^ 64. -/
theorem decValue?_eq_some_iff {word : List Char} {n : Nat} :
    decValue? word = some n ↔ n < UInt64.size ∧ IsNumeral 10 word n := by
  rw [decValue?, Tokens.number?, Option.filter_eq_some_iff,
    Text.readDigits?_eq_some_iff (by decide), decide_eq_true_iff, and_comm]
  rfl

/-- **The words that are hexadecimal numbers**, and which ones. -/
theorem hexValue?_eq_some_iff {word : List Char} {n : Nat} :
    hexValue? word = some n ↔ n < UInt64.size ∧ IsHexNumeral word n := by
  have hread : hexValue? word = some n ↔
      n < UInt64.size ∧ IsNumeral 16 (Tokens.dropHexMark word) n := by
    rw [hexValue?, Tokens.number?, Option.filter_eq_some_iff,
      Text.readDigits?_eq_some_iff (Nat.le_refl 16), decide_eq_true_iff, and_comm]
    rfl
  rw [hread]
  refine and_congr_right fun _ => ⟨fun h => ?_, ?_⟩
  · obtain ⟨mark, hmark, hword⟩ := Tokens.exists_dropHexMark word
    exact ⟨mark, hmark, _, hword, h⟩
  · rintro ⟨mark, hmark, digits, rfl, hdigits⟩
    rw [Tokens.dropHexMark_append hmark fun c hc => (hdigits.ne_mark (Nat.le_refl 16) c hc).2]
    exact hdigits

/-! ### Taking a word off a line -/

namespace Tokens

/-- What is on a line: blanks, a word, and a rest, of which the word is as long as it can be. There is
an empty word only when the line is used up. -/
structure Splits (t : Tokens) (word : List Char) (rest : Tokens) : Prop where
  line : ∃ blanks, t.rest = blanks ++ (word ++ rest.rest) ∧ ∀ c ∈ blanks, isBlank c = true
  unbroken : ∀ c ∈ word, isBlank c = false
  ends : ∀ c ∈ rest.rest.head?, isBlank c = true
  usedUp : word = [] → rest.rest = []

/-- What is taken off a line is its first word. -/
theorem splits_next (t : Tokens) : t.Splits t.next.1 t.next.2 where
  line := ⟨_, t.next_append, fun c hc => List.all_eq_true.1 List.all_takeWhile c hc⟩
  unbroken c hc := by simpa using List.all_eq_true.1 List.all_takeWhile c hc
  ends c hc := by
    have hhead := List.head?_dropWhile_not (!isBlank ·) (Text.trimStart t.rest)
    change c ∈ ((Text.trimStart t.rest).dropWhile (!isBlank ·)).head? at hc
    rw [Option.mem_def.1 hc] at hhead
    simpa using hhead
  usedUp h := by
    have hnil : Text.trimStart t.rest = [] :=
      Text.trimStart_eq_nil_iff.2 ((next_eq_nil_iff t).1 h)
    rw [next, hnil]
    rfl

/-- There is no other way to split a line. -/
theorem next_of_splits {t rest : Tokens} {word : List Char} (h : t.Splits word rest) :
    t.next = (word, rest) := by
  obtain ⟨⟨blanks, hline, hblanks⟩, hword, hends, husedUp⟩ := h
  have htrim : Text.trimStart t.rest = word ++ rest.rest := by
    rw [hline, Text.trimStart, List.dropWhile_append_of_pos hblanks]
    cases word with
    | nil => rw [husedUp rfl]; rfl
    | cons c word =>
        rw [List.cons_append, List.dropWhile_cons_of_neg (by simp [hword c])]
  have hrest : rest.rest.takeWhile (!isBlank ·) = [] ∧
      rest.rest.dropWhile (!isBlank ·) = rest.rest := by
    cases hr : rest.rest with
    | nil => exact ⟨rfl, rfl⟩
    | cons c later =>
        have hc : isBlank c = true := hends c (by rw [hr]; rfl)
        exact ⟨List.takeWhile_cons_of_neg (by simp [hc]), List.dropWhile_cons_of_neg (by simp [hc])⟩
  have hkeep : ∀ c ∈ word, (!isBlank c) = true := fun c hc => by simp [hword c hc]
  rw [next, htrim, List.takeWhile_append_of_pos hkeep, List.dropWhile_append_of_pos hkeep, hrest.1,
    hrest.2, List.append_nil]

/-- A word between blanks, on a line that may end with it. -/
theorem splits_of_isWord {blanks word later : List Char}
    (hword : word ≠ [] ∧ ∀ c ∈ word, isBlank c = false) (hblanks : ∀ c ∈ blanks, isBlank c = true)
    (hlater : ∀ c ∈ later.head?, isBlank c = true) :
    Splits ⟨blanks ++ (word ++ later)⟩ word ⟨later⟩ where
  line := ⟨blanks, rfl, hblanks⟩
  unbroken := hword.2
  ends := hlater
  usedUp hnil := absurd hnil hword.1

/-! ### Reading numbers -/

/-- What reading a number comes to, given what it may be and the failure if it is not: the number if
it has 64 bits, and otherwise the failure. -/
structure ReadsNumber (result : Except Failure Nat) (grammar : Nat → Prop) (failure : Failure) :
    Prop where
  ok_iff : ∀ n, result = .ok n ↔ n < UInt64.size ∧ grammar n
  error_iff : ∀ e, result = .error e ↔ e = failure ∧ ¬∃ n < UInt64.size, grammar n

/-- A reading that hands out a value, and fails without one, reads numbers. -/
theorem readsNumber_of_value? {value? : Option Nat} {grammar : Nat → Prop}
    (h : ∀ n, value? = some n ↔ n < UInt64.size ∧ grammar n) (failure : Failure) :
    ReadsNumber (value?.elim (.error failure) .ok) grammar failure := by
  cases value? with
  | none =>
      have hnone : ¬∃ n < UInt64.size, grammar n := fun ⟨n, hn⟩ => nomatch (h n).2 hn
      refine ⟨fun n => iff_of_false nofun fun hn => hnone ⟨n, hn⟩, fun e => ?_⟩
      rw [Option.elim_none, Except.error.injEq, eq_comm, and_iff_left hnone]
  | some m =>
      refine ⟨fun n => ?_, fun e => iff_of_false nofun fun he => he.2 ⟨m, (h m).1 rfl⟩⟩
      rw [Option.elim_some, Except.ok.injEq, ← h, Option.some.injEq]

/-- A hexadecimal reading fails with the word that has no value. -/
theorem nextHex_eq_elim (t : Tokens) :
    t.nextHex =
      ((hexValue? t.next.1).elim (.error (.invalidHex (String.ofList t.next.1))) .ok, t.next.2) := by
  rw [nextHex, hexValue?]
  rcases t.next with ⟨word, rest⟩
  cases h : number? 16 (dropHexMark word) <;> simp [h]

/-- A decimal reading fails with the word that has no value. -/
theorem nextDec_eq_elim (t : Tokens) :
    t.nextDec =
      ((decValue? t.next.1).elim (.error (.invalidDec (String.ofList t.next.1))) .ok, t.next.2) := by
  rw [nextDec, decValue?]
  rcases t.next with ⟨word, rest⟩
  cases h : number? 10 word <;> simp [h]

/-- An address is read as a hexadecimal number that is then checked for its range. -/
theorem nextAddress_eq_bind (t : Tokens) :
    t.nextAddress = (t.nextHex.1.bind fun n =>
      if n < UInt16.size then .ok (UInt16.ofNat n) else .error (.addressOutOfRange n),
      t.nextHex.2) := by
  rw [nextAddress]
  rcases t.nextHex with ⟨e | n, rest⟩ <;> rfl

/-- What reading an address comes to: the numbers of 16 bits are addresses, and a larger one is
refused as such. -/
structure ReadsAddress (result : Except Failure Word) (grammar : Nat → Prop) (failure : Failure) :
    Prop where
  ok_iff : ∀ a, result = .ok a ↔ grammar a.toNat
  error_iff : ∀ e, result = .error e ↔
    (∃ n, 0xFFFF < n ∧ n < UInt64.size ∧ grammar n ∧ e = .addressOutOfRange n) ∨
      e = failure ∧ ¬∃ n < UInt64.size, grammar n

section

variable {grammar : Nat → Prop} {failure : Failure} {n : Nat}

/-- Every word is a number of 64 bits. -/
theorem toNat_lt_size (a : Word) : a.toNat < UInt64.size := Nat.lt_trans a.toNat_lt (by decide)

/-- Where there is no number, there is no address. -/
theorem readsAddress_of_not_exists (h : ¬∃ n < UInt64.size, grammar n) :
    ReadsAddress (.error failure) grammar failure := by
  refine ⟨fun a => iff_of_false nofun fun ha => h ⟨a.toNat, toNat_lt_size a, ha⟩, fun e => ?_⟩
  rw [Except.error.injEq, eq_comm, and_iff_left h]
  refine (or_iff_right ?_).symm
  rintro ⟨n, -, hn, hgrammar, -⟩
  exact h ⟨n, hn, hgrammar⟩

/-- A number of 16 bits is the address. -/
theorem readsAddress_of_lt (hsmall : n < UInt16.size)
    (h : ∀ m < UInt64.size, grammar m ↔ m = n) :
    ReadsAddress (.ok (UInt16.ofNat n)) grammar failure := by
  have hn : n < UInt64.size := Nat.lt_trans hsmall (by decide)
  refine ⟨fun a => ?_, fun e => iff_of_false nofun ?_⟩
  · rw [Except.ok.injEq, h _ (toNat_lt_size a), eq_comm, ← UInt16.toNat_inj,
      UInt16.toNat_ofNat_of_lt' hsmall]
  · rintro (⟨m, hlarge, hm, hgrammar, -⟩ | ⟨-, hnone⟩)
    · obtain rfl := (h m hm).1 hgrammar
      exact Nat.not_lt.2 hlarge hsmall
    · exact hnone ⟨n, hn, (h n hn).2 rfl⟩

/-- A larger number is refused as out of range. -/
theorem readsAddress_of_not_lt (hlarge : ¬n < UInt16.size) (hn : n < UInt64.size)
    (h : ∀ m < UInt64.size, grammar m ↔ m = n) :
    ReadsAddress (.error (.addressOutOfRange n)) grammar failure := by
  have hgrammar : grammar n := (h n hn).2 rfl
  refine ⟨fun a => iff_of_false nofun fun ha => ?_, fun e => ?_⟩
  · obtain rfl := (h _ (toNat_lt_size a)).1 ha
    exact hlarge a.toNat_lt
  · rw [Except.error.injEq, or_iff_left fun he => he.2 ⟨n, hn, hgrammar⟩]
    constructor
    · rintro rfl
      exact ⟨n, Nat.not_lt.1 hlarge, hn, hgrammar, rfl⟩
    · rintro ⟨m, -, hm, hgrammar', rfl⟩
      rw [(h m hm).1 hgrammar']

/-- An address is a number that is small enough. -/
theorem ReadsNumber.address {result : Except Failure Nat} (h : ReadsNumber result grammar failure) :
    ReadsAddress (result.bind fun n =>
      if n < UInt16.size then .ok (UInt16.ofNat n) else .error (.addressOutOfRange n))
      grammar failure := by
  rcases result with e | n
  · obtain ⟨rfl, hnone⟩ := (h.error_iff e).1 rfl
    exact readsAddress_of_not_exists hnone
  · obtain ⟨hn, hgrammar⟩ := (h.ok_iff n).1 rfl
    -- no other number below the limit is one that the word may be
    have hunique : ∀ m < UInt64.size, grammar m ↔ m = n := fun m hm =>
      ⟨fun hm' => (Except.ok.inj ((h.ok_iff m).2 ⟨hm, hm'⟩)).symm, fun hm' => hm' ▸ hgrammar⟩
    rw [Except.bind]
    split
    · next hsmall => exact readsAddress_of_lt hsmall hunique
    · next hlarge => exact readsAddress_of_not_lt hlarge hn hunique

end

/-! ### Numbers on a line -/

/-- Hexadecimal numbers are read by their grammar. -/
theorem readsNumber_nextHex (t : Tokens) :
    ReadsNumber t.nextHex.1 (IsHexNumeral t.next.1) (.invalidHex (String.ofList t.next.1)) := by
  rw [nextHex_eq_elim]
  exact readsNumber_of_value? (fun _ => hexValue?_eq_some_iff) _

/-- Decimal numbers are read by their grammar. -/
theorem readsNumber_nextDec (t : Tokens) :
    ReadsNumber t.nextDec.1 (IsNumeral 10 t.next.1) (.invalidDec (String.ofList t.next.1)) := by
  rw [nextDec_eq_elim]
  exact readsNumber_of_value? (fun _ => decValue?_eq_some_iff) _

section

variable {n : Nat} {blanks later : List Char}

/-- A number printed in hexadecimal is read back. -/
theorem nextHex_printed (hn : n < UInt64.size) (hblanks : ∀ c ∈ blanks, isBlank c = true)
    (hlater : ∀ c ∈ later.head?, isBlank c = true) {printed : String}
    (hprinted : printed ∈ Text.hexRenderings n) :
    (⟨blanks ++ (printed.toList ++ later)⟩ : Tokens).nextHex = (.ok n, ⟨later⟩) := by
  have hnumeral := Text.isHexNumeral_of_mem_hexRenderings hprinted
  rw [nextHex_eq_elim, next_of_splits (splits_of_isWord hnumeral.isWord hblanks hlater),
    hexValue?_eq_some_iff.2 ⟨hn, hnumeral⟩]
  rfl

/-- A number printed in decimal is read back. -/
theorem nextDec_printed (hn : n < UInt64.size) (hblanks : ∀ c ∈ blanks, isBlank c = true)
    (hlater : ∀ c ∈ later.head?, isBlank c = true) :
    (⟨blanks ++ ((toString n).toList ++ later)⟩ : Tokens).nextDec = (.ok n, ⟨later⟩) := by
  have hdigits : (toString n).toList = Nat.toDigits 10 n := by simp [toString]
  have hnumeral : Text.IsNumeral 10 (toString n).toList n :=
    hdigits ▸ isNumeral_toDigits (by decide) (by decide) n
  rw [nextDec_eq_elim,
    next_of_splits (splits_of_isWord (hnumeral.isWord (by decide)) hblanks hlater),
    decValue?_eq_some_iff.2 ⟨hn, hnumeral⟩]
  rfl

end

/-- **Number tokens are accepted exactly by their grammar.** On any line, at any place of it, what is
read as a number is the next word, as it stands there, and it is taken off the line whether it is one
or not. Printed numbers, in hexadecimal with or without a mark or in decimal, are read back as
themselves, whatever blanks are before them and whatever comes behind a blank. -/
theorem numbers_read_by_grammar :
    (∀ t : Tokens, ∃ word rest, t.Splits word rest ∧
      t.nextHex.2 = rest ∧ t.nextDec.2 = rest ∧ t.nextAddress.2 = rest ∧
      ReadsNumber t.nextHex.1 (IsHexNumeral word) (.invalidHex (String.ofList word)) ∧
      ReadsNumber t.nextDec.1 (IsNumeral 10 word) (.invalidDec (String.ofList word)) ∧
      ReadsAddress t.nextAddress.1 (IsHexNumeral word) (.invalidHex (String.ofList word))) ∧
    ∀ n < UInt64.size, ∀ blanks later : List Char, (∀ c ∈ blanks, isBlank c = true) →
      (∀ c ∈ later.head?, isBlank c = true) →
      (∀ printed ∈ Text.hexRenderings n,
        (⟨blanks ++ (printed.toList ++ later)⟩ : Tokens).nextHex = (.ok n, ⟨later⟩)) ∧
      (⟨blanks ++ ((toString n).toList ++ later)⟩ : Tokens).nextDec = (.ok n, ⟨later⟩) := by
  refine ⟨fun t => ⟨t.next.1, t.next.2, t.splits_next, ?_, ?_, ?_, t.readsNumber_nextHex,
      t.readsNumber_nextDec, ?_⟩,
    fun n hn blanks later hblanks hlater => ⟨fun _ => nextHex_printed hn hblanks hlater,
      nextDec_printed hn hblanks hlater⟩⟩
  · rw [nextHex_eq_elim]
  · rw [nextDec_eq_elim]
  · rw [nextAddress_eq_bind, nextHex_eq_elim]
  · rw [nextAddress_eq_bind]
    exact t.readsNumber_nextHex.address

/-- An address and a count, as they may be typed after the name of a command. -/
theorem numbers_read_by_grammar_dump :
    (⟨"  x0010 7".toList⟩ : Tokens).nextHex = (.ok 0x10, ⟨" 7".toList⟩) ∧
      (⟨" 7".toList⟩ : Tokens).nextDec = (.ok 7, ⟨[]⟩) := by
  obtain ⟨-, hread⟩ := numbers_read_by_grammar
  have hspaces : ∀ count, ∀ c ∈ List.replicate count ' ', isBlank c = true := fun count c hc =>
    List.eq_of_mem_replicate hc ▸ by decide
  have hspace : ∀ c ∈ " 7".toList.head?, isBlank c = true := fun c hc =>
    Option.some.inj hc ▸ by decide
  have haddress := (hread 0x10 (by decide) (List.replicate 2 ' ') " 7".toList (hspaces 2) hspace).1
    ("x" ++ Text.hexPadded 4 0x10) (by decide)
  have hcount := (hread 7 (by decide) (List.replicate 1 ' ') [] (hspaces 1) nofun).2
  exact ⟨haddress, hcount⟩

end Tokens

end Command

end ClockStep
