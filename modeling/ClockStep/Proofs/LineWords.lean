import ClockStep.Proofs.NumberTokens

/-!
# Reading a Line Word by Word

A command line can be read in five ways, and a command mixes them as it needs: a word as it is, a
number of either base, an address, a count that may be missing. All of them share one place on the
line. This module says that they do not get into each other's way: whatever was read before, the
next call of any kind is about the next maximal run of characters that are not blank, and takes it
off the line.

The runs of a text are defined without a reader (`Runs`). A text has one list of them, its words
(`runs_iff`), and cutting a text at a blank cuts the list (`words_append`).

## Convention

A call takes a word off the line if there is one. A count leaves the line as it is when no word is
left, and so does every other call, blanks apart; so the number of calls is the number of words
taken, up to the end of the line.

## Main results

* `runs_iff`: the runs of a text are its words.
* `answer_read`: a call is about the next word, and about nothing else on the line.
* `After.read`: where a call leaves the line.
* `runs_read_in_order`: what any calls give and leave.
-/

namespace ClockStep

/-! ### Runs -/

namespace Text

/-- The maximal runs of characters that are not blank, in order: blanks are before and between them,
and a run ends before a blank or with the text. -/
inductive Runs : List Char → List (List Char) → Prop
  /-- Nothing but blanks is left. -/
  | blanks {blanks : List Char} : (∀ c ∈ blanks, isBlank c = true) → Runs blanks []
  /-- Blanks, a run that is as long as it can be, and what follows it. -/
  | run {blanks run rest : List Char} {runs : List (List Char)} :
      (∀ c ∈ blanks, isBlank c = true) → run ≠ [] → (∀ c ∈ run, isBlank c = false) →
      (∀ c ∈ rest.head?, isBlank c = true) → Runs rest runs →
      Runs (blanks ++ (run ++ rest)) (run :: runs)

/-- A text has no words exactly when it is blank. -/
theorem words_eq_nil_iff {text : List Char} : words text = [] ↔ ∀ c ∈ text, isBlank c = true := by
  have hempty := Command.Tokens.isEmpty_eq ⟨text⟩
  rw [← List.isEmpty_iff, ← hempty, Command.Tokens.isEmpty, List.isEmpty_iff, trimStart_eq_nil_iff,
    allBlank, List.all_eq_true]

/-- No word is empty. -/
theorem ne_nil_of_mem_words {text word : List Char} (h : word ∈ words text) : word ≠ [] := by
  rw [words, List.mem_filter] at h
  simpa using h.2

open Command.Tokens in
/-- The words of a text are runs of it. -/
theorem runs_words (text : List Char) : Runs text (words text) := by
  generalize hwords : words text = runs
  induction runs generalizing text with
  | nil => exact .blanks (words_eq_nil_iff.1 hwords)
  | cons run runs ih =>
      obtain ⟨hfirst, hlater⟩ := next_words ⟨text⟩
      rw [hwords] at hfirst hlater
      obtain ⟨⟨blanks, htext, hblanks⟩, hunbroken, hends, -⟩ := splits_next ⟨text⟩
      have hmem : run ∈ words text := hwords ▸ List.mem_cons_self
      have hsome := ne_nil_of_mem_words hmem
      change text = _ at htext
      rw [hfirst, List.headD_cons] at htext hunbroken
      rw [htext]
      exact .run hblanks hsome hunbroken hends (ih _ hlater)

/-- No other list is: the runs of a text are its words. -/
theorem Runs.words_eq {text : List Char} {runs : List (List Char)} (h : Runs text runs) :
    words text = runs := by
  induction h with
  | blanks hblanks => exact words_eq_nil_iff.2 hblanks
  | @run blanks run rest runs hblanks hsome hunbroken hends _ ih =>
      have hnext := Command.Tokens.next_of_splits
        (Command.Tokens.splits_of_isWord ⟨hsome, hunbroken⟩ hblanks hends)
      obtain ⟨hfirst, hlater⟩ := Command.Tokens.next_words ⟨blanks ++ (run ++ rest)⟩
      rw [hnext] at hfirst hlater
      dsimp only at hfirst hlater
      rw [ih] at hlater
      cases hwords : words (blanks ++ (run ++ rest)) with
      | nil =>
          rw [hwords] at hfirst
          exact absurd hfirst hsome
      | cons word later =>
          rw [hwords] at hfirst hlater
          exact congrArg₂ List.cons hfirst.symm hlater.symm

/-- **The runs of a text are its words.** -/
theorem runs_iff {text : List Char} {runs : List (List Char)} :
    Runs text runs ↔ words text = runs :=
  ⟨Runs.words_eq, fun h => h ▸ runs_words text⟩

/-- Where a text is cut at a blank or at its end, its words are those of the two parts. -/
theorem words_append {front rest : List Char} (h : ∀ c ∈ rest.head?, isBlank c = true) :
    words (front ++ rest) = words front ++ words rest := by
  cases rest with
  | nil => rw [List.append_nil, show words [] = [] from rfl, List.append_nil]
  | cons b rest =>
      have hb : isBlank b = true := h b rfl
      rw [words_cons_of_blank hb, words, List.splitOnP_append_cons front rest hb,
        List.filter_append, words, words]

end Text

/-! ### Calls -/

namespace Command

open Text (Runs words isBlank)

/-- A way to read the next word of a line. -/
inductive Reading where
  | word
  | hex
  | dec
  | address
  | count (default : Nat)

/-- What a reading gives. -/
inductive Answer where
  | word (word : List Char)
  | number (result : Except Failure Nat)
  | address (result : Except Failure Word)

namespace Tokens

/-- One call. -/
def read (t : Tokens) : Reading → Answer × Tokens
  | .word => (.word t.next.1, t.next.2)
  | .hex => (.number t.nextHex.1, t.nextHex.2)
  | .dec => (.number t.nextDec.1, t.nextDec.2)
  | .address => (.address t.nextAddress.1, t.nextAddress.2)
  | .count default => (.number (t.nextCount default).1, (t.nextCount default).2)

/-- Calls one after the other, with what each of them gave. -/
def readAll (t : Tokens) : List Reading → List Answer × Tokens
  | [] => ([], t)
  | reading :: later =>
    ((t.read reading).1 :: ((t.read reading).2.readAll later).1,
      ((t.read reading).2.readAll later).2)

/-- A line with one word on it, or none. -/
def ofWord (word : List Char) : Tokens := ⟨word⟩

/-- Alone on its line, the next word is the next word. -/
theorem next_ofWord (t : Tokens) : (ofWord t.next.1).next = (t.next.1, ⟨[]⟩) := by
  refine next_of_splits ⟨⟨[], ?_, List.forall_mem_nil _⟩, t.splits_next.unbroken, nofun,
    fun _ => rfl⟩
  rw [ofWord, List.nil_append, List.append_nil]

/-- A line is used up exactly when the next word is empty. -/
theorem isEmpty_iff (t : Tokens) : t.isEmpty = true ↔ t.next.1 = [] := by
  rw [isEmpty_eq, t.next_words.1, List.isEmpty_iff]
  cases hwords : words t.rest with
  | nil => exact iff_of_true rfl rfl
  | cons word later =>
      have hmem : word ∈ Text.words t.rest := hwords ▸ List.mem_cons_self
      have hsome := Text.ne_nil_of_mem_words hmem
      exact iff_of_false (List.cons_ne_nil _ _) hsome

/-- The next word alone is used up exactly when the line is. -/
theorem isEmpty_ofWord (t : Tokens) : (ofWord t.next.1).isEmpty = t.isEmpty := by
  rw [Bool.eq_iff_iff, isEmpty_iff, isEmpty_iff, next_ofWord]

/-- **A call is about the next word, and about nothing else on the line.** -/
theorem answer_read (t : Tokens) (reading : Reading) :
    (t.read reading).1 = ((ofWord t.next.1).read reading).1 := by
  cases reading with
  | word => rw [read, read, next_ofWord]
  | hex => rw [read, read, nextHex_eq_elim, nextHex_eq_elim, next_ofWord]
  | dec => rw [read, read, nextDec_eq_elim, nextDec_eq_elim, next_ofWord]
  | address =>
      rw [read, read, nextAddress_eq_bind, nextAddress_eq_bind, nextHex_eq_elim, nextHex_eq_elim,
        next_ofWord]
  | count default =>
      rw [read, read, nextCount, nextCount, isEmpty_ofWord, nextDec_eq_elim, nextDec_eq_elim,
        next_ofWord]
      split <;> rfl

/-- A call takes the next word off the line; only a count may leave the line as it is, and only when
no word is left. -/
theorem read_snd (t : Tokens) (reading : Reading) :
    (t.read reading).2 = t.next.2 ∨ t.isEmpty = true ∧ (t.read reading).2 = t := by
  cases reading with
  | word => exact .inl rfl
  | hex => exact .inl (congrArg Prod.snd t.nextHex_eq_elim)
  | dec => exact .inl (congrArg Prod.snd t.nextDec_eq_elim)
  | address =>
      refine .inl ?_
      rw [read, nextAddress_eq_bind, nextHex_eq_elim]
  | count default =>
      rw [read, nextCount]
      cases hempty : t.isEmpty with
      | true => exact .inr ⟨rfl, rfl⟩
      | false => exact .inl (congrArg Prod.snd t.nextDec_eq_elim)

/-! ### Where calls leave a line -/

/-- Where a line stands **after** a number of calls: in front of a blank or at its end, unless
nothing has been read, and with as many words fewer. -/
structure After (line : List Char) (n : Nat) (t : Tokens) : Prop where
  cut : ∃ front, line = front ++ t.rest ∧ (front = [] ∨ ∀ c ∈ t.rest.head?, isBlank c = true)
  words : words t.rest = (words line).drop n

variable {line : List Char} {n : Nat} {t : Tokens}

/-- Before anything was read, the whole line is left. -/
theorem after_zero (line : List Char) : After line 0 ⟨line⟩ :=
  ⟨⟨[], rfl, .inl rfl⟩, rfl⟩

/-- A word that is read is one more. -/
theorem After.next (h : After line n t) : After line (n + 1) t.next.2 := by
  obtain ⟨⟨blanks, hline, -⟩, -, hends, -⟩ := t.splits_next
  obtain ⟨front, hfront, -⟩ := h.cut
  refine ⟨⟨front ++ (blanks ++ t.next.1), ?_, .inr hends⟩, ?_⟩
  · rw [hfront, List.append_assoc, List.append_assoc, ← hline]
  · rw [t.next_words.2, h.words, List.tail_drop]

/-- **One call is one word less.** -/
theorem After.read (h : After line n t) (reading : Reading) :
    After line (n + 1) (t.read reading).2 := by
  obtain hnext | ⟨hempty, hsame⟩ := t.read_snd reading
  · rw [hnext]
    exact h.next
  · rw [isEmpty_eq, List.isEmpty_iff] at hempty
    rw [hsame]
    refine ⟨h.cut, ?_⟩
    rw [← List.tail_drop, ← h.words, hempty, List.tail_nil]

/-- The next word is the one whose turn it is, if there is one. -/
theorem After.next_fst (h : After line n t) : t.next.1 = (Text.words line)[n]?.getD [] := by
  rw [t.next_words.1, h.words, List.headD_eq_head?_getD, List.head?_drop]

/-- What calls give, and where they leave the line. -/
theorem After.readAll (h : After line n t) (readings : List Reading) :
    (t.readAll readings).1 = readings.mapIdx (fun k reading =>
      ((ofWord ((Text.words line)[n + k]?.getD [])).read reading).1) ∧
    After line (n + readings.length) (t.readAll readings).2 := by
  induction readings generalizing n t with
  | nil => exact ⟨rfl, h⟩
  | cons reading later ih =>
      obtain ⟨hanswers, hafter⟩ := ih (h.read reading)
      refine ⟨?_, ?_⟩
      · rw [Tokens.readAll, List.mapIdx_cons, hanswers, answer_read, h.next_fst]
        simp only [Nat.add_zero, Nat.add_assoc, Nat.add_comm 1]
      · rw [List.length_cons, Nat.add_comm later.length, ← Nat.add_assoc]
        exact hafter

/-- What was read of a line has the words that were taken off it, and the rest has the others. -/
theorem After.runs (h : After line n t) :
    ∃ front, line = front ++ t.rest ∧ Runs front ((Text.words line).take n) ∧
      Runs t.rest ((Text.words line).drop n) := by
  obtain ⟨front, hline, hcut⟩ := h.cut
  refine ⟨front, hline, ?_, Text.runs_iff.2 h.words⟩
  have hsplit : Text.words front ++ (Text.words line).drop n = Text.words line := by
    symm
    rw [← h.words]
    obtain rfl | hblank := hcut
    · rw [hline, List.nil_append]
      rfl
    · rw [hline, Text.words_append hblank]
  have htaken := hsplit.trans (List.take_append_drop n (Text.words line)).symm
  exact Text.runs_iff.2 (List.append_cancel_right htaken)

/-! ### Counts -/

/-- Taking a word off a line leaves less of it. -/
theorem next_snd_ne (h : t.isEmpty = false) : t.next.2 ≠ t := by
  intro hsame
  have hword : t.next.1 ≠ [] := fun hnil => by
    rw [(t.isEmpty_iff).2 hnil] at h
    cases h
  obtain ⟨⟨blanks, hline, -⟩, -⟩ := t.splits_next
  have hlength := congrArg List.length hline
  rw [hsame, List.length_append, List.length_append] at hlength
  have := List.length_pos_iff.2 hword
  omega

/-- A count is the default, with nothing taken off the line, exactly when no word is left. -/
theorem nextCount_eq_default_iff (default : Nat) :
    t.nextCount default = (.ok default, t) ↔ t.isEmpty = true := by
  rw [nextCount]
  cases hempty : t.isEmpty with
  | true => exact iff_of_true rfl rfl
  | false =>
      refine iff_of_false (fun hdefault => next_snd_ne hempty ?_) Bool.false_ne_true
      have hrest := congrArg Prod.snd hdefault
      rw [if_neg Bool.false_ne_true, nextDec_eq_elim] at hrest
      exact hrest

/-! ### Any calls -/

/-- **A line is read run by run.** Every line has a list of maximal runs of characters that are not
blank, none of them empty. Calls of any kind, in any order, are about these runs, one after the
other: each gives what it would give on a line with nothing else on it than the run whose turn it
is, or with nothing at all when the runs are used up, and it takes this run off the line. What was
read and what is left make up the line, and the runs of the one and of the other are the runs of the
line. No word is left exactly when the runs are used up; a count is its default, with nothing taken
off the line, exactly then, and otherwise it is a decimal number like any other. -/
theorem runs_read_in_order (line : String) :
    ∃ runs, Runs line.toList runs ∧ [] ∉ runs ∧
      ∀ readings : List Reading,
        let (answers, t) := (ofLine line).readAll readings
        let n := readings.length
        answers = readings.mapIdx (fun k reading =>
          ((ofWord (runs[k]?.getD [])).read reading).1) ∧
        (∃ front, line.toList = front ++ t.rest ∧ Runs front (runs.take n) ∧
          Runs t.rest (runs.drop n)) ∧
        t.next.1 = runs[n]?.getD [] ∧
        (t.isEmpty = true ↔ runs.length ≤ n) ∧
        ∀ default, (t.nextCount default = (.ok default, t) ↔ t.isEmpty = true) ∧
          (t.isEmpty = false → t.nextCount default = t.nextDec) := by
  refine ⟨words line.toList, Text.runs_words _, fun hnil => Text.ne_nil_of_mem_words hnil rfl,
    fun readings => ?_⟩
  obtain ⟨hanswers, hafter⟩ := (after_zero line.toList).readAll readings
  simp only [Nat.zero_add] at hanswers hafter
  rw [ofLine]
  refine ⟨hanswers, hafter.runs, hafter.next_fst, ?_, fun default => ⟨?_, fun hsome => ?_⟩⟩
  · rw [isEmpty_eq, List.isEmpty_iff, hafter.words, List.drop_eq_nil_iff]
  · exact nextCount_eq_default_iff default
  · rw [nextCount, hsome, if_neg Bool.false_ne_true]

end Tokens

end Command

end ClockStep
