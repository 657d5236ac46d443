import ClockStep.Command.Invocation

/-!
# The Grammar of Command Lines

A command line is taken apart a word at a time while its arguments are being read. This module says
what a line means as a whole: `Text.words` is the list of its words, `Fits` tells whether the words
behind a spelling are arguments of its command, and `called` is the invocation that they stand for.

When words do not fit, the operator is told about one thing only. Which one it is depends on the
order in which a command looks at its arguments, and this order is what `checks` lists: each `Check`
comes with the failure that is reported if it is the first one not to hold.

## Convention

A word that is missing counts as an empty one, which is no number in either base.

## Main results

* `Tokens.next_words`: taking a word off a line is taking the head off its words.
* `holds_checks_iff`: words fit a command exactly when all of its checks hold.
* `Invocation.read_eq_checked`: reading arguments fails with the first check of them that does not
  hold, and gives what the words call if there is none.
* `Invocation.read_of_fits`: words that fit are read as what they call.
-/

namespace ClockStep

/-! ### The words of a line -/

namespace Text

/-- The words of a text: the stretches between its blanks, except for the empty ones. -/
def words (text : List Char) : List (List Char) :=
  (text.splitOnP isBlank).filter (!·.isEmpty)

/-- A blank in front adds no word. -/
theorem words_cons_of_blank {c : Char} (h : isBlank c = true) (rest : List Char) :
    words (c :: rest) = words rest := by
  simp [words, List.splitOnP_cons_eq_if_modifyHead, h]

/-- Trimming takes no word away. -/
theorem words_trimStart (text : List Char) : words (trimStart text) = words text := by
  induction text with
  | nil => rfl
  | cons c rest ih =>
      cases h : isBlank c with
      | true =>
          rw [trimStart, List.dropWhile_cons_of_pos h, words_cons_of_blank h]
          exact ih
      | false => rw [trimStart, List.dropWhile_cons_of_neg (by simp [h])]

/-- Trimming leaves nothing, or a text that does not start with a blank. -/
theorem trimStart_cases (text : List Char) :
    trimStart text = [] ∨ ∃ c rest, trimStart text = c :: rest ∧ isBlank c = false := by
  have hhead := List.head?_dropWhile_not isBlank text
  rw [trimStart]
  cases h : text.dropWhile isBlank with
  | nil => exact .inl rfl
  | cons c rest =>
      rw [h] at hhead
      exact .inr ⟨c, rest, rfl, hhead⟩

/-- A text that does not start with a blank starts with a word, which ends before the first blank. -/
theorem words_cons_of_not_blank {c : Char} (h : isBlank c = false) (rest : List Char) :
    words (c :: rest) =
      (c :: rest).takeWhile (!isBlank ·) :: words ((c :: rest).dropWhile (!isBlank ·)) := by
  have hword : ∀ d ∈ (c :: rest).takeWhile (!isBlank ·), isBlank d = false := fun d hd => by
    simpa using List.all_eq_true.1 List.all_takeWhile d hd
  have hsome : (c :: rest).takeWhile (!isBlank ·) ≠ [] := by simp [h]
  have htext : (c :: rest).takeWhile (!isBlank ·) ++ (c :: rest).dropWhile (!isBlank ·) =
    c :: rest := List.takeWhile_append_dropWhile
  have hhead := List.head?_dropWhile_not (!isBlank ·) (c :: rest)
  -- Nothing but these four facts is needed of the first word and of what comes after it.
  revert hword hsome htext hhead
  generalize (c :: rest).takeWhile (!isBlank ·) = word
  generalize (c :: rest).dropWhile (!isBlank ·) = back
  intro hword hsome htext hhead
  cases back with
  | nil =>
      rw [← htext, List.append_nil, words, List.splitOnP_eq_singleton hword]
      simp [words, hsome]
  | cons b back =>
      have hb : isBlank b = true := by simpa using hhead
      rw [← htext, words, List.splitOnP_append_cons_of_forall_mem hword b hb,
        words_cons_of_blank hb]
      simp [words, hsome]

end Text

namespace Command

open Text (words trimStart isBlank)

namespace Tokens

/-- Taking a word off a line is taking the head off its words. -/
theorem next_words (t : Tokens) :
    t.next.1 = (words t.rest).headD [] ∧ words t.next.2.rest = (words t.rest).tail := by
  rw [← Text.words_trimStart t.rest]
  obtain h | ⟨c, rest, h, hc⟩ := Text.trimStart_cases t.rest
  · simp only [next, h]
    exact ⟨rfl, rfl⟩
  · simp only [next, h, Text.words_cons_of_not_blank hc]
    exact ⟨rfl, rfl⟩

/-- No word is left on a line when it has no words. -/
theorem isEmpty_eq (t : Tokens) : t.isEmpty = (words t.rest).isEmpty := by
  rw [← Text.words_trimStart t.rest, isEmpty]
  obtain h | ⟨c, rest, h, hc⟩ := Text.trimStart_cases t.rest
  · rw [h]
    rfl
  · rw [h, Text.words_cons_of_not_blank hc]
    rfl

/-- A text has an empty first word only if it holds nothing but blanks. -/
theorem next_eq_nil_iff (t : Tokens) : t.next.1 = [] ↔ Text.allBlank t.rest = true := by
  rw [← Text.trimStart_eq_nil_iff]
  obtain h | ⟨c, rest, h, hc⟩ := Text.trimStart_cases t.rest
  · exact iff_of_true (by rw [next, h]; rfl) h
  · rw [next, h, List.takeWhile_cons_of_pos (by simp [hc])]
    exact iff_of_false (List.cons_ne_nil _ _) (List.cons_ne_nil _ _)

end Tokens

/-! ### Numbers -/

/-- An argument by its position, empty if it is missing. -/
def argument (args : List (List Char)) (i : Nat) : List Char := args[i]?.getD []

/-- The hexadecimal number that a word is, if it is one. -/
def hexValue? (word : List Char) : Option Nat := Tokens.number? 16 (Tokens.dropHexMark word)

/-- The decimal number that a word is, if it is one. -/
def decValue? (word : List Char) : Option Nat := Tokens.number? 10 word

/-- The number that a word is in hexadecimal, or zero. -/
def hexOf (word : List Char) : Nat := (hexValue? word).getD 0

/-- The number that a word is in decimal, or zero. -/
def decOf (word : List Char) : Nat := (decValue? word).getD 0

/-- The address that a word is. -/
def addressOf (word : List Char) : Word := UInt16.ofNat (hexOf word)

/-! ### Which words fit a command -/

/-- Whether words are arguments of a command, given the breakpoints. Words behind the last argument
do not matter. -/
def Fits (breakpoints : Breakpoints) (args : List (List Char)) : Command → Prop
  | .step | .stepInstruction => args = [] ∨ ∃ n, decValue? (argument args 0) = some n
  | .peek => ∃ a ≤ 0xFFFF, hexValue? (argument args 0) = some a
  | .break =>
    ∃ a ≤ 0xFFFF, hexValue? (argument args 0) = some a ∧ UInt16.ofNat a ∉ breakpoints
  | .breakRemove =>
    ∃ a ≤ 0xFFFF, hexValue? (argument args 0) = some a ∧ UInt16.ofNat a ∈ breakpoints
  | .poke =>
    (∃ a ≤ 0xFFFF, hexValue? (argument args 0) = some a) ∧
      ∃ v ≤ 0xFF, hexValue? (argument args 1) = some v
  | .dumpMemory =>
    (∃ a ≤ 0xFFFF, hexValue? (argument args 0) = some a) ∧
      ∃ n, decValue? (argument args 1) = some n
  | .interrupt =>
    (∃ v ≤ 0xFF, hexValue? (argument args 0) = some v) ∧
      (∃ p ≤ 7, decValue? (argument args 1) = some p) ∧
      ∃ d ≤ 0xFFFF, hexValue? (argument args 2) = some d
  | .help | .continue | .registers | .microState | .allRegisters | .quit | .print | .breakList =>
    True

/-- The count that words ask for: the first of them, or one if there is none. -/
def countOf (args : List (List Char)) : Nat := if args.isEmpty then 1 else decOf (argument args 0)

/-- What a command with words behind it calls. -/
def called (args : List (List Char)) : Command → Invocation
  | .help => .help
  | .step => .step (countOf args)
  | .stepInstruction => .stepInstruction (countOf args)
  | .continue => .continue
  | .registers => .registers
  | .microState => .microState
  | .allRegisters => .allRegisters
  | .peek => .peek (addressOf (argument args 0))
  | .poke => .poke (addressOf (argument args 0)) (UInt8.ofNat (hexOf (argument args 1)))
  | .dumpMemory => .dumpMemory (addressOf (argument args 0)) (decOf (argument args 1))
  | .quit => .quit
  | .interrupt =>
    .interrupt
      { vector := UInt8.ofNat (hexOf (argument args 0))
        priority := UInt8.ofNat (decOf (argument args 1))
        data := UInt16.ofNat (hexOf (argument args 2)) }
  | .print => .print
  | .breakRemove => .breakRemove (addressOf (argument args 0))
  | .breakList => .breakList
  | .break => .break (addressOf (argument args 0))

/-! ### In which order a command looks at its words -/

/-- What a number among the arguments is meant for. -/
inductive Quantity where
  | address
  | byte
  | vector
  | priority
  | data

/-- The largest number that a quantity can be. -/
def Quantity.limit : Quantity → Nat
  | address | data => 0xFFFF
  | byte | vector => 0xFF
  | priority => 7

/-- What is reported about a number that is too large for a quantity. -/
def Quantity.refusal : Quantity → Nat → Failure
  | address => .addressOutOfRange
  | byte => .byteOutOfRange
  | vector => .vectorOutOfRange
  | priority => .priorityOutOfRange
  | data => .dataOutOfRange

/-- One thing that a command looks at before it does anything. -/
inductive Check where
  /-- A word has to be a hexadecimal number. -/
  | hex (word : List Char)
  /-- A word has to be a decimal number. -/
  | dec (word : List Char)
  /-- A number has to be small enough for what it is meant for. -/
  | inRange (quantity : Quantity) (value : Nat)
  /-- There must be no breakpoint at an address. -/
  | unset (address : Word)
  /-- There has to be a breakpoint at an address. -/
  | set (address : Word)

namespace Check

/-- Whether a check holds, given the breakpoints. -/
def holds (breakpoints : Breakpoints) : Check → Bool
  | hex word => (hexValue? word).isSome
  | dec word => (decValue? word).isSome
  | inRange quantity value => value ≤ quantity.limit
  | unset address => address ∉ breakpoints
  | set address => address ∈ breakpoints

/-- What is reported when a check does not hold. -/
def failure : Check → Failure
  | hex word => .invalidHex (String.ofList word)
  | dec word => .invalidDec (String.ofList word)
  | inRange quantity value => quantity.refusal value
  | unset address => .breakpoint (.alreadySet address)
  | set address => .breakpoint (.notSet address)

/-- Whether a check is about a word being a number at all. -/
def isOfWord : Check → Bool
  | hex _ | dec _ => true
  | inRange .. | unset _ | set _ => false

/-- A value, provided that checks hold; otherwise the failure of the first one that does not. -/
def checked {α : Type} (breakpoints : Breakpoints) (checks : List Check) (value : α) :
    Except Failure α :=
  match checks.find? (!·.holds breakpoints) with
  | some check => .error check.failure
  | none => .ok value

/-- The checks that a word is an address. -/
def ofAddress (word : List Char) : List Check :=
  [hex word, inRange .address (hexOf word)]

variable {α : Type} {breakpoints : Breakpoints}

/-- A word passes as hexadecimal when it has a hexadecimal value. -/
@[simp] theorem holds_hex {word : List Char} :
    (hex word).holds breakpoints = true ↔ (hexValue? word).isSome = true := Iff.rfl

/-- A word passes as decimal when it has a decimal value. -/
@[simp] theorem holds_dec {word : List Char} :
    (dec word).holds breakpoints = true ↔ (decValue? word).isSome = true := Iff.rfl

/-- A value is in range up to and with the limit. -/
@[simp] theorem holds_inRange {quantity : Quantity} {value : Nat} :
    (inRange quantity value).holds breakpoints = true ↔ value ≤ quantity.limit :=
  decide_eq_true_iff

/-- An address passes as free when no breakpoint is there. -/
@[simp] theorem holds_unset {address : Word} :
    (unset address).holds breakpoints = true ↔ address ∉ breakpoints := decide_eq_true_iff

/-- An address passes as taken when a breakpoint is there. -/
@[simp] theorem holds_set {address : Word} :
    (set address).holds breakpoints = true ↔ address ∈ breakpoints := decide_eq_true_iff

/-- Without checks, the value is handed out. -/
@[simp] theorem checked_nil (value : α) : checked breakpoints [] value = .ok value := rfl

/-- The first check comes first: only behind it do the others count. -/
@[simp] theorem checked_cons (check : Check) (checks : List Check) (value : α) :
    checked breakpoints (check :: checks) value =
      if check.holds breakpoints then checked breakpoints checks value
      else .error check.failure := by
  cases h : check.holds breakpoints <;> simp [checked, h]

end Check

/-- What a command looks at in its arguments, in this order. -/
def argumentChecks (args : List (List Char)) : Command → List Check
  | .step | .stepInstruction => if args.isEmpty then [] else [.dec (argument args 0)]
  | .peek | .break | .breakRemove => Check.ofAddress (argument args 0)
  | .poke =>
    Check.ofAddress (argument args 0) ++
      [.hex (argument args 1), .inRange .byte (hexOf (argument args 1))]
  | .dumpMemory => Check.ofAddress (argument args 0) ++ [.dec (argument args 1)]
  | .interrupt =>
    [.hex (argument args 0), .dec (argument args 1), .hex (argument args 2),
      .inRange .data (hexOf (argument args 2)), .inRange .vector (hexOf (argument args 0)),
      .inRange .priority (decOf (argument args 1))]
  | .help | .continue | .registers | .microState | .allRegisters | .quit | .print | .breakList => []

/-- What an invocation looks at in the breakpoints. -/
def Invocation.breakpointChecks : Invocation → List Check
  | .break address => [.unset address]
  | .breakRemove address => [.set address]
  | _ => []

/-- All that a command looks at before it does anything, in this order. -/
def checks (args : List (List Char)) (command : Command) : List Check :=
  argumentChecks args command ++ (called args command).breakpointChecks

/-- A number that is there and small enough, with a further property of it. -/
theorem exists_le_iff {value? : Option Nat} {limit : Nat} {p : Nat → Prop} :
    (∃ n ≤ limit, value? = some n ∧ p n) ↔
      value?.isSome = true ∧ value?.getD 0 ≤ limit ∧ p (value?.getD 0) := by
  cases value? with
  | none => simp
  | some m =>
      simp only [Option.some.injEq, Option.isSome_some, Option.getD_some, true_and]
      constructor
      · rintro ⟨n, hn, rfl, hp⟩
        exact ⟨hn, hp⟩
      · exact fun ⟨hm, hp⟩ => ⟨m, hm, rfl, hp⟩

/-- Words fit a command exactly when all of its checks hold. -/
theorem holds_checks_iff {breakpoints : Breakpoints} {args : List (List Char)}
    {command : Command} :
    (checks args command).all (·.holds breakpoints) = true ↔
      Fits breakpoints args command := by
  have hle : ∀ {value? : Option Nat} {limit : Nat},
      (∃ n ≤ limit, value? = some n) ↔ value?.isSome = true ∧ value?.getD 0 ≤ limit := by
    intro value? limit
    simpa using exists_le_iff (p := fun _ => True)
  have hsome : ∀ {value? : Option Nat}, (∃ n, value? = some n) ↔ value?.isSome = true :=
    Option.isSome_iff_exists.symm
  cases command with
  | step | stepInstruction =>
      cases args with
      | nil => simp [checks, argumentChecks, called, Invocation.breakpointChecks, Fits]
      | cons word rest =>
          simp [checks, argumentChecks, called, Invocation.breakpointChecks, Fits, hsome]
  | peek =>
      simp [checks, argumentChecks, called, Invocation.breakpointChecks, Fits, Check.ofAddress,
        Quantity.limit, hle, hexOf]
  | «break» | breakRemove =>
      simp [checks, argumentChecks, called, Invocation.breakpointChecks, Fits, Check.ofAddress,
        Quantity.limit, exists_le_iff, addressOf, hexOf]
  | poke =>
      simp [checks, argumentChecks, called, Invocation.breakpointChecks, Fits, Check.ofAddress,
        Quantity.limit, hle, hexOf, and_assoc]
  | dumpMemory =>
      simp [checks, argumentChecks, called, Invocation.breakpointChecks, Fits, Check.ofAddress,
        Quantity.limit, hle, hsome, hexOf, and_assoc]
  | interrupt =>
      simp only [checks, argumentChecks, called, Invocation.breakpointChecks, Fits, Quantity.limit,
        hle, hexOf, decOf, List.append_nil, List.all_cons, List.all_nil, Bool.and_true,
        Bool.and_eq_true, Check.holds_hex, Check.holds_dec, Check.holds_inRange]
      constructor
      · rintro ⟨hvector, hpriority, hdata, hdata', hvector', hpriority'⟩
        exact ⟨⟨hvector, hvector'⟩, ⟨hpriority, hpriority'⟩, hdata, hdata'⟩
      · rintro ⟨⟨hvector, hvector'⟩, ⟨hpriority, hpriority'⟩, hdata, hdata'⟩
        exact ⟨hvector, hpriority, hdata, hdata', hvector', hpriority'⟩
  | help | «continue» | registers | microState | allRegisters | quit | print | breakList =>
      simp [checks, argumentChecks, called, Invocation.breakpointChecks, Fits]

/-! ### Reading arguments -/

section Reading

variable {α β : Type} (breakpoints : Breakpoints)

/-- One reading after the other makes all checks of both, in this order. -/
theorem Check.checked_bind {checks later : List Check} {value : α} {result : β}
    {next : α → Except Failure β} (h : next value = checked breakpoints later result) :
    (checked breakpoints checks value >>= next) =
      checked breakpoints (checks ++ later) result := by
  induction checks with
  | nil => exact h
  | cons check checks ih =>
      simp only [checked_cons, List.cons_append]
      split
      · exact ih
      · rfl

/-- What is done with a value is done behind its checks. -/
theorem Check.map_checked {checks : List Check} {value : α} (f : α → β) :
    (checked breakpoints checks value).map f = checked breakpoints checks (f value) := by
  unfold checked
  split <;> rfl

/-- Refusing what is too large is one check more. -/
theorem Check.checked_guard (quantity : Quantity) {size value : Nat} {later : List Check}
    {result : α} {rest : Except Failure α} (hsize : size = quantity.limit + 1)
    (h : rest = checked breakpoints later result) :
    (if size ≤ value then (do throw (quantity.refusal value); rest) else rest) =
      checked breakpoints (.inRange quantity value :: later) result := by
  subst hsize
  simp only [checked_cons, holds_inRange, failure]
  by_cases hvalue : quantity.limit + 1 ≤ value
  · rw [if_pos hvalue, if_neg (by omega)]
    rfl
  · rw [if_neg hvalue, if_pos (by omega), h]

variable (t : Tokens)

/-! What is read off a line is a check of its next word, and what is left is the rest of the line;
`breakpoints` may be any, as no such check looks at them. -/

/-- Reading a hexadecimal number is one check of the next word. -/
theorem Tokens.nextHex_eq :
    t.nextHex =
      (Check.checked breakpoints [.hex t.next.1] (hexOf t.next.1), t.next.2) := by
  obtain h | ⟨n, h⟩ := Option.eq_none_or_eq_some (number? 16 (dropHexMark t.next.1)) <;>
    simp [nextHex, Check.failure, hexOf, hexValue?, h]

/-- Reading a decimal number is one check of the next word. -/
theorem Tokens.nextDec_eq :
    t.nextDec =
      (Check.checked breakpoints [.dec t.next.1] (decOf t.next.1), t.next.2) := by
  obtain h | ⟨n, h⟩ := Option.eq_none_or_eq_some (number? 10 t.next.1) <;>
    simp [nextDec, Check.failure, decOf, decValue?, h]

/-- Reading an address is two checks of the next word, the digits before the range. -/
theorem Tokens.nextAddress_eq :
    t.nextAddress =
      (Check.checked breakpoints (Check.ofAddress t.next.1) (addressOf t.next.1), t.next.2) := by
  have hsize : ∀ n : Nat, n < UInt16.size ↔ n ≤ 0xFFFF := fun n => Nat.lt_succ_iff
  obtain h | ⟨n, h⟩ := Option.eq_none_or_eq_some (hexValue? t.next.1) <;>
    simp [nextAddress, nextHex_eq breakpoints, Check.ofAddress, Check.failure, Quantity.limit,
      Quantity.refusal, addressOf, hexOf, h, hsize]

/-- The first argument is the word that is read next. -/
theorem Tokens.argument_zero : argument (words t.rest) 0 = t.next.1 := by
  rw [t.next_words.1, argument]
  cases words t.rest <;> rfl

/-- The arguments behind it are those of what is then left. -/
theorem Tokens.argument_succ (i : Nat) :
    argument (words t.rest) (i + 1) = argument (words t.next.2.rest) i := by
  rw [t.next_words.2, argument, argument]
  cases words t.rest <;> rfl

/-! A reader of several arguments binds one check of a word to the next and then guards the numbers,
so its checks are put together in the shape of the reader. -/

/-- A write is read as an address and a byte, and checked in that order. -/
theorem readPoke_eq :
    Invocation.readPoke t =
      Check.checked breakpoints (argumentChecks (words t.rest) .poke)
        (addressOf (argument (words t.rest) 0), UInt8.ofNat (hexOf (argument (words t.rest) 1))) := by
  simp only [Invocation.readPoke, Tokens.nextAddress_eq breakpoints, Tokens.nextHex_eq breakpoints,
    argumentChecks, Tokens.argument_succ, Tokens.argument_zero]
  exact Check.checked_bind _ (Check.checked_bind _ (Check.checked_guard _ .byte rfl rfl))

/-- A dump is read as an address and a count, and checked in that order. -/
theorem readDump_eq :
    Invocation.readDump t =
      Check.checked breakpoints (argumentChecks (words t.rest) .dumpMemory)
        (addressOf (argument (words t.rest) 0), decOf (argument (words t.rest) 1)) := by
  simp only [Invocation.readDump, Tokens.nextAddress_eq breakpoints, Tokens.nextDec_eq breakpoints,
    argumentChecks, Tokens.argument_succ, Tokens.argument_zero]
  exact Check.checked_bind _ (Check.checked_bind _ (Check.checked_nil _).symm)

/-- An interrupt is read as vector, priority and data: first the digits of all three, then the
ranges. -/
theorem readInterrupt_eq :
    Invocation.readInterrupt t =
      Check.checked breakpoints (argumentChecks (words t.rest) .interrupt)
        { vector := UInt8.ofNat (hexOf (argument (words t.rest) 0))
          priority := UInt8.ofNat (decOf (argument (words t.rest) 1))
          data := UInt16.ofNat (hexOf (argument (words t.rest) 2)) } := by
  simp only [Invocation.readInterrupt, Tokens.nextHex_eq breakpoints,
    Tokens.nextDec_eq breakpoints, argumentChecks, Tokens.argument_succ, Tokens.argument_zero]
  exact Check.checked_bind _ (Check.checked_bind _ (Check.checked_bind _
    (Check.checked_guard _ .data rfl (Check.checked_guard _ .vector rfl
      (Check.checked_guard _ .priority rfl rfl)))))

/-- A count is checked only where it stands; left out, it is one. -/
theorem Tokens.nextCount_eq :
    (t.nextCount 1).1 =
      Check.checked breakpoints (argumentChecks (words t.rest) .step) (countOf (words t.rest)) := by
  simp only [nextCount, argumentChecks, countOf, isEmpty_eq, argument_zero,
    nextDec_eq breakpoints]
  split <;> rfl

/-- Reading the arguments of a command makes its checks of them in the order in which they are
listed, and gives what the words call if all hold. -/
theorem Invocation.read_eq_checked (command : Command) :
    Invocation.read command t =
      Check.checked breakpoints (argumentChecks (words t.rest) command)
        (called (words t.rest) command) := by
  cases command with
  | step | stepInstruction =>
      simp only [Invocation.read, Tokens.nextCount_eq breakpoints, Check.map_checked]
      rfl
  | peek | «break» | breakRemove =>
      simp only [Invocation.read, Tokens.nextAddress_eq breakpoints, Check.map_checked,
        argumentChecks, called, Tokens.argument_zero]
  | poke => simp only [Invocation.read, readPoke_eq breakpoints, Check.map_checked, called]
  | dumpMemory => simp only [Invocation.read, readDump_eq breakpoints, Check.map_checked, called]
  | interrupt => simp only [Invocation.read, readInterrupt_eq breakpoints, Check.map_checked, called]
  | help | «continue» | registers | microState | allRegisters | quit | print | breakList => rfl

/-- Words that fit a command are read as what they call. -/
theorem Invocation.read_of_fits {breakpoints : Breakpoints} {command : Command}
    (h : Fits breakpoints (words t.rest) command) :
    Invocation.read command t = .ok (called (words t.rest) command) := by
  have hall := holds_checks_iff.2 h
  rw [checks, List.all_append, Bool.and_eq_true, List.all_eq_true] at hall
  have hnone : (argumentChecks (words t.rest) command).find? (!·.holds breakpoints) = none :=
    List.find?_eq_none.2 fun check hcheck => by simp [hall.1 check hcheck]
  rw [Invocation.read_eq_checked breakpoints, Check.checked, hnone]

end Reading

end Command

end ClockStep
