/-!
# Texts, bytes and numerals

How bytes are cut into lines and read as characters, which characters are blank, and how numbers are
printed and read back.

* A line ends with a newline, or a carriage return and a newline, which do not belong to it; what
  follows the last newline is a line if it is not empty.
* The blank characters, which separate the words of a command line, are those with the Unicode
  property `White_Space`. There are twenty-five of them, six in ASCII.
* Bytes are read as UTF-8 one at a time. A sequence that breaks off, or that no character has,
  counts as one fault, and the byte that breaks it is looked at again; so both the strict and the
  forgiving reader are views of the same list of characters and faults.
* Unsigned numbers are printed as digits in lower-case or upper-case hexadecimal, filled up with
  zeros to a least width, and read back from decimal or hexadecimal digits.

## Main results

* `flatten_rawLines`: nothing is lost when bytes are cut behind their newlines.
* `trimStart_eq_nil_iff`: trimming leaves nothing exactly when all characters are blank.
* `digitValue?_digitChar`: every digit that is printed is read as the same value.
* `readDigits?_toDigits`: the printed digits of a number read back as that number.
-/

/-! ### Lines of bytes -/

namespace ClockStep.Text

/-- The bytes cut behind each newline. -/
def rawLines : List UInt8 → List (List UInt8)
  | [] => []
  | b :: rest =>
    if b = 0x0A then [b] :: rawLines rest
    else match rawLines rest with
      | line :: lines => (b :: line) :: lines
      | [] => [[b]]

/-- A line without what ends it. -/
def dropLineEnd (line : List UInt8) : List UInt8 :=
  match line.reverse with
  | 0x0A :: 0x0D :: front => front.reverse
  | 0x0A :: front => front.reverse
  | _ => line

/-- The lines of the bytes. -/
def lines (bytes : List UInt8) : List (List UInt8) := (rawLines bytes).map dropLineEnd

/-- Nothing is lost in cutting. -/
theorem flatten_rawLines (bytes : List UInt8) : (rawLines bytes).flatten = bytes := by
  induction bytes with
  | nil => rfl
  | cons b rest ih =>
    rw [rawLines]
    split
    · simp [ih]
    · split
      · next line lines h => rw [h] at ih; simpa using ih
      · next h => rw [h] at ih; simpa using ih

end ClockStep.Text

/-! ### Blank characters -/

namespace ClockStep.Text

/-- The code points with the property `White_Space`, as closed ranges in ascending order. -/
def blankRanges : List (Nat × Nat) :=
  [(0x09, 0x0D), (0x20, 0x20), (0x85, 0x85), (0xA0, 0xA0), (0x1680, 0x1680), (0x2000, 0x200A),
   (0x2028, 0x2029), (0x202F, 0x202F), (0x205F, 0x205F), (0x3000, 0x3000)]

/-- A character is **blank** when its code point lies in one of the `blankRanges`. -/
def isBlank (c : Char) : Bool :=
  blankRanges.any fun range => range.1 ≤ c.toNat && c.toNat ≤ range.2

/-- The text from its first character that is not blank. -/
def trimStart (text : List Char) : List Char := text.dropWhile isBlank

/-- Whether a text holds nothing but blanks. -/
def allBlank (text : List Char) : Bool := text.all isBlank

/-- Trimming leaves nothing exactly when there was nothing but blanks. -/
theorem trimStart_eq_nil_iff {text : List Char} : trimStart text = [] ↔ allBlank text = true := by
  induction text with
  | nil => simp [trimStart, allBlank]
  | cons c rest ih =>
    cases h : isBlank c with
    | true =>
      rw [trimStart, allBlank, List.dropWhile_cons_of_pos h, List.all_cons, h, Bool.true_and]
      exact ih
    | false => simp [trimStart, allBlank, h]

end ClockStep.Text

/-! ### UTF-8 -/

namespace ClockStep.Text.Utf8

/-- Where the reader stands: between characters, or inside a sequence that still needs `needed`
bytes, the next of which has to lie between `low` and `high`. -/
inductive State where
  | between
  | inside (needed : Nat) (value : Nat) (low high : Nat)
deriving Repr, DecidableEq

/-- Reads a byte that starts a character. -/
def start (b : UInt8) : List (Option Char) × State :=
  let n := b.toNat
  if n < 0x80 then ([some (Char.ofNat n)], .between)
  else if n < 0xC2 then ([none], .between)
  else if n < 0xE0 then ([], .inside 1 (n - 0xC0) 0x80 0xBF)
  else if n = 0xE0 then ([], .inside 2 0 0xA0 0xBF)
  else if n = 0xED then ([], .inside 2 0xD 0x80 0x9F)
  else if n < 0xF0 then ([], .inside 2 (n - 0xE0) 0x80 0xBF)
  else if n = 0xF0 then ([], .inside 3 0 0x90 0xBF)
  else if n < 0xF4 then ([], .inside 3 (n - 0xF0) 0x80 0xBF)
  else if n = 0xF4 then ([], .inside 3 4 0x80 0x8F)
  else ([none], .between)

/-- Reads one byte and tells which characters and faults (`none`) it completes. -/
def State.push : State → UInt8 → List (Option Char) × State
  | .between, b => start b
  | .inside needed value low high, b =>
    if low ≤ b.toNat ∧ b.toNat ≤ high then
      let value := 64 * value + (b.toNat - 0x80)
      if needed ≤ 1 then ([some (Char.ofNat value)], .between)
      else ([], .inside (needed - 1) value 0x80 0xBF)
    else
      let (found, state) := start b
      (none :: found, state)

/-- The characters and faults that the bytes stand for, read on from a state. -/
def readFrom : State → List UInt8 → List (Option Char)
  | .between, [] => []
  | .inside .., [] => [none]
  | state, b :: rest => (state.push b).1 ++ readFrom (state.push b).2 rest

/-- The text that the bytes stand for, if they are UTF-8 throughout. -/
def decode? (bytes : List UInt8) : Option String :=
  ((readFrom .between bytes).mapM id).map String.ofList

/-- The text that the bytes stand for, each fault shown as the replacement character. -/
def decodeLossy (bytes : List UInt8) : String :=
  String.ofList ((readFrom .between bytes).map (·.getD '\uFFFD'))

/-- The bytes of a text. -/
def encode (text : String) : List UInt8 := text.toList.flatMap String.utf8EncodeChar

end ClockStep.Text.Utf8

/-! ### Numerals -/

namespace ClockStep.Text

/-! ### Printing -/

/-- The lower-case hexadecimal digits of `n`, without leading zeros. -/
def hex (n : Nat) : String := String.ofList (Nat.toDigits 16 n)

/-- The lower-case hexadecimal digits of `n`, with zeros in front up to `width` of them. -/
def hexPadded (width n : Nat) : String :=
  String.ofList ((Nat.toDigits 16 n).leftpad width '0')

/-- The two upper-case hexadecimal digits of a byte. -/
def hexByteUpper (b : UInt8) : String :=
  String.ofList (((Nat.toDigits 16 b.toNat).leftpad 2 '0').map Char.toUpper)

/-- A word as its four hexadecimal digits. -/
def hexWord (w : UInt16) : String := hexPadded 4 w.toNat

/-! ### Reading -/

/-- The value of a digit in the given base, letters of both cases counting from ten. -/
def digitValue? (base : Nat) (c : Char) : Option Nat :=
  let value? :=
    if '0' ≤ c ∧ c ≤ '9' then some (c.toNat - '0'.toNat)
    else if 'a' ≤ c ∧ c ≤ 'f' then some (c.toNat - 'a'.toNat + 10)
    else if 'A' ≤ c ∧ c ≤ 'F' then some (c.toNat - 'A'.toNat + 10)
    else none
  value?.filter (· < base)

/-- Appends further digits to the number read so far; a character that is no digit fails. -/
def readDigitsFrom? (base : Nat) : Nat → List Char → Option Nat
  | value, [] => some value
  | value, c :: rest => do
    let digit ← digitValue? base c
    readDigitsFrom? base (base * value + digit) rest

/-- The number that a nonempty text of digits stands for, without a sign. -/
def readDigits? (base : Nat) (text : List Char) : Option Nat :=
  if text.isEmpty then none else readDigitsFrom? base 0 text

/-! ### Reading back -/

/-- A printed digit is read as its value. -/
theorem digitValue?_digitChar {base d : Nat} (hb : base ≤ 16) (hd : d < base) :
    digitValue? base d.digitChar = some d := by
  have key : ∀ d < 16, digitValue? 16 d.digitChar = some d := by decide
  have h := key d (Nat.lt_of_lt_of_le hd hb)
  simp only [digitValue?, Option.filter_eq_some_iff] at h ⊢
  exact ⟨h.1, by simpa using hd⟩

/-- Digits are read from left to right, so a text may be read in two parts. -/
theorem readDigitsFrom?_append (base value : Nat) (front back : List Char) :
    readDigitsFrom? base value (front ++ back) =
      (readDigitsFrom? base value front).bind fun v => readDigitsFrom? base v back := by
  induction front generalizing value with
  | nil => rfl
  | cons c rest ih =>
    cases h : digitValue? base c with
    | none => simp [readDigitsFrom?, h]
    | some d => simp [readDigitsFrom?, h, ih]

/-- The digits printed for a number, in any base from two to sixteen, read back as it. -/
theorem readDigits?_toDigits {base : Nat} (h2 : 2 ≤ base) (h16 : base ≤ 16) (n : Nat) :
    readDigits? base (Nat.toDigits base n) = some n := by
  have main : readDigitsFrom? base 0 (Nat.toDigits base n) = some n := by
    induction n using Nat.strongRecOn with
    | ind n ih =>
      rw [Nat.toDigits_eq_if h2]
      split
      · next hn => simp [readDigitsFrom?, digitValue?_digitChar h16 hn]
      · next hn =>
        have hlt : n / base < n := Nat.div_lt_self (by omega) h2
        rw [readDigitsFrom?_append, ih _ hlt]
        simp [readDigitsFrom?, digitValue?_digitChar h16 (Nat.mod_lt n (by omega)),
          Nat.div_add_mod]
  simp [readDigits?, main, Nat.toDigits_ne_nil]

end ClockStep.Text
