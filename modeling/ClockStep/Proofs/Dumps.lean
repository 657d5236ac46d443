import ClockStep.Proofs.CommandFootprints
import ClockStep.Proofs.ImagePlacement
import ClockStep.Proofs.NumberTokens

/-!
# Reading a Dump Back

A dump is made of rows of sixteen columns, the last of them filled up with dashes. From where a row
has its label, its digits and its characters (`labelOf`, `digitsOf`, `charactersOf`), memory is read
back from the rows: `Shows` says what is found there, whatever the number of words, and however close
to the end of memory they are.

## Convention

Rows here are those without colours. The digits and the characters of a dump are those of its rows
one after the other, the gaps between the columns left out.

## Main results

* `flatMap_chunks_rightpad`: of the pieces that are filled up, it is the last one only.
* `row_spec`: what is read off a row at an address of memory.
* `readBytes_flatMap_cell`: bytes are read back from their digits.
* `shows_rows`: words that end inside memory are shown by the rows of their bytes.
* `dump_reads_back`: the operator's view of it.
-/

namespace ClockStep

/-! ### Rows of bytes -/

namespace Hexdump

variable {α : Type}

/-- What the columns of a row show, the columns behind its last byte included. -/
theorem map_range_getElem? (shown : Byte → α) (padding : α) {bytes : List Byte} {size : Nat}
    (h : bytes.length ≤ size) :
    (List.range size).map (fun column => (bytes[column]?.map shown).getD padding) =
      (bytes.map shown).rightpad size padding := by
  refine List.ext_getElem (by simp [h]) fun i hi _ => ?_
  rw [List.getElem_map, List.getElem_range]
  simp only [List.rightpad, List.getElem_append, List.length_map]
  split
  · next hlt => simp [hlt]
  · next hle => simp [Nat.not_lt.1 hle]

/-- What fits into one chunk is one chunk. -/
theorem chunks_of_le {size : Nat} {bytes : List Byte} (hsome : bytes ≠ [])
    (h : bytes.length ≤ size) : chunks size bytes = [bytes] := by
  obtain ⟨b, rest, rfl⟩ := List.exists_cons_of_ne_nil hsome
  rw [List.length_cons] at h
  rw [chunks, List.take_of_length_le (by omega), List.drop_of_length_le (by omega), chunks]

/-- What does not fit is a full chunk and the chunks of the rest. -/
theorem chunks_of_lt {size : Nat} (hsize : 0 < size) {bytes : List Byte} (h : size < bytes.length) :
    chunks size bytes = bytes.take size :: chunks size (bytes.drop size) := by
  obtain ⟨b, rest, rfl⟩ := List.exists_cons_of_length_pos (Nat.lt_trans hsize h)
  obtain ⟨size, rfl⟩ := Nat.exists_eq_add_one.2 hsize
  rw [chunks]
  rfl

/-- Bytes fit into one piece, or into one and what is left; there may be none. -/
theorem chunks_induct {size : Nat} (hsize : 0 < size) {P : List Byte → Prop} (nil : P [])
    (last : ∀ bytes, bytes ≠ [] → bytes.length ≤ size → P bytes)
    (more : ∀ bytes, size < bytes.length → P (bytes.drop size) → P bytes) (bytes : List Byte) :
    P bytes := by
  induction hlength : bytes.length using Nat.strongRecOn generalizing bytes with
  | ind n ih =>
      subst hlength
      by_cases hlt : size < bytes.length
      · refine more bytes hlt (ih _ ?_ _ rfl)
        rw [List.length_drop]
        omega
      · by_cases hnil : bytes = []
        · exact hnil ▸ nil
        · exact last bytes hnil (Nat.not_lt.1 hlt)

/-- There are as many chunks as the bytes need, rounded up. -/
theorem length_chunks {size : Nat} (hsize : 0 < size) (bytes : List Byte) :
    (chunks size bytes).length = (bytes.length + (size - 1)) / size := by
  induction bytes using chunks_induct hsize with
  | nil =>
      have hzero : (size - 1) / size = 0 := Nat.div_eq_of_lt (by omega)
      simp [chunks, hzero]
  | last bytes hsome hle =>
      have hpos := List.length_pos_iff.2 hsome
      rw [chunks_of_le hsome hle, List.length_singleton]
      exact (Nat.div_eq_of_lt_le (by omega) (by omega)).symm
  | more bytes hlt ih =>
      have hsplit : bytes.length + (size - 1) = (bytes.drop size).length + (size - 1) + size := by
        rw [List.length_drop]
        omega
      rw [chunks_of_lt hsize hlt, List.length_cons, ih, hsplit, Nat.add_div_right _ hsize]

/-- No chunk is larger than the size. -/
theorem length_le_of_mem_chunks {size : Nat} (hsize : 0 < size) {bytes chunk : List Byte}
    (h : chunk ∈ chunks size bytes) : chunk.length ≤ size := by
  induction bytes using chunks_induct hsize with
  | nil =>
      rw [chunks] at h
      cases h
  | last bytes hsome hle =>
      rw [chunks_of_le hsome hle] at h
      exact List.mem_singleton.1 h ▸ hle
  | more bytes hlt ih =>
      rw [chunks_of_lt hsize hlt] at h
      rcases List.mem_cons.1 h with rfl | h
      · exact List.length_take_le _ _
      · exact ih h

/-- **Only the last row is filled up.** Filling up each piece is filling up the whole. -/
theorem flatMap_chunks_rightpad {size : Nat} (hsize : 0 < size) (shown : Byte → α) (padding : α)
    (bytes : List Byte) :
    (chunks size bytes).flatMap (fun chunk => (chunk.map shown).rightpad size padding) =
      (bytes.map shown).rightpad (size * (chunks size bytes).length) padding := by
  induction bytes using chunks_induct hsize with
  | nil => simp [chunks]
  | last bytes hsome hle => rw [chunks_of_le hsome hle]; simp
  | more bytes hlt ih =>
      have hfull : ((bytes.take size).map shown).rightpad size padding =
          (bytes.take size).map shown := by
        have hlength : ((bytes.take size).map shown).length = size := by
          rw [List.length_map, List.length_take, Nat.min_eq_left (Nat.le_of_lt hlt)]
        rw [List.rightpad, hlength, Nat.sub_self, List.replicate_zero, List.append_nil]
      rw [chunks_of_lt hsize hlt, List.flatMap_cons, hfull, ih, List.rightpad, List.rightpad,
        ← List.append_assoc, ← List.map_append, List.take_append_drop]
      congr 2
      simp only [List.length_map, List.length_drop, List.length_cons, Nat.mul_succ]
      omega

/-! ### The text of a row -/

/-- The two digits of a byte. -/
def cell (b : Byte) : List Char := (Text.hexByteUpper b).toList

/-- The characters of a row, newlines not being among them. -/
def IsPrintable (c : Char) : Prop := ' ' ≤ c ∧ c ≤ '~'

instance (c : Char) : Decidable (IsPrintable c) := inferInstanceAs (Decidable (_ ∧ _))

/-- The two digits of a byte are neither gaps nor dashes, and read back as the byte. -/
theorem cell_spec (b : Byte) :
    (cell b).length = 2 ∧ (∀ c ∈ cell b, IsPrintable c ∧ c ≠ ' ' ∧ c ≠ '-') ∧
      Text.readDigits? 16 (cell b) = some b.toNat := by
  have key : ∀ n < 256,
      let digits := ((Nat.toDigits 16 n).leftpad 2 '0').map Char.toUpper
      digits.length = 2 ∧ digits.all (fun c => IsPrintable c ∧ c ≠ ' ' ∧ c ≠ '-') = true ∧
        Text.readDigits? 16 digits = some n := by decide +kernel
  obtain ⟨hlength, hall, hread⟩ := key b.toNat b.toNat_lt
  rw [cell, Text.hexByteUpper, String.toList_ofList]
  exact ⟨hlength, fun c hc => of_decide_eq_true (List.all_eq_true.1 hall c hc), hread⟩

/-- Every byte is shown as a printable character. -/
theorem isPrintable_shownAs (b : Byte) : IsPrintable (shownAs b) := by
  have key : ∀ n ≤ 0x7E, 0x20 ≤ n → IsPrintable (Char.ofNat n) := by decide
  rw [shownAs]
  split
  · next hrange => exact key b.toNat hrange.2 hrange.1
  · decide

/-- The part of a row between the first two bars. -/
def labelOf (row : String) : List Char := (row.toList.drop 1).take 4

/-- The hexadecimal columns of a row, without the gaps between them. -/
def digitsOf (row : String) : List Char := ((row.toList.drop 6).take 40).filter (· ≠ ' ')

/-- The columns of characters of a row, without the gap in the middle. -/
def charactersOf (row : String) : List Char :=
  let columns := (row.toList.drop 48).take 17
  columns.take 8 ++ columns.drop 9

/-- The two digits in a column, or dashes behind the last byte. -/
def cellAt (bytes : List Byte) (column : Nat) : List Char :=
  (bytes[column]?.map cell).getD ['-', '-']

/-- The character in a column, or a dash behind the last byte. -/
def shownAt (bytes : List Byte) (column : Nat) : Char := (bytes[column]?.map shownAs).getD '-'

/-- A column is two printable characters, neither of them a blank. -/
theorem cellAt_spec (bytes : List Byte) (column : Nat) :
    (cellAt bytes column).length = 2 ∧ ∀ c ∈ cellAt bytes column, IsPrintable c ∧ c ≠ ' ' := by
  rw [cellAt]
  cases bytes[column]? with
  | none =>
      have hdash : IsPrintable '-' ∧ '-' ≠ ' ' := by decide
      exact ⟨rfl, List.forall_mem_cons.2 ⟨hdash, List.forall_mem_singleton.2 hdash⟩⟩
  | some b =>
      obtain ⟨hlength, hcell, -⟩ := cell_spec b
      exact ⟨hlength, fun c hc => ⟨(hcell c hc).1, (hcell c hc).2.1⟩⟩

/-- The character of a column is printable. -/
theorem isPrintable_shownAt (bytes : List Byte) (column : Nat) :
    IsPrintable (shownAt bytes column) := by
  rw [shownAt]
  cases bytes[column]? with
  | none => decide
  | some b => exact isPrintable_shownAs b

/-- The hexadecimal columns of a row with the gaps between them. -/
def digitText (bytes : List Byte) : List Char :=
  (List.range rowBytes).flatMap fun column =>
    (if column % 2 = 0 then [' '] else []) ++ cellAt bytes column

/-- The columns of characters of a row with the gap in the middle. -/
def characterText (bytes : List Byte) : List Char :=
  (List.range rowBytes).flatMap fun column =>
    (if column ≠ 0 ∧ column % 8 = 0 then [' '] else []) ++ [shownAt bytes column]

/-- The characters of joined texts are those of one text after the other. -/
theorem toList_join_map {β : Type} (f : β → String) (xs : List β) :
    (String.join (xs.map f)).toList = xs.flatMap fun x => (f x).toList := by
  induction xs with
  | nil => rfl
  | cons x xs ih => rw [List.map_cons, String.join_cons, String.toList_append, ih, List.flatMap_cons]

/-- A row without colours, part by part. -/
theorem toList_row (address : Nat) (bytes : List Byte) :
    (row none address bytes).toList =
      ('|' :: (Text.hexPadded 4 address).toList ++ ['|']) ++
        (digitText bytes ++ ([' ', '|'] ++ (characterText bytes ++ ['|']))) := by
  have hdigits : ∀ column, (hexColumn none bytes column).toList =
      (if column % 2 = 0 then [' '] else []) ++ cellAt bytes column := by
    intro column
    rw [hexColumn, cellAt, String.toList_append, apply_ite String.toList]
    cases bytes[column]? <;> rfl
  have hcharacters : ∀ column, (charColumn none bytes column).toList =
      (if column ≠ 0 ∧ column % 8 = 0 then [' '] else []) ++ [shownAt bytes column] := by
    intro column
    rw [charColumn, shownAt, String.toList_append, apply_ite String.toList]
    cases bytes[column]? with
    | none => rfl
    | some b => exact congrArg (_ ++ ·) (String.toList_singleton _)
  simp only [row, Style.paint, String.toList_append, toList_join_map,
    hdigits, hcharacters]
  rw [digitText, characterText]
  simp only [List.append_assoc]
  rfl

/-! ### The columns of a row -/

/-- The columns and gaps of a row take forty characters, however many bytes it has. -/
theorem length_digitText {bytes : List Byte} : (digitText bytes).length = 40 := by
  rw [digitText, List.length_flatMap]
  simp only [List.length_append, (cellAt_spec bytes _).1]
  decide

/-- Without the gaps, the hexadecimal columns are those of the bytes, and filled up. -/
theorem filter_digitText {bytes : List Byte} (h : bytes.length ≤ rowBytes) :
    (digitText bytes).filter (· ≠ ' ') =
      ((bytes.map cell).rightpad rowBytes ['-', '-']).flatten := by
  have hcell : ∀ column : Nat, ((if column % 2 = 0 then [' '] else []) ++
      cellAt bytes column).filter (· ≠ ' ') = cellAt bytes column := by
    intro column
    have hgap : (if column % 2 = 0 then [' '] else []).filter (· ≠ ' ') = [] := by
      split <;> rfl
    rw [List.filter_append, hgap, List.nil_append]
    exact List.filter_eq_self.2 fun c hc => decide_eq_true ((cellAt_spec bytes column).2 c hc).2
  rw [digitText, List.filter_flatMap]
  simp only [hcell]
  rw [List.flatMap_def, ← map_range_getElem? _ _ h]
  rfl

/-- The columns of characters are those of the bytes, and filled up, in two halves. -/
theorem exists_halves {bytes : List Byte} (h : bytes.length ≤ rowBytes) :
    ∃ left right, left.length = 8 ∧ right.length = 8 ∧
      (bytes.map shownAs).rightpad rowBytes '-' = left ++ right ∧
      characterText bytes = left ++ ' ' :: right := by
  rw [← map_range_getElem? _ _ h]
  exact ⟨(List.range' 0 8).map (shownAt bytes), (List.range' 8 8).map (shownAt bytes), rfl, rfl,
    rfl, rfl⟩

/-- An address of memory is shown with four digits. -/
theorem length_hexPadded {address : Nat} (h : address < memorySize) :
    (Text.hexPadded 4 address).toList.length = 4 := by
  have hdigits : (Nat.toDigits 16 address).length ≤ 4 :=
    (Nat.length_toDigits_le_iff (by decide) (by decide)).2 h
  rw [Text.hexPadded, String.toList_ofList, List.length_leftpad]
  omega

variable {address : Nat} {bytes : List Byte}

/-- What can be read off a row. -/
theorem row_spec (haddress : address < memorySize) (h : bytes.length ≤ rowBytes) :
    labelOf (row none address bytes) = (Text.hexPadded 4 address).toList ∧
      digitsOf (row none address bytes) =
        ((bytes.map cell).rightpad rowBytes ['-', '-']).flatten ∧
      charactersOf (row none address bytes) = (bytes.map shownAs).rightpad rowBytes '-' ∧
      (row none address bytes).toList.length = 66 := by
  have hlabel := length_hexPadded haddress
  have hfront : ('|' :: (Text.hexPadded 4 address).toList ++ ['|']).length = 6 := by
    simp [hlabel]
  obtain ⟨left, right, hleft, hright, hpadded, hcharacters⟩ := exists_halves h
  have hlength : (left ++ ' ' :: right).length = 17 := by simp [hleft, hright]
  refine ⟨?_, ?_, ?_, ?_⟩
  · rw [labelOf, toList_row, List.cons_append, List.cons_append, List.drop_one, List.tail_cons,
      List.append_assoc, List.take_left' hlabel]
  · rw [digitsOf, toList_row, List.drop_left' hfront, List.take_left' length_digitText,
      filter_digitText h]
  · have hdrop : (row none address bytes).toList.drop 48 = characterText bytes ++ ['|'] := by
      rw [toList_row, ← List.append_assoc, ← List.append_assoc, List.drop_left']
      simp only [List.length_append, hfront, length_digitText, List.length_cons, List.length_nil]
    rw [charactersOf, hdrop, hcharacters, List.take_left' hlength, hpadded, List.take_left' hleft,
      List.append_cons, List.drop_left' (by simp [hleft])]
  · rw [toList_row, hcharacters]
    simp only [List.length_append, hfront, length_digitText, hleft, hright, List.length_cons,
      List.length_nil]

/-- A row is a line: there is no newline in it. -/
theorem isPrintable_row (address : Nat) (bytes : List Byte) :
    ∀ c ∈ (row none address bytes).toList, IsPrintable c := by
  have hbar : IsPrintable '|' := by decide
  have hspace : IsPrintable ' ' := by decide
  have hnil := List.forall_mem_nil IsPrintable
  have hlabel := (Text.isNumeral_hexPadded 4 address).forall_mem fun _ _ h =>
    h.of_forall_lt IsPrintable (Nat.le_refl 16) (by decide)
  have hgap : ∀ (p : Prop) [Decidable p], ∀ c ∈ (if p then [' '] else []), IsPrintable c := by
    intro p _ c hc
    split at hc
    · exact List.mem_singleton.1 hc ▸ hspace
    · cases hc
  have hcell : ∀ column, ∀ c ∈ cellAt bytes column, IsPrintable c := fun column c hc =>
    ((cellAt_spec bytes column).2 c hc).1
  have hshown := isPrintable_shownAt bytes
  rw [toList_row, digitText, characterText]
  simp only [List.forall_mem_append, List.forall_mem_cons, List.forall_mem_flatMap]
  exact ⟨⟨⟨hbar, hlabel⟩, hbar, hnil⟩, fun column _ => ⟨hgap _, hcell column⟩,
    ⟨hspace, hbar, hnil⟩, fun column _ => ⟨hgap _, hshown column, hnil⟩, hbar, hnil⟩

/-! ### Reading bytes back -/

/-- Each byte has two digits. -/
theorem length_flatMap_cell (bytes : List Byte) : (bytes.flatMap cell).length = 2 * bytes.length := by
  rw [List.length_flatMap]
  simp [(cell_spec _).1, Nat.mul_comm]

/-- No digit of a byte is a dash. -/
theorem dash_not_mem_flatMap_cell (bytes : List Byte) : '-' ∉ bytes.flatMap cell := by
  intro hdash
  obtain ⟨b, -, hb⟩ := List.mem_flatMap.1 hdash
  exact ((cell_spec b).2.1 _ hb).2.2 rfl

/-- The bytes that pairs of digits stand for, up to a pair that does not stand for one. -/
def readBytes : List Char → List Byte
  | high :: low :: rest =>
    match Text.readDigits? 16 [high, low] with
    | some value => UInt8.ofNat value :: readBytes rest
    | none => []
  | _ => []

/-- Two digits are read as the byte that they stand for, and then the others are read. -/
theorem readBytes_cons_cons (high low : Char) (rest : List Char) :
    readBytes (high :: low :: rest) =
      (Text.readDigits? 16 [high, low]).elim [] fun value => UInt8.ofNat value :: readBytes rest := by
  rw [readBytes]
  cases Text.readDigits? 16 [high, low] <;> rfl

/-- **Bytes are read back from their digits.** -/
theorem readBytes_flatMap_cell (bytes : List Byte) : readBytes (bytes.flatMap cell) = bytes := by
  induction bytes with
  | nil => rfl
  | cons b rest ih =>
      obtain ⟨hlength, -, hread⟩ := cell_spec b
      obtain ⟨high, low, hcell⟩ := List.length_eq_two.1 hlength
      rw [hcell] at hread
      rw [List.flatMap_cons, hcell, List.cons_append, List.cons_append, List.nil_append,
        readBytes_cons_cons, hread, Option.elim_some, ih]
      exact congrArg (· :: rest) UInt8.ofNat_toNat

/-! ### All rows -/

section Rows

variable {base : Nat} {bytes : List Byte}

/-- Bytes that end inside memory have their rows labelled with addresses of memory. -/
theorem address_lt (hfits : 2 * base + bytes.length ≤ 2 * memorySize) {i : Nat}
    (hi : i < (chunks rowBytes bytes).length) : base + i * rowBytes / 2 < memorySize := by
  rw [length_chunks (by decide)] at hi
  simp only [rowBytes] at hi ⊢
  omega

/-- A row is one of the pieces with the address of its first word, which lies in memory. -/
theorem exists_of_getElem?_rows (hfits : 2 * base + bytes.length ≤ 2 * memorySize) {i : Nat}
    {line : String} (h : (rows none base bytes)[i]? = some line) :
    ∃ chunk, chunk.length ≤ rowBytes ∧ base + 8 * i < memorySize ∧
      line = row none (base + 8 * i) chunk := by
  rw [rows, List.getElem?_mapIdx] at h
  obtain ⟨chunk, hchunk, rfl⟩ := Option.map_eq_some_iff.1 h
  obtain ⟨hi, hchunk⟩ := List.getElem?_eq_some_iff.1 hchunk
  have haddress : base + i * rowBytes / 2 = base + 8 * i := by
    rw [rowBytes]
    omega
  exact ⟨chunk, length_le_of_mem_chunks (by decide) (hchunk ▸ List.getElem_mem _),
    haddress ▸ address_lt hfits hi, by rw [haddress]⟩

/-- What is read off every row in the same way, whatever its label, is read off the pieces. -/
theorem flatMap_rows (hfits : 2 * base + bytes.length ≤ 2 * memorySize) {read : String → List α}
    {shown : List Byte → List α}
    (hread : ∀ address chunk, address < memorySize → chunk.length ≤ rowBytes →
      read (row none address chunk) = shown chunk) :
    (rows none base bytes).flatMap read = (chunks rowBytes bytes).flatMap shown := by
  rw [List.flatMap_def, List.flatMap_def]
  congr 1
  refine List.ext_getElem (by simp [rows]) fun i _ hi => ?_
  rw [List.length_map] at hi
  simp only [rows, List.getElem_map, List.getElem_mapIdx]
  exact hread _ _ (address_lt hfits hi)
    (length_le_of_mem_chunks (by decide) (List.getElem_mem _))

/-- The digits of all rows: those of the bytes, and then dashes. -/
theorem digits_rows (hfits : 2 * base + bytes.length ≤ 2 * memorySize) :
    (rows none base bytes).flatMap digitsOf =
      bytes.flatMap cell ++
        List.replicate (2 * (rowBytes * (chunks rowBytes bytes).length - bytes.length)) '-' := by
  calc (rows none base bytes).flatMap digitsOf
      = (chunks rowBytes bytes).flatMap fun chunk =>
          ((chunk.map cell).rightpad rowBytes ['-', '-']).flatten :=
        flatMap_rows hfits fun _ _ haddress hlength => (row_spec haddress hlength).2.1
    _ = ((chunks rowBytes bytes).flatMap fun chunk =>
          (chunk.map cell).rightpad rowBytes ['-', '-']).flatten := by
        simp only [List.flatMap_def, List.flatten_flatten, List.map_map, Function.comp_def]
    _ = ((bytes.map cell).rightpad (rowBytes * (chunks rowBytes bytes).length)
          ['-', '-']).flatten := by
        rw [flatMap_chunks_rightpad (by decide)]
    _ = _ := by
        rw [List.rightpad, List.flatten_append, ← List.flatMap_def, List.length_map,
          show ['-', '-'] = List.replicate 2 '-' from rfl, List.flatten_replicate_replicate,
          Nat.mul_comm 2]

/-- The characters of all rows: those shown for the bytes, and then dashes. -/
theorem characters_rows (hfits : 2 * base + bytes.length ≤ 2 * memorySize) :
    (rows none base bytes).flatMap charactersOf =
      bytes.map shownAs ++
        List.replicate (rowBytes * (chunks rowBytes bytes).length - bytes.length) '-' := by
  rw [flatMap_rows hfits fun _ _ haddress hlength => (row_spec haddress hlength).2.2.1,
    flatMap_chunks_rightpad (by decide), List.rightpad, List.length_map]

end Rows

end Hexdump

/-! ### The rows of a dump -/

/-- The bytes of `n` words of memory from an address on, the more significant byte of a word being
the first. -/
def Memory.bytesFrom (m : Memory) (start : Word) (n : Nat) : List Byte :=
  (List.range n).flatMap fun j =>
    let word := m.get (UInt16.ofNat (start.toNat + j))
    [word.high, word.low]

namespace Hexdump

/-- Rows show `n` words of memory from an address on. -/
structure Shows (m : Memory) (start : Word) (n : Nat) (rows : List String) : Prop where
  /-- There are as many rows as the words need, eight to a row. -/
  count : rows.length = (n + 7) / 8
  /-- A row is labelled with the address of its first word, in four digits from which it is read
  back. -/
  label : ∀ i row, rows[i]? = some row →
    start.toNat + 8 * i ≤ 0xFFFF ∧ (labelOf row).length = 4 ∧
      labelOf row = (Text.hexPadded 4 (start.toNat + 8 * i)).toList ∧
      Text.readDigits? 16 (labelOf row) = some (start.toNat + 8 * i)
  /-- The hexadecimal columns have four digits for each word, from which the bytes of the words are
  read back, and dashes behind them. -/
  digits : ∃ digits, digits.length = 4 * n ∧ '-' ∉ digits ∧
    readBytes digits = m.bytesFrom start n ∧
    rows.flatMap digitsOf = digits ++ List.replicate (4 * (8 * rows.length - n)) '-'
  /-- The columns of characters have the printable bytes themselves, dots for the others, and dashes
  behind them. -/
  characters : rows.flatMap charactersOf =
    ((m.bytesFrom start n).map fun b =>
      if 0x20 ≤ b ∧ b ≤ 0x7E then Char.ofNat b.toNat else '.') ++
      List.replicate (2 * (8 * rows.length - n)) '-'
  /-- The rows are lines of one length. -/
  line : ∀ row ∈ rows, row.toList.length = 66 ∧ ∀ c ∈ row.toList, IsPrintable c

/-- The words of a slice are the bytes of memory from there on, as far as memory goes. -/
theorem bytesOfWords_slice (m : Memory) (start : Word) (count : Nat) :
    bytesOfWords (m.slice start.toNat count) =
      m.bytesFrom start (min count (memorySize - start.toNat)) := by
  rw [Memory.slice_eq_map, bytesOfWords, List.flatMap_map]
  rfl

/-- Each word is two bytes. -/
theorem length_bytesFrom (m : Memory) (start : Word) (n : Nat) :
    (m.bytesFrom start n).length = 2 * n := by
  rw [Memory.bytesFrom, List.length_flatMap]
  simp [Nat.mul_comm]

/-- Words that end inside memory are shown by the rows of their bytes. -/
theorem shows_rows (m : Memory) {start : Word} {n : Nat} (hfits : start.toNat + n ≤ memorySize) :
    Shows m start n (rows none start.toNat (m.bytesFrom start n)) := by
  have hlength := length_bytesFrom m start n
  have hfits' : 2 * start.toNat + (m.bytesFrom start n).length ≤ 2 * memorySize := by omega
  have hrows : (rows none start.toNat (m.bytesFrom start n)).length =
      (chunks rowBytes (m.bytesFrom start n)).length := List.length_mapIdx
  have hcount : (chunks rowBytes (m.bytesFrom start n)).length = (n + 7) / 8 := by
    rw [length_chunks (by decide), hlength, rowBytes]
    omega
  constructor
  · rw [hrows, hcount]
  · intro i row hrow
    obtain ⟨chunk, hchunk, haddress, rfl⟩ := exists_of_getElem?_rows hfits' hrow
    rw [(row_spec haddress hchunk).1]
    exact ⟨Nat.le_of_lt_succ haddress, length_hexPadded haddress, rfl,
      (Text.readDigits?_eq_some_iff (Nat.le_refl 16)).2 (Text.isNumeral_hexPadded 4 _)⟩
  · refine ⟨(m.bytesFrom start n).flatMap cell, ?_, ?_, ?_, ?_⟩
    · rw [length_flatMap_cell, hlength]
      omega
    · exact dash_not_mem_flatMap_cell _
    · exact readBytes_flatMap_cell _
    · rw [digits_rows hfits', hrows, hlength, rowBytes]
      congr 2
      omega
  · rw [characters_rows hfits', hrows, hlength, rowBytes]
    congr 2
    omega
  · intro row hrow
    obtain ⟨i, hrow⟩ := List.mem_iff_getElem?.1 hrow
    obtain ⟨chunk, hchunk, haddress, rfl⟩ := exists_of_getElem?_rows hfits' hrow
    exact ⟨(row_spec haddress hchunk).2.2.2, isPrintable_row _ _⟩

end Hexdump

/-! ### What a dump prints -/

namespace Printer

variable {p : Printer}

/-- Lines without colours as they go to the sink. -/
def plainText (lines : List String) : List Byte :=
  lines.flatMap fun line => Text.Utf8.encode line ++ [newline]

/-- Lines with a newline behind each are the plain text of the lines. -/
theorem flatMap_encode_lines (lines : List String) :
    (lines.flatMap fun line => [line, "\n"]).flatMap Text.Utf8.encode = plainText lines := by
  have hnewline : Text.Utf8.encode "\n" = [newline] := by decide
  simp only [List.flatMap_assoc, List.flatMap_cons, List.flatMap_nil, List.append_nil, hnewline]
  rfl

/-- A line without colours under an open printer. -/
theorem received_told_plain (h : p.IsOpen) (hcolor : p.color = false) (style : Style)
    (text : String) :
    (p.told [(style, text)]).sink.received.toList =
      p.sink.received.toList ++ plainText [text] := by
  simp only [received_told h, painter?_of_color_eq_false hcolor, linePieces, List.flatMap_cons,
    List.flatMap_nil, ← flatMap_encode_lines, List.append_nil]

/-- Rows without colours under an open printer. -/
theorem received_hexdump (h : p.IsOpen) (hcolor : p.color = false) (base : Nat)
    (bytes : List Byte) :
    ∃ p' : Printer, p.hexdump base bytes = (.ok (), p') ∧
      p'.sink.received.toList =
        p.sink.received.toList ++ plainText (Hexdump.rows none base bytes) := by
  let pieces := (Hexdump.rows none base bytes).flatMap fun row => [row, "\n"]
  obtain ⟨hok, -, -, hreceived⟩ := writeAll_of_isOpen h pieces
  refine ⟨(p.writeAll pieces).2, ?_, hreceived.trans (congrArg _ (flatMap_encode_lines _))⟩
  rw [hexdump, painter?_of_color_eq_false hcolor]
  exact Prod.ext hok rfl

end Printer

namespace Session

open Command (called)
open Printer (plainText)
open Text (hexWord)

variable {γ κ : Type} [Core γ] [Keyboard κ]

/-- The warning that memory ends after `n` words, if more were asked for. -/
def clampWarning (start : Word) (n count : Nat) : List String :=
  if n < count then
    ["  Only " ++ toString n ++ " words left from x" ++ hexWord start ++ ", dump clamped"]
  else []

variable (γ κ) in
/-- A dump prints the warning, if there is one, and then the rows; nothing else changes. -/
theorem dump_prints {p : Printer} (h : p.IsOpen) (hcolor : p.color = false) (m : Memory)
    (start : Word) (count : Nat) :
    let n := min count (memorySize - start.toNat)
    ∃ p' : Printer,
      p'.sink.received.toList = p.sink.received.toList ++ plainText (clampWarning start n count ++
        Hexdump.rows none start.toNat (m.bytesFrom start n)) ∧
      ∀ (fuel : Nat) (s : Session γ κ), s.printer = p → s.machine.memory = m →
        perform fuel (.dumpMemory start count) s = some (.ok .continue, { s with printer := p' }) := by
  intro n
  have hlength : (m.slice start.toNat count).length = n := by
    rw [Memory.slice_eq_map, List.length_map, List.length_range]
  have hbytes : bytesOfWords (m.slice start.toNat count) = m.bytesFrom start n :=
    Hexdump.bytesOfWords_slice m start count
  by_cases hclamped : n < count
  · let warning := "  Only " ++ toString n ++ " words left from x" ++ hexWord start ++
      ", dump clamped"
    obtain ⟨p', hdump, hreceived⟩ := Printer.received_hexdump
      (Printer.isOpen_told h [(.boldYellow, warning)]) hcolor start.toNat (m.bytesFrom start n)
    refine ⟨p', ?_, ?_⟩
    · rw [hreceived, Printer.received_told_plain h hcolor, clampWarning, if_pos hclamped,
        List.append_assoc, plainText, plainText, plainText, List.flatMap_append]
    · rintro fuel s rfl rfl
      simp only [perform, dump, bind_apply, get_apply, set_apply, hlength, if_pos hclamped,
        say_of_isOpen h, hbytes, warning, hdump]
      rfl
  · obtain ⟨p', hdump, hreceived⟩ := Printer.received_hexdump h hcolor start.toNat
      (m.bytesFrom start n)
    refine ⟨p', ?_, ?_⟩
    · rw [hreceived, clampWarning, if_neg hclamped, List.nil_append]
    · rintro fuel s rfl rfl
      simp only [perform, dump, bind_apply, get_apply, set_apply, hlength, if_neg hclamped, hbytes,
        hdump]
      rfl

/-- **A dump can be read back.** Under an open printer without colours, whatever words are asked for:
the `n` of them that memory has are shown by the rows that are printed, under a warning with this
number if more were asked for, and nothing else changes. So it is for every line that calls the dump,
which forgets a request to stop as well. -/
theorem dump_reads_back {s : Session γ κ} (h : s.printer.IsOpen)
    (hcolor : s.printer.color = false) (start : Word) (count : Nat) :
    let n := min count (memorySize - start.toNat)
    ∃ rows printer,
      Hexdump.Shows s.machine.memory start n rows ∧
      printer.sink.received.toList =
        s.printer.sink.received.toList ++ plainText (clampWarning start n count ++ rows) ∧
      ∀ fuel,
        perform fuel (.dumpMemory start count) s = some (.ok .continue, { s with printer }) ∧
        ∀ line d, Calls s.breakpoints line d →
          called (argumentsOf line) d.command = .dumpMemory start count →
          handle fuel line s =
            some (.ok .continue, { s with printer, machine := s.machine.forgetCancel }) := by
  intro n
  obtain ⟨printer, hreceived, hperform⟩ := dump_prints γ κ h hcolor s.machine.memory start
    count
  have hlt : start.toNat < memorySize := start.toNat_lt
  refine ⟨_, printer, Hexdump.shows_rows s.machine.memory (by omega), hreceived, fun fuel =>
    ⟨hperform fuel s rfl rfl, fun line d hcalls hcalled => ?_⟩⟩
  refine handle_of_perform_eq_ok h hcalls ?_
  rw [hcalled]
  exact hperform fuel { s with machine := s.machine.forgetCancel } rfl rfl

/-- At the bench, four words are asked for at the end of memory, which has two of them left. -/
theorem dump_reads_back_bench :
    ∃ rows printer, rows.length = 1 ∧ rows.flatMap Hexdump.labelOf = ['f', 'f', 'f', 'e'] ∧
      printer.sink.received.toList =
        plainText ("  Only 2 words left from xfffe, dump clamped" :: rows) ∧
      handle 0 "dm fffe 4" benchSession =
        some (.ok .continue,
          { benchSession with printer, machine := benchSession.machine.forgetCancel }) := by
  have hcalls : Calls ∅ "dm fffe 4"
      ⟨.dumpMemory, ["dumpmem", "dm"], "<hex16 start> <dec count> ",
        "Dumps count words of memory starting at start"⟩ :=
    ⟨by decide, by decide, Command.holds_checks_iff.1 (by decide)⟩
  have hopen : benchSession.printer.IsOpen := fun _ _ => rfl
  obtain ⟨rows, printer, hshows, hreceived, hdump⟩ := dump_reads_back hopen rfl 0xFFFE 4
  have hcount : rows.length = 1 := hshows.count
  obtain ⟨row, rfl⟩ := List.length_eq_one_iff.1 hcount
  refine ⟨[row], printer, hcount, ?_, hreceived, ?_⟩
  · rw [List.flatMap_singleton, (hshows.label 0 row rfl).2.2.1]
    decide
  · exact (hdump 0).2 _ _ hcalls (by decide)

end Session

end ClockStep
