import ClockStep.Image

/-!
# What Loading Leaves in Memory

An image is a list of bytes, memory an array of words, and up to three writes lie over each other in
it: the operating system, the program, and the program's origin in the cell where the operating
system looks for it. This module says address by address what is there in the end, straight from the
bytes of the images.

`Image.word` is a word of an image by its number and `Image.wordAt?` the word that the image has for
an address; both look at the bytes only. One image placed over cells is described in terms of them
by `Image.place_spec`; two placements and the write of the origin make a load.

Cells are raw while images are placed, and what is said about them is always said of the words that
they stand for, so that the byte order of the host is gone from all that follows.

## Main results

* `getElem?_rawWords`: the raw words of bytes, by number.
* `Image.place_spec`: a placed image covers the cells that it has words for, and no others.
* `Memory.load_places_images`: when loading fails, what memory holds otherwise, what was noted, and
  that the words of an image can be read back.
-/

namespace ClockStep

/-! ### Images by their bytes -/

namespace Image

/-- The address that an image asks to be placed at: its first two bytes, the high one first. -/
def origin (image : Image) : Word :=
  Word.ofBytes (image.bytes[0]?.getD 0) (image.bytes[1]?.getD 0)

/-- The bytes behind the origin. -/
def payload (image : Image) : List Byte := image.bytes.drop 2

/-- The number of words in an image, a single byte at the end counting as one. -/
def wordCount (image : Image) : Nat := (image.payload.length + 1) / 2

/-- The number of cells from the origin to the end of memory. -/
def room (image : Image) : Nat := memorySize - image.origin.toNat

/-- A word of an image by its number. A byte that is missing is zero. -/
def word (image : Image) (j : Nat) : Word :=
  Word.ofBytes (image.payload[2 * j]?.getD 0) (image.payload[2 * j + 1]?.getD 0)

/-- All words of an image, also those that have no room in memory. -/
def words (image : Image) : List Word := (List.range image.wordCount).map image.word

/-- The word that an image has for an address: the one whose number is the distance from the origin,
if there is one and it has room. -/
def wordAt? (image : Image) (a : Nat) : Option Word :=
  if image.origin.toNat ≤ a ∧ a - image.origin.toNat < min image.wordCount image.room then
    some (image.word (a - image.origin.toNat))
  else none

/-- What is noted when an image is placed. -/
def notices (image : Image) (role : ImageRole) : List Notice :=
  .loading role image.origin ::
    if image.room < image.wordCount then [.truncated role image.name] else []

end Image

/-- A last odd byte counts as a word. -/
theorem length_rawWords (order : ByteOrder) (bytes : List Byte) :
    (rawWords order bytes).length = (bytes.length + 1) / 2 := by
  fun_induction rawWords order bytes with
  | case1 first second rest ih => simp only [List.length_cons, ih]; omega
  | case2 first => simp
  | case3 => simp

/-- The raw words of bytes, by number. -/
theorem getElem?_rawWords (order : ByteOrder) (bytes : List Byte) (j : Nat) :
    (rawWords order bytes)[j]? =
      if j < (bytes.length + 1) / 2 then
        some (order.native (bytes[2 * j]?.getD 0) (bytes[2 * j + 1]?.getD 0))
      else none := by
  fun_induction rawWords order bytes generalizing j with
  | case1 first second rest ih =>
      cases j with
      | zero => simp
      | succ j =>
          have hlength : j + 1 < ((first :: second :: rest).length + 1) / 2 ↔
              j < (rest.length + 1) / 2 := by
            simp only [List.length_cons]
            omega
          simp only [List.getElem?_cons_succ, ih, hlength, Nat.mul_succ]
  | case2 first => cases j <;> simp
  | case3 => simp

/-! ### Placing one image -/

namespace Image

variable {image : Image} (order : ByteOrder) (role : ImageRole) (cells : Cells)

/-- The raw word at the start of an image. -/
def rawOrigin (image : Image) (order : ByteOrder) : Word :=
  order.native (image.bytes[0]?.getD 0) (image.bytes[1]?.getD 0)

/-- The first word as it is held, read as big-endian, is the origin. -/
@[simp] theorem fromBig_rawOrigin (image : Image) :
    order.fromBig (image.rawOrigin order) = image.origin :=
  order.fromBig_native _ _

/-- An image without a whole first word has no layout. -/
theorem layout?_of_length_lt (h : image.bytes.length < 2) : image.layout? order = none := by
  obtain ⟨name, bytes⟩ := image
  match bytes, h with
  | [], _ => rfl
  | [_], _ => rfl

/-- Any other image has its origin and its words. -/
theorem layout?_of_le_length (h : 2 ≤ image.bytes.length) :
    image.layout? order = some (image.rawOrigin order, rawWords order image.payload) := by
  obtain ⟨name, bytes⟩ := image
  match bytes, h with
  | _ :: _ :: _, _ => rfl

/-- An image without a whole first word is refused by name. -/
theorem place_of_length_lt (h : image.bytes.length < 2) :
    image.place order role cells = .error (.missingOrigin image.name) := by
  simp only [place, layout?_of_length_lt order h]

/-- A placed image covers the cells that it has words for, and no others. -/
theorem place_spec (h : 2 ≤ image.bytes.length) :
    ∃ covered, image.place order role cells =
        .ok { cells := covered
              rawOrigin := image.rawOrigin order
              notices := image.notices role } ∧
      ∀ a (ha : a < memorySize),
        order.fromBig covered[a] = (image.wordAt? a).getD (order.fromBig cells[a]) := by
  refine ⟨cells.placed image.origin.toNat (rawWords order image.payload), ?_, fun a ha => ?_⟩
  · simp only [place, layout?_of_le_length order h, length_rawWords, fromBig_rawOrigin]
    rfl
  · simp only [Cells.placed_getElem, getElem?_rawWords, wordAt?, room, wordCount, word]
    by_cases hle : image.origin.toNat ≤ a
    · have hroom : a - image.origin.toNat < min ((image.payload.length + 1) / 2)
          (memorySize - image.origin.toNat) ↔
          a - image.origin.toNat < (image.payload.length + 1) / 2 := by omega
      simp only [hle, hroom, true_and, if_true]
      split
      · exact order.fromBig_native _ _
      · rfl
    · simp only [hle, false_and, if_false, Option.getD_none]

/-- A word that has room is there for the address that it is placed at. -/
theorem wordAt?_origin_add {image : Image} {j : Nat} (hcount : j < image.wordCount)
    (hroom : j < image.room) : image.wordAt? (image.origin.toNat + j) = some (image.word j) := by
  have hj : image.origin.toNat + j - image.origin.toNat = j := Nat.add_sub_cancel_left ..
  rw [wordAt?, hj, if_pos ⟨Nat.le_add_right .., Nat.lt_min.2 ⟨hcount, hroom⟩⟩]

end Image

/-! ### Loading -/

namespace Memory

variable (order : ByteOrder)

/-- Blank cells are zero in either order of bytes. -/
theorem fromBig_blank (a : Nat) (ha : a < memorySize) : order.fromBig Cells.blank[a] = 0 := by
  rw [Cells.blank, Vector.getElem_replicate, order.fromBig_zero]

/-- The words of memory are those that the raw cells stand for. -/
theorem get_ofRaw (cells : Cells) (entry : Word) {a : Word} (ha : a.toNat < memorySize) :
    (ofRaw order cells entry).get a = order.fromBig cells[a.toNat] :=
  Vector.getElem_map _ _

/-- A cell of memory is the word at its address. -/
theorem get_ofNat {m : Memory} {a : Nat} (ha : a < memorySize) :
    m.get (UInt16.ofNat a) = m.cells[a] := by
  have htoNat : (UInt16.ofNat a).toNat = a := UInt16.toNat_ofNat_of_lt' ha
  simp only [get, htoNat]
  rfl

/-- A slice has the words of memory from its start on, as many of them as there are. -/
theorem slice_eq_map (m : Memory) (start : Word) (count : Nat) :
    m.slice start.toNat count =
      (List.range (min count (memorySize - start.toNat))).map fun j =>
        m.get (UInt16.ofNat (start.toNat + j)) := by
  have hlength : (m.slice start.toNat count).length = min count (memorySize - start.toNat) := by
    simp only [slice_eq_extract, Array.length_toList, Array.size_extract, Vector.size_toArray]
    omega
  refine List.ext_getElem (by simp [hlength]) fun j hj _ => ?_
  rw [hlength] at hj
  have haddress : start.toNat + j < memorySize := by omega
  rw [List.getElem_map, List.getElem_range, get_ofNat haddress]
  simp [slice_eq_extract]

/-- Where memory has the word that an image has for each address of it, and the image has room, the
words are read back. -/
theorem slice_eq_words {m : Memory} {image : Image} (hfits : image.wordCount ≤ image.room)
    (hget : ∀ a : Word, ∀ j < image.wordCount, a.toNat = image.origin.toNat + j →
      image.wordAt? a.toNat = some (image.word j) → m.get a = image.word j) :
    m.slice image.origin.toNat image.wordCount = image.words := by
  have hroom : image.room = memorySize - image.origin.toNat := rfl
  rw [slice_eq_map, ← hroom, Nat.min_eq_left hfits, Image.words]
  refine List.map_congr_left fun j hj => ?_
  have hj : j < image.wordCount := List.mem_range.1 hj
  have haddress : image.origin.toNat + j < memorySize := by omega
  have htoNat : (UInt16.ofNat (image.origin.toNat + j)).toNat = image.origin.toNat + j :=
    UInt16.toNat_ofNat_of_lt' haddress
  refine hget _ j hj htoNat ?_
  rw [htoNat, Image.wordAt?_origin_add hj (by omega)]

/-- What loading a program without an operating system leaves behind. -/
theorem load_alone {program : Image} (h : 2 ≤ program.bytes.length) :
    ∃ m, load program none order = (program.notices .program, .ok m) ∧
      m.entry = program.origin ∧ ∀ a : Word, m.get a = (program.wordAt? a.toNat).getD 0 := by
  obtain ⟨covered, hplace, hcells⟩ := Image.place_spec order .program .blank h
  refine ⟨_, by simp only [load, hplace]; rfl, program.fromBig_rawOrigin order, fun a => ?_⟩
  rw [get_ofRaw order _ _ a.toNat_lt, hcells, fromBig_blank]

/-- What loading a program over an operating system leaves behind. -/
theorem load_over {program os : Image} (hos : 2 ≤ os.bytes.length)
    (h : 2 ≤ program.bytes.length) :
    ∃ m, load program (some os) order = (os.notices .system ++ program.notices .program, .ok m) ∧
      m.entry = supervisorEntry ∧ m.get 0x0200 = program.origin ∧
      ∀ a : Word, a ≠ 0x0200 →
        m.get a = ((program.wordAt? a.toNat).or (os.wordAt? a.toNat)).getD 0 := by
  obtain ⟨below, hbelow, hbelowCells⟩ := Image.place_spec order .system .blank hos
  obtain ⟨covered, hplace, hcells⟩ := Image.place_spec order .program below h
  refine ⟨_, by simp only [load, hbelow, hplace]; rfl, rfl, ?_, fun a ha => ?_⟩
  · rw [get_ofRaw order _ _ (by decide)]
    exact (congrArg order.fromBig (Vector.getElem_set_self _)).trans
      (program.fromBig_rawOrigin order)
  · have hne : userEntryCell ≠ a.toNat := fun heq => ha (UInt16.toNat_inj.1 heq.symm)
    rw [get_ofRaw order _ _ a.toNat_lt, Vector.getElem_set_ne _ _ hne, hcells, hbelowCells,
      fromBig_blank]
    cases program.wordAt? a.toNat <;> rfl

/-- If the system's image lacks an origin, nothing else is looked at. -/
theorem load_of_short_system {program os : Image} (hos : os.bytes.length < 2) :
    load program (some os) order = ([], .error (.missingOrigin os.name)) := by
  simp only [load, Image.place_of_length_lt _ _ _ hos]

/-- If only the program's image lacks one, it is the one refused. -/
theorem load_of_short_program {program : Image} {system : Option Image}
    (hsystem : ∀ os ∈ system, 2 ≤ os.bytes.length) (h : program.bytes.length < 2) :
    (load program system order).2 = .error (.missingOrigin program.name) := by
  cases system with
  | none => simp only [load, Image.place_of_length_lt _ _ _ h]
  | some os =>
      obtain ⟨below, hbelow, -⟩ := Image.place_spec order .system .blank (hsystem os rfl)
      simp only [load, hbelow, Image.place_of_length_lt _ _ _ h]

/-- An image is told to be cut exactly if its words do not fit behind its origin. -/
theorem truncated_mem_notices {image : Image} {role role' : ImageRole} {name : String} :
    Notice.truncated role' name ∈ image.notices role ↔
      role' = role ∧ name = image.name ∧ image.room < image.wordCount := by
  unfold Image.notices
  split <;> simp [*]

/-- Loading fails exactly on images without an origin, and the operating system is looked at
first. -/
theorem load_eq_error_iff {program : Image} {system : Option Image} {e : LoadError} :
    (load program system order).2 = .error e ↔
      (∃ os ∈ system, os.bytes.length < 2 ∧ e = .missingOrigin os.name) ∨
      (∀ os ∈ system, 2 ≤ os.bytes.length) ∧
        program.bytes.length < 2 ∧ e = .missingOrigin program.name := by
  by_cases hshort : ∃ os ∈ system, os.bytes.length < 2
  · obtain ⟨os, rfl, hos⟩ := hshort
    rw [load_of_short_system order hos, Except.error.injEq]
    constructor
    · exact fun he => .inl ⟨os, rfl, hos, he.symm⟩
    · rintro (⟨_, ⟨⟩, -, he⟩ | ⟨hsystem, -⟩)
      · exact he.symm
      · exact absurd (hsystem os rfl) (Nat.not_le.2 hos)
  · have hsystem : ∀ os ∈ system, 2 ≤ os.bytes.length := fun os hmem =>
      Nat.not_lt.1 fun hos => hshort ⟨os, hmem, hos⟩
    have hfirst : ¬ ∃ os ∈ system, os.bytes.length < 2 ∧ e = .missingOrigin os.name :=
      fun ⟨os, hmem, hos, _⟩ => hshort ⟨os, hmem, hos⟩
    simp only [hfirst, false_or]
    by_cases h : program.bytes.length < 2
    · rw [load_of_short_program order hsystem h, Except.error.injEq, eq_comm]
      exact ⟨fun he => ⟨hsystem, h, he⟩, fun he => he.2.2⟩
    · have hloads : ∃ m, (load program system order).2 = .ok m := by
        cases system with
        | none =>
            obtain ⟨m, hload, -⟩ := load_alone order (Nat.not_lt.1 h)
            exact ⟨m, by rw [hload]⟩
        | some os =>
            obtain ⟨m, hload, -⟩ := load_over order (hsystem os rfl) (Nat.not_lt.1 h)
            exact ⟨m, by rw [hload]⟩
      obtain ⟨m, hload⟩ := hloads
      simp [hload, h]

/-- **What loading leaves behind**, on hosts of either byte order. It fails exactly on images without
an origin, and the operating system is looked at first. Otherwise the words of the program lie over
those of the operating system and these over zeros, except that with an operating system one cell
holds the program's origin; a warning is noted for just the images that have more words than room;
and the words of an image that has room are read back wherever nothing was laid over them. -/
theorem load_places_images (program : Image) (system : Option Image) (order : ByteOrder) :
    (∀ e, (load program system order).2 = .error e ↔
      (∃ os ∈ system, os.bytes.length < 2 ∧ e = .missingOrigin os.name) ∨
      (∀ os ∈ system, 2 ≤ os.bytes.length) ∧
        program.bytes.length < 2 ∧ e = .missingOrigin program.name) ∧
    ((∀ os ∈ system, 2 ≤ os.bytes.length) → 2 ≤ program.bytes.length →
      ∃ notices m, load program system order = (notices, .ok m) ∧
        (system = none →
          m.entry = program.origin ∧ ∀ a, m.get a = (program.wordAt? a.toNat).getD 0) ∧
        (∀ os ∈ system,
          m.entry = 0x02CA ∧ m.get 0x0200 = program.origin ∧
          ∀ a, a ≠ 0x0200 →
            m.get a = ((program.wordAt? a.toNat).or (os.wordAt? a.toNat)).getD 0) ∧
        (∀ role name, .truncated role name ∈ notices ↔
          role = .program ∧ name = program.name ∧ program.room < program.wordCount ∨
          ∃ os ∈ system, role = .system ∧ name = os.name ∧ os.room < os.wordCount) ∧
        (program.wordCount ≤ program.room →
          (system = none ∨ ∀ j < program.wordCount, program.origin.toNat + j ≠ 0x0200) →
          m.slice program.origin.toNat program.wordCount = program.words) ∧
        (∀ os ∈ system, os.wordCount ≤ os.room →
          (∀ j < os.wordCount, os.origin.toNat + j ≠ 0x0200 ∧
            program.wordAt? (os.origin.toNat + j) = none) →
          m.slice os.origin.toNat os.wordCount = os.words)) := by
  refine ⟨fun e => load_eq_error_iff order, fun hsystem h => ?_⟩
  cases system with
  | none =>
      obtain ⟨m, hload, hentry, hget⟩ := load_alone order h
      refine ⟨_, m, hload, fun _ => ⟨hentry, hget⟩, by simp, fun role name => ?_,
        fun hfits _ => slice_eq_words hfits fun a j _ _ hword => ?_, by simp⟩
      · simp [truncated_mem_notices]
      · rw [hget, hword, Option.getD_some]
  | some os =>
      obtain ⟨m, hload, hentry, hcell, hget⟩ := load_over order (hsystem os rfl) h
      have hne : ∀ a : Word, a.toNat ≠ 0x0200 → a ≠ 0x0200 := fun a ha heq => ha (heq ▸ rfl)
      refine ⟨_, m, hload, by simp, ?_, fun role name => ?_, fun hfits hclear => ?_, ?_⟩
      · rintro _ ⟨⟩
        exact ⟨hentry, hcell, hget⟩
      · simp [truncated_mem_notices, or_comm]
      · refine slice_eq_words hfits fun a j hj ha hword => ?_
        have hcellFree := (hclear.resolve_left nofun) j hj
        rw [hget a (hne a (ha ▸ hcellFree)), hword]
        rfl
      · rintro _ ⟨⟩ hfits hclear
        refine slice_eq_words hfits fun a j hj ha hword => ?_
        obtain ⟨hcellFree, hfree⟩ := hclear j hj
        rw [hget a (hne a (ha ▸ hcellFree)), hword, ha, hfree]
        rfl

end Memory

end ClockStep
