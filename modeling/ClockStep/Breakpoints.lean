import ClockStep.Text.Basic
import ClockStep.Word

/-!
# Breakpoints

The set of addresses at which a run stops. Setting an address that is there, and clearing one that
is not, is refused.

The set is a sparse bitmap in two levels: the high byte of an address selects a page, which is only
there once an address of it was set, and the low byte selects a bit of the page. A page is made of
cells of 64 bits. The number of addresses in the set is counted beside the bitmap.

## Main results

* `Page.has_mark`, `Page.has_unmark`: marking one bit of a page leaves the others alone.
* `insertInPlace_of_mem`, `eraseInPlace_of_not_mem`: a refused operation leaves everything as it was.
* `insert_of_not_mem`, `mem_erase`: the members after each operation.
* `erase_eq_error_iff`: what is not in the set cannot be removed from it, and nothing else is
  refused.
-/

namespace ClockStep

/-! ### Pages -/

namespace Breakpoints

/-- The bits of 256 addresses that share their high byte, 64 to a cell. -/
abbrev Page := Vector UInt64 4

namespace Page

/-- A page with no bit set. -/
def blank : Page := Vector.replicate 4 0

/-- The cell that the bit of a low byte is in. -/
def cellOf (low : Byte) : Fin 4 := ⟨low.toNat / 64, by have h := low.toNat_lt; omega⟩

/-- The bit of a low byte in its cell. -/
def bit (low : Byte) : UInt64 := 1 <<< UInt64.ofNat (low.toNat % 64)

/-- The cell of a low byte. -/
def cell (page : Page) (low : Byte) : UInt64 := page[cellOf low]

/-- Puts another cell where that of a low byte is. -/
def setCell (low : Byte) (bits : UInt64) (page : Page) : Page := page.set (cellOf low) bits

/-- Whether the bit of a low byte is set. -/
def has (page : Page) (low : Byte) : Bool := page.cell low &&& bit low != 0

/-- Sets the bit of a low byte. -/
def mark (low : Byte) (page : Page) : Page := page.setCell low (page.cell low ||| bit low)

/-- Clears the bit of a low byte. -/
def unmark (low : Byte) (page : Page) : Page := page.setCell low (page.cell low &&& ~~~bit low)

/-! A cell is read bit by bit: bit `k` of cell `i` is that of the low byte `64 * i + k`. -/

/-- Replacing a cell leaves the other three. -/
theorem cell_setCell (page : Page) (a b : Byte) (bits : UInt64) :
    (page.setCell a bits).cell b = if cellOf a = cellOf b then bits else page.cell b := by
  simp [cell, setCell, Vector.getElem_set, Fin.ext_iff]

/-- The mask of a low byte has that one bit. -/
theorem getLsbD_bit (low : Byte) (k : Nat) :
    (bit low).toBitVec.getLsbD k = decide (low.toNat % 64 = k) := by
  have hexp : low.toNat % 64 < 64 := Nat.mod_lt _ (by decide)
  have hpow : 2 ^ (low.toNat % 64) < 2 ^ 64 := Nat.pow_lt_pow_right (by decide) hexp
  have hshift : (UInt64.ofNat (low.toNat % 64)).toNat % 64 = low.toNat % 64 := by
    rw [UInt64.toNat_ofNat']
    omega
  rw [BitVec.getLsbD, UInt64.toNat_toBitVec, bit, UInt64.toNat_shiftLeft, hshift,
    UInt64.toNat_one, Nat.one_shiftLeft, Nat.mod_eq_of_lt hpow, Nat.testBit_two_pow]

/-- A bit is set when the cell has it. -/
theorem has_eq_getLsbD (page : Page) (low : Byte) :
    page.has low = (page.cell low).toBitVec.getLsbD (low.toNat % 64) := by
  rw [has, bne, Bool.eq_iff_iff, Bool.not_eq_true', beq_eq_false_iff_ne]
  constructor
  · intro hne
    cases hset : (page.cell low).toBitVec.getLsbD (low.toNat % 64) with
    | true => rfl
    | false =>
      refine absurd (UInt64.toBitVec_inj.1 (BitVec.eq_of_getLsbD_eq fun k _ => ?_)) hne
      rw [UInt64.toBitVec_and, BitVec.getLsbD_and, getLsbD_bit]
      by_cases hk : low.toNat % 64 = k
      · subst hk
        simp [hset]
      · simp [hk]
  · intro hset hzero
    have hbit := congrArg (fun c => c.toBitVec.getLsbD (low.toNat % 64)) hzero
    simp [getLsbD_bit, hset] at hbit

/-- Low bytes with the same bit of the same cell are the same. -/
theorem bit_eq_iff {a b : Byte} (h : cellOf a = cellOf b) :
    a.toNat % 64 = b.toNat % 64 ↔ b = a := by
  have hdiv : a.toNat / 64 = b.toNat / 64 := congrArg Fin.val h
  constructor
  · intro hbit
    exact UInt8.toNat_inj.1 (by omega)
  · rintro rfl
    rfl

/-- A blank page has no bit set. -/
@[simp] theorem has_blank (low : Byte) : blank.has low = false := by
  rw [has_eq_getLsbD, cell]
  simp [blank]

/-- Marking a bit sets it and leaves the others alone. -/
@[simp] theorem has_mark (page : Page) (a b : Byte) :
    (page.mark a).has b = (decide (b = a) || page.has b) := by
  rw [has_eq_getLsbD, has_eq_getLsbD, mark, cell_setCell]
  by_cases h : cellOf a = cellOf b
  · have hcell : page.cell a = page.cell b := congrArg page.get h
    rw [if_pos h, hcell, UInt64.toBitVec_or, BitVec.getLsbD_or, getLsbD_bit,
      decide_eq_decide.2 (bit_eq_iff h), Bool.or_comm]
  · have hne : b ≠ a := fun hba => h (by rw [hba])
    simp [h, hne]

/-- Unmarking a bit clears it and leaves the others alone. -/
@[simp] theorem has_unmark (page : Page) (a b : Byte) :
    (page.unmark a).has b = (decide (b ≠ a) && page.has b) := by
  rw [has_eq_getLsbD, has_eq_getLsbD, unmark, cell_setCell]
  by_cases h : cellOf a = cellOf b
  · have hcell : page.cell a = page.cell b := congrArg page.get h
    have hlt : b.toNat % 64 < 64 := Nat.mod_lt _ (by decide)
    rw [if_pos h, hcell, UInt64.toBitVec_and, BitVec.getLsbD_and, UInt64.toBitVec_not,
      BitVec.getLsbD_not, getLsbD_bit, decide_eq_decide.2 (bit_eq_iff h), decide_eq_true hlt,
      Bool.true_and, ← decide_not, Bool.and_comm]
  · have hne : b ≠ a := fun hba => h (by rw [hba])
    simp [h, hne]

end Page

end Breakpoints

/-! ### The set -/

/-- A set of addresses. -/
structure Breakpoints where
  /-- The pages by the high byte of their addresses, those that are there. -/
  pages : Vector (Option Breakpoints.Page) 256
  /-- The number of addresses in the set. -/
  count : Nat

/-- Why a change to the breakpoints was refused. -/
inductive BreakpointError where
  | alreadySet (address : Word)
  | notSet (address : Word)
deriving Repr, DecidableEq

/-- The wording of a refusal. -/
def BreakpointError.message : BreakpointError → String
  | .alreadySet address => "Breakpoint at x" ++ Text.hexWord address ++ " already exists"
  | .notSet address => "No breakpoint at x" ++ Text.hexWord address

namespace Breakpoints

/-- No breakpoints, and no pages. -/
def empty : Breakpoints := { pages := Vector.replicate 256 none, count := 0 }

instance : EmptyCollection Breakpoints := ⟨empty⟩

/-- Where the page of an address has its place. -/
def slotOf (a : Word) : Fin 256 := ⟨a.high.toNat, a.high.toNat_lt⟩

/-- The page of an address, if it is there. -/
def page? (s : Breakpoints) (a : Word) : Option Page := s.pages[slotOf a]

/-- Whether there is a breakpoint at an address. -/
def isSet (s : Breakpoints) (a : Word) : Bool :=
  match s.page? a with
  | some page => page.has a.low
  | none => false

instance : Membership Word Breakpoints := ⟨fun s a => s.isSet a = true⟩

instance (a : Word) (s : Breakpoints) : Decidable (a ∈ s) :=
  inferInstanceAs (Decidable (s.isSet a = true))

/-- Whether there are no breakpoints. -/
def isEmpty (s : Breakpoints) : Bool := s.count == 0

/-- All addresses in ascending order. -/
def addresses : List Word := (List.range UInt16.size).map UInt16.ofNat

/-- The members in ascending order. -/
def toList (s : Breakpoints) : List Word := addresses.filter s.isSet

/-- The set after the page of an address became another and the count changed. -/
def update (s : Breakpoints) (a : Word) (page : Page) (count : Nat) : Breakpoints :=
  { pages := s.pages.set (slotOf a) (some page), count }

/-- Sets a breakpoint where there was none, in place: the answer, and what the breakpoints are then.
The page of the address is made before it is looked at. -/
def insertInPlace (s : Breakpoints) (a : Word) : Except BreakpointError Unit × Breakpoints :=
  let page := (s.page? a).getD .blank
  if page.has a.low then (.error (.alreadySet a), s.update a page s.count)
  else (.ok (), s.update a (page.mark a.low) (s.count + 1))

/-- Clears a breakpoint that is set, in place. -/
def eraseInPlace (s : Breakpoints) (a : Word) : Except BreakpointError Unit × Breakpoints :=
  match s.page? a with
  | some page =>
    if page.has a.low then (.ok (), s.update a (page.unmark a.low) (s.count - 1))
    else (.error (.notSet a), s)
  | none => (.error (.notSet a), s)

/-- The breakpoints with one more, or why there is none to set. -/
def insert (s : Breakpoints) (a : Word) : Except BreakpointError Breakpoints :=
  (s.insertInPlace a).1.map fun _ => (s.insertInPlace a).2

/-- The breakpoints with one less, or why there is none to clear. -/
def erase (s : Breakpoints) (a : Word) : Except BreakpointError Breakpoints :=
  (s.eraseInPlace a).1.map fun _ => (s.eraseInPlace a).2

/-- The members in braces, in decimal. -/
def inspection (s : Breakpoints) : String :=
  "\x7b" ++ ", ".intercalate (s.toList.map fun a => toString a.toNat) ++ "\x7d"

/-! ### Members -/

/-- Membership is the bit in the bitmap. -/
theorem mem_def {a : Word} {s : Breakpoints} : a ∈ s ↔ s.isSet a = true := Iff.rfl

/-- Nothing is in the empty set. -/
@[simp] theorem not_mem_empty {a : Word} : a ∉ (∅ : Breakpoints) := by
  simp [mem_def, isSet, page?, EmptyCollection.emptyCollection, empty]

/-- An address is in the set when its page is there and has its bit. -/
theorem mem_iff {s : Breakpoints} {a : Word} :
    a ∈ s ↔ ∃ page, s.page? a = some page ∧ page.has a.low = true := by
  rw [mem_def, isSet]
  cases s.page? a <;> simp

/-- Addresses with the same bit of the same page are the same. -/
theorem low_eq_iff {a b : Word} (h : slotOf a = slotOf b) : b.low = a.low ↔ b = a := by
  have hhigh : a.high = b.high := UInt8.toNat_inj.1 (congrArg Fin.val h)
  constructor
  · intro hlow
    rw [← a.ofBytes_high_low, ← b.ofBytes_high_low, hhigh, hlow]
  · rintro rfl
    rfl

/-- An update replaces one page and leaves the others. -/
theorem mem_update {s : Breakpoints} {a b : Word} {page : Page} {count : Nat} :
    b ∈ s.update a page count ↔ if slotOf a = slotOf b then page.has b.low = true else b ∈ s := by
  have hpage : (s.update a page count).page? b =
      if slotOf a = slotOf b then some page else s.page? b := by
    simp [page?, update, Vector.getElem_set, Fin.ext_iff]
  rw [mem_iff, hpage]
  split
  · simp
  · exact mem_iff.symm

/-! ### The list of the members -/

/-- The list of the addresses leaves none out. -/
@[simp] theorem mem_addresses (a : Word) : a ∈ addresses :=
  List.mem_map.2 ⟨a.toNat, List.mem_range.2 a.toNat_lt, UInt16.ofNat_toNat⟩

/-- The list of the addresses ascends. -/
theorem addresses_ascending : addresses.Pairwise (· < ·) := by
  rw [addresses, List.pairwise_map]
  refine List.Pairwise.imp_of_mem ?_ List.pairwise_lt_range
  intro m n hm hn hlt
  rw [List.mem_range] at hm hn
  rw [UInt16.lt_iff_toNat_lt, UInt16.toNat_ofNat_of_lt' hm, UInt16.toNat_ofNat_of_lt' hn]
  exact hlt

/-- The list has exactly the members. -/
theorem mem_toList {s : Breakpoints} {a : Word} : a ∈ s.toList ↔ a ∈ s := by
  simp [toList, mem_def]

/-- The list ascends, and so repeats none. -/
theorem toList_ascending (s : Breakpoints) : s.toList.Pairwise (· < ·) :=
  addresses_ascending.filter _

/-! ### Operations -/

/-- Putting a page back where it is changes nothing. -/
theorem update_self {s : Breakpoints} {a : Word} {page : Page} (h : s.page? a = some page) :
    s.update a page s.count = s := by
  obtain ⟨pages, count⟩ := s
  have hpage : pages[slotOf a] = some page := h
  simp [update, ← hpage]

/-- An address that is there is not set again, and nothing changes. -/
theorem insertInPlace_of_mem {s : Breakpoints} {a : Word} (h : a ∈ s) :
    s.insertInPlace a = (.error (.alreadySet a), s) := by
  obtain ⟨page, hpage, hbit⟩ := mem_iff.1 h
  simp [insertInPlace, hpage, hbit, update_self hpage]

/-- An address that is not there is not cleared, and nothing changes. -/
theorem eraseInPlace_of_not_mem {s : Breakpoints} {a : Word} (h : a ∉ s) :
    s.eraseInPlace a = (.error (.notSet a), s) := by
  rw [eraseInPlace]
  cases hpage : s.page? a with
  | none => rfl
  | some page =>
    have hbit : page.has a.low ≠ true := fun hbit => h (mem_iff.2 ⟨page, hpage, hbit⟩)
    exact if_neg hbit

/-- Setting adds the address, and counts it. -/
theorem insertInPlace_of_not_mem {s : Breakpoints} {a : Word} (h : a ∉ s) :
    ∃ t, s.insertInPlace a = (.ok (), t) ∧ t.count = s.count + 1 ∧
      ∀ b, b ∈ t ↔ b = a ∨ b ∈ s := by
  have hbit : ((s.page? a).getD .blank).has a.low ≠ true := by
    intro hbit
    cases hpage : s.page? a with
    | none => simp [hpage] at hbit
    | some page => exact h (mem_iff.2 ⟨page, hpage, by simpa [hpage] using hbit⟩)
  refine ⟨_, if_neg hbit, rfl, fun b => ?_⟩
  rw [mem_update, Page.has_mark]
  by_cases hslot : slotOf a = slotOf b
  · have hpage : s.page? a = s.page? b := congrArg s.pages.get hslot
    have hb : ((s.page? b).getD .blank).has b.low = true ↔ b ∈ s := by
      rw [mem_iff]
      cases s.page? b <;> simp
    rw [if_pos hslot, hpage, Bool.or_eq_true, decide_eq_true_eq, low_eq_iff hslot, hb]
  · have hne : b ≠ a := fun hba => hslot (by rw [hba])
    simp [hslot, hne]

/-- Clearing takes the address away, and counts it off. -/
theorem eraseInPlace_of_mem {s : Breakpoints} {a : Word} (h : a ∈ s) :
    ∃ t, s.eraseInPlace a = (.ok (), t) ∧ t.count = s.count - 1 ∧
      ∀ b, b ∈ t ↔ b ≠ a ∧ b ∈ s := by
  obtain ⟨page, hpage, hbit⟩ := mem_iff.1 h
  refine ⟨s.update a (page.unmark a.low) (s.count - 1), by simp [eraseInPlace, hpage, hbit], rfl,
    fun b => ?_⟩
  rw [mem_update, Page.has_unmark]
  by_cases hslot : slotOf a = slotOf b
  · have hpage' : s.page? b = some page := (congrArg s.pages.get hslot).symm.trans hpage
    have hb : page.has b.low = true ↔ b ∈ s := by
      rw [mem_iff, hpage']
      simp
    rw [if_pos hslot, Bool.and_eq_true, decide_eq_true_eq, ne_eq, low_eq_iff hslot, hb]
  · have hne : b ≠ a := fun hba => hslot (by rw [hba])
    simp [hslot, hne]

/-- What is in the set is not put in again. -/
theorem insert_of_mem {s : Breakpoints} {a : Word} (h : a ∈ s) :
    s.insert a = .error (.alreadySet a) := by
  rw [insert, insertInPlace_of_mem h]
  rfl

/-- What is not in the set is not taken out. -/
theorem erase_of_not_mem {s : Breakpoints} {a : Word} (h : a ∉ s) :
    s.erase a = .error (.notSet a) := by
  rw [erase, eraseInPlace_of_not_mem h]
  rfl

/-- What is not in the set is put in, beside all that were in it. -/
theorem insert_of_not_mem {s : Breakpoints} {a : Word} (h : a ∉ s) :
    ∃ t, s.insert a = .ok t ∧ ∀ b, b ∈ t ↔ b = a ∨ b ∈ s := by
  obtain ⟨t, ht, -, hmem⟩ := insertInPlace_of_not_mem h
  exact ⟨t, by rw [insert, ht]; rfl, hmem⟩

/-- What is in the set is taken out, and all others stay in it. -/
theorem erase_of_mem {s : Breakpoints} {a : Word} (h : a ∈ s) :
    ∃ t, s.erase a = .ok t ∧ ∀ b, b ∈ t ↔ b ≠ a ∧ b ∈ s := by
  obtain ⟨t, ht, -, hmem⟩ := eraseInPlace_of_mem h
  exact ⟨t, by rw [erase, ht]; rfl, hmem⟩

/-- An address is refused when it is not in the set, and for nothing else. -/
theorem erase_eq_error_iff {s : Breakpoints} {a : Word} {e : BreakpointError} :
    s.erase a = .error e ↔ a ∉ s ∧ e = .notSet a := by
  by_cases h : a ∈ s
  · obtain ⟨t, ht, -⟩ := erase_of_mem h
    simp [ht, h]
  · simp [erase_of_not_mem h, h, eq_comm]

/-- The members that are left when an address was taken out. -/
theorem mem_erase {s t : Breakpoints} {a b : Word} (h : s.erase a = .ok t) :
    b ∈ t ↔ b ≠ a ∧ b ∈ s := by
  by_cases ha : a ∈ s
  · obtain ⟨t', ht, hmem⟩ := erase_of_mem ha
    obtain rfl : t' = t := by simpa [ht] using h
    exact hmem b
  · simp [erase_of_not_mem ha] at h

end Breakpoints

end ClockStep
