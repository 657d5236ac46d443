import ClockStep.Breakpoints
import Mathlib.Data.Finset.Card

/-!
# The Set behind the Breakpoints

Breakpoints are kept in a bitmap of pages with a counter beside it. Whoever sets and clears them
only has to know a finite set of addresses: this module replays any sequence of calls on the two
side by side and shows that no call, no question and no listing tells them apart.

The bitmap and the counter are tied together by `Represents`. One call keeps it (`Represents.step`),
so every replay does (`represents_replay`); what the answers to calls and questions are follows from
it alone.

## Main results

* `represents_replay`: after any calls, the bitmap holds the members and the counter their number.
* `replay_refines_finset`: all that can be seen of breakpoints is a matter of the set.
-/

namespace ClockStep

namespace Breakpoints

/-! ### Calls -/

/-- A call that may change the breakpoints. -/
inductive Call where
  | insert (address : Word)
  | erase (address : Word)
deriving Repr, DecidableEq

/-- What a call answers, and what the breakpoints are then. -/
def Call.run (call : Call) (s : Breakpoints) : Except BreakpointError Unit × Breakpoints :=
  match call with
  | .insert a => s.insertInPlace a
  | .erase a => s.eraseInPlace a

/-- What a call means for the set of addresses, if it is accepted. -/
def Call.members (call : Call) (members : Finset Word) : Finset Word :=
  match call with
  | .insert a => Insert.insert a members
  | .erase a => members.erase a

/-- One call, on the breakpoints and on the set. -/
def Call.step (state : Breakpoints × Finset Word) (call : Call) : Breakpoints × Finset Word :=
  ((call.run state.1).2, if (call.run state.1).1.isOk then call.members state.2 else state.2)

/-- Calls one after the other, from no breakpoints and the empty set on. -/
def replay (calls : List Call) : Breakpoints × Finset Word := calls.foldl Call.step (∅, ∅)

/-! ### The set that breakpoints stand for -/

/-- Breakpoints **represent** a set of addresses when they have its members and count them. -/
structure Represents (s : Breakpoints) (members : Finset Word) : Prop where
  mem_iff : ∀ a, a ∈ s ↔ a ∈ members
  count_eq : s.count = members.card

/-- The empty bitmap represents the empty set. -/
theorem represents_empty : Represents ∅ ∅ where
  mem_iff a := by simp
  count_eq := rfl

namespace Represents

variable {s : Breakpoints} {members : Finset Word} {a : Word}

/-- An address that is not in the set is put into it, and counted. -/
theorem insert (h : Represents s members) (ha : a ∉ members) :
    ∃ t, s.insertInPlace a = (.ok (), t) ∧ Represents t (Insert.insert a members) := by
  obtain ⟨t, ht, hcount, hmem⟩ := insertInPlace_of_not_mem (mt (h.mem_iff a).1 ha)
  refine ⟨t, ht, fun b => ?_, ?_⟩
  · rw [hmem, h.mem_iff, Finset.mem_insert]
  · rw [hcount, h.count_eq, Finset.card_insert_of_notMem ha]

/-- An address of the set is taken out of it. The counter had counted it, so that it can be counted
down. -/
theorem erase (h : Represents s members) (ha : a ∈ members) :
    ∃ t, s.eraseInPlace a = (.ok (), t) ∧ t.count + 1 = s.count ∧
      Represents t (members.erase a) := by
  obtain ⟨t, ht, hcount, hmem⟩ := eraseInPlace_of_mem ((h.mem_iff a).2 ha)
  have hpos : 0 < members.card := Finset.card_pos.2 ⟨a, ha⟩
  rw [h.count_eq] at hcount
  refine ⟨t, ht, by rw [h.count_eq]; omega, fun b => ?_, ?_⟩
  · rw [hmem, h.mem_iff, Finset.mem_erase]
  · rw [hcount, Finset.card_erase_of_mem ha]

/-- An address that is there is refused, and the bitmap is left as it was. -/
theorem insert_refused (h : Represents s members) (ha : a ∈ members) :
    s.insertInPlace a = (.error (.alreadySet a), s) :=
  insertInPlace_of_mem ((h.mem_iff a).2 ha)

/-- An address that is not there is refused, and the bitmap is left as it was. -/
theorem erase_refused (h : Represents s members) (ha : a ∉ members) :
    s.eraseInPlace a = (.error (.notSet a), s) :=
  eraseInPlace_of_not_mem (mt (h.mem_iff a).1 ha)

/-- A call is refused and changes nothing, or it is accepted and the set follows it. -/
theorem run_cases (h : Represents s members) (call : Call) :
    (∃ e, call.run s = (.error e, s)) ∨
      ∃ t, call.run s = (.ok (), t) ∧ Represents t (call.members members) := by
  cases call with
  | insert a =>
      by_cases ha : a ∈ members
      · exact .inl ⟨_, h.insert_refused ha⟩
      · exact .inr (h.insert ha)
  | erase a =>
      by_cases ha : a ∈ members
      · obtain ⟨t, ht, -, hrep⟩ := h.erase ha
        exact .inr ⟨t, ht, hrep⟩
      · exact .inl ⟨_, h.erase_refused ha⟩

/-- **One call.** The set is represented before and after it. -/
theorem step (h : Represents s members) (call : Call) :
    Represents (call.step (s, members)).1 (call.step (s, members)).2 := by
  rw [Call.step]
  obtain ⟨e, hrefused⟩ | ⟨t, hdone, hrep⟩ := h.run_cases call
  · rw [hrefused]
    exact h
  · rw [hdone]
    exact hrep

/-- By induction on the calls, the bitmap represents the set at any time. -/
theorem foldl_step (h : Represents s members) (calls : List Call) :
    Represents (calls.foldl Call.step (s, members)).1 (calls.foldl Call.step (s, members)).2 := by
  induction calls generalizing s members with
  | nil => exact h
  | cons call calls ih => exact ih (h.step call)

/-- A call to set an address answers as the set says. -/
theorem insert_answer (h : Represents s members) :
    (s.insertInPlace a).1 = if a ∈ members then .error (.alreadySet a) else .ok () := by
  split
  · next ha => rw [h.insert_refused ha]
  · next ha =>
    obtain ⟨t, ht, -⟩ := h.insert ha
    rw [ht]

/-- A call to clear an address answers as the set says. -/
theorem erase_answer (h : Represents s members) :
    (s.eraseInPlace a).1 = if a ∈ members then .ok () else .error (.notSet a) := by
  split
  · next ha =>
    obtain ⟨t, ht, -⟩ := h.erase ha
    rw [ht]
  · next ha => rw [h.erase_refused ha]

/-- A call that is refused changes nothing. -/
theorem run_of_error (h : Represents s members) {call : Call} {e : BreakpointError}
    (he : (call.run s).1 = .error e) : (call.run s).2 = s := by
  obtain ⟨e', hrefused⟩ | ⟨t, hdone, -⟩ := h.run_cases call
  · rw [hrefused]
  · rw [hdone] at he
    cases he

/-- The counter is zero exactly when the set is empty. -/
theorem isEmpty_iff (h : Represents s members) : s.isEmpty = true ↔ members = ∅ := by
  rw [isEmpty, beq_iff_eq, h.count_eq, Finset.card_eq_zero]

end Represents

/-- **Any calls.** -/
theorem represents_replay (calls : List Call) :
    Represents (replay calls).1 (replay calls).2 :=
  represents_empty.foldl_step calls

/-- **Breakpoints are a finite set of addresses.** After any calls, with `members` the set that the
accepted ones among them make: an address is set unless it is a member, and refused as set already
if it is one; a member is cleared, the counter being counted down by one, and any other address is
refused as not set; a call that is refused changes nothing. The members are the addresses that are
set, the counter is their number, there are no breakpoints when there are no members, and the list
has every member once, in ascending order. -/
theorem replay_refines_finset (calls : List Call) :
    let s := (replay calls).1
    let members := (replay calls).2
    (∀ a, (s.insertInPlace a).1 = if a ∈ members then .error (.alreadySet a) else .ok ()) ∧
    (∀ a, (s.eraseInPlace a).1 = if a ∈ members then .ok () else .error (.notSet a)) ∧
    (∀ (call : Call) e, (call.run s).1 = .error e → (call.run s).2 = s) ∧
    (∀ a ∈ members, (s.eraseInPlace a).2.count + 1 = s.count) ∧
    (∀ a, s.isSet a = true ↔ a ∈ members) ∧
    (s.isEmpty = true ↔ members = ∅) ∧
    s.count = members.card ∧
    s.toList.Pairwise (· < ·) ∧ ∀ a, a ∈ s.toList ↔ a ∈ members := by
  intro s members
  have hrep : Represents s members := represents_replay calls
  refine ⟨fun a => hrep.insert_answer, fun a => hrep.erase_answer, fun call e => hrep.run_of_error,
    fun a ha => ?_, hrep.mem_iff, hrep.isEmpty_iff, hrep.count_eq, s.toList_ascending,
    fun a => mem_toList.trans (hrep.mem_iff a)⟩
  obtain ⟨t, ht, hcount, -⟩ := hrep.erase ha
  rw [ht]
  exact hcount

/-- Neighbours across the border of a page and across that of a cell do not touch each other. -/
example :
    let s := (replay [.insert 0x30FF, .insert 0x3100, .insert 0x313F, .insert 0x3140,
      .erase 0x3100, .erase 0x3140]).1
    [0x30FF, 0x3100, 0x313F, 0x3140].map s.isSet = [true, false, true, false] ∧ s.count = 2 := by
  decide

end Breakpoints

end ClockStep
