import ClockStep.Proofs.Reception
import Mathlib.Data.List.Basic
import Mathlib.Data.Nat.Init

/-!
# Reception as Sampling

What a receiver makes of a line, be it noisy, broken or cut off, can be told without a receiver. From
the start of the line on, the first low level starts a frame. Eight levels of the frame are sampled,
from the lead time on and a bit time apart, and they are the byte that comes with the last of them,
if the line is observed that long. A bit time after the last sample the search goes on. This is the
reference (`Pace.sampled`), and a receiver does the same (`receiveFrom_eq_arrivals`).

The reference says of each level what it is good for: outside of the frames it may start one, inside
of them it is a data bit or is not looked at. Levels of the last kind may be changed at will
(`frameStarts_congr`).

## Convention

Levels are counted from zero. A frame is known by the index of the low level that starts it, and it
extends over its frame time, the level of the start included, whether or not the line does.

## Main results

* `frameStarts_pairwise`: frames do not overlap.
* `receiveFrom_eq_arrivals`: a receiver at rest finds what is sampled from there on.
* `receive_eq_sampled`: a receiver with a timing finds what is sampled, on every line, and does not
  look at anything else.
-/

namespace ClockStep.Uart

variable {pace : Pace} {levels : List Bool}

/-! ### The reference -/

/-- The ticks from the low level that starts a frame to the first level that may start another. -/
def Pace.frameTime (pace : Pace) : Nat := pace.leadTime + 8 * pace.bitTime

/-- A frame takes some time. -/
theorem Pace.frameTime_pos (pace : Pace) : 0 < pace.frameTime := by
  simp only [frameTime, leadTime]
  omega

/-- A level within the list that is not low is high. -/
theorem getElem?_eq_some_true {i : Nat} (hlt : i < levels.length) (h : levels[i]? ≠ some false) :
    levels[i]? = some true := by
  rw [List.getElem?_eq_getElem hlt] at h ⊢
  simpa using h

/-- The index of the first low level from a position on. -/
def firstLow? (levels : List Bool) (position : Nat) : Option Nat :=
  (List.range levels.length).find? fun i => position ≤ i && levels[i]? == some false

/-- The first low level is low, and all before it are high. -/
theorem firstLow?_eq_some_iff {position start : Nat} :
    firstLow? levels position = some start ↔
      position ≤ start ∧ levels[start]? = some false ∧
        ∀ i, position ≤ i → i < start → levels[i]? = some true := by
  rw [firstLow?, List.find?_range_eq_some]
  simp only [Bool.and_eq_true, decide_eq_true_eq, beq_iff_eq, List.mem_range]
  constructor
  · rintro ⟨⟨hle, hlow⟩, hlt, hfirst⟩
    refine ⟨hle, hlow, fun i hi his => ?_⟩
    exact getElem?_eq_some_true (by omega) (by simpa [hi] using hfirst i his)
  · rintro ⟨hle, hlow, hhigh⟩
    refine ⟨⟨hle, hlow⟩, (List.getElem?_eq_some_iff.1 hlow).1, fun i his => ?_⟩
    by_cases hi : position ≤ i
    · simp [hhigh i hi his]
    · simp [hi]

/-- There is no first low level exactly when none is low. -/
theorem firstLow?_eq_none_iff {position : Nat} :
    firstLow? levels position = none ↔ ∀ i, position ≤ i → levels[i]? ≠ some false := by
  rw [firstLow?, List.find?_range_eq_none]
  constructor
  · intro h i hi hlow
    simpa [hi, hlow] using h i (List.getElem?_eq_some_iff.1 hlow).1
  · intro h i _
    by_cases hi : position ≤ i
    · simp [h i hi]
    · simp [hi]

/-- The starts of the frames that a search from a position on finds, in order. -/
def Pace.frameStarts (pace : Pace) (levels : List Bool) (position : Nat) : List Nat :=
  match _h : firstLow? levels position with
  | none => []
  | some start => start :: pace.frameStarts levels (start + pace.frameTime)
termination_by levels.length - position
decreasing_by
  obtain ⟨hle, hlow, -⟩ := firstLow?_eq_some_iff.1 _h
  have hlt := (List.getElem?_eq_some_iff.1 hlow).1
  have hpos := pace.frameTime_pos
  omega

/-- The index of the last data bit of a frame. -/
def Pace.lastSample (pace : Pace) (start : Nat) : Nat := start + pace.leadTime + 7 * pace.bitTime

/-- The byte of a frame: bit `k` is the level `k` bit times after the first data bit. -/
def Pace.byteAt (pace : Pace) (levels : List Bool) (start : Nat) : Byte :=
  UInt8.ofNat <| Nat.ofBits fun k : Fin 8 =>
    levels.getD (start + pace.leadTime + k * pace.bitTime) true

/-- The byte of a frame, with the index of the level that completes it, if the line extends to it. -/
def Pace.arrival? (pace : Pace) (levels : List Bool) (start : Nat) : Option (Nat × Byte) :=
  if pace.lastSample start < levels.length then
    some (pace.lastSample start, pace.byteAt levels start)
  else none

/-- What is **sampled** on a line: the bytes of its frames, with the indexes of the levels that
complete them. -/
def Pace.sampled (pace : Pace) (levels : List Bool) : List (Nat × Byte) :=
  (pace.frameStarts levels 0).filterMap (pace.arrival? levels)

/-! ### Where frames start -/

/-- Without a low level, no frame starts. -/
theorem frameStarts_of_firstLow?_eq_none {position : Nat} (h : firstLow? levels position = none) :
    pace.frameStarts levels position = [] := by
  rw [Pace.frameStarts]
  split
  · rfl
  · next h' => rw [h] at h'; cases h'

/-- A frame starts at the first low level, and the others start behind its time. -/
theorem frameStarts_of_firstLow?_eq_some {position start : Nat}
    (h : firstLow? levels position = some start) :
    pace.frameStarts levels position =
      start :: pace.frameStarts levels (start + pace.frameTime) := by
  rw [Pace.frameStarts]
  split
  · next h' => rw [h] at h'; cases h'
  · next h' => rw [h] at h'; cases h'; rfl

/-- A frame starts at a low level at or after the position from which it is searched. -/
theorem of_mem_frameStarts {position start : Nat} (h : start ∈ pace.frameStarts levels position) :
    position ≤ start ∧ levels[start]? = some false := by
  fun_induction Pace.frameStarts pace levels position with
  | case1 position hnone => cases h
  | case2 position first hsome ih =>
      obtain ⟨hle, hlow, -⟩ := firstLow?_eq_some_iff.1 hsome
      rcases List.mem_cons.1 h with rfl | h
      · exact ⟨hle, hlow⟩
      · obtain ⟨hle', hlow'⟩ := ih h
        exact ⟨by omega, hlow'⟩

/-- Frames do not overlap. -/
theorem frameStarts_pairwise (position : Nat) :
    (pace.frameStarts levels position).Pairwise fun a b => a + pace.frameTime ≤ b := by
  fun_induction Pace.frameStarts pace levels position with
  | case1 position hnone => exact .nil
  | case2 position first hsome ih =>
      exact .cons (fun start hstart => (of_mem_frameStarts hstart).1) ih

/-- The bytes of frames that do not overlap are a frame time apart. -/
theorem sampled_pairwise :
    (pace.sampled levels).Pairwise fun a b => a.1 + pace.frameTime ≤ b.1 := by
  refine (frameStarts_pairwise 0).filterMap _ ?_
  intro start later hle a ha b hb
  obtain ⟨-, ha⟩ := Option.ite_none_right_eq_some.1 ha
  obtain ⟨-, hb⟩ := Option.ite_none_right_eq_some.1 hb
  cases ha
  cases hb
  simp only [Pace.lastSample]
  omega

/-! ### What is not looked at -/

/-- Where a line is not looked at, for a search from a position on: inside of a frame, but not at a
data bit. -/
def Pace.Unseen (pace : Pace) (levels : List Bool) (position i : Nat) : Prop :=
  ∃ start ∈ pace.frameStarts levels position, start < i ∧ i < start + pace.frameTime ∧
    ∀ k < 8, i ≠ start + pace.leadTime + k * pace.bitTime

/-- A data bit is inside of its frame. -/
theorem Pace.dataBit_lt (pace : Pace) (start : Nat) {k : Nat} (hk : k < 8) :
    start + pace.leadTime + k * pace.bitTime < start + pace.frameTime := by
  have hle : k * pace.bitTime ≤ 7 * pace.bitTime := Nat.mul_le_mul_right _ (by omega)
  simp only [frameTime, bitTime] at hle ⊢
  omega

/-- Two lines that differ only where the first one is not looked at have their frames in the same
places and the same bytes in them. -/
theorem frameStarts_congr {other : List Bool} (hlength : other.length = levels.length)
    {position : Nat}
    (h : ∀ i, position ≤ i → other[i]? = levels[i]? ∨ pace.Unseen levels position i) :
    pace.frameStarts other position = pace.frameStarts levels position ∧
      ∀ start ∈ pace.frameStarts levels position,
        pace.arrival? other start = pace.arrival? levels start := by
  fun_induction Pace.frameStarts pace levels position with
  | case1 position hnone =>
      have hsame : ∀ i, position ≤ i → other[i]? = levels[i]? := by
        intro i hi
        rcases h i hi with heq | ⟨start, hstart, -⟩
        · exact heq
        · rw [frameStarts_of_firstLow?_eq_none hnone] at hstart
          cases hstart
      have hother : firstLow? other position = none :=
        firstLow?_eq_none_iff.2 fun i hi => hsame i hi ▸ firstLow?_eq_none_iff.1 hnone i hi
      exact ⟨frameStarts_of_firstLow?_eq_none hother, List.forall_mem_nil _⟩
  | case2 position first hsome ih =>
      obtain ⟨hle, hlow, hhigh⟩ := firstLow?_eq_some_iff.1 hsome
      have hstarts : pace.frameStarts levels position =
          first :: pace.frameStarts levels (first + pace.frameTime) :=
        frameStarts_of_firstLow?_eq_some hsome
      -- nothing up to the start of the first frame is inside of a frame
      have hbefore : ∀ i, position ≤ i → i ≤ first → other[i]? = levels[i]? := by
        intro i hi hfirst
        refine (h i hi).resolve_right ?_
        rintro ⟨start, hstart, hlt, -⟩
        rw [hstarts] at hstart
        rcases List.mem_cons.1 hstart with rfl | hstart
        · omega
        · have := (of_mem_frameStarts hstart).1
          omega
      have hother : firstLow? other position = some first :=
        firstLow?_eq_some_iff.2 ⟨hle, hbefore first hle (Nat.le_refl _) ▸ hlow,
          fun i hi hlt => hbefore i hi (Nat.le_of_lt hlt) ▸ hhigh i hi hlt⟩
      -- the data bits of the first frame are looked at
      have hbits : ∀ k < 8, other[first + pace.leadTime + k * pace.bitTime]? =
          levels[first + pace.leadTime + k * pace.bitTime]? := by
        intro k hk
        have hinside := pace.dataBit_lt first hk
        refine (h _ (by omega)).resolve_right ?_
        rintro ⟨start, hstart, hlt, -, hunsampled⟩
        rw [hstarts] at hstart
        rcases List.mem_cons.1 hstart with rfl | hstart
        · exact hunsampled k hk rfl
        · have := (of_mem_frameStarts hstart).1
          omega
      have hafter : ∀ i, first + pace.frameTime ≤ i →
          other[i]? = levels[i]? ∨ pace.Unseen levels (first + pace.frameTime) i := by
        intro i hi
        refine (h i (by omega)).imp_right ?_
        rintro ⟨start, hstart, hlt, hend, hunsampled⟩
        rw [hstarts] at hstart
        rcases List.mem_cons.1 hstart with rfl | hstart
        · omega
        · exact ⟨start, hstart, hlt, hend, hunsampled⟩
      obtain ⟨hlater, harrivals⟩ := ih hafter
      refine ⟨?_, List.forall_mem_cons.2 ⟨?_, harrivals⟩⟩
      · rw [frameStarts_of_firstLow?_eq_some hother, hlater]
      · have hbyte : pace.byteAt other first = pace.byteAt levels first := by
          simp only [Pace.byteAt, List.getD_eq_getElem?_getD, hbits _ (Fin.is_lt _)]
        rw [Pace.arrival?, Pace.arrival?, hlength, hbyte]

/-- Levels that differ only where nothing is seen are sampled alike. -/
theorem sampled_congr {other : List Bool} (hlength : other.length = levels.length)
    (h : ∀ i, other[i]? = levels[i]? ∨ pace.Unseen levels 0 i) :
    pace.sampled other = pace.sampled levels := by
  obtain ⟨hstarts, harrivals⟩ := frameStarts_congr hlength fun i (_ : 0 ≤ i) => h i
  rw [Pace.sampled, hstarts]
  exact List.filterMap_congr harrivals

/-! ### The receiver does the same -/

/-- Up to a low level the line is idle. -/
theorem drop_eq_of_high {position start : Nat} (hle : position ≤ start)
    (h : ∀ i, position ≤ i → i < start → levels[i]? = some true) :
    levels.drop position = List.replicate (start - position) true ++ levels.drop start := by
  refine List.ext_getElem? fun j => ?_
  rw [List.getElem?_drop, List.getElem?_append, List.length_replicate, List.getElem?_drop]
  split
  · next hj => rw [h _ (by omega) (by omega), List.getElem?_replicate_of_lt hj]
  · congr 1
    omega

/-- On a line that ends before the last data bit no byte is found. -/
theorem receiveFrom_truncated (n index : Nat) (shift : Byte) (countdown : Nat) (levels : List Bool)
    (h : levels.length ≤ countdown + n * pace.bitTime) :
    Receiver.receiveFrom pace index ⟨shift, n + 1, countdown⟩ levels = [] := by
  induction n generalizing index shift countdown levels with
  | zero =>
      rw [Receiver.receiveFrom_wait, List.drop_eq_nil_of_le (by omega)]
      rfl
  | succ n ih =>
      rw [Receiver.receiveFrom_wait]
      rcases hrest : levels.drop countdown with _ | ⟨level, rest⟩
      · rfl
      · have hlength := congrArg List.length hrest
        rw [List.length_drop, List.length_cons] at hlength
        rw [Receiver.receiveFrom_sample]
        refine ih _ _ _ _ ?_
        rw [Nat.succ_mul] at h
        simp only [Pace.bitTime] at h ⊢
        omega

/-- The first frame of a line that starts with a low level, and what comes after it. -/
theorem receiveFrom_frameStart {start : Nat} (hlow : levels[start]? = some false) :
    Receiver.receiveFrom pace start {} (levels.drop start) =
      (pace.arrival? levels start).toList ++
        Receiver.receiveFrom pace (start + pace.frameTime) {}
          (levels.drop (start + pace.frameTime)) := by
  have hhead : (levels.drop start)[0]? = some false := by
    rw [List.getElem?_drop, Nat.add_zero, hlow]
  rw [Pace.arrival?]
  by_cases hlast : pace.lastSample start < levels.length
  · have hbits : ∀ k < 8, (levels.drop start)[pace.leadTime + k * pace.bitTime]? =
        some (levels.getD (start + pace.leadTime + k * pace.bitTime) true) := by
      intro k hk
      have hle : k * pace.bitTime ≤ 7 * pace.bitTime := Nat.mul_le_mul_right _ (by omega)
      have hlt : start + pace.leadTime + k * pace.bitTime < levels.length := by
        simp only [Pace.lastSample] at hlast
        omega
      rw [List.getElem?_drop, ← Nat.add_assoc, List.getElem?_eq_getElem hlt,
        List.getD_eq_getElem?_getD, List.getElem?_eq_getElem hlt, Option.getD_some]
    have hbyte : ((List.range 8).map fun k =>
        levels.getD (start + pace.leadTime + k * pace.bitTime) true).foldl Receiver.shiftIn 0 =
          pace.byteAt levels start := by
      refine Receiver.foldl_shiftIn_eq 0 fun k hk => ?_
      rw [Pace.byteAt, UInt8.toBitVec_ofNat', BitVec.getLsbD_ofNat, Nat.testBit_ofBits_lt _ k hk,
        decide_eq_true hk, Bool.true_and]
    rw [if_pos hlast]
    refine (Receiver.receiveFrom_low pace start _ 0 _ hhead hbits).trans ?_
    rw [hbyte, List.drop_drop, ← Nat.add_assoc]
    rfl
  · have hend : levels.length ≤ start + pace.frameTime := by
      simp only [Pace.lastSample, Pace.frameTime] at hlast ⊢
      omega
    rw [if_neg hlast, List.drop_eq_nil_of_le hend]
    rcases hdrop : levels.drop start with _ | ⟨level, rest⟩
    · rfl
    · rw [hdrop] at hhead
      obtain rfl : level = false := Option.some.inj hhead
      have hlength := congrArg List.length hdrop
      rw [List.length_drop, List.length_cons] at hlength
      refine (Receiver.receiveFrom_arm pace start 0 rest).trans ?_
      refine receiveFrom_truncated 7 _ _ _ _ ?_
      simp only [Pace.lastSample, Pace.leadTime] at hlast
      omega

/-- **A receiver at rest finds what is sampled from there on.** -/
theorem receiveFrom_eq_arrivals (position : Nat) :
    Receiver.receiveFrom pace position {} (levels.drop position) =
      (pace.frameStarts levels position).filterMap (pace.arrival? levels) := by
  fun_induction Pace.frameStarts pace levels position with
  | case1 position hnone =>
      have hhigh : ∀ i, position ≤ i → i < max position levels.length → levels[i]? = some true :=
        fun i hi hlt => getElem?_eq_some_true (by omega) (firstLow?_eq_none_iff.1 hnone i hi)
      rw [drop_eq_of_high (Nat.le_max_left _ _) hhigh,
        List.drop_eq_nil_of_le (Nat.le_max_right _ _)]
      exact Receiver.receiveFrom_high pace position 0 _ []
  | case2 position first hsome ih =>
      obtain ⟨hle, hlow, hhigh⟩ := firstLow?_eq_some_iff.1 hsome
      rw [drop_eq_of_high hle hhigh]
      refine (Receiver.receiveFrom_high pace position 0 _ _).trans ?_
      rw [Nat.add_sub_cancel' hle]
      refine (receiveFrom_frameStart hlow).trans ?_
      rw [ih, List.filterMap_cons]
      cases pace.arrival? levels first <;> rfl

/-- With a timing whose countdowns exist, a new receiver finds what is sampled. -/
theorem receive_eq_ok_sampled {timing : Timing} (h : timing.pace = .ok pace) (levels : List Bool) :
    receive timing (levels.map (·, 1)) = .ok (pace.sampled levels) := by
  rw [receive_eq_ok h, expand_map_one]
  exact congrArg Except.ok (receiveFrom_eq_arrivals 0)

/-- **Reception is sampling.** With a timing that has both countdowns, a new receiver finds on every
line what is sampled on it, and no tick faults. What it finds does not change if levels are changed
that it does not look at, which are all levels inside of a frame except its data bits. Any two bytes
are at least a frame time apart. -/
theorem receive_eq_sampled {timing : Timing} (h : timing.pace = .ok pace) (levels : List Bool) :
    receive timing (levels.map (·, 1)) = .ok (pace.sampled levels) ∧
    (∀ other : List Bool, other.length = levels.length →
      (∀ i, other[i]? = levels[i]? ∨ pace.Unseen levels 0 i) →
      receive timing (other.map (·, 1)) = .ok (pace.sampled levels)) ∧
    (pace.sampled levels).Pairwise fun a b => a.1 + (pace.leadTime + 8 * pace.bitTime) ≤ b.1 := by
  refine ⟨receive_eq_ok_sampled h levels, fun other hlength hother => ?_, sampled_pairwise⟩
  rw [receive_eq_ok_sampled h other, sampled_congr hlength hother]

/-- Twenty levels of a line that is high at the given indexes only. -/
def twentyLevels (high : List Nat) : List Bool := (List.range 20).map fun i => decide (i ∈ high)

/-- A frame with a lead time of three ticks and two ticks a bit, once with a line that is high for the
data bits 0 and 6 only, and once with one that is also high between data bits and in the stop bit. -/
theorem receive_eq_sampled_noisy :
    Pace.sampled ⟨1, 2⟩ (twentyLevels [3, 15, 19]) = [(17, 0x41)] ∧
    receive ⟨2, 1⟩ ((twentyLevels [1, 3, 4, 8, 14, 15, 18, 19]).map (·, 1)) =
      .ok [(17, 0x41)] := by
  have hpace : Timing.pace ⟨2, 1⟩ = .ok ⟨1, 2⟩ := rfl
  obtain ⟨hreceived, hothers, -⟩ := receive_eq_sampled hpace (twentyLevels [3, 15, 19])
  have hsampled : Pace.sampled ⟨1, 2⟩ (twentyLevels [3, 15, 19]) = [(17, 0x41)] :=
    Except.ok.inj (hreceived.symm.trans rfl)
  have hframe : 0 ∈ Pace.frameStarts ⟨1, 2⟩ (twentyLevels [3, 15, 19]) 0 := by
    have hfirst : firstLow? (twentyLevels [3, 15, 19]) 0 = some 0 := rfl
    rw [frameStarts_of_firstLow?_eq_some hfirst]
    exact List.mem_cons_self ..
  have hsame : ∀ i, (twentyLevels [1, 3, 4, 8, 14, 15, 18, 19])[i]? =
        (twentyLevels [3, 15, 19])[i]? ∨ Pace.Unseen ⟨1, 2⟩ (twentyLevels [3, 15, 19]) 0 i := by
    intro i
    by_cases hi : i < 20
    · have hall : ∀ i < 20,
          (twentyLevels [1, 3, 4, 8, 14, 15, 18, 19])[i]? = (twentyLevels [3, 15, 19])[i]? ∨
          0 < i ∧ i < 0 + 19 ∧ ∀ k < 8, i ≠ 0 + 3 + k * 2 := by decide
      exact (hall i hi).imp_right fun hunseen => ⟨0, hframe, hunseen⟩
    · left
      simp [twentyLevels, hi]
  have hlength : (twentyLevels [1, 3, 4, 8, 14, 15, 18, 19]).length =
      (twentyLevels [3, 15, 19]).length := rfl
  exact ⟨hsampled, (hothers _ hlength hsame).trans (congrArg _ hsampled)⟩

end ClockStep.Uart
