import ClockStep.Proofs.FrameSampling
import Mathlib.Data.List.Nodup
import Mathlib.Data.List.Perm.Subperm
import Mathlib.Order.Basic
import Mathlib.Order.Nat

/-!
# What Starts a Frame

A frame is to start when the line falls. The receiver does not remember the level before, though, and
starts a frame at any low level that it meets at rest. Up to the end of a frame that makes no
difference: a receiver at rest has seen a high level, or nothing yet. But a line that is still low
when a frame is over starts the next one at once, without having risen (`armsAt_cases`), and so a line
that is held low yields a byte every frame time (`length_sampled_low`).

This module says exactly when a new receiver is armed, on every line, and what follows for the number
of bytes: there are no more of them than falling edges and frames with the line low behind them.

## Convention

A line counts as high before its first level.

## Main results

* `busy_tick`: the ticks until a receiver is at rest go down by one on every line.
* `armsAt_iff`: a new receiver is armed where the frames of the reference start.
* `arms_at_edge_or_low_stop`: a frame starts at a falling edge or behind a frame that ends low.
* `low_line_rearms`: the second kind does occur.
-/

namespace ClockStep.Uart

variable {pace : Pace} {levels : List Bool}

/-! ### Edges -/

/-- The line **falls**: it is low, and was high before. -/
def Falls (levels : List Bool) (i : Nat) : Prop :=
  levels[i]? = some false ∧ (i = 0 ∨ levels[i - 1]? = some true)

instance (i : Nat) : Decidable (Falls levels i) := inferInstanceAs (Decidable (_ ∧ _))

/-- The line **stays low**: it is low, and was low before. -/
def StaysLow (levels : List Bool) (i : Nat) : Prop :=
  levels[i]? = some false ∧ 0 < i ∧ levels[i - 1]? = some false

instance (i : Nat) : Decidable (StaysLow levels i) := inferInstanceAs (Decidable (_ ∧ _))

/-- A low level is a falling edge or stays low. -/
theorem falls_or_staysLow {i : Nat} (h : levels[i]? = some false) :
    Falls levels i ∨ StaysLow levels i := by
  have hlt := (List.getElem?_eq_some_iff.1 h).1
  by_cases hi : i = 0
  · exact Or.inl ⟨h, Or.inl hi⟩
  by_cases hbefore : levels[i - 1]? = some false
  · exact Or.inr ⟨h, Nat.pos_of_ne_zero hi, hbefore⟩
  · exact Or.inl ⟨h, Or.inr (getElem?_eq_some_true (by omega) hbefore)⟩

/-- A level that stays low is no falling edge. -/
theorem StaysLow.not_falls {i : Nat} (h : StaysLow levels i) : ¬ Falls levels i := by
  rintro ⟨-, rfl | hhigh⟩
  · exact absurd h.2.1 (Nat.lt_irrefl 0)
  · rw [h.2.2] at hhigh
    cases hhigh

/-- The number of falling edges of a line. -/
def fallingEdges (levels : List Bool) : Nat :=
  (List.range levels.length).countP fun i => Falls levels i

/-! ### When a receiver is armed -/

/-- The ticks until a receiver is at rest, if it is not. -/
def Receiver.busy (pace : Pace) (r : Receiver) : Nat := r.countdown + r.bitsRemaining * pace.bitTime

/-- A tick brings a busy receiver nearer to rest, and starts a frame at rest if the line is low. -/
theorem Receiver.busy_tick (r : Receiver) (level : Bool) :
    (r.tick pace level).1.busy pace =
      if r.busy pace = 0 then (if level then 0 else pace.frameTime - 1) else r.busy pace - 1 := by
  obtain ⟨shift, bits, countdown⟩ := r
  rcases countdown with _ | n
  · rcases bits with _ | _ | n
    · cases level <;> simp [tick, task, arm, busy, Pace.frameTime, Pace.leadTime]
    · simp [tick, task, sample, busy, Pace.bitTime]
    · simp [tick, task, sample, busy, Pace.bitTime, Nat.succ_mul]
      omega
  · simp [tick, task, wait, busy]

/-- A tick arms a receiver that is at rest, if the line is low. -/
theorem Receiver.arms_iff (r : Receiver) (level : Bool) :
    r.bitsRemaining = 0 ∧ (r.tick pace level).1.bitsRemaining = 8 ↔
      r.busy pace = 0 ∧ level = false := by
  obtain ⟨shift, bits, countdown⟩ := r
  rcases bits with _ | n
  · rcases countdown with _ | n
    · cases level <;> simp [tick, task, arm, busy]
    · simp [tick, task, wait, busy]
  · simp [busy, Pace.bitTime]

/-- The tick with the given index **arms** a new receiver: eight data bits are to come, where none was
before. -/
def ArmsAt (pace : Pace) (levels : List Bool) (i : Nat) : Prop :=
  i < levels.length ∧ (Receiver.fed pace (levels.take i) {}).bitsRemaining = 0 ∧
    (Receiver.fed pace (levels.take (i + 1)) {}).bitsRemaining = 8

/-- How busy a new receiver is after the first levels of a line. -/
def busyAfter (pace : Pace) (levels : List Bool) (i : Nat) : Nat :=
  (Receiver.fed pace (levels.take i) {}).busy pace

/-- One more level is one more tick. -/
theorem fed_take_succ {i : Nat} {level : Bool} (h : levels[i]? = some level) (r : Receiver) :
    Receiver.fed pace (levels.take (i + 1)) r =
      ((Receiver.fed pace (levels.take i) r).tick pace level).1 := by
  rw [Receiver.fed, Receiver.fed, List.take_add_one, h, List.foldl_append]
  rfl

/-- A tick arms the receiver that is at rest, or brings it nearer to its rest. -/
theorem busyAfter_succ {i : Nat} {level : Bool} (h : levels[i]? = some level) :
    busyAfter pace levels (i + 1) =
      if busyAfter pace levels i = 0 then (if level then 0 else pace.frameTime - 1)
      else busyAfter pace levels i - 1 := by
  rw [busyAfter, fed_take_succ h, Receiver.busy_tick]
  rfl

/-- The receiver is armed by a low level at rest, and by nothing else. -/
theorem armsAt_iff_busyAfter {i : Nat} :
    ArmsAt pace levels i ↔ levels[i]? = some false ∧ busyAfter pace levels i = 0 := by
  rw [ArmsAt]
  by_cases hlt : i < levels.length
  · obtain ⟨level, hlevel⟩ : ∃ level, levels[i]? = some level :=
      ⟨_, List.getElem?_eq_getElem hlt⟩
    rw [fed_take_succ hlevel, Receiver.arms_iff, hlevel]
    simp [busyAfter, hlt, and_comm]
  · simp [hlt]

/-- At rest, a receiver stays so as long as the line is high. -/
theorem busyAfter_of_high {position i : Nat} (hrest : busyAfter pace levels position = 0)
    (hle : position ≤ i) (h : ∀ j, position ≤ j → j < i → levels[j]? = some true) :
    busyAfter pace levels i = 0 := by
  induction i, hle using Nat.le_induction with
  | base => exact hrest
  | succ i hle ih =>
      rw [busyAfter_succ (h i hle (Nat.lt_succ_self i)),
        if_pos (ih fun j hj hlt => h j hj (Nat.lt_succ_of_lt hlt)), if_pos rfl]

/-- Inside of a frame, the receiver is busy until the end of it. -/
theorem busyAfter_of_armsAt {start : Nat} (h : ArmsAt pace levels start) {n : Nat}
    (hn : n < pace.frameTime) (hlt : start + n < levels.length) :
    busyAfter pace levels (start + n + 1) = pace.frameTime - (n + 1) := by
  obtain ⟨hlow, hrest⟩ := armsAt_iff_busyAfter.1 h
  induction n with
  | zero => rw [Nat.add_zero, busyAfter_succ hlow, if_pos hrest]; rfl
  | succ n ih =>
      have hbusy := ih (by omega) (by omega)
      rw [← Nat.add_assoc, busyAfter_succ (List.getElem?_eq_getElem (by omega)), hbusy,
        if_neg (by omega), Nat.sub_sub]

/-- From a position at which the receiver is at rest, it is armed where frames start. -/
theorem armsAt_iff_mem_frameStarts {position : Nat} (hrest : busyAfter pace levels position = 0)
    {i : Nat} (hi : position ≤ i) :
    ArmsAt pace levels i ↔ i ∈ pace.frameStarts levels position := by
  fun_induction Pace.frameStarts pace levels position with
  | case1 position hnone =>
      have hlow := firstLow?_eq_none_iff.1 hnone i hi
      simp [armsAt_iff_busyAfter, hlow]
  | case2 position first hsome ih =>
      obtain ⟨hle, hlow, hhigh⟩ := firstLow?_eq_some_iff.1 hsome
      have hfirst : ArmsAt pace levels first :=
        armsAt_iff_busyAfter.2 ⟨hlow, busyAfter_of_high hrest hle hhigh⟩
      have hpos := pace.frameTime_pos
      rw [List.mem_cons]
      rcases Nat.lt_or_ge i (first + pace.frameTime) with hlt | hge
      · -- up to the end of the first frame, only its start counts
        have hnot : i ∉ pace.frameStarts levels (first + pace.frameTime) := fun hmem => by
          have := (of_mem_frameStarts hmem).1
          omega
        simp only [hnot, or_false]
        refine ⟨fun harms => ?_, fun heq => heq ▸ hfirst⟩
        obtain ⟨hlow', hrest'⟩ := armsAt_iff_busyAfter.1 harms
        rcases Nat.lt_trichotomy i first with hbefore | heq | hafter
        · rw [hhigh i hi hbefore] at hlow'
          cases hlow'
        · exact heq
        · have hbusy := busyAfter_of_armsAt hfirst (n := i - first - 1) (by omega)
            (by have := harms.1; omega)
          rw [show first + (i - first - 1) + 1 = i by omega, hrest'] at hbusy
          omega
      · rcases Nat.lt_or_ge (first + pace.frameTime) (levels.length + 1) with hin | hout
        · have hbusy := busyAfter_of_armsAt hfirst (n := pace.frameTime - 1) (by omega) (by omega)
          rw [show first + (pace.frameTime - 1) + 1 = first + pace.frameTime by omega] at hbusy
          rw [ih (by omega) hge]
          exact ⟨Or.inr, fun hmem => hmem.resolve_left (by omega)⟩
        · -- the line ends inside of the first frame
          refine iff_of_false (fun harms => ?_) ?_
          · have := harms.1
            omega
          · rintro (heq | hmem)
            · omega
            · have := (List.getElem?_eq_some_iff.1 (of_mem_frameStarts hmem).2).1
              omega

/-- **A new receiver is armed where the frames of the reference start.** -/
theorem armsAt_iff {i : Nat} : ArmsAt pace levels i ↔ i ∈ pace.frameStarts levels 0 :=
  armsAt_iff_mem_frameStarts (by simp [busyAfter, Receiver.fed, Receiver.busy]) (Nat.zero_le i)

/-! ### Edges and frames -/

/-- A frame starts where the search for it starts, or where the line was high before, or behind another
frame. -/
theorem frameStart_cases {position start : Nat} (h : start ∈ pace.frameStarts levels position) :
    start = position ∨ levels[start - 1]? = some true ∨
      ∃ earlier ∈ pace.frameStarts levels position, start = earlier + pace.frameTime := by
  fun_induction Pace.frameStarts pace levels position with
  | case1 position hnone => cases h
  | case2 position first hsome ih =>
      obtain ⟨hle, -, hhigh⟩ := firstLow?_eq_some_iff.1 hsome
      rcases List.mem_cons.1 h with rfl | h
      · rcases Nat.eq_or_lt_of_le hle with heq | hlt
        · exact Or.inl heq.symm
        · exact Or.inr (Or.inl (hhigh _ (by omega) (by omega)))
      · rcases ih h with heq | hbefore | ⟨earlier, hearlier, heq⟩
        · exact Or.inr (Or.inr ⟨first, List.mem_cons_self .., heq⟩)
        · exact Or.inr (Or.inl hbefore)
        · exact Or.inr (Or.inr ⟨earlier, List.mem_cons_of_mem _ hearlier, heq⟩)

/-- A **low stop**: a frame behind which the line stays low. -/
def LowStop (pace : Pace) (levels : List Bool) (start : Nat) : Prop :=
  ArmsAt pace levels start ∧ StaysLow levels (start + pace.frameTime)

instance (start : Nat) : Decidable (LowStop pace levels start) :=
  inferInstanceAs (Decidable ((_ ∧ _ ∧ _) ∧ _))

/-- The number of low stops of a line. -/
def lowStops (pace : Pace) (levels : List Bool) : Nat :=
  (List.range levels.length).countP fun start => LowStop pace levels start

/-- A receiver is armed at a falling edge, or behind a low stop. -/
theorem armsAt_cases {i : Nat} (h : ArmsAt pace levels i) :
    Falls levels i ∨ ∃ start, LowStop pace levels start ∧ i = start + pace.frameTime := by
  have hmem := armsAt_iff.1 h
  refine (falls_or_staysLow (of_mem_frameStarts hmem).2).imp_right fun hlow => ?_
  rcases frameStart_cases hmem with rfl | hbefore | ⟨start, hstart, rfl⟩
  · exact absurd hlow.2.1 (Nat.lt_irrefl 0)
  · rw [hlow.2.2] at hbefore
    cases hbefore
  · exact ⟨start, ⟨armsAt_iff.2 hstart, hlow⟩, rfl⟩

/-- Behind a low stop a receiver is armed. -/
theorem LowStop.armsAt {start : Nat} (h : LowStop pace levels start) :
    ArmsAt pace levels (start + pace.frameTime) := by
  have hlt := (List.getElem?_eq_some_iff.1 h.2.1).1
  have hpos := pace.frameTime_pos
  have hbusy := busyAfter_of_armsAt h.1 (n := pace.frameTime - 1) (by omega) (by omega)
  rw [show start + (pace.frameTime - 1) + 1 = start + pace.frameTime by omega] at hbusy
  exact armsAt_iff_busyAfter.2 ⟨h.2.1, by omega⟩

/-! ### Counting -/

/-- There are no more frames than falling edges and low stops. -/
theorem length_frameStarts_le :
    (pace.frameStarts levels 0).length ≤ fallingEdges levels + lowStops pace levels := by
  have hpos := pace.frameTime_pos
  have hnodup : (pace.frameStarts levels 0).Nodup :=
    (frameStarts_pairwise 0).imp fun hle => by omega
  have hinside : pace.frameStarts levels 0 ⊆ List.range levels.length := fun i hi =>
    List.mem_range.2 (List.getElem?_eq_some_iff.1 (of_mem_frameStarts hi).2).1
  have hfalls : (pace.frameStarts levels 0).countP (fun i => Falls levels i) ≤
      fallingEdges levels := (List.Nodup.subperm hnodup hinside).countP_le _
  -- a frame that starts at no edge is known by the low stop before it
  have hothers : (pace.frameStarts levels 0).countP (fun i => ¬Falls levels i) ≤
      lowStops pace levels := by
    have hstop : ∀ i ∈ (pace.frameStarts levels 0).filter (fun i => ¬Falls levels i),
        ∃ start, LowStop pace levels start ∧ i = start + pace.frameTime := by
      intro i hi
      obtain ⟨hmem, hnot⟩ := List.mem_filter.1 hi
      exact (armsAt_cases (armsAt_iff.2 hmem)).resolve_left (of_decide_eq_true hnot)
    have hinjective : ((pace.frameStarts levels 0).filter (fun i => ¬Falls levels i)).map
        (· - pace.frameTime) |>.Nodup := by
      refine List.Nodup.map_on (fun i hi j hj heq => ?_) (hnodup.filter _)
      obtain ⟨start, -, rfl⟩ := hstop i hi
      obtain ⟨start', -, rfl⟩ := hstop j hj
      simp only [Nat.add_sub_cancel] at heq
      rw [heq]
    have hsubset : ((pace.frameStarts levels 0).filter (fun i => ¬Falls levels i)).map
        (· - pace.frameTime) ⊆
          (List.range levels.length).filter fun start => LowStop pace levels start := by
      intro start hstart
      obtain ⟨i, hi, rfl⟩ := List.mem_map.1 hstart
      obtain ⟨start, hlow, rfl⟩ := hstop i hi
      rw [Nat.add_sub_cancel]
      exact List.mem_filter.2 ⟨List.mem_range.2 hlow.1.1, decide_eq_true hlow⟩
    have hle := (List.Nodup.subperm hinjective hsubset).length_le
    rw [List.length_map] at hle
    rw [lowStops, List.countP_eq_length_filter, List.countP_eq_length_filter]
    exact hle
  rw [List.length_eq_countP_add_countP fun i => decide (Falls levels i)]
  refine Nat.add_le_add hfalls ?_
  simpa using hothers

/-- From any position of a line that is held low, a byte is found every frame time. -/
theorem length_arrivals_low (n position : Nat) :
    ((pace.frameStarts (List.replicate n false) position).filterMap
      (pace.arrival? (List.replicate n false))).length =
      (n - position + pace.bitPeriod) / pace.frameTime := by
  have hpos := pace.frameTime_pos
  have hlong : pace.bitPeriod < pace.frameTime := by
    simp only [Pace.frameTime, Pace.bitTime]
    omega
  fun_induction Pace.frameStarts pace (List.replicate n false) position with
  | case1 position hnone =>
      have hout : n ≤ position := by
        by_contra hlt
        exact firstLow?_eq_none_iff.1 hnone position (Nat.le_refl _)
          (List.getElem?_replicate_of_lt (by omega))
      rw [Nat.sub_eq_zero_of_le hout, Nat.zero_add, Nat.div_eq_of_lt hlong]
      rfl
  | case2 position first hsome ih =>
      obtain ⟨hle, hlow, hhigh⟩ := firstLow?_eq_some_iff.1 hsome
      have hin : first < n := by simpa using (List.getElem?_eq_some_iff.1 hlow).1
      obtain rfl : first = position := by
        by_contra hne
        have hbefore := hhigh position (Nat.le_refl _) (by omega)
        rw [List.getElem?_replicate_of_lt (by omega)] at hbefore
        cases hbefore
      have hlast : pace.lastSample first + pace.bitPeriod + 1 = first + pace.frameTime := by
        simp only [Pace.lastSample, Pace.frameTime, Pace.bitTime]
        omega
      rw [List.filterMap_cons, Pace.arrival?, List.length_replicate]
      by_cases hreached : pace.lastSample first < n
      · have hframe : (n - first + pace.bitPeriod) / pace.frameTime =
            (n - first + pace.bitPeriod - pace.frameTime) / pace.frameTime + 1 :=
          Nat.div_eq_sub_div hpos (by omega)
        rw [if_pos hreached, List.length_cons, ih, hframe]
        congr 1
        rcases Nat.le_total (first + pace.frameTime) n with hmore | hdone
        · congr 1
          omega
        · rw [Nat.div_eq_of_lt (by omega), Nat.div_eq_of_lt (by omega)]
      · rw [if_neg hreached, ih, Nat.div_eq_of_lt (by omega), Nat.div_eq_of_lt (by omega)]

/-- A line that is held low yields a byte every frame time. -/
theorem length_sampled_low (n : Nat) :
    (pace.sampled (List.replicate n false)).length = (n + pace.bitPeriod) / pace.frameTime :=
  length_arrivals_low n 0

/-- **What starts a frame.** With a timing that has both countdowns, on every line: a new receiver is
armed at a falling edge or behind a low stop, and behind every low stop, so that it is armed at
falling edges only if and only if there is no low stop. There are no more bytes than falling edges
and low stops. A line that is held low yields a byte every frame time. -/
theorem arms_at_edge_or_low_stop {timing : Timing} (h : timing.pace = .ok pace)
    (levels : List Bool) :
    (∀ i, ArmsAt pace levels i →
      Falls levels i ∨ ∃ start, LowStop pace levels start ∧ i = start + pace.frameTime) ∧
    (∀ start, LowStop pace levels start → ArmsAt pace levels (start + pace.frameTime)) ∧
    ((∀ i, ArmsAt pace levels i → Falls levels i) ↔ ∀ start, ¬ LowStop pace levels start) ∧
    ∃ bytes, receive timing (levels.map (·, 1)) = .ok bytes ∧
      bytes.length ≤ fallingEdges levels + lowStops pace levels ∧
      ((∀ start, ¬ LowStop pace levels start) → bytes.length ≤ fallingEdges levels) ∧
      ∀ n, levels = List.replicate n false →
        bytes.length = (n + pace.bitPeriod) / pace.frameTime := by
  have hbytes : (pace.sampled levels).length ≤ fallingEdges levels + lowStops pace levels :=
    (List.length_filterMap_le _ _).trans length_frameStarts_le
  refine ⟨fun i => armsAt_cases, fun start => LowStop.armsAt, ⟨?_, ?_⟩,
    pace.sampled levels, receive_eq_ok_sampled h levels, hbytes, ?_, ?_⟩
  · intro hfalls start hstop
    exact hstop.2.not_falls (hfalls _ hstop.armsAt)
  · intro hnone i harms
    exact (armsAt_cases harms).resolve_right fun ⟨start, hstop, _⟩ => hnone start hstop
  · intro hnone
    have hzero : lowStops pace levels = 0 :=
      List.countP_eq_zero.2 fun start _ => by simpa using hnone start
    rwa [hzero] at hbytes
  · rintro n rfl
    exact length_sampled_low n

/-- The machine's own receiver finds two bytes in a break of nine thousand ticks; and on a line that
is high when the frame is over, though it falls inside of the stop bit, it is armed at edges only. -/
theorem arms_at_edge_or_low_stop_break :
    (∃ bytes, receive .standard ((List.replicate 9000 false).map (·, 1)) = .ok bytes ∧
      bytes.length = 2) ∧
    ∀ i, ArmsAt ⟨1, 2⟩ (twentyLevels [1, 15, 17, 19]) i →
      Falls (twentyLevels [1, 15, 17, 19]) i := by
  have hstandard : Timing.standard.pace = .ok .standard := rfl
  have hpace : Timing.pace ⟨2, 1⟩ = .ok ⟨1, 2⟩ := rfl
  obtain ⟨-, -, -, bytes, hreceived, -, -, hlow⟩ :=
    arms_at_edge_or_low_stop hstandard (List.replicate 9000 false)
  obtain ⟨-, -, hedges, -⟩ := arms_at_edge_or_low_stop hpace (twentyLevels [1, 15, 17, 19])
  refine ⟨⟨bytes, hreceived, hlow 9000 rfl⟩, hedges.2 fun start hstop => ?_⟩
  have hnone : ∀ start < 20, ¬ LowStop ⟨1, 2⟩ (twentyLevels [1, 15, 17, 19]) start := by decide
  exact hnone start (by simpa [twentyLevels] using hstop.1.1) hstop

/-- **Not every frame starts at a falling edge.** The machine's own receiver finds two bytes on a line
that falls once and is then held low. -/
theorem low_line_rearms :
    ¬∀ (timing : Timing) (pace : Pace) (levels : List Bool), timing.pace = .ok pace →
      (∀ i, ArmsAt pace levels i → Falls levels i) ∧
      ∃ bytes, receive timing (levels.map (·, 1)) = .ok bytes ∧
        bytes.length ≤ fallingEdges levels ∧
        ((∀ level ∈ levels, level = false) → bytes.length ≤ 1) := by
  intro h
  have hstandard : Timing.standard.pace = .ok .standard := rfl
  obtain ⟨-, bytes, hreceived, -, hone⟩ := h _ _ (List.replicate 9000 false) hstandard
  rw [receive_eq_ok_sampled hstandard] at hreceived
  obtain rfl := Except.ok.inj hreceived
  have hle := hone fun level hlevel => List.eq_of_mem_replicate hlevel
  rw [length_sampled_low] at hle
  exact absurd hle (by decide)

end ClockStep.Uart
