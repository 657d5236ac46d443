import ClockStep.Proofs.FallingEdges
import ClockStep.Proofs.FrameReception
import Mathlib.Algebra.Order.Round
import Mathlib.Data.Rat.Floor
import Mathlib.Tactic.Linarith

/-!
# Where the Samples Fall

A receiver's two countdowns come from the same rates, but they are rounded apart: the bit time `P`
is the nearest integer to the ratio of the rates, and the lead time `D` is computed from half the
clock rate, rounded down before it is tripled. This module says what comes of it for a line whose
bits last for `P` ticks. As soon as `P` is three ticks or more, `D` is between one bit time and two,
in spite of the rounding, and then every one of the eight samples falls into the data bit that it is
meant for.

Where a receiver takes its samples does not depend on the line. In a frame it counts down to the
next data bit or takes it, and `Receiver.Awaits` says at any tick which bit that is and when it is
due.

## Conventions

The levels are counted from zero. The start bit of a frame that starts at `start` lasts from there
to `start + P`, and data bit `k` from `start + (k + 1) * P` to `start + (k + 2) * P`, the end not
included.

## Main results

* `round_eq_bitTime`: the bit time is the nearest integer to the ratio of the rates.
* `samplesAt_iff`: the ticks of a frame at which a receiver takes a data bit.
* `countdowns_place_samples`: when the countdowns exist, what they are, and where the samples fall.
-/

namespace ClockStep.Uart

/-! ### The bit time -/

/-- The bit time is the nearest integer to the ratio of the rates; between two integers it is the
higher one. -/
theorem round_eq_bitTime {timing : Timing} {b : Nat} (h : timing.bitPeriod = .ok b) :
    round ((timing.clock : ℚ) / timing.baud) = ((b + 1 : Nat) : Int) := by
  obtain ⟨hpos, hlow, hhigh⟩ := Timing.bitPeriod_bounds h
  -- both bounds doubled, since half of the divisor is rounded down
  have hlow : 2 * (b + 1) * timing.baud ≤ 2 * timing.clock + timing.baud := by
    rw [Nat.mul_assoc]
    omega
  have hhigh : 2 * timing.clock < 2 * (b + 1) * timing.baud + timing.baud := by
    rw [Nat.mul_assoc]
    omega
  have hposq : (0 : ℚ) < timing.baud := by exact_mod_cast hpos
  have hlowq : (2 * (b + 1) * timing.baud : ℚ) ≤ 2 * timing.clock + timing.baud := by
    exact_mod_cast hlow
  have hhighq : (2 * timing.clock : ℚ) < 2 * (b + 1) * timing.baud + timing.baud := by
    exact_mod_cast hhigh
  rw [round_eq_iff]
  push_cast
  constructor
  · rw [le_div_iff₀ hposq]
    linarith
  · rw [div_lt_iff₀ hposq]
    linarith

/-! ### The ticks that sample -/

variable {pace : Pace} {levels : List Bool} {start i k : Nat}

/-- The tick with the given index **samples**: a new receiver takes its level as a data bit. -/
def SamplesAt (pace : Pace) (levels : List Bool) (i : Nat) : Prop :=
  ∃ level, levels[i]? = some level ∧
    (Receiver.fed pace (levels.take i) {}).task level = .sample

namespace Receiver

/-- A tick samples when the countdown is over and bits are still due. -/
theorem task_eq_sample_iff {r : Receiver} {level : Bool} :
    r.task level = .sample ↔ r.countdown = 0 ∧ 0 < r.bitsRemaining := by
  rw [task]
  by_cases hcountdown : 0 < r.countdown
  · simp [hcountdown, Nat.ne_of_gt hcountdown]
  · by_cases hbits : 0 < r.bitsRemaining
    · simp [hbits, Nat.eq_zero_of_not_pos hcountdown]
    · cases level <;> simp [hcountdown, hbits]

/-- A receiver that is inside of a frame at a tick **awaits** data bit `k`, which is due when it has
counted down; the earlier ones were due before. With `k = 8` it awaits the end of the frame. -/
structure Awaits (pace : Pace) (start i k : Nat) (r : Receiver) : Prop where
  le : k ≤ 8
  bits : r.bitsRemaining = 8 - k
  due : i + r.countdown = start + pace.leadTime + k * pace.bitTime
  passed : ∀ j < k, start + pace.leadTime + j * pace.bitTime < i

/-- What a tick inside of a frame leaves: the same bit is awaited, or it was due and the next one
is. -/
theorem Awaits.tick {r : Receiver} (h : r.Awaits pace start i k) (hi : i < start + pace.frameTime)
    (level : Bool) :
    (r.tick pace level).1.Awaits pace start (i + 1) k ∨
      (r.tick pace level).1.Awaits pace start (i + 1) (k + 1) := by
  obtain ⟨hle, hbits, hdue, hpassed⟩ := h
  obtain ⟨shift, bits, countdown⟩ := r
  dsimp only at hbits hdue
  rcases countdown with _ | n
  · right
    have hk : k < 8 := by
      refine Nat.lt_of_le_of_ne hle ?_
      rintro rfl
      simp only [Pace.frameTime] at hi
      omega
    have htick : (Receiver.tick pace level ⟨shift, bits, 0⟩).1.bitsRemaining = 8 - (k + 1) ∧
        (Receiver.tick pace level ⟨shift, bits, 0⟩).1.countdown = pace.bitPeriod := by
      have hsome : 0 < bits := by omega
      simp only [Receiver.tick, task, sample, Nat.lt_irrefl, if_false, hsome, if_true]
      split <;> simp only [and_true] <;> omega
    refine ⟨hk, htick.1, ?_, fun j hj => ?_⟩
    · rw [htick.2, Nat.succ_mul, ← Nat.add_assoc, ← hdue]
      simp only [Pace.bitTime]
      omega
    · rcases Nat.lt_succ_iff_lt_or_eq.1 hj with hj | rfl
      · exact Nat.lt_succ_of_lt (hpassed j hj)
      · omega
  · left
    have htick : (Receiver.tick pace level ⟨shift, bits, n + 1⟩).1 = ⟨shift, bits, n⟩ := by
      simp [Receiver.tick, task, wait]
    rw [htick]
    refine ⟨hle, hbits, ?_, fun j hj => Nat.lt_succ_of_lt (hpassed j hj)⟩
    dsimp only
    omega

end Receiver

/-- Inside of a frame a receiver awaits one of its data bits, or the end of it. -/
theorem exists_awaits (h : ArmsAt pace levels start) {n : Nat} (hn : n < pace.frameTime)
    (hlt : start + n < levels.length) :
    ∃ k,
      (Receiver.fed pace (levels.take (start + n + 1)) {}).Awaits pace start (start + n + 1) k := by
  induction n with
  | zero =>
      obtain ⟨hlow, hrest⟩ := armsAt_iff_busyAfter.1 h
      have hbits : (Receiver.fed pace (levels.take start) {}).bitsRemaining = 0 := h.2.1
      rw [Nat.add_zero, fed_take_succ hlow]
      rw [busyAfter, Receiver.busy] at hrest
      have harm : ((Receiver.fed pace (levels.take start) {}).tick pace false).1 =
          (Receiver.fed pace (levels.take start) {}).arm pace.startDelay := by
        rw [Receiver.tick, Receiver.task, if_neg (by omega), if_neg (by omega)]
        rfl
      rw [harm]
      refine ⟨0, Nat.zero_le _, rfl, ?_, fun j hj => absurd hj (Nat.not_lt_zero j)⟩
      simp only [Receiver.arm, Pace.leadTime]
      omega
  | succ n ih =>
      obtain ⟨k, hk⟩ := ih (by omega) (by omega)
      rw [← Nat.add_assoc, fed_take_succ (List.getElem?_eq_getElem (by omega))]
      rcases hk.tick (by omega) _ with hk | hk
      · exact ⟨k, hk⟩
      · exact ⟨k + 1, hk⟩

/-- **In a frame, a receiver samples the eight data bits when they are due, and at no other tick.**
-/
theorem samplesAt_iff (h : ArmsAt pace levels start) (hi : start ≤ i)
    (hend : i < start + pace.frameTime) :
    SamplesAt pace levels i ↔
      i < levels.length ∧ ∃ k < 8, i = start + pace.leadTime + k * pace.bitTime := by
  have hlead : 0 < pace.leadTime := Nat.succ_pos _
  rw [SamplesAt]
  by_cases hlt : i < levels.length
  · simp only [List.getElem?_eq_getElem hlt, Option.some.injEq, exists_eq_left', hlt, true_and,
      Receiver.task_eq_sample_iff]
    rcases Nat.eq_or_lt_of_le hi with rfl | hi
    · refine iff_of_false (fun hsample => ?_) ?_
      · have hbits := h.2.1
        omega
      · rintro ⟨k, -, hk⟩
        omega
    · obtain ⟨k, hle, hbits, hdue, hpassed⟩ := exists_awaits h (n := i - start - 1)
        (by omega) (by omega)
      rw [show start + (i - start - 1) + 1 = i by omega] at hbits hdue hpassed
      rw [hbits]
      constructor
      · rintro ⟨hcountdown, hmore⟩
        exact ⟨k, by omega, by omega⟩
      · rintro ⟨j, hj, rfl⟩
        -- a bit that is due now is not one of the earlier ones, nor is it due later
        have hkj : k ≤ j := Nat.le_of_not_lt fun hlt => Nat.lt_irrefl _ (hpassed j hlt)
        have hmul : k * pace.bitTime ≤ j * pace.bitTime := Nat.mul_le_mul_right _ hkj
        omega
  · simp [hlt]

/-! ### Samples and bits -/

/-- With a lead time between one bit time and two, a sample is in the data bit that it is meant for.
-/
theorem dataBit_mem_window (hlow : pace.bitTime ≤ pace.leadTime)
    (hhigh : pace.leadTime < 2 * pace.bitTime) (start k : Nat) :
    start + (k + 1) * pace.bitTime ≤ start + pace.leadTime + k * pace.bitTime ∧
      start + pace.leadTime + k * pace.bitTime < start + (k + 2) * pace.bitTime := by
  rw [Nat.add_mul, Nat.add_mul]
  omega

/-- The start bit is not sampled, and every data bit is, once. -/
theorem samples_of_leadTime (h : ArmsAt pace levels start) (hlow : pace.bitTime ≤ pace.leadTime)
    (hhigh : pace.leadTime < 2 * pace.bitTime) :
    (∀ n < pace.bitTime, ¬ SamplesAt pace levels (start + n)) ∧
    ∀ k < 8, start + (k + 2) * pace.bitTime ≤ levels.length →
      ∃! i, start + (k + 1) * pace.bitTime ≤ i ∧ i < start + (k + 2) * pace.bitTime ∧
        SamplesAt pace levels i := by
  constructor
  · intro n hn hsample
    have hend : start + n < start + pace.frameTime := by
      simp only [Pace.frameTime]
      omega
    obtain ⟨-, k, -, hk⟩ := (samplesAt_iff h (Nat.le_add_right _ _) hend).1 hsample
    omega
  · intro k hk hlong
    obtain ⟨hfirst, hlast⟩ := dataBit_mem_window hlow hhigh start k
    refine ⟨start + pace.leadTime + k * pace.bitTime, ⟨hfirst, hlast, ?_⟩, ?_⟩
    · exact (samplesAt_iff h (by omega) (pace.dataBit_lt start hk)).2 ⟨by omega, k, hk, rfl⟩
    · rintro i ⟨hi, hilt, hsample⟩
      have hend : i < start + pace.frameTime := by
        have hle : (k + 2) * pace.bitTime ≤ 9 * pace.bitTime := Nat.mul_le_mul_right _ (by omega)
        simp only [Pace.frameTime]
        omega
      obtain ⟨-, j, -, rfl⟩ := (samplesAt_iff h (by omega) hend).1 hsample
      obtain ⟨hjfirst, hjlast⟩ := dataBit_mem_window hlow hhigh start j
      -- the two windows have a tick in common
      have hjk : j + 1 < k + 2 := Nat.lt_of_mul_lt_mul_right (a := pace.bitTime) (by omega)
      have hkj : k + 1 < j + 2 := Nat.lt_of_mul_lt_mul_right (a := pace.bitTime) (by omega)
      rw [show j = k by omega]

/-- **The countdowns place the samples.** For all rates: the bit period exists exactly when the rate
of the bits is not zero and at most the rounded clock rate, which has 32 bits; the bit time is then
the nearest integer to the ratio of the rates, and between two integers the higher one. The start
delay exists under the same conditions on the rounded one and a half of the clock rate. If both
exist and the bit time is three ticks or more, the lead time is between one bit time and two, and in
a frame on any line the start bit is not sampled and every data bit is, once. -/
theorem countdowns_place_samples (timing : Timing) :
    ((∃ b, timing.bitPeriod = .ok b) ↔
      timing.baud ≠ 0 ∧ timing.baud ≤ timing.clock + timing.baud / 2 ∧
        timing.clock + timing.baud / 2 < UInt32.size) ∧
    (∀ b, timing.bitPeriod = .ok b →
      round ((timing.clock : ℚ) / timing.baud) = ((b + 1 : Nat) : Int)) ∧
    ((∃ s, timing.startDelay = .ok s) ↔
      timing.baud ≠ 0 ∧ timing.baud ≤ 3 * (timing.clock / 2) + timing.baud / 2 ∧
        3 * (timing.clock / 2) + timing.baud / 2 < UInt32.size) ∧
    ∀ b s, timing.bitPeriod = .ok b → timing.startDelay = .ok s → 2 ≤ b →
      b + 1 ≤ s + 1 ∧ s + 1 < 2 * (b + 1) ∧
      ∀ (levels : List Bool) (start : Nat), ArmsAt ⟨b, s⟩ levels start →
        (∀ n < b + 1, ¬ SamplesAt ⟨b, s⟩ levels (start + n)) ∧
        ∀ k < 8, start + (k + 2) * (b + 1) ≤ levels.length →
          ∃! i, start + (k + 1) * (b + 1) ≤ i ∧ i < start + (k + 2) * (b + 1) ∧
            SamplesAt ⟨b, s⟩ levels i := by
  refine ⟨⟨?_, ?_⟩, fun b => round_eq_bitTime, ⟨?_, ?_⟩, ?_⟩
  · rintro ⟨b, hb⟩
    obtain ⟨hbaud, hle, hlt, -⟩ := Timing.bitPeriod_eq_ok_iff.1 hb
    exact ⟨hbaud, hle, hlt⟩
  · rintro ⟨hbaud, hle, hlt⟩
    have hone := Nat.div_pos hle (Nat.pos_of_ne_zero hbaud)
    exact ⟨_, Timing.bitPeriod_eq_ok_iff.2 ⟨hbaud, hle, hlt, Nat.sub_add_cancel hone⟩⟩
  · rintro ⟨s, hs⟩
    obtain ⟨hbaud, hle, hlt, -⟩ := Timing.startDelay_eq_ok_iff.1 hs
    exact ⟨hbaud, hle, hlt⟩
  · rintro ⟨hbaud, hle, hlt⟩
    have hone := Nat.div_pos hle (Nat.pos_of_ne_zero hbaud)
    exact ⟨_, Timing.startDelay_eq_ok_iff.2 ⟨hbaud, hle, hlt, Nat.sub_add_cancel hone⟩⟩
  · intro b s hb hs hlong
    obtain ⟨hlow, hhigh⟩ := Timing.leadTime_bounds hb hs hlong
    exact ⟨hlow, hhigh, fun levels start h => samples_of_leadTime h hlow hhigh⟩

/-- At seven ticks to two bits the ratio is rounded up to four ticks a bit. A receiver that a low
line arms at its first tick then takes data bit 7 at one of the ticks 32 to 35, and nothing before
tick 4. -/
theorem countdowns_place_samples_halfway :
    round ((7 : ℚ) / 2) = 4 ∧
    (∀ n < 4, ¬ SamplesAt ⟨3, 4⟩ (List.replicate 36 false) (0 + n)) ∧
    ∃! i, 0 + 8 * 4 ≤ i ∧ i < 0 + 9 * 4 ∧ SamplesAt ⟨3, 4⟩ (List.replicate 36 false) i := by
  have hb : Timing.bitPeriod ⟨7, 2⟩ = .ok 3 := rfl
  have hs : Timing.startDelay ⟨7, 2⟩ = .ok 4 := rfl
  obtain ⟨-, hround, -, hplaced⟩ := countdowns_place_samples ⟨7, 2⟩
  obtain ⟨-, -, hsamples⟩ := hplaced 3 4 hb hs (by decide)
  have harms : ArmsAt ⟨3, 4⟩ (List.replicate 36 false) 0 := ⟨by decide, rfl, rfl⟩
  obtain ⟨hstart, hbits⟩ := hsamples _ 0 harms
  exact ⟨by simpa using hround 3 hb, hstart, hbits 7 (by decide) (by decide)⟩

end ClockStep.Uart
