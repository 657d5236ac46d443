import ClockStep.Uart.Receiver

/-!
# Reception, Frame by Frame

Between two looks at the line a receiver only counts down, so what it makes of a stretch of levels
depends on a few of them. This module cuts a stretch at these places: `receiveFrom_wait` skips a
countdown, `receiveFrom_bits` goes from the first data bit to the last, and `receiveFrom_low` takes
a receiver at rest from the low level that starts a frame to the tick at which it is at rest again.
Nothing is assumed of the levels in between.

A receiver with a timing is fed runs of levels and may fault; `receive_eq_ok` says that with a
timing whose countdowns exist it finds what `receiveFrom` finds on the levels one by one.

## Main results

* `receive_eq_ok`: reception with a timing, in terms of `receiveFrom`.
* `receiveFrom_append`: reception goes on where it was left.
* `receiveFrom_low`: one frame, from rest to rest.
* `foldl_shiftIn_eq`: eight bits, least significant first, make up the byte.
-/

namespace ClockStep.Uart

/-- The ticks from one data bit to the next. -/
def Pace.bitTime (pace : Pace) : Nat := pace.bitPeriod + 1

/-- The ticks from the low level that starts a frame to its first data bit. -/
def Pace.leadTime (pace : Pace) : Nat := pace.startDelay + 1

namespace Receiver

variable (pace : Pace) (index : Nat)

/-! ### Level by level -/

/-- The receiver after some levels. -/
def fed (levels : List Bool) (r : Receiver) : Receiver :=
  levels.foldl (fun r level => (r.tick pace level).1) r

/-- What is found in levels is found in the first of them, and then in the others. -/
theorem receiveFrom_append (r : Receiver) (levels later : List Bool) :
    receiveFrom pace index r (levels ++ later) =
      receiveFrom pace index r levels ++
        receiveFrom pace (index + levels.length) (r.fed pace levels) later := by
  induction levels generalizing index r with
  | nil => rfl
  | cons level rest ih =>
      have hlength : index + (level :: rest).length = index + 1 + rest.length := by
        rw [List.length_cons]
        omega
      rw [List.cons_append, receiveFrom, receiveFrom, hlength, fed, List.foldl_cons]
      rcases r.tick pace level with ⟨r', _ | byte⟩
      · exact ih (index + 1) r'
      · exact congrArg _ (ih (index + 1) r')

/-! ### Waiting and resting -/

/-- While a receiver counts down it does not look at the line. -/
theorem receiveFrom_wait (shift : Byte) (bits countdown : Nat) (levels : List Bool) :
    receiveFrom pace index ⟨shift, bits, countdown⟩ levels =
      receiveFrom pace (index + countdown) ⟨shift, bits, 0⟩ (levels.drop countdown) := by
  induction countdown generalizing index levels with
  | zero => rfl
  | succ n ih =>
      cases levels with
      | nil => rfl
      | cons level rest =>
          have htick : tick pace level ⟨shift, bits, n + 1⟩ = (⟨shift, bits, n⟩, none) := by
            simp [tick, task, wait]
          rw [receiveFrom, htick]
          dsimp only
          rw [ih, List.drop_succ_cons]
          congr 1
          omega

/-- A receiver at rest ignores a line that is high. -/
theorem receiveFrom_high (shift : Byte) (n : Nat) (levels : List Bool) :
    receiveFrom pace index ⟨shift, 0, 0⟩ (List.replicate n true ++ levels) =
      receiveFrom pace (index + n) ⟨shift, 0, 0⟩ levels := by
  induction n generalizing index with
  | zero => rfl
  | succ n ih =>
      have htick : tick pace true ⟨shift, 0, 0⟩ = (⟨shift, 0, 0⟩, none) := by
        simp [tick, task]
      rw [List.replicate_succ, List.cons_append, receiveFrom, htick]
      dsimp only
      rw [ih]
      congr 1
      omega

/-! ### Sampling -/

/-- The shift register after one more data bit. -/
def shiftIn (shift : Byte) (level : Bool) : Byte := shift >>> 1 ||| (if level then 0x80 else 0)

/-- The next level is a data bit, and not the last one. -/
theorem receiveFrom_sample (shift : Byte) (n : Nat) (level : Bool) (rest : List Bool) :
    receiveFrom pace index ⟨shift, n + 2, 0⟩ (level :: rest) =
      receiveFrom pace (index + 1) ⟨shiftIn shift level, n + 1, pace.bitPeriod⟩ rest := by
  have htick : tick pace level ⟨shift, n + 2, 0⟩ =
      (⟨shiftIn shift level, n + 1, pace.bitPeriod⟩, none) := by
    simp [tick, task, sample, shiftIn]
  rw [receiveFrom, htick]

/-- The next level is the last data bit. -/
theorem receiveFrom_sample_last (shift : Byte) (level : Bool) (rest : List Bool) :
    receiveFrom pace index ⟨shift, 1, 0⟩ (level :: rest) =
      (index, shiftIn shift level) ::
        receiveFrom pace (index + 1) ⟨0, 0, pace.bitPeriod⟩ rest := by
  have htick : tick pace level ⟨shift, 1, 0⟩ =
      (⟨0, 0, pace.bitPeriod⟩, some (shiftIn shift level)) := by
    simp [tick, task, sample, shiftIn]
  rw [receiveFrom, htick]

/-- A low level arms a receiver at rest. -/
theorem receiveFrom_arm (shift : Byte) (rest : List Bool) :
    receiveFrom pace index ⟨shift, 0, 0⟩ (false :: rest) =
      receiveFrom pace (index + 1) ⟨shift, 8, pace.startDelay⟩ rest := by
  have htick : tick pace false ⟨shift, 0, 0⟩ = (⟨shift, 8, pace.startDelay⟩, none) := by
    simp [tick, task, arm]
  rw [receiveFrom, htick]

/-- From a countdown before a data bit to the last data bit: the levels a bit time apart are taken,
the others are not looked at. -/
theorem receiveFrom_bits (n : Nat) (bit : Nat → Bool) (shift : Byte) (countdown : Nat)
    (levels : List Bool)
    (hbits : ∀ j ≤ n, levels[countdown + j * pace.bitTime]? = some (bit j)) :
    receiveFrom pace index ⟨shift, n + 1, countdown⟩ levels =
      (index + (countdown + n * pace.bitTime),
        ((List.range (n + 1)).map bit).foldl shiftIn shift) ::
      receiveFrom pace (index + (countdown + n * pace.bitTime) + 1) ⟨0, 0, pace.bitPeriod⟩
        (levels.drop (countdown + n * pace.bitTime + 1)) := by
  induction n generalizing index bit shift countdown levels with
  | zero =>
      have h₀ := hbits 0 (Nat.le_refl 0)
      rw [Nat.zero_mul, Nat.add_zero] at h₀ ⊢
      obtain ⟨hlt, hget⟩ := List.getElem?_eq_some_iff.1 h₀
      rw [receiveFrom_wait, List.drop_eq_getElem_cons hlt, hget, receiveFrom_sample_last]
      rfl
  | succ n ih =>
      have h₀ := hbits 0 (Nat.zero_le _)
      rw [Nat.zero_mul, Nat.add_zero] at h₀
      obtain ⟨hlt, hget⟩ := List.getElem?_eq_some_iff.1 h₀
      have hrest : ∀ j ≤ n, (levels.drop (countdown + 1))[pace.bitPeriod + j * pace.bitTime]? =
          some (bit (j + 1)) := by
        intro j hj
        rw [List.getElem?_drop, ← hbits (j + 1) (by omega), Nat.succ_mul]
        congr 1
        simp only [Pace.bitTime]
        omega
      rw [receiveFrom_wait, List.drop_eq_getElem_cons hlt, hget, receiveFrom_sample,
        ih _ (fun j => bit (j + 1)) _ _ _ hrest, List.drop_drop]
      have hlast : countdown + (n + 1) * pace.bitTime =
          countdown + 1 + (pace.bitPeriod + n * pace.bitTime) := by
        rw [Nat.succ_mul]
        simp only [Pace.bitTime]
        omega
      rw [List.range_succ_eq_map (n := n + 1), List.map_cons, List.foldl_cons, List.map_map, hlast]
      congr 2
      · omega
      · omega

/-- **One frame, from rest to rest.** A low level starts a frame; its eight data bits are the levels
from the lead time on, a bit time apart. The byte comes with the last of them, and a bit time later
the receiver looks at the line again. -/
theorem receiveFrom_low (bit : Nat → Bool) (shift : Byte) (levels : List Bool)
    (hlow : levels[0]? = some false)
    (hbits : ∀ k < 8, levels[pace.leadTime + k * pace.bitTime]? = some (bit k)) :
    receiveFrom pace index ⟨shift, 0, 0⟩ levels =
      (index + (pace.leadTime + 7 * pace.bitTime), ((List.range 8).map bit).foldl shiftIn shift) ::
      receiveFrom pace (index + (pace.leadTime + 8 * pace.bitTime)) ⟨0, 0, 0⟩
        (levels.drop (pace.leadTime + 8 * pace.bitTime)) := by
  rcases levels with _ | ⟨level, rest⟩
  · cases hlow
  obtain rfl : level = false := Option.some.inj hlow
  have hrest : ∀ j ≤ 7, rest[pace.startDelay + j * pace.bitTime]? = some (bit j) := by
    intro j hj
    rw [← hbits j (by omega), Pace.leadTime, Nat.add_right_comm, List.getElem?_cons_succ]
  rw [receiveFrom_arm, receiveFrom_bits pace (index + 1) 7 bit shift pace.startDelay rest hrest,
    receiveFrom_wait, List.drop_drop]
  have hend : pace.leadTime + 8 * pace.bitTime =
      pace.startDelay + 7 * pace.bitTime + 1 + pace.bitPeriod + 1 := by
    simp only [Pace.leadTime, Pace.bitTime]
    omega
  rw [hend, List.drop_succ_cons]
  congr 2
  · simp only [Pace.leadTime]
    omega
  · omega

/-! ### The byte -/

/-- A data bit goes in at the top and pushes the others down. -/
theorem getLsbD_shiftIn (shift : Byte) (level : Bool) {i : Nat} (hi : i < 8) :
    (shiftIn shift level).toBitVec.getLsbD i =
      if i = 7 then level else shift.toBitVec.getLsbD (i + 1) := by
  have htop : ∀ i < 8, (0x80#8).getLsbD i = decide (i = 7) := by decide
  cases level
  · by_cases h : i = 7
    · subst h
      simp [shiftIn]
    · simp [shiftIn, h, Nat.add_comm]
  · by_cases h : i = 7
    · subst h
      simp [shiftIn]
    · simp [shiftIn, h, Nat.add_comm, htop i hi]

/-- Bit `i` after some data bits is one of these, or has come down from the register. -/
theorem getLsbD_foldl_shiftIn (levels : List Bool) (shift : Byte) {i : Nat} (hi : i < 8)
    (hlen : levels.length ≤ 8) :
    (levels.foldl shiftIn shift).toBitVec.getLsbD i =
      if i + levels.length < 8 then shift.toBitVec.getLsbD (i + levels.length)
      else levels.getD (i + levels.length - 8) false := by
  induction levels generalizing shift with
  | nil => simp [hi]
  | cons level rest ih =>
      rw [List.length_cons] at hlen ⊢
      rw [List.foldl_cons, ih _ (by omega)]
      by_cases h₁ : i + rest.length < 8
      · rw [if_pos h₁, getLsbD_shiftIn _ _ h₁]
        by_cases h₂ : i + rest.length = 7
        · have h₃ : i + (rest.length + 1) - 8 = 0 := by omega
          rw [if_pos h₂, if_neg (by omega), h₃]
          rfl
        · rw [if_neg h₂, if_pos (by omega)]
          rfl
      · have h₃ : i + (rest.length + 1) - 8 = i + rest.length - 8 + 1 := by omega
        rw [if_neg h₁, if_neg (by omega), h₃, List.getD_cons_succ]

/-- Eight data bits, the least significant first, make up the byte whatever the register held. -/
theorem foldl_shiftIn_eq {bit : Nat → Bool} {b : Byte} (shift : Byte)
    (h : ∀ k < 8, bit k = b.toBitVec.getLsbD k) :
    ((List.range 8).map bit).foldl shiftIn shift = b := by
  apply UInt8.eq_of_toBitVec_eq
  apply BitVec.eq_of_getLsbD_eq
  intro i hi
  rw [getLsbD_foldl_shiftIn _ _ hi (by simp), if_neg (by simp)]
  simp [h i hi, hi]

end Receiver

/-! ### Reception with a timing -/

/-- The reception after one more level, at a given pace. -/
def Reception.take (pace : Pace) (r : Reception) (level : Bool) : Reception :=
  let (receiver, byte?) := r.receiver.tick pace level
  { receiver
    ticks := r.ticks + 1
    received := match byte? with
      | some byte => (r.ticks, byte) :: r.received
      | none => r.received }

variable {timing : Timing} {pace : Pace}

/-- At a valid timing, a level is taken. -/
theorem feed_eq_ok (h : timing.pace = .ok pace) (level : Bool) (r : Reception) :
    r.feed timing level = .ok (r.take pace level) := by
  rw [Reception.feed, Receiver.tick?_eq_tick h]
  rfl

/-- At a valid timing, a run of one level is taken. -/
theorem feedRun_eq_ok (h : timing.pace = .ok pace) (level : Bool) (n : Nat) (r : Reception) :
    r.feedRun timing level n = .ok ((List.replicate n level).foldl (Reception.take pace) r) := by
  induction n generalizing r with
  | zero => rfl
  | succ n ih =>
      rw [Reception.feedRun, feed_eq_ok h]
      exact ih _

/-- At a valid timing, runs of levels are taken as their expansion. -/
theorem foldlM_feedRun_eq_ok (h : timing.pace = .ok pace) (runs : List (Bool × Nat))
    (r : Reception) :
    runs.foldlM (fun r run => r.feedRun timing run.1 run.2) r =
      .ok ((expand runs).foldl (Reception.take pace) r) := by
  induction runs generalizing r with
  | nil => rfl
  | cons run runs ih =>
      rw [List.foldlM_cons, feedRun_eq_ok h, expand, List.flatMap_cons, List.foldl_append]
      exact ih _

/-- What a reception has found so far is found first, and `receiveFrom` finds the rest. -/
theorem received_foldl_take (levels : List Bool) (r : Reception) :
    (levels.foldl (Reception.take pace) r).received.reverse =
      r.received.reverse ++ r.receiver.receiveFrom pace r.ticks levels := by
  induction levels generalizing r with
  | nil => simp [Receiver.receiveFrom]
  | cons level rest ih =>
      rw [List.foldl_cons, ih, Receiver.receiveFrom, Reception.take]
      rcases r.receiver.tick pace level with ⟨receiver, _ | byte⟩
      · rfl
      · simp

/-- Levels one by one are runs of length one. -/
theorem expand_map_one (levels : List Bool) : expand (levels.map (·, 1)) = levels := by
  simp [expand, List.flatMap_map]

/-- With a timing whose countdowns exist, reception finds what `receiveFrom` finds. -/
theorem receive_eq_ok (h : timing.pace = .ok pace) (runs : List (Bool × Nat)) :
    receive timing runs = .ok (Receiver.receiveFrom pace 0 {} (expand runs)) := by
  rw [receive, foldlM_feedRun_eq_ok h]
  change Except.ok _ = _
  rw [received_foldl_take]
  rfl

end ClockStep.Uart
