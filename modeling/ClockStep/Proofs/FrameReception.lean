import ClockStep.Proofs.Reception

/-!
# A Transmission Received

A transmitter sends frames of `q` ticks a bit, with idle gaps of any length before, between and
after them. A receiver goes by its own bit time `P` and lead time `D`, which it has from a timing.
This module says when the two fit and that reception then undoes framing.

They fit (`Pace.Follows`) if each of the eight looks at the line falls into the bit it is meant for,
and the ninth, after the byte, falls into the stop bit or on the tick after it. Everything else
follows from that, whatever the bytes and the gaps: at the ninth look the line is high or the frame
is over, so that what is left of the frame is idle line like any other (`receiveFrom_frame`), and
the receiver is at rest when the next frame starts.

## Conventions

Ticks are counted from zero, and a byte is noted with the tick on which it is complete. With `f` for
the first tick of its frame that is `f + D + 7 * P`, and the tick after the frame is `f + 10 * q`,
whatever `P` is: the receiver may be slower or faster than the line, but it does not fall behind.

## Main results

* `receiveFrom_frame`: one frame, from the first tick to the tick after it.
* `Pace.follows_bitTime`: a receiver follows a line with its own bit time of three ticks or more.
* `receive_transmission`: reception undoes framing.
-/

namespace ClockStep.Uart

/-! ### When a receiver follows a line -/

/-- A receiver **follows** a line with `q` ticks a bit: data bit `k` is looked at while it is on the
line, and the receiver is at rest again during the stop bit, or just after it. -/
structure Pace.Follows (pace : Pace) (q : Nat) : Prop where
  sampled : ∀ k < 8, (k + 1) * q ≤ pace.leadTime + k * pace.bitTime ∧
    pace.leadTime + k * pace.bitTime < (k + 2) * q
  rests : 9 * q ≤ pace.leadTime + 8 * pace.bitTime ∧
    pace.leadTime + 8 * pace.bitTime ≤ 10 * q

/-- A rate that can be followed is not zero. -/
theorem Pace.Follows.pos {pace : Pace} {q : Nat} (h : pace.Follows q) : 0 < q := by
  obtain ⟨h₁, h₂⟩ := h.sampled 0 (by decide)
  omega

/-- The rounded clock rate is between two multiples of the rate of the bits, a bit time of them and
one more. -/
theorem Timing.bitPeriod_bounds {timing : Timing} {b : Nat} (hb : timing.bitPeriod = .ok b) :
    0 < timing.baud ∧ (b + 1) * timing.baud ≤ timing.clock + timing.baud / 2 ∧
      timing.clock + timing.baud / 2 < (b + 1) * timing.baud + timing.baud := by
  obtain ⟨hbaud, -, -, hP⟩ := Timing.bitPeriod_eq_ok_iff.1 hb
  have hpos : 0 < timing.baud := Nat.pos_of_ne_zero hbaud
  refine ⟨hpos, ?_, ?_⟩
  · rw [hP]
    exact Nat.div_mul_le_self _ _
  · rw [← Nat.succ_mul, ← Nat.div_lt_iff_lt_mul hpos, hP]
    exact Nat.lt_succ_self _

/-- The lead time is between one bit time and two as soon as a bit time is three ticks or more, in
spite of the rounding. -/
theorem Timing.leadTime_bounds {timing : Timing} {b s : Nat} (hb : timing.bitPeriod = .ok b)
    (hs : timing.startDelay = .ok s) (hlong : 2 ≤ b) : b + 1 ≤ s + 1 ∧ s + 1 < 2 * (b + 1) := by
  obtain ⟨hpos, hlow, hhigh⟩ := Timing.bitPeriod_bounds hb
  obtain ⟨-, -, -, hD⟩ := Timing.startDelay_eq_ok_iff.1 hs
  have hthree : 3 * timing.baud ≤ (b + 1) * timing.baud := Nat.mul_le_mul_right _ (by omega)
  constructor
  · rw [hD, Nat.le_div_iff_mul_le hpos]
    omega
  · rw [hD, Nat.div_lt_iff_lt_mul hpos, Nat.mul_assoc]
    omega

/-- A receiver follows a line with its own bit time if that is three ticks or more. -/
theorem Pace.follows_bitTime {timing : Timing} {b s : Nat} (hb : timing.bitPeriod = .ok b)
    (hs : timing.startDelay = .ok s) (hlong : 2 ≤ b) : Pace.Follows ⟨b, s⟩ (b + 1) := by
  obtain ⟨hlow, hhigh⟩ := Timing.leadTime_bounds hb hs hlong
  constructor
  · intro k _
    simp only [Pace.leadTime, Pace.bitTime, Nat.add_mul k]
    omega
  · simp only [Pace.leadTime, Pace.bitTime]
    omega

/-! ### The levels of a frame -/

/-- The levels of a frame, one for each bit. -/
def frameBits (b : Byte) : List Bool :=
  (false :: (List.range 8).map b.toBitVec.getLsbD) ++ [true]

/-- Runs of levels are expanded one after the other. -/
theorem expand_append (runs later : List (Bool × Nat)) :
    expand (runs ++ later) = expand runs ++ expand later :=
  List.flatMap_append

/-- A frame is each of its bits for as many ticks as the rate says. -/
theorem expand_frame (q : Nat) (b : Byte) :
    expand (frame q b) = (frameBits b).flatMap (List.replicate q) := by
  simp [expand, frame, frameBits, List.flatMap_map]

/-- Each level takes as many ticks as the rate says. -/
theorem length_flatMap_replicate (q : Nat) (levels : List Bool) :
    (levels.flatMap (List.replicate q)).length = levels.length * q := by
  induction levels with
  | nil => simp
  | cons level rest ih =>
      rw [List.flatMap_cons, List.length_append, ih, List.length_replicate, List.length_cons,
        Nat.succ_mul, Nat.add_comm]

/-- When every level lasts for `q` ticks, a tick shows the level of its bit. -/
theorem getElem?_flatMap_replicate {q : Nat} (hq : 0 < q) (levels : List Bool) (t : Nat) :
    (levels.flatMap (List.replicate q))[t]? = levels[t / q]? := by
  induction levels generalizing t with
  | nil => simp
  | cons level rest ih =>
      rw [List.flatMap_cons]
      by_cases ht : t < q
      · rw [List.getElem?_append_left (by simpa using ht), Nat.div_eq_of_lt ht]
        simp [ht]
      · have hdiv : t / q = (t - q) / q + 1 := by
          rw [Nat.div_eq, if_pos ⟨hq, by omega⟩]
        rw [List.getElem?_append_right (by simpa using Nat.le_of_not_lt ht), List.length_replicate,
          ih, hdiv, List.getElem?_cons_succ]

/-- A frame takes the ticks of ten bits. -/
theorem length_expand_frame (q : Nat) (b : Byte) : (expand (frame q b)).length = 10 * q := by
  rw [expand_frame, length_flatMap_replicate]
  rfl

/-- A tick within a frame shows the level of the bit that it is in. -/
theorem getElem?_frame {q : Nat} (b : Byte) (levels : List Bool) {k t : Nat}
    (hlow : k * q ≤ t) (hhigh : t < (k + 1) * q) (hk : k < 10) :
    (expand (frame q b) ++ levels)[t]? = (frameBits b)[k]? := by
  have hq : 0 < q := by
    rw [Nat.succ_mul] at hhigh
    omega
  have hle : (k + 1) * q ≤ 10 * q := Nat.mul_le_mul_right q hk
  rw [List.getElem?_append_left (by rw [length_expand_frame]; omega), expand_frame,
    getElem?_flatMap_replicate hq, Nat.div_eq_of_lt_le hlow hhigh]

/-- What is left of a frame during its stop bit is high. -/
theorem drop_frame {q n : Nat} (b : Byte) (levels : List Bool) (hlow : 9 * q ≤ n)
    (hhigh : n ≤ 10 * q) :
    (expand (frame q b) ++ levels).drop n = List.replicate (10 * q - n) true ++ levels := by
  have hfront : ((false :: (List.range 8).map b.toBitVec.getLsbD).flatMap
      (List.replicate q)).length = 9 * q := by
    rw [length_flatMap_replicate]
    rfl
  rw [List.drop_append_of_le_length (by rw [length_expand_frame]; exact hhigh), expand_frame,
    frameBits, List.flatMap_append, List.drop_append, hfront,
    List.drop_eq_nil_of_le (by rw [hfront]; exact hlow), List.flatMap_singleton,
    List.drop_replicate, List.nil_append]
  congr 2
  omega

/-! ### Receiving -/

namespace Receiver

/-- A frame whose start bit is `n` ticks early. A receiver at rest finds its byte, once, and is at
rest again at the tick after the frame, if its looks still fall into the bits that they are meant
for. -/
theorem receiveFrom_early_frame {pace : Pace} {q n : Nat} (hq : 0 < q)
    (hsampled : ∀ k < 8, n + (k + 1) * q ≤ pace.leadTime + k * pace.bitTime ∧
      pace.leadTime + k * pace.bitTime < n + (k + 2) * q)
    (hrests : n + 9 * q ≤ pace.leadTime + 8 * pace.bitTime ∧
      pace.leadTime + 8 * pace.bitTime ≤ n + 10 * q)
    (index : Nat) (shift : Byte) (b : Byte) (levels : List Bool) :
    receiveFrom pace index ⟨shift, 0, 0⟩
        (List.replicate n false ++ (expand (frame q b) ++ levels)) =
      (index + (pace.leadTime + 7 * pace.bitTime), b) ::
        receiveFrom pace (index + (n + 10 * q)) ⟨0, 0, 0⟩ levels := by
  obtain ⟨hrest, hend⟩ := hrests
  -- behind the early ticks, the levels are those of the frame
  have hbehind : ∀ {t}, n ≤ t → (List.replicate n false ++ (expand (frame q b) ++ levels))[t]? =
      (expand (frame q b) ++ levels)[t - n]? := by
    intro t ht
    rw [List.getElem?_append_right (by rwa [List.length_replicate]), List.length_replicate]
  have hlow : (List.replicate n false ++ (expand (frame q b) ++ levels))[0]? = some false := by
    cases n with
    | zero =>
        rw [hbehind (Nat.le_refl 0)]
        exact getElem?_frame (k := 0) b levels (by omega) (by omega) (by decide)
    | succ n => rfl
  have hbits : ∀ k < 8,
      (List.replicate n false ++
        (expand (frame q b) ++ levels))[pace.leadTime + k * pace.bitTime]? =
          some (b.toBitVec.getLsbD k) := by
    intro k hk
    obtain ⟨hfrom, hto⟩ := hsampled k hk
    have hbit : pace.leadTime + k * pace.bitTime - n < (k + 1 + 1) * q :=
      Nat.sub_lt_left_of_lt_add (by omega) hto
    rw [hbehind (by omega), getElem?_frame b levels (Nat.le_sub_of_add_le' hfrom) hbit (by omega),
      frameBits, List.cons_append, List.getElem?_cons_succ,
      List.getElem?_append_left (by simpa using hk)]
    simp [hk]
  have hdrop : (List.replicate n false ++ (expand (frame q b) ++ levels)).drop
      (pace.leadTime + 8 * pace.bitTime) =
      List.replicate (n + 10 * q - (pace.leadTime + 8 * pace.bitTime)) true ++ levels := by
    rw [List.drop_append, List.drop_replicate, List.length_replicate,
      Nat.sub_eq_zero_of_le (by omega : n ≤ pace.leadTime + 8 * pace.bitTime), List.replicate_zero,
      List.nil_append, drop_frame b levels (by omega) (by omega)]
    congr 2
    omega
  rw [receiveFrom_low pace index _ shift _ hlow hbits, foldl_shiftIn_eq shift fun _ _ => rfl, hdrop,
    receiveFrom_high]
  congr 2
  omega

/-- **One frame.** A receiver at rest that follows the line finds the byte of a frame, once, and is
at rest again at the tick after the frame. -/
theorem receiveFrom_frame {pace : Pace} {q : Nat} (h : pace.Follows q) (index : Nat)
    (shift : Byte) (b : Byte) (levels : List Bool) :
    receiveFrom pace index ⟨shift, 0, 0⟩ (expand (frame q b) ++ levels) =
      (index + (pace.leadTime + 7 * pace.bitTime), b) ::
        receiveFrom pace (index + 10 * q) ⟨0, 0, 0⟩ levels := by
  have hearly := receiveFrom_early_frame (n := 0) h.pos (by simpa using h.sampled)
    (by simpa using h.rests) index shift b levels
  simpa using hearly

end Receiver

/-- What is on the line: each byte in a frame of `q` ticks a bit after an idle gap, and a last
gap. -/
def transmission (q : Nat) (frames : List (Nat × Byte)) (last : Nat) : List (Bool × Nat) :=
  frames.flatMap (fun (gap, b) => (true, gap) :: frame q b) ++ [(true, last)]

/-- The bytes of a transmission that starts at a tick, with the ticks on which a receiver completes
them. -/
def arrivals (pace : Pace) (q : Nat) : Nat → List (Nat × Byte) → List (Nat × Byte)
  | _, [] => []
  | start, (gap, b) :: rest =>
    (start + gap + (pace.leadTime + 7 * pace.bitTime), b) ::
      arrivals pace q (start + gap + 10 * q) rest

/-- A receiver at rest finds the bytes of a transmission, one by one. -/
theorem receiveFrom_transmission {pace : Pace} {q : Nat} (h : pace.Follows q) (last : Nat)
    (frames : List (Nat × Byte)) (start : Nat) :
    Receiver.receiveFrom pace start {} (expand (transmission q frames last)) =
      arrivals pace q start frames := by
  induction frames generalizing start with
  | nil =>
      have hidle := Receiver.receiveFrom_high pace start 0 last []
      simpa [transmission, expand, arrivals, Receiver.receiveFrom] using hidle
  | cons frame₁ rest ih =>
      obtain ⟨gap, b⟩ := frame₁
      have hexpand : expand (transmission q ((gap, b) :: rest) last) =
          List.replicate gap true ++
            (expand (frame q b) ++ expand (transmission q rest last)) := by
        simp [transmission, expand]
      rw [hexpand, Receiver.receiveFrom_high, Receiver.receiveFrom_frame h, arrivals]
      exact congrArg _ (ih _)

/-- **Reception undoes framing.** Take any timing that has both countdowns. On a line that it
follows, a new receiver finds the bytes of a transmission and nothing else, each on the tick that is
due, whatever the bytes and the idle gaps. It follows a line with its own bit time if that is three
ticks or more. -/
theorem receive_transmission {timing : Timing} {b s : Nat} (hb : timing.bitPeriod = .ok b)
    (hs : timing.startDelay = .ok s) :
    (∀ q, Pace.Follows ⟨b, s⟩ q → ∀ frames last,
      receive timing (transmission q frames last) = .ok (arrivals ⟨b, s⟩ q 0 frames)) ∧
    (2 ≤ b → Pace.Follows ⟨b, s⟩ (b + 1)) := by
  have hpace : timing.pace = .ok ⟨b, s⟩ := by
    rw [Timing.pace, hb, hs]
    rfl
  refine ⟨fun q hq frames last => ?_, Pace.follows_bitTime hb hs⟩
  rw [receive_eq_ok hpace, receiveFrom_transmission hq]

/-- The machine's own receiver, on a line that is six ticks a bit too slow. -/
theorem receive_transmission_standard :
    receive .standard (transmission 440 [(3, 0x41), (0, 0x7f), (0, 0)] 5) =
      .ok [(3692, 0x41), (8092, 0x7f), (12492, 0)] := by
  have hb : Timing.standard.bitPeriod = .ok 433 := rfl
  have hs : Timing.standard.startDelay = .ok 650 := rfl
  obtain ⟨h, -⟩ := receive_transmission hb hs
  exact h 440 ⟨by decide, by decide⟩ _ _

end ClockStep.Uart
