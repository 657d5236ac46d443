import ClockStep.Word

/-!
# Serial timing

A serial line moves one bit per **bit time**. A receiver that is clocked faster counts ticks: the
bit time is the clock rate divided by the baud rate, rounded to the nearest tick. Counting is from a
start value down to zero, so a countdown is one less than the time it takes.

The arithmetic is in 32 bits, from left to right, and faults where that is not enough.

## Main results

* `bitPeriod_eq_ok_iff`, `startDelay_eq_ok_iff`: when the countdowns exist, and what they are.
-/

namespace ClockStep.Uart

/-- The rates that a receiver's countdowns derive from, both below `UInt32.size`. -/
structure Timing where
  /-- Ticks per second. -/
  clock : Nat
  /-- Bits per second. -/
  baud : Nat
deriving Repr, DecidableEq

/-- The machine's own rates. -/
def Timing.standard : Timing := { clock := 50000000, baud := 115200 }

namespace Timing

/-- The countdown between two data bits. -/
def bitPeriod (t : Timing) : Except Fault Nat := do
  let rounded ← Checked.add t.clock (t.baud / 2)
  let ticks ← Checked.div rounded t.baud
  Checked.sub ticks 1

/-- The countdown from the edge of the start bit to the first data bit, one and a half bit times
later. -/
def startDelay (t : Timing) : Except Fault Nat := do
  let tripled ← Checked.mul 3 (t.clock / 2)
  let rounded ← Checked.add tripled (t.baud / 2)
  let ticks ← Checked.div rounded t.baud
  Checked.sub ticks 1

/-- A quotient of at least one is what a countdown needs. -/
theorem countdown_eq_ok_iff (total divisor n : Nat) :
    (do let ticks ← Checked.div total divisor; Checked.sub ticks 1) = .ok n ↔
      divisor ≠ 0 ∧ divisor ≤ total ∧ n + 1 = total / divisor := by
  unfold Checked.div Checked.sub
  by_cases h : divisor = 0
  · simp [h, bind, Except.bind]
  · have hpos : 0 < divisor := Nat.pos_of_ne_zero h
    have key : 1 ≤ total / divisor ↔ divisor ≤ total := by
      rw [Nat.le_div_iff_mul_le hpos, Nat.one_mul]
    simp only [h, if_false, bind, Except.bind]
    split
    · next h1 =>
      simp only [Except.ok.injEq, ne_eq, true_and, key.1 h1]
      omega
    · next h1 =>
      have h2 : ¬ divisor ≤ total := fun h2 => h1 (key.2 h2)
      simp [h2]

/-- A computation that starts with a sum faults if the sum is too large. -/
theorem add_bind_eq_ok_iff {a b n : Nat} {next : Nat → Except Fault Nat} :
    (do let sum ← Checked.add a b; next sum) = .ok n ↔ a + b < UInt32.size ∧ next (a + b) = .ok n := by
  rw [Checked.add]
  by_cases h : a + b < UInt32.size
  · rw [if_pos h]
    exact ⟨fun hn => ⟨h, hn⟩, fun hn => hn.2⟩
  · rw [if_neg h]
    exact ⟨fun hn => (nomatch hn), fun hn => absurd hn.1 h⟩

/-- A computation that starts with a product faults if the product is too large. -/
theorem mul_bind_eq_ok_iff {a b n : Nat} {next : Nat → Except Fault Nat} :
    (do let product ← Checked.mul a b; next product) = .ok n ↔
      a * b < UInt32.size ∧ next (a * b) = .ok n := by
  rw [Checked.mul]
  by_cases h : a * b < UInt32.size
  · rw [if_pos h]
    exact ⟨fun hn => ⟨h, hn⟩, fun hn => hn.2⟩
  · rw [if_neg h]
    exact ⟨fun hn => (nomatch hn), fun hn => absurd hn.1 h⟩

/-- The time of a bit is valid when it is at least one tick and nothing overflows on the way. -/
theorem bitPeriod_eq_ok_iff {t : Timing} {n : Nat} :
    t.bitPeriod = .ok n ↔
      t.baud ≠ 0 ∧ t.baud ≤ t.clock + t.baud / 2 ∧ t.clock + t.baud / 2 < UInt32.size ∧
        n + 1 = (t.clock + t.baud / 2) / t.baud := by
  rw [bitPeriod]
  rw [add_bind_eq_ok_iff, countdown_eq_ok_iff]
  constructor
  · rintro ⟨h₁, h₂, h₃, h₄⟩; exact ⟨h₂, h₃, h₁, h₄⟩
  · rintro ⟨h₂, h₃, h₁, h₄⟩; exact ⟨h₁, h₂, h₃, h₄⟩

/-- So is the delay at the start. -/
theorem startDelay_eq_ok_iff {t : Timing} {n : Nat} :
    t.startDelay = .ok n ↔
      t.baud ≠ 0 ∧ t.baud ≤ 3 * (t.clock / 2) + t.baud / 2 ∧
        3 * (t.clock / 2) + t.baud / 2 < UInt32.size ∧
        n + 1 = (3 * (t.clock / 2) + t.baud / 2) / t.baud := by
  rw [startDelay]
  rw [mul_bind_eq_ok_iff, add_bind_eq_ok_iff, countdown_eq_ok_iff]
  constructor
  · rintro ⟨-, h₁, h₂, h₃, h₄⟩; exact ⟨h₂, h₃, h₁, h₄⟩
  · rintro ⟨h₂, h₃, h₁, h₄⟩
    exact ⟨Nat.lt_of_le_of_lt (Nat.le_add_right _ _) h₁, h₁, h₂, h₃, h₄⟩

end Timing

end ClockStep.Uart
