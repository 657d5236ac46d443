import ClockStep.Uart.Timing
import ClockStep.Word

/-!
# The serial receiver

Turns the levels of a serial line, one per tick, back into bytes. A low level while nothing is
received starts a frame; its first data bit is sampled one and a half bit times later and the others
a bit time apart, least significant first. The stop bit passes while the countdown after the last
data bit runs, so a level inside a frame that is not sampled has no effect.

What a tick has to do depends on the receiver and the level alone (`Receiver.task`); the countdown
that it starts comes from a `Pace`, or from a `Timing` whose arithmetic is done when it is needed.

## Main results

* `tick?_eq_tick`: with a timing that has both countdowns, ticking never faults and goes at their
  pace.
-/

namespace ClockStep.Uart

/-- The two countdowns of a receiver. -/
structure Pace where
  /-- The countdown between two data bits. -/
  bitPeriod : Nat
  /-- The countdown from the start of a frame to its first data bit. -/
  startDelay : Nat
deriving Repr, DecidableEq

/-- The countdowns at the machine's own rates. -/
def Pace.standard : Pace := { bitPeriod := 433, startDelay := 650 }

/-- The countdowns that a timing gives, if both exist. -/
def Timing.pace (t : Timing) : Except Fault Pace := do
  let bitPeriod ← t.bitPeriod
  let startDelay ← t.startDelay
  return { bitPeriod, startDelay }

/-- The state of a receiver. -/
structure Receiver where
  /-- The bits received so far, the latest one on top. -/
  shift : Byte := 0
  /-- The data bits that are still to come. -/
  bitsRemaining : Nat := 0
  /-- The ticks before the receiver looks at the line again. -/
  countdown : Nat := 0
deriving Repr, DecidableEq

/-- What a receiver does with a tick. -/
inductive Task where
  /-- Count down. -/
  | wait
  /-- Take the level as a data bit. -/
  | sample
  /-- Start a frame. -/
  | arm
  /-- Nothing. -/
  | rest
deriving Repr, DecidableEq

namespace Receiver

/-- What the receiver does with a tick at the given level. -/
def task (r : Receiver) (level : Bool) : Task :=
  if 0 < r.countdown then .wait
  else if 0 < r.bitsRemaining then .sample
  else if level then .rest
  else .arm

/-- Counts down by one. -/
def wait (r : Receiver) : Receiver := { r with countdown := r.countdown - 1 }

/-- Starts a frame of eight data bits. -/
def arm (startDelay : Nat) (r : Receiver) : Receiver :=
  { r with countdown := startDelay, bitsRemaining := 8 }

/-- Takes a data bit; the last one completes a byte. -/
def sample (bitPeriod : Nat) (level : Bool) (r : Receiver) : Receiver × Option Byte :=
  let shift := r.shift >>> 1 ||| (if level then 0x80 else 0)
  if r.bitsRemaining = 1 then
    ({ shift := 0, bitsRemaining := 0, countdown := bitPeriod }, some shift)
  else
    ({ shift, bitsRemaining := r.bitsRemaining - 1, countdown := bitPeriod }, none)

/-- One tick at a given pace, with the byte that it completes. -/
def tick (pace : Pace) (level : Bool) (r : Receiver) : Receiver × Option Byte :=
  match r.task level with
  | .wait => (r.wait, none)
  | .sample => r.sample pace.bitPeriod level
  | .arm => (r.arm pace.startDelay, none)
  | .rest => (r, none)

/-- One tick with a timing; it faults when it needs a countdown that does not exist. -/
def tick? (timing : Timing) (level : Bool) (r : Receiver) : Except Fault (Receiver × Option Byte) :=
  match r.task level with
  | .wait => .ok (r.wait, none)
  | .sample => do return r.sample (← timing.bitPeriod) level
  | .arm => do return (r.arm (← timing.startDelay), none)
  | .rest => .ok (r, none)

/-- With a timing that has both countdowns, ticking goes at their pace. -/
theorem tick?_eq_tick {timing : Timing} {pace : Pace} (h : timing.pace = .ok pace) (level : Bool)
    (r : Receiver) : r.tick? timing level = .ok (r.tick pace level) := by
  unfold Timing.pace at h
  cases hb : timing.bitPeriod with
  | error e => simp [hb, bind, Except.bind] at h
  | ok b =>
    cases hs : timing.startDelay with
    | error e => simp [hb, hs, bind, Except.bind] at h
    | ok s =>
      simp only [hb, hs, bind, Except.bind, pure, Except.pure, Except.ok.injEq] at h
      subst h
      rw [tick?, tick]
      split <;> simp [hb, hs, bind, Except.bind, pure, Except.pure]

/-- Feeds levels to a receiver, one per tick, and collects the bytes with the indexes of the ticks
that complete them, counting from `index`. -/
def receiveFrom (pace : Pace) (index : Nat) : Receiver → List Bool → List (Nat × Byte)
  | _, [] => []
  | r, level :: rest =>
    let (r, byte?) := r.tick pace level
    match byte? with
    | some byte => (index, byte) :: receiveFrom pace (index + 1) r rest
    | none => receiveFrom pace (index + 1) r rest

end Receiver

/-- The state of a receiver that is being fed with a timing. -/
structure Reception where
  /-- The receiver. -/
  receiver : Receiver := {}
  /-- The ticks so far. -/
  ticks : Nat := 0
  /-- The bytes so far, the latest first, with the indexes of the ticks that completed them. -/
  received : List (Nat × Byte) := []

/-- Feeds one level. -/
def Reception.feed (timing : Timing) (r : Reception) (level : Bool) : Except Fault Reception := do
  let (receiver, byte?) ← r.receiver.tick? timing level
  let received := match byte? with
    | some byte => (r.ticks, byte) :: r.received
    | none => r.received
  return { receiver, ticks := r.ticks + 1, received }

/-- Feeds the same level a number of times. -/
def Reception.feedRun (timing : Timing) (level : Bool) : Nat → Reception → Except Fault Reception
  | 0, r => .ok r
  | n + 1, r =>
    match r.feed timing level with
    | .ok r => feedRun timing level n r
    | .error e => .error e

/-- The bytes that a new receiver finds in runs of levels, with the indexes of the ticks that
complete them. -/
def receive (timing : Timing) (runs : List (Bool × Nat)) : Except Fault (List (Nat × Byte)) := do
  let last ← runs.foldlM (fun r run => r.feedRun timing run.1 run.2) ({} : Reception)
  return last.received.reverse

/-! ### Frames -/

/-- The levels of a frame that carries a byte, as runs of `ticks` each: a low start bit, the data
bits from the least significant up, a high stop bit. -/
def frame (ticks : Nat) (b : Byte) : List (Bool × Nat) :=
  (false, ticks) ::
    ((List.range 8).map fun i => (b.toBitVec.getLsbD i, ticks)) ++ [(true, ticks)]

/-- The levels that runs stand for, one by one. -/
def expand (runs : List (Bool × Nat)) : List Bool :=
  runs.flatMap fun run => List.replicate run.2 run.1

/-- Takes the first level off runs of levels; a line with nothing on it is high. -/
def nextLevel : List (Bool × Nat) → Bool × List (Bool × Nat)
  | [] => (true, [])
  | (_, 0) :: rest => nextLevel rest
  | (level, n + 1) :: rest => (level, if n = 0 then rest else (level, n) :: rest)

end ClockStep.Uart
