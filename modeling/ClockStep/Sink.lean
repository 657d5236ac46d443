import ClockStep.Journal

/-!
# Writers, and sinks

A **writer** is something that bytes are written to, a call at a time. A call takes some bytes from
the front and reports how many, or it is refused. A call that is refused because it was interrupted
may be made again; that is what is done to write all of something (`Writer.writeAll`), and the bytes
that a call did not take are offered again then.

A **sink** is a writer that keeps what it took. How it answers is its `Policy`, a function of the
bytes that are offered and of all that was offered before, so that it may be any taker of bytes that
does not change by itself: one that takes everything, one that closes after some lines, one that has
room for so many bytes, or one that is interrupted now and then.

## Convention

No sink interrupts a call for ever; it would hold who writes to it for ever, too. So a policy comes
with its `patience`, which says how often a call may be interrupted in a row.

## Main results

* `writeAll_cons`: what is written is written by calls, each with what is left.
* `writePieces_of_isOpen`: what is written to a sink that takes every write is received, in order.
-/

namespace ClockStep

/-- The byte that ends a line. -/
def newline : Byte := 0x0A

/-! ### Writing all of something -/

/-- Makes a call, and makes it again while it is interrupted, `n` more times at most. -/
def insist {ω α : Type} (call : ω → Except SystemError α × ω) :
    Nat → ω → Except SystemError α × ω
  | 0, w => call w
  | n + 1, w =>
    match call w with
    | (.error .interrupted, w) => insist call n w
    | answer => answer

/-- Something that bytes are written to. -/
class Writer (ω : Type) where
  /-- One call: it takes bytes from the front, as many as it reports, or it is refused. -/
  write : ω → List Byte → Except SystemError Nat × ω
  /-- How often at most a call with these bytes is interrupted before it is answered. -/
  patience : ω → List Byte → Nat

namespace Writer

variable {ω : Type} [Writer ω]

/-- The answer to a call that is made again while it is interrupted. -/
def answer (w : ω) (bytes : List Byte) : Except SystemError Nat × ω :=
  insist (write · bytes) (patience w bytes) w

/-- Writes all of the bytes behind the first `skipped` ones. -/
def writeBehind : Nat → List Byte → ω → Except SystemError Unit × ω
  | _, [], w => (.ok (), w)
  | skipped + 1, _ :: rest, w => writeBehind skipped rest w
  | 0, b :: rest, w =>
    match answer w (b :: rest) with
    | (.ok 0, w) => (.error .nothingTaken, w)
    | (.ok (n + 1), w) => writeBehind n rest w
    | (.error cause, w) => (.error cause, w)

/-- Writes all of the bytes, by as many calls as it takes. Without bytes there is no call. -/
def writeAll (w : ω) (bytes : List Byte) : Except SystemError Unit × ω := writeBehind 0 bytes w

/-- Skipping bytes is leaving them out. -/
theorem writeBehind_eq (skipped : Nat) (bytes : List Byte) (w : ω) :
    writeBehind skipped bytes w = writeAll w (bytes.drop skipped) := by
  induction bytes generalizing skipped with
  | nil => cases skipped <;> rfl
  | cons b rest ih =>
      cases skipped with
      | zero => rfl
      | succ skipped => exact ih skipped

/-- Without bytes there is nothing to do. -/
theorem writeAll_nil (w : ω) : writeAll w [] = (.ok (), w) := rfl

/-- What is left behind the bytes that a call took is written as all of it is. -/
theorem writeAll_cons (w : ω) (b : Byte) (rest : List Byte) :
    writeAll w (b :: rest) = match answer w (b :: rest) with
      | (.ok 0, w) => (.error .nothingTaken, w)
      | (.ok (n + 1), w) => writeAll w (rest.drop n)
      | (.error cause, w) => (.error cause, w) := by
  rw [writeAll, writeBehind]
  rcases answer w (b :: rest) with ⟨(cause | _ | n), w'⟩
  · rfl
  · rfl
  · exact writeBehind_eq n rest w'

end Writer

/-- A call that is not interrupted is not made again. -/
theorem insist_of_ne {ω α : Type} {call : ω → Except SystemError α × ω} {w : ω}
    (h : (call w).1 ≠ .error .interrupted) (n : Nat) : insist call n w = call w := by
  cases n with
  | zero => rfl
  | succ n =>
      rw [insist]
      split
      · next hcall => exact absurd (congrArg Prod.fst hcall) h
      · rfl

/-! ### Sinks -/

/-- What went through a sink so far. -/
structure Sink.Progress where
  /-- The bytes of every write call, refused ones included, the last call first. -/
  offered : List (List Byte) := []
  /-- The newlines that were taken. -/
  newlines : Nat := 0
deriving Repr, DecidableEq

namespace Sink.Progress

/-- The number of write calls, refused ones included. -/
def writes (p : Progress) : Nat := p.offered.length

/-- What went through, with calls behind it that all offered the same bytes and were interrupted. -/
def interrupted (p : Progress) (bytes : List Byte) (times : Nat) : Progress :=
  { p with offered := List.replicate times bytes ++ p.offered }

end Sink.Progress

namespace Sink

/-- The answer to a write that is taken whole or refused. -/
def verdict (refusal : Option SystemError) (bytes : List Byte) : Except SystemError Nat :=
  match refusal with
  | some cause => .error cause
  | none => .ok bytes.length

/-- A verdict takes no more bytes than there are. -/
theorem le_of_verdict_eq_ok {refusal : Option SystemError} {bytes : List Byte} {n : Nat}
    (h : verdict refusal bytes = .ok n) : n ≤ bytes.length := by
  cases refusal <;> cases h
  exact Nat.le_refl _

/-- A verdict in a device's words does not interrupt. -/
theorem verdict_map_other_ne_interrupted (text? : Option String) (bytes : List Byte) :
    verdict (text?.map .other) bytes ≠ .error .interrupted := by
  intro h
  cases text? <;> cases h

/-- If no write is refused, no more bytes are taken than there are. -/
theorem accepting_within (_ : Progress) (bytes : List Byte) (n : Nat)
    (h : verdict none bytes = .ok n) : n ≤ bytes.length := le_of_verdict_eq_ok h

/-- If no write is refused, each is answered at once. -/
theorem accepting_settles (_ : Progress) (bytes : List Byte) :
    ∃ n ≤ 0, verdict none bytes ≠ .error .interrupted :=
  ⟨0, Nat.le_refl 0, verdict_map_other_ne_interrupted none bytes⟩

end Sink

/-- How a sink answers. -/
structure Sink.Policy where
  /-- The answer to a write: how many bytes are taken from the front, or why none is. -/
  write : Sink.Progress → List Byte → Except SystemError Nat := fun _ bytes => .ok bytes.length
  /-- The answer to a flush. -/
  flush : Sink.Progress → Option SystemError := fun _ => none
  /-- How often at most a write is interrupted in a row. -/
  patience : Sink.Progress → List Byte → Nat := fun _ _ => 0
  /-- No more bytes are taken than there are. -/
  within : ∀ p bytes n, write p bytes = .ok n → n ≤ bytes.length := by
    exact Sink.accepting_within
  /-- A write that is made again is answered in the end. -/
  settles : ∀ p bytes, ∃ n ≤ patience p bytes,
      write (p.interrupted bytes n) bytes ≠ .error .interrupted := by
    exact Sink.accepting_settles

/-- A taker of bytes. -/
structure Sink where
  /-- The bytes taken so far. -/
  received : Array Byte := #[]
  /-- What went through so far. -/
  progress : Sink.Progress := {}
  /-- How the sink answers. -/
  policy : Sink.Policy := {}

namespace Sink

/-- Takes every write whole, or refuses it with a device's words, by what went through so far. -/
def Policy.refusing (refusal : Progress → Option String)
    (flush : Progress → Option SystemError) : Policy where
  write p bytes := verdict ((refusal p).map .other) bytes
  flush := flush
  within _ _ _ := le_of_verdict_eq_ok
  settles _ _ := ⟨0, Nat.le_refl 0, verdict_map_other_ne_interrupted _ _⟩

/-- Refuses every write once `lines` newlines went through. -/
def Policy.closedAfter (lines : Nat) : Policy :=
  .refusing (fun p => if lines ≤ p.newlines then some "output closed" else none) fun _ => none

/-- Refuses the write call with the given number, counted from one, and every flush if `noFlush`. -/
def Policy.console (refusedCall : Option Nat) (noFlush : Bool) : Policy :=
  .refusing
    (fun p => if refusedCall = some (p.writes + 1) then some "console write failed" else none)
    (fun _ => if noFlush then some (.other "console flush failed") else none)

/-- The sink after a call that offered bytes, the first `taken` of which it took. -/
def after (s : Sink) (bytes : List Byte) (taken : Nat) : Sink :=
  { s with
    received := (bytes.take taken).foldl Array.push s.received
    progress :=
      { offered := bytes :: s.progress.offered
        newlines := s.progress.newlines + (bytes.take taken).count newline } }

/-- One write call. -/
def write (s : Sink) (bytes : List Byte) : Except SystemError Nat × Sink :=
  match s.policy.write s.progress bytes with
  | .ok taken => (.ok taken, s.after bytes taken)
  | .error cause => (.error cause, s.after bytes 0)

instance : Writer Sink := ⟨write, fun s bytes => s.policy.patience s.progress bytes⟩

/-- Writes pieces one after the other, all of each, up to the first that cannot be written. -/
def writePieces (s : Sink) : List (List Byte) → Except SystemError Unit × Sink
  | [] => (.ok (), s)
  | piece :: rest =>
    match Writer.writeAll s piece with
    | (.ok (), s) => s.writePieces rest
    | (.error cause, s) => (.error cause, s)

/-- Asks for everything taken so far to be passed on. -/
def flush (s : Sink) : Except SystemError Unit :=
  match s.policy.flush s.progress with
  | some cause => .error cause
  | none => .ok ()

/-! ### Open sinks -/

/-- A sink that takes every write whole. -/
def IsOpen (s : Sink) : Prop := ∀ progress bytes, s.policy.write progress bytes = .ok bytes.length

/-- Whether a sink is open is up to its policy. -/
theorem IsOpen.of_policy_eq {s s' : Sink} (h : s.IsOpen) (hpolicy : s'.policy = s.policy) :
    s'.IsOpen := by
  rw [IsOpen, hpolicy]
  exact h

/-- The bytes that a call took are at the end of what was received. -/
theorem received_after (s : Sink) (bytes : List Byte) (taken : Nat) :
    (s.after bytes taken).received.toList = s.received.toList ++ bytes.take taken := by
  simp [after]

/-- A sink that takes every write takes this one. -/
theorem write_of_isOpen {s : Sink} (h : s.IsOpen) (bytes : List Byte) :
    s.write bytes = (.ok bytes.length, s.after bytes bytes.length) := by
  rw [write, h]

/-- All that is written to an open sink is received. -/
theorem writeAll_of_isOpen {s : Sink} (h : s.IsOpen) (bytes : List Byte) :
    ∃ s' : Sink, Writer.writeAll s bytes = (.ok (), s') ∧ s'.policy = s.policy ∧
      s'.received.toList = s.received.toList ++ bytes := by
  cases bytes with
  | nil => exact ⟨s, rfl, rfl, (List.append_nil _).symm⟩
  | cons b rest =>
      have hwrite := write_of_isOpen h (b :: rest)
      have hanswer : Writer.answer s (b :: rest) = s.write (b :: rest) := by
        refine insist_of_ne ?_ _
        change (s.write (b :: rest)).1 ≠ _
        rw [hwrite]
        intro h
        cases h
      refine ⟨s.after (b :: rest) (b :: rest).length, ?_, rfl, ?_⟩
      · rw [Writer.writeAll_cons, hanswer, hwrite]
        dsimp only [List.length_cons]
        rw [List.drop_length]
        rfl
      · rw [received_after, List.take_length]

/-- So are pieces, one after the other. -/
theorem writePieces_of_isOpen {s : Sink} (h : s.IsOpen) (pieces : List (List Byte)) :
    (s.writePieces pieces).1 = .ok () ∧ (s.writePieces pieces).2.policy = s.policy ∧
      (s.writePieces pieces).2.received.toList = s.received.toList ++ pieces.flatten := by
  induction pieces generalizing s with
  | nil => simp [writePieces]
  | cons piece rest ih =>
      obtain ⟨s', hwrite, hpolicy, hreceived⟩ := writeAll_of_isOpen h piece
      obtain ⟨hok, hpolicy', hreceived'⟩ := ih (h.of_policy_eq hpolicy)
      simp only [writePieces, hwrite]
      refine ⟨hok, hpolicy'.trans hpolicy, ?_⟩
      rw [hreceived', hreceived, List.flatten_cons, List.append_assoc]

end Sink

end ClockStep
