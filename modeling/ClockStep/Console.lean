import ClockStep.Sink

/-!
# The console

Where the machine's serial output goes. On a terminal, which does no output processing while the
machine runs, each newline becomes a carriage return and a newline; elsewhere the bytes stay as
they are.

## Main results

* `flatten_pieces`: the pieces that go to a terminal are the bytes with their newlines mapped.
* `send_of_isOpen`: a console that takes every write passes a byte on.
-/

namespace ClockStep

/-- The byte that returns to the start of a line. -/
def carriageReturn : Byte := 0x0D

/-- A console on top of a sink. -/
structure Console where
  /-- Whether the sink is a terminal. -/
  terminal : Bool := false
  /-- Where the bytes go. -/
  sink : Sink := {}

namespace Console

/-- The parts of the bytes between newlines; there is one more of them than newlines. -/
def splitLines : List Byte → List (List Byte)
  | [] => [[]]
  | b :: rest =>
    if b = newline then [] :: splitLines rest
    else match splitLines rest with
      | line :: lines => (b :: line) :: lines
      | [] => [[b]]

/-- A byte as a terminal needs it. -/
def terminalByte (b : Byte) : List Byte := if b = newline then [carriageReturn, newline] else [b]

/-- The writes that bring bytes to a terminal: the parts between newlines, and a carriage return
with a newline between two parts. -/
def pieces (bytes : List Byte) : List (List Byte) :=
  (splitLines bytes).intersperse [carriageReturn, newline]

/-- One write call, with the number of bytes taken. What it takes on a terminal it takes whole. -/
def write (c : Console) (bytes : List Byte) : Except SystemError Nat × Console :=
  if c.terminal then
    let (result, sink) := c.sink.writePieces (pieces bytes)
    (result.map fun () => bytes.length, { c with sink })
  else
    let (result, sink) := c.sink.write bytes
    (result, { c with sink })

instance : Writer Console := ⟨write, fun c bytes => c.sink.policy.patience c.sink.progress bytes⟩

/-- Writes a byte and passes it on at once. -/
def send (c : Console) (b : Byte) : Except SystemError Unit × Console :=
  match Writer.writeAll c [b] with
  | (.error cause, c) => (.error cause, c)
  | (.ok (), c) => (c.sink.flush, c)

/-! ### The pieces together -/

/-- There is always a line, if only an empty one. -/
theorem splitLines_ne_nil (bytes : List Byte) : splitLines bytes ≠ [] := by
  cases bytes with
  | nil => simp [splitLines]
  | cons b rest =>
    unfold splitLines
    split
    · simp
    · split <;> simp

/-- On a terminal the pieces together are the bytes, each newline with a carriage return. -/
theorem flatten_pieces (bytes : List Byte) :
    (pieces bytes).flatten = bytes.flatMap terminalByte := by
  induction bytes with
  | nil => simp [pieces, splitLines]
  | cons b rest ih =>
    rw [pieces] at ih ⊢
    rw [List.flatMap_cons, ← ih]
    obtain ⟨line, lines, h⟩ := List.exists_cons_of_ne_nil (splitLines_ne_nil rest)
    by_cases hb : b = newline
    · simp [splitLines, hb, h, terminalByte]
    · cases lines <;> simp [splitLines, hb, h, terminalByte]

/-! ### Open consoles -/

/-- A byte as it is passed on to the sink. -/
def passed (c : Console) (b : Byte) : List Byte := if c.terminal then terminalByte b else [b]

/-- A console whose sink takes every write and every flush. -/
structure IsOpen (c : Console) : Prop where
  write : c.sink.IsOpen
  flush : ∀ progress, c.sink.policy.flush progress = none

/-- On a terminal, the pieces together are the buffer as it is passed on. -/
theorem flatten_pieces_passed {c : Console} (h : c.terminal = true) (bytes : List Byte) :
    (pieces bytes).flatten = bytes.flatMap c.passed := by
  rw [flatten_pieces, show c.passed = terminalByte from funext fun b => if_pos h]

/-- Off a terminal, bytes are passed on as they are. -/
theorem flatMap_passed_of_not_terminal {c : Console} (h : ¬c.terminal = true)
    (bytes : List Byte) : bytes.flatMap c.passed = bytes := by
  rw [show c.passed = fun b => [b] from funext fun b => if_neg h]
  exact List.flatMap_singleton' bytes

/-- A sink that takes every write gets all bytes of a call as they are passed on. -/
theorem write_of_isOpen {c : Console} (h : c.sink.IsOpen) (bytes : List Byte) :
    ∃ sink : Sink, c.write bytes = (.ok bytes.length, { c with sink }) ∧
      sink.policy = c.sink.policy ∧
      sink.received.toList = c.sink.received.toList ++ bytes.flatMap c.passed := by
  rw [write]
  by_cases hterminal : c.terminal = true
  · obtain ⟨hok, hpolicy, hreceived⟩ := Sink.writePieces_of_isOpen h (pieces bytes)
    rw [flatten_pieces_passed hterminal] at hreceived
    rw [if_pos hterminal]
    refine ⟨_, ?_, hpolicy, hreceived⟩
    dsimp only
    rw [hok]
    rfl
  · rw [if_neg hterminal, Sink.write_of_isOpen h, flatMap_passed_of_not_terminal hterminal]
    refine ⟨_, rfl, rfl, ?_⟩
    rw [Sink.received_after, List.take_length]

/-- A byte that is written to such a sink is written by one call. -/
theorem writeAll_of_isOpen {c : Console} (h : c.sink.IsOpen) (b : Byte) :
    ∃ sink : Sink, Writer.writeAll c [b] = (.ok (), { c with sink }) ∧
      sink.policy = c.sink.policy ∧
      sink.received.toList = c.sink.received.toList ++ c.passed b := by
  obtain ⟨sink, hwrite, hpolicy, hreceived⟩ := write_of_isOpen h [b]
  rw [List.flatMap_singleton] at hreceived
  have hanswer : Writer.answer c [b] = c.write [b] := by
    refine insist_of_ne ?_ _
    change (c.write [b]).1 ≠ _
    rw [hwrite]
    exact nofun
  refine ⟨sink, ?_, hpolicy, hreceived⟩
  rw [Writer.writeAll_cons, hanswer, hwrite]
  rfl

/-- An open console takes a byte and stays open. -/
theorem send_of_isOpen {c : Console} (h : c.IsOpen) (b : Byte) :
    ∃ sink : Sink, c.send b = (.ok (), { c with sink }) ∧ sink.policy = c.sink.policy ∧
      sink.received.toList = c.sink.received.toList ++ c.passed b := by
  obtain ⟨sink, hwrite, hpolicy, hreceived⟩ := writeAll_of_isOpen h.write b
  refine ⟨sink, ?_, hpolicy, hreceived⟩
  rw [send, hwrite]
  dsimp only
  rw [Sink.flush, hpolicy, h.flush]

end Console

end ClockStep
