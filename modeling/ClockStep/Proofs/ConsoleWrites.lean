import ClockStep.Proofs.ConsoleFailure
import ClockStep.Proofs.Sinks

/-!
# What Console Writes Leave

A console passes bytes on to its sink, and on a terminal it does so in parts: what is between two
newlines is written, and then a carriage return with a newline, and so on. This module says what has
reached the sink after a call.

If nothing is refused, all bytes of the call have reached it, each as it is passed on by itself; so
it does not matter how a text is cut into calls, nor that a running machine makes a call for each
byte (`console_ignores_splitting`). If a part is refused, the parts before it have reached the sink
all the same, and the call reports an error (`Sink.Ends`). That is not what a writer promises of a
call that fails (`Promised`); the promise is kept for every sink that takes writes whole exactly where
there is no part before another one (`partial_write_on_refusal`).

## Convention

A part is written to the sink until it is answered: a write that is interrupted is made again. Off a
terminal the sink is asked once, and the answer is that of the console, an interruption too.

## Main results

* `console_ignores_splitting`: what open consoles get does not depend on the calls.
* `Sink.ends_writePieces`: what reaches a sink that may refuse a write.
* `partial_write_on_refusal`: what a call leaves, and when it leaves what it promises.
* `promise_broken_on_terminal`: a call that breaks the promise.
-/

namespace ClockStep

/-! ### Writes that may be refused -/

namespace Sink

/-- The sink takes parts one after the other, each of them whole. -/
inductive Takes : Sink → List (List Byte) → Sink → Prop
  | nil (s : Sink) : Takes s [] s
  | cons {s t s' : Sink} {part : List Byte} {parts : List (List Byte)} :
      Answers part s (.ok part.length, t) → Takes t parts s' → Takes s (part :: parts) s'

/-- How a sink that is asked to take parts, up to the first that it refuses, ends. -/
inductive Ends (s : Sink) (parts : List (List Byte)) : Except SystemError Unit × Sink → Prop
  /-- It has taken all parts. -/
  | taken {s' : Sink} : s.Takes parts s' → Ends s parts (.ok (), s')
  /-- It has taken the parts before the one that is refused, and no other. -/
  | refused {t s' : Sink} {cause : SystemError} {taken later : List (List Byte)}
      {refused : List Byte} :
      parts = taken ++ refused :: later → s.Takes taken t → Answers refused t (.error cause, s') →
      Ends s parts (.error cause, s')

/-- Parts that were taken have reached the sink. -/
theorem Takes.received {s s' : Sink} {parts : List (List Byte)} (h : s.Takes parts s') :
    s'.received.toList = s.received.toList ++ parts.flatten := by
  induction h with
  | nil s => exact (List.append_nil _).symm
  | cons hanswers _ ih =>
      rw [ih, (hanswers.received_of_ok rfl).2, List.take_length, List.flatten_cons,
        List.append_assoc]

/-- A part that is taken goes before the others. -/
theorem Answers.ends {s t : Sink} {part : List Byte} {parts : List (List Byte)}
    {ending : Except SystemError Unit × Sink} (h : Answers part s (.ok part.length, t))
    (hends : t.Ends parts ending) : s.Ends (part :: parts) ending := by
  cases hends with
  | taken htakes => exact .taken (.cons h htakes)
  | refused hparts htakes hrefused =>
      exact .refused (hparts ▸ (List.cons_append ..).symm) (.cons h htakes) hrefused

/-- **What reaches a sink** that takes writes whole and is given pieces: it is not asked about empty
ones. -/
theorem ends_writePieces {s : Sink} (h : s.policy.Whole) (pieces : List (List Byte)) :
    s.Ends (pieces.filter fun piece => !piece.isEmpty) (s.writePieces pieces) := by
  induction pieces generalizing s with
  | nil => exact .taken (.nil s)
  | cons piece rest ih =>
      cases piece with
      | nil => exact ih h
      | cons b piece =>
          have hbytes : b :: piece ≠ [] := List.cons_ne_nil b piece
          have hanswers := s.answers_answer (b :: piece)
          rw [List.filter_cons_of_pos rfl, writePieces]
          rcases hanswer : Writer.answer s (b :: piece) with ⟨cause | n, t⟩ <;>
            rw [hanswer] at hanswers
          · rw [writeAll_of_answers_error hbytes hanswers]
            exact .refused (List.nil_append _).symm (.nil s) hanswers
          · obtain rfl := h.eq_length hanswers
            rw [writeAll_of_answers_whole hbytes hanswers]
            have hwhole : t.policy.Whole := hanswers.policy ▸ h
            exact hanswers.ends (ih hwhole)

end Sink

namespace Console

variable {c : Console}

/-! ### One call -/

/-- The writes that the sink is asked to take for a call. -/
def parts (c : Console) (bytes : List Byte) : List (List Byte) :=
  if c.terminal then (pieces bytes).filter fun piece => !piece.isEmpty else [bytes]

/-- The parts together are the buffer as it is passed on. -/
theorem flatten_parts (c : Console) (bytes : List Byte) :
    (c.parts bytes).flatten = bytes.flatMap c.passed := by
  rw [parts]
  split
  · next hterminal =>
      rw [List.flatten_filter_not_isEmpty, flatten_pieces_passed hterminal]
  · next hterminal =>
      rw [List.flatten_singleton, flatMap_passed_of_not_terminal hterminal]

/-- A call on a terminal ends as the writing of its parts does. -/
theorem write_ends (h : c.terminal = true) (hwhole : c.sink.policy.Whole) (bytes : List Byte) :
    ∃ ending, c.sink.Ends (c.parts bytes) ending ∧
      c.write bytes = (ending.1.map fun () => bytes.length, { c with sink := ending.2 }) := by
  rw [write, parts, if_pos h, if_pos h]
  exact ⟨_, Sink.ends_writePieces hwhole (pieces bytes), rfl⟩

/-- Elsewhere the sink is asked once, and its answer is that of the call. -/
theorem write_of_not_terminal (h : c.terminal = false) (bytes : List Byte) :
    c.write bytes = ((c.sink.write bytes).1, { c with sink := (c.sink.write bytes).2 }) := by
  rw [write, if_neg (Bool.eq_false_iff.1 h)]

/-- A call reports as many bytes as have reached the sink, whatever this takes. -/
theorem write_of_ok {bytes : List Byte} {taken : Nat} {c' : Console}
    (h : c.write bytes = (.ok taken, c')) :
    taken ≤ bytes.length ∧
      c'.sink.received.toList =
        c.sink.received.toList ++ (bytes.take taken).flatMap c.passed := by
  cases hterminal : c.terminal with
  | true =>
      obtain ⟨-, front, -, hreceived, hall⟩ := c.sink.received_writePieces (pieces bytes)
      rw [write, if_pos hterminal] at h
      generalize c.sink.writePieces (pieces bytes) = ending at h hreceived hall
      obtain ⟨result | ⟨⟩, sink⟩ := ending
      · cases h
      · cases h
        rw [List.take_length, ← flatten_pieces_passed hterminal, ← hall rfl]
        exact ⟨le_rfl, hreceived⟩
  | false =>
      rw [write_of_not_terminal hterminal, Sink.write] at h
      rw [flatMap_passed_of_not_terminal (Bool.eq_false_iff.1 hterminal)]
      split at h
      · next hanswer =>
          cases h
          exact ⟨c.sink.policy.within _ _ _ hanswer, Sink.received_after ..⟩
      · cases h

/-- The sink that a call on a terminal leaves is the one to which the pieces were written. -/
theorem sink_of_write_eq {bytes : List Byte} {result : Except SystemError Nat} {c' : Console}
    (hterminal : c.terminal = true) (h : c.write bytes = (result, c')) :
    c'.sink = (c.sink.writePieces (pieces bytes)).2 := by
  rw [write, if_pos hterminal] at h
  exact (congrArg (fun o => o.2.sink) h).symm

/-- Off a terminal a call that reports an error has passed nothing on. -/
theorem received_of_refused {bytes : List Byte} {cause : SystemError} {c' : Console}
    (hterminal : c.terminal = false) (h : c.write bytes = (.error cause, c')) :
    c.sink.write bytes = (.error cause, c'.sink) ∧
      c'.sink.received.toList = c.sink.received.toList := by
  rw [write_of_not_terminal hterminal] at h
  have hresult : (c.sink.write bytes).1 = .error cause := congrArg Prod.fst h
  have hwrite : c.sink.write bytes = (.error cause, c'.sink) :=
    Prod.ext hresult (congrArg (fun o => o.2.sink) h)
  refine ⟨hwrite, ?_⟩
  rw [Sink.eq_after_of_write_eq_error hwrite, Sink.received_after, List.take_zero,
    List.append_nil]

/-- A call that reports an error has passed on a front part of its bytes, whatever the sink takes. -/
theorem write_of_error {bytes : List Byte} {cause : SystemError} {c' : Console}
    (h : c.write bytes = (.error cause, c')) :
    ∃ front, front <+: bytes.flatMap c.passed ∧
      c'.sink.received.toList = c.sink.received.toList ++ front := by
  cases hterminal : c.terminal with
  | true =>
      obtain ⟨-, front, hfront, hreceived, -⟩ := c.sink.received_writePieces (pieces bytes)
      rw [flatten_pieces_passed hterminal] at hfront
      exact ⟨front, hfront, sink_of_write_eq hterminal h ▸ hreceived⟩
  | false =>
      exact ⟨[], List.nil_prefix, by
        rw [(received_of_refused hterminal h).2, List.append_nil]⟩

/-- What a call has passed on that reports an error, over a sink that takes writes whole: the parts
before the one that was refused. -/
theorem parts_of_error {bytes : List Byte} {cause : SystemError} {c' : Console}
    (hwhole : c.sink.policy.Whole) (h : c.write bytes = (.error cause, c')) :
    ∃ taken refused later sink, c.parts bytes = taken ++ refused :: later ∧
      c.sink.Takes taken sink ∧
      (if c.terminal then Sink.Answers refused sink (.error cause, c'.sink)
        else sink.write refused = (.error cause, c'.sink)) ∧
      c'.sink.received.toList = c.sink.received.toList ++ taken.flatten := by
  cases hterminal : c.terminal with
  | true =>
      obtain ⟨ending, hends, hwrite⟩ := write_ends hterminal hwhole bytes
      rw [h] at hwrite
      cases hends with
      | taken => cases hwrite
      | @refused sink _ _ taken later refused hparts htakes hrefused =>
          cases hwrite
          refine ⟨taken, refused, later, sink, hparts, htakes, hrefused, ?_⟩
          rw [← htakes.received]
          exact hrefused.received_of_error rfl
  | false =>
      obtain ⟨hwrite, hreceived⟩ := received_of_refused hterminal h
      have hparts : c.parts bytes = [bytes] := if_neg (Bool.eq_false_iff.1 hterminal)
      exact ⟨[], bytes, [], c.sink, hparts, .nil _, hwrite,
        hreceived.trans (List.append_nil _).symm⟩

/-- A call that reports no error has taken all bytes, if the sink takes writes whole. -/
theorem length_of_write_eq_ok {bytes : List Byte} {taken : Nat} {c' : Console}
    (hwhole : c.sink.policy.Whole) (h : c.write bytes = (.ok taken, c')) :
    taken = bytes.length := by
  cases hterminal : c.terminal with
  | true =>
      rw [write, if_pos hterminal] at h
      generalize c.sink.writePieces (pieces bytes) = ending at h
      obtain ⟨cause | ⟨⟩, sink⟩ := ending <;> cases h
      rfl
  | false =>
      rw [write_of_not_terminal hterminal, Sink.write] at h
      split at h
      · next hanswer =>
          cases h
          exact hwhole _ _ _ hanswer
      · cases h

/-! ### How a text is cut into calls -/

/-- Writes buffers one after the other, a call each, whatever the answers are. -/
def writeEach (c : Console) : List (List Byte) → List (Except SystemError Nat) × Console
  | [] => ([], c)
  | buffer :: rest =>
    let (answer, c) := c.write buffer
    let (answers, c) := c.writeEach rest
    (answer :: answers, c)

/-- An open console takes buffers whole, one after the other. -/
theorem writeEach_of_isOpen (h : c.sink.IsOpen) (buffers : List (List Byte)) :
    (c.writeEach buffers).1 = buffers.map (fun buffer => .ok buffer.length) ∧
      (c.writeEach buffers).2.sink.received.toList =
        c.sink.received.toList ++ buffers.flatten.flatMap c.passed := by
  induction buffers generalizing c with
  | nil => exact ⟨rfl, (List.append_nil _).symm⟩
  | cons buffer rest ih =>
      obtain ⟨sink, hwrite, hpolicy, hreceived⟩ := write_of_isOpen h buffer
      obtain ⟨hanswers, hreceived'⟩ := @ih { c with sink } (h.of_policy_eq hpolicy)
      rw [writeEach, hwrite]
      refine ⟨?_, ?_⟩
      · dsimp only
        rw [hanswers, List.map_cons]
      · dsimp only
        rw [hreceived', hreceived, List.flatten_cons, List.flatMap_append, List.append_assoc]
        rfl

/-- A byte that is sent reaches a sink that takes every write, also if it cannot be passed on. -/
theorem send_snd (h : c.sink.IsOpen) (b : Byte) :
    ∃ sink, (c.send b).2 = { c with sink } ∧ sink.IsOpen ∧
      sink.received.toList = c.sink.received.toList ++ c.passed b := by
  obtain ⟨sink, hwrite, hpolicy, hreceived⟩ := writeAll_of_isOpen h b
  refine ⟨sink, ?_, h.of_policy_eq hpolicy, hreceived⟩
  rw [send, hwrite]

end Console

namespace Machine

variable {γ κ : Type} [Core γ] [Keyboard κ]

/-- A cycle sends the byte that it completes, and the console has nothing else from it. -/
theorem console_step (m : Machine γ κ) :
    m.step.2.console = (m.console.sendAll m.completes?.toList).2 := by
  have hlisten := m.listen_eq
  rcases hsent : m.console.sendAll m.completes?.toList with ⟨(cause | ⟨⟩), c⟩ <;>
    rw [hsent] at hlisten
  · rw [step_of_listen_error hlisten]
    rfl
  · exact (receiver_console_of_listen hlisten).2

/-- At an open console, each cycle of a path adds the byte that it completes. -/
theorem Path.received {m m' : Machine γ κ} {starts : List (Machine γ κ)} (h : Path m starts m')
    (hopen : m.console.sink.IsOpen) :
    m'.console.sink.received.toList = m.console.sink.received.toList ++
      (starts.filterMap completes?).flatMap m.console.passed := by
  induction h with
  | nil m => exact (List.append_nil _).symm
  | @cons m m' starts _ ih =>
      have hconsole := m.console_step
      rw [filterMap_completes?_cons, List.flatMap_append, ← List.append_assoc]
      cases hbyte : m.completes? with
      | none =>
          rw [hbyte] at hconsole
          change m.step.2.console = m.console at hconsole
          rw [hconsole] at ih
          rw [ih hopen, Option.toList_none, List.flatMap_nil, List.append_nil]
      | some b =>
          obtain ⟨sink, hsend, hopen', hreceived⟩ := Console.send_snd hopen b
          rw [hbyte, Option.toList_some, Console.sendAll_singleton, hsend] at hconsole
          rw [hconsole] at ih
          rw [ih hopen', hreceived, Option.toList_some, List.flatMap_singleton]
          rfl

end Machine

namespace Console

/-- **Open consoles ignore how a text is cut into calls.** Take any console whose sink takes every
write. Each of any calls takes its buffer whole, and the sink gets the buffers together, on a
terminal with a carriage return before each newline and elsewhere as they are. So other buffers that
come to the same text leave the same, and so does a machine with this console whose cycles complete
that text, a call for each byte, as one call with all of it. -/
theorem console_ignores_splitting {c : Console} (h : c.sink.IsOpen) :
    (∀ buffers : List (List Byte),
      (c.writeEach buffers).1 = buffers.map (fun buffer => .ok buffer.length) ∧
      (c.writeEach buffers).2.sink.received.toList = c.sink.received.toList ++
        if c.terminal then
          buffers.flatten.flatMap fun b => if b = 0x0A then [0x0D, 0x0A] else [b]
        else buffers.flatten) ∧
    (∀ buffers others : List (List Byte), buffers.flatten = others.flatten →
      (c.writeEach buffers).2.sink.received = (c.writeEach others).2.sink.received) ∧
    ∀ {γ κ : Type} [Core γ] [Keyboard κ] (m m' : Machine γ κ) (starts : List (Machine γ κ)),
      m.console = c → Machine.Path m starts m' →
      m'.console.sink.received =
        (c.write (starts.filterMap Machine.completes?)).2.sink.received := by
  refine ⟨fun buffers => ?_, fun buffers others hflatten => ?_, fun m m' starts hm hpath => ?_⟩
  · obtain ⟨hanswers, hreceived⟩ := writeEach_of_isOpen h buffers
    refine ⟨hanswers, hreceived.trans ?_⟩
    split
    · next hterminal =>
        rw [show c.passed = terminalByte from funext fun b => if_pos hterminal]
        rfl
    · next hterminal => rw [flatMap_passed_of_not_terminal hterminal]
  · rw [← Array.toList_inj, (writeEach_of_isOpen h buffers).2, (writeEach_of_isOpen h others).2,
      hflatten]
  · obtain ⟨sink, hwrite, -, hreceived⟩ :=
      write_of_isOpen h (starts.filterMap Machine.completes?)
    subst hm
    rw [← Array.toList_inj, hpath.received h, hwrite, hreceived]

/-- A machine on a terminal whose receiver is about to complete a newline. -/
def lineEnd : Machine BenchCore BenchKeyboard :=
  { Machine.benchAtFetch with
    core := { lines := { microPc := fetchState, transmit := false } }
    receiver := { shift := 0x14, bitsRemaining := 1 }
    console := { terminal := true } }

/-- A terminal gets a text cut into three calls as it gets it in one, and a newline of a machine as
one that is written. -/
theorem console_ignores_splitting_newlines :
    lineEnd.console.sink.IsOpen ∧
      (lineEnd.console.writeEach [[0x61, 0x0A], [], [0x0A, 0x0D]]).2.sink.received.toList =
        [0x61, 0x0D, 0x0A, 0x0D, 0x0A, 0x0D] ∧
      (lineEnd.console.writeEach [[0x61, 0x0A], [], [0x0A, 0x0D]]).2.sink.received =
        (lineEnd.console.writeEach [[0x61, 0x0A, 0x0A, 0x0D]]).2.sink.received ∧
      lineEnd.step.2.console.sink.received = (lineEnd.console.write [0x0A]).2.sink.received := by
  have hopen : lineEnd.console.sink.IsOpen := fun _ _ => rfl
  obtain ⟨heach, hequal, hmachine⟩ := console_ignores_splitting hopen
  exact ⟨hopen, (heach _).2, hequal _ _ rfl, hmachine lineEnd _ [lineEnd] rfl (.cons (.nil _))⟩

/-! ### What a call promises -/

/-- What a writer promises of a call: if it reports a number, that many bytes from the front have
reached the sink, each as it is passed on, and no others; if it reports an error, none has. -/
def Promised (c : Console) (bytes : List Byte) : Prop :=
  match c.write bytes with
  | (.ok taken, c') => taken ≤ bytes.length ∧
      c'.sink.received.toList = c.sink.received.toList ++ (bytes.take taken).flatMap c.passed
  | (.error _, c') => c'.sink.received = c.sink.received

/-- There is no newline in a line. -/
theorem newline_not_mem_of_mem_splitLines {bytes line : List Byte}
    (h : line ∈ splitLines bytes) : newline ∉ line := by
  induction bytes generalizing line with
  | nil =>
      obtain rfl := List.mem_singleton.1 h
      exact List.not_mem_nil
  | cons b rest ih =>
      rw [splitLines] at h
      split at h
      · obtain rfl | h := List.mem_cons.1 h
        · exact List.not_mem_nil
        · exact ih h
      · next hb =>
          split at h
          · next first lines hrest =>
              obtain rfl | h := List.mem_cons.1 h
              · have hfirst := ih (hrest ▸ List.mem_cons_self)
                simp [hfirst, Ne.symm hb]
              · exact ih (hrest ▸ List.mem_cons_of_mem _ h)
          · next hrest => exact absurd hrest (splitLines_ne_nil rest)

/-- Between the elements of a list there is only the separator. -/
theorem mem_of_mem_intersperse {α : Type} {a separator : α} {l : List α}
    (h : a ∈ l.intersperse separator) : a ∈ l ∨ a = separator := by
  induction l with
  | nil => exact .inl h
  | cons b l ih =>
      cases l with
      | nil => exact .inl h
      | cons b' l =>
          rw [List.intersperse_cons_cons] at h
          obtain rfl | h := List.mem_cons.1 h
          · exact .inl List.mem_cons_self
          · obtain rfl | h := List.mem_cons.1 h
            · exact .inr rfl
            · exact (ih h).imp (List.mem_cons_of_mem b) id

/-- No byte is lost on a terminal. -/
theorem terminalByte_ne_nil (b : Byte) : terminalByte b ≠ [] := by
  rw [terminalByte]
  split <;> exact List.cons_ne_nil _ _

/-- Only nothing becomes nothing on a terminal. -/
theorem eq_nil_of_flatMap_terminalByte {bytes : List Byte}
    (h : bytes.flatMap terminalByte = []) : bytes = [] :=
  List.eq_nil_iff_forall_not_mem.2 fun b hb =>
    terminalByte_ne_nil b (List.flatMap_eq_nil_iff.1 h b hb)

/-- A call with a newline in it is one write on a terminal only if the newline is all of it. -/
theorem eq_newline_of_piece {bytes : List Byte} (hmem : newline ∈ bytes)
    (h : bytes.flatMap terminalByte ∈ pieces bytes) : bytes = [newline] := by
  obtain hline | hreturn := mem_of_mem_intersperse h
  · have hnewline : newline ∈ bytes.flatMap terminalByte :=
      List.mem_flatMap.2 ⟨newline, hmem, by decide⟩
    exact absurd hnewline (newline_not_mem_of_mem_splitLines hline)
  · obtain ⟨front, rest, rfl⟩ := List.append_of_mem hmem
    have hlength := congrArg List.length hreturn
    rw [List.flatMap_append, List.flatMap_cons, List.length_append, List.length_append,
      show (terminalByte newline).length = 2 from rfl] at hlength
    have hnone : (front.flatMap terminalByte).length = 0 ∧
        (rest.flatMap terminalByte).length = 0 := by
      simp only [List.length_cons, List.length_nil] at hlength
      omega
    rw [eq_nil_of_flatMap_terminalByte (List.eq_nil_of_length_eq_zero hnone.1),
      eq_nil_of_flatMap_terminalByte (List.eq_nil_of_length_eq_zero hnone.2), List.nil_append]

/-- Bytes without a newline are one line. -/
theorem splitLines_of_newline_not_mem {bytes : List Byte} (h : newline ∉ bytes) :
    splitLines bytes = [bytes] := by
  induction bytes with
  | nil => rfl
  | cons b rest ih =>
      obtain ⟨hb, hrest⟩ := not_or.1 (mt List.mem_cons.2 h)
      rw [splitLines, if_neg (Ne.symm hb), ih hrest]

/-- A buffer is one part exactly off a terminal, without a newline, or as a newline alone. -/
theorem length_parts_le_iff {c : Console} {bytes : List Byte} :
    (c.parts bytes).length ≤ 1 ↔ c.terminal = false ∨ newline ∉ bytes ∨ bytes = [newline] := by
  by_cases hterminal : c.terminal = true
  · have hflatten := flatten_parts c bytes
    rw [parts, if_pos hterminal, show c.passed = terminalByte from funext fun b =>
      if_pos hterminal] at hflatten
    rw [parts, if_pos hterminal, hterminal]
    refine ⟨fun h => .inr (or_iff_not_imp_left.2 fun hmem => ?_), fun h => ?_⟩
    · have hnewline := not_not.1 hmem
      cases hparts : (pieces bytes).filter fun piece => !piece.isEmpty with
      | nil =>
          rw [hparts] at hflatten
          rw [eq_nil_of_flatMap_terminalByte hflatten.symm] at hnewline
          cases hnewline
      | cons part later =>
          rw [hparts] at h hflatten
          obtain rfl : later = [] := List.eq_nil_of_length_eq_zero (by simpa using h)
          rw [List.flatten_singleton] at hflatten
          refine eq_newline_of_piece hnewline ?_
          rw [← hflatten]
          exact (List.mem_filter.1 (hparts ▸ List.mem_cons_self)).1
    · obtain h | h | rfl := h
      · cases h
      · rw [pieces, splitLines_of_newline_not_mem h]
        exact List.length_filter_le _ [bytes]
      · decide
  · rw [parts, if_neg hterminal]
    exact iff_of_true (le_refl 1) (.inl (Bool.not_eq_true _ ▸ hterminal))

/-- With one part, or none, there is nothing before the one that is refused. -/
theorem promised_of_length_parts_le {c : Console} {bytes : List Byte}
    (hwhole : c.sink.policy.Whole) (h : (c.parts bytes).length ≤ 1) : c.Promised bytes := by
  rw [Promised]
  rcases hwrite : c.write bytes with ⟨(cause | taken), c'⟩
  · obtain ⟨taken, refused, later, -, hparts, -, -, hreceived⟩ := parts_of_error hwhole hwrite
    rw [hparts, List.length_append, List.length_cons] at h
    obtain rfl : taken = [] := List.eq_nil_of_length_eq_zero (by omega)
    rw [List.flatten_nil, List.append_nil] at hreceived
    exact Array.toList_inj.1 hreceived
  · exact write_of_ok hwrite

/-- A sink that takes one write only. -/
def takesOne : Sink := { policy := .console (some 2) false }

/-- A policy that refuses by what went through takes the other writes whole. -/
theorem whole_refusing (refusal : Sink.Progress → Option String)
    (flush : Sink.Progress → Option SystemError) : (Sink.Policy.refusing refusal flush).Whole := by
  intro p bytes n h
  change Sink.verdict ((refusal p).map .other) bytes = .ok n at h
  cases hrefusal : refusal p <;> rw [hrefusal] at h <;> cases h
  rfl

/-- This sink takes no second part. -/
theorem not_takes_takesOne (first second : List Byte) (later : List (List Byte)) (sink : Sink) :
    ¬takesOne.Takes (first :: second :: later) sink := by
  intro h
  cases h with
  | cons hfirst hlater =>
      have hdone : Sink.Answers first takesOne (takesOne.write first) := .done nofun
      cases hfirst.unique hdone
      cases hlater with
      | cons hsecond _ =>
          cases hsecond with
          | again hwrite => cases hwrite

/-- A part before another one reaches this sink, and the other one does not. -/
theorem length_parts_le_of_promised {terminal : Bool} {bytes : List Byte}
    (h : Promised ⟨terminal, takesOne⟩ bytes) :
    (parts ⟨terminal, takesOne⟩ bytes).length ≤ 1 := by
  cases terminal with
  | false => exact le_rfl
  | true =>
      obtain ⟨ending, hends, hwrite⟩ :=
        write_ends (c := ⟨true, takesOne⟩) rfl (whole_refusing _ _) bytes
      rw [Promised, hwrite] at h
      cases hends with
      | taken htakes =>
          rcases hparts : parts ⟨true, takesOne⟩ bytes with _ | ⟨first, _ | ⟨second, later⟩⟩
          · exact Nat.zero_le 1
          · exact le_rfl
          · exact absurd (hparts ▸ htakes) (not_takes_takesOne first second later _)
      | @refused sink s' cause taken later refused hparts htakes hrefused =>
          change s'.received = #[] at h
          have hreceived := hrefused.received_of_error rfl
          rw [htakes.received, h] at hreceived
          rcases taken with _ | ⟨first, _ | ⟨second, taken⟩⟩
          · cases htakes
            cases hrefused with
            | again hwrite => cases hwrite
          · -- The part that was taken is empty, since nothing is received; but no part is.
            have hfirst : first ∈ parts ⟨true, takesOne⟩ bytes := hparts ▸ List.mem_cons_self
            have hempty : first ++ [] = [] := hreceived.symm
            rw [List.append_nil] at hempty
            rw [hempty] at hfirst
            exact absurd (List.mem_filter.1 hfirst).2 Bool.false_ne_true
          · exact absurd htakes (not_takes_takesOne first second taken _)

/-- **A call on a terminal that reports an error may have passed on the parts before.** Whatever the
sink takes, a call that reports a number has passed on as many bytes from the front, and no others,
and a call that reports an error has passed on a front part of its bytes. If the sink takes writes
whole, or refuses them, then a call that reports no error has taken all bytes, and a call that reports
an error has passed on the parts before the one whose refusal it reports, and nothing else; that a
write is interrupted is reported off a terminal only, on a terminal it is made again. So the promise of
a writer is kept by all such sinks if the console is not a terminal, or the bytes have no newline
among them, or are one, as the bytes of a machine are; and for no others. -/
theorem partial_write_on_refusal (c : Console) (bytes : List Byte) :
    (∀ taken c', c.write bytes = (.ok taken, c') →
      taken ≤ bytes.length ∧ c'.sink.received.toList =
        c.sink.received.toList ++ (bytes.take taken).flatMap c.passed) ∧
    (∀ cause c', c.write bytes = (.error cause, c') → ∃ front,
      front <+: bytes.flatMap c.passed ∧
        c'.sink.received.toList = c.sink.received.toList ++ front) ∧
    (c.sink.policy.Whole →
      (∀ taken c', c.write bytes = (.ok taken, c') → taken = bytes.length) ∧
      ∀ cause c', c.write bytes = (.error cause, c') →
        ∃ taken refused later sink, c.parts bytes = taken ++ refused :: later ∧
          c.sink.Takes taken sink ∧
          (if c.terminal then Sink.Answers refused sink (.error cause, c'.sink)
            else sink.write refused = (.error cause, c'.sink)) ∧
          c'.sink.received.toList = c.sink.received.toList ++ taken.flatten) ∧
    ((∀ sink : Sink, sink.policy.Whole → Promised { c with sink } bytes) ↔
      c.terminal = false ∨ newline ∉ bytes ∨ bytes = [newline]) := by
  refine ⟨fun taken c' => write_of_ok, fun cause c' => write_of_error, fun hwhole =>
    ⟨fun taken c' => length_of_write_eq_ok hwhole, fun cause c' => parts_of_error hwhole⟩,
    fun h => ?_, fun h sink hwhole => ?_⟩
  · exact length_parts_le_iff.1 (length_parts_le_of_promised (h takesOne (whole_refusing _ _)))
  · exact promised_of_length_parts_le hwhole (length_parts_le_iff.2 h)

/-- A terminal that is closed after a line. -/
def closedAfterLine : Console := { terminal := true, sink := { policy := .closedAfter 1 } }

/-- A terminal that interrupts the first write, takes the second one and refuses all others. -/
def falteringTerminal : Console :=
  { terminal := true, sink := { policy := .faltering fun _ => none } }

/-- It gets the line end of two lines by a write that is made again, and the call reports the refusal
of what is behind it; a line end alone is taken by a terminal that is closed then. -/
theorem partial_write_on_refusal_closed :
    (∃ taken refused later sink,
      falteringTerminal.parts [0x0A, 0x61] = taken ++ refused :: later ∧
      falteringTerminal.sink.Takes taken sink ∧
      Sink.Answers refused sink
        (.error (.other "output closed"), (falteringTerminal.write [0x0A, 0x61]).2.sink) ∧
      [0x0D, 0x0A] = taken.flatten) ∧
    (closedAfterLine.write [0x0A]).2.sink.received.toList = [0x0D, 0x0A] ∧
    Promised closedAfterLine [0x0A] := by
  obtain ⟨-, -, hfaltering, -⟩ := partial_write_on_refusal falteringTerminal [0x0A, 0x61]
  obtain ⟨hok, -, -, hpromised⟩ := partial_write_on_refusal closedAfterLine [0x0A]
  exact ⟨(hfaltering (Sink.whole_faltering _)).2 _ _ rfl, (hok 1 _ rfl).2,
    hpromised.2 (.inr (.inr rfl)) closedAfterLine.sink (whole_refusing _ _)⟩

/-- **The promise broken.** The call reports an error, and the first of its two bytes has reached
the terminal, as a carriage return and a newline. -/
theorem promise_broken_on_terminal :
    (closedAfterLine.write [0x0A, 0x61]).1 = .error (.other "output closed") ∧
      (closedAfterLine.write [0x0A, 0x61]).2.sink.received.toList = [0x0D, 0x0A] ∧
      ¬Promised closedAfterLine [0x0A, 0x61] := by
  refine ⟨rfl, rfl, fun h => ?_⟩
  have hreceived : #[0x0D, 0x0A] = (#[] : Array Byte) := h
  cases hreceived

end Console

end ClockStep
