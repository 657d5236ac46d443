import ClockStep.Sink
import Mathlib.Data.List.Infix

/-!
# What Sinks Take

A sink answers a call by what went through it and by the bytes that are offered, and whoever writes
all of something makes the call again while it is interrupted. This module says what comes of that:
how a call is answered in the end (`Sink.Answers`), and what has reached a sink when bytes were
written to it, of which it may have taken a part only.

Two kinds of policies are looked at more closely. A policy **by lines** takes a write whole or
refuses it, and looks at the lines that went through for it; a policy **by counts** looks at the
calls that were made as well. What such a sink takes does not depend on the bytes, but for the number
of newlines among them.

## Main results

* `Sink.answers_answer`: a call that is made again while it is interrupted is answered.
* `Sink.received_writePieces`: what reaches any sink is a front part of what is written to it.
* `Sink.writePieces_of_taken`, `Sink.writePieces_of_refused`: a line over a sink by lines.
* `Sink.writePieces_exchange`: over a sink by counts a piece can be exchanged for another.
-/

namespace ClockStep.Sink

variable {s s' t : Sink} {bytes : List Byte}

/-! ### Calls that are made again -/

/-- How a call is answered that is made again while it is interrupted. -/
inductive Answers (bytes : List Byte) : Sink → Except SystemError Nat × Sink → Prop
  /-- The call is interrupted, and made again. -/
  | again {s t : Sink} {o : Except SystemError Nat × Sink} :
      s.write bytes = (.error .interrupted, t) → Answers bytes t o → Answers bytes s o
  /-- The call is answered. -/
  | done {s : Sink} :
      (s.write bytes).1 ≠ .error .interrupted → Answers bytes s (s.write bytes)

/-- A call leaves the policy as it is. -/
theorem policy_write (s : Sink) (bytes : List Byte) : (s.write bytes).2.policy = s.policy := by
  rw [write]
  split <;> rfl

/-- A call that is interrupted takes nothing, and that is what went through. -/
theorem eq_after_of_write_eq_error {cause : SystemError} (h : s.write bytes = (.error cause, t)) :
    t = s.after bytes 0 := by
  rw [write] at h
  split at h
  · cases h
  · cases h
    rfl

/-- Whether a call is interrupted is up to the policy. -/
theorem write_eq_interrupted : (s.write bytes).1 = .error .interrupted ↔
    s.policy.write s.progress bytes = .error .interrupted := by
  rw [write]
  split <;> next hanswer => rw [hanswer]

/-- By induction on the number of times that the call may be made again: the sink is interrupted no
more often than that. -/
theorem answers_insist (bytes : List Byte) (n : Nat)
    (h : ∃ k ≤ n, s.policy.write (s.progress.interrupted bytes k) bytes ≠ .error .interrupted) :
    Answers bytes s (insist (write · bytes) n s) := by
  induction n generalizing s with
  | zero =>
      obtain ⟨k, hk, hsettled⟩ := h
      obtain rfl := Nat.le_zero.1 hk
      exact .done (mt write_eq_interrupted.1 hsettled)
  | succ n ih =>
      by_cases hfirst : (s.write bytes).1 = .error .interrupted
      · obtain ⟨k, hk, hsettled⟩ := h
        have hwrite : s.write bytes = (.error .interrupted, s.after bytes 0) :=
          Prod.ext hfirst (eq_after_of_write_eq_error (Prod.ext hfirst rfl))
        cases k with
        | zero => exact absurd (write_eq_interrupted.1 hfirst) hsettled
        | succ k =>
            -- One call more went through, and one less is to come.
            have hprogress : (s.after bytes 0).progress.interrupted bytes k =
                s.progress.interrupted bytes (k + 1) := by
              simp [Progress.interrupted, after, List.replicate_succ']
            have hlater := ih (s := s.after bytes 0)
              ⟨k, Nat.le_of_succ_le_succ hk, by rw [hprogress]; exact hsettled⟩
            rw [insist, hwrite]
            exact .again hwrite hlater
      · rw [insist_of_ne hfirst]
        exact .done hfirst

/-- **A call that is made again while it is interrupted is answered.** -/
theorem answers_answer (s : Sink) (bytes : List Byte) :
    Answers bytes s (Writer.answer s bytes) :=
  answers_insist bytes _ (s.policy.settles s.progress bytes)

namespace Answers

variable {o o' : Except SystemError Nat × Sink}

/-- There is one answer only. -/
theorem unique (h : Answers bytes s o) (h' : Answers bytes s o') : o = o' := by
  induction h with
  | again hwrite _ ih =>
      cases h' with
      | again hwrite' hlater =>
          rw [hwrite] at hwrite'
          cases hwrite'
          exact ih hlater
      | done hne => exact absurd (congrArg Prod.fst hwrite) hne
  | done hne =>
      cases h' with
      | again hwrite' => exact absurd (congrArg Prod.fst hwrite') hne
      | done => rfl

/-- The answer is the one that writing all of the bytes goes by. -/
theorem answer_eq (h : Answers bytes s o) : Writer.answer s bytes = o :=
  (answers_answer s bytes).unique h

/-- It is not that the call was interrupted. -/
theorem ne_interrupted (h : Answers bytes s o) : o.1 ≠ .error .interrupted := by
  induction h with
  | again _ _ ih => exact ih
  | done hne => exact hne

/-- The policy stays as it is. -/
theorem policy (h : Answers bytes s o) : o.2.policy = s.policy := by
  induction h with
  | again hwrite _ ih => rw [ih, eq_after_of_write_eq_error hwrite]; rfl
  | done => exact policy_write _ bytes

/-- As many bytes from the front have reached the sink as the answer says, and there are as many. -/
theorem received_of_ok (h : Answers bytes s o) {n : Nat} (ho : o.1 = .ok n) :
    n ≤ bytes.length ∧ o.2.received.toList = s.received.toList ++ bytes.take n := by
  induction h with
  | again hwrite _ ih =>
      obtain ⟨hle, hreceived⟩ := ih ho
      rw [eq_after_of_write_eq_error hwrite, received_after, List.take_zero, List.append_nil]
        at hreceived
      exact ⟨hle, hreceived⟩
  | @done s _ =>
      rw [write] at ho ⊢
      split at ho
      · next hanswer =>
          cases ho
          exact ⟨s.policy.within _ _ _ hanswer, received_after s bytes _⟩
      · cases ho

/-- If the call is refused none has. -/
theorem received_of_error (h : Answers bytes s o) {cause : SystemError} (ho : o.1 = .error cause) :
    o.2.received.toList = s.received.toList := by
  induction h with
  | again hwrite _ ih =>
      rw [ih ho, eq_after_of_write_eq_error hwrite, received_after, List.take_zero,
        List.append_nil]
  | @done s _ =>
      rcases hwrite : s.write bytes with ⟨r, t⟩
      rw [hwrite] at ho
      obtain rfl : r = .error cause := ho
      rw [eq_after_of_write_eq_error hwrite, received_after, List.take_zero, List.append_nil]

end Answers

/-! ### What reaches a sink -/

/-- Along the calls by which bytes are written: none are left, the call is refused, it takes none, or
it takes some and the rest is written. -/
theorem writeAll_induct {motive : Sink → List Byte → Prop} (nil : ∀ s, motive s [])
    (refused : ∀ s b rest cause t, Answers (b :: rest) s (.error cause, t) →
      Writer.writeAll s (b :: rest) = (.error cause, t) → motive s (b :: rest))
    (nothing : ∀ s b rest t, Answers (b :: rest) s (.ok 0, t) →
      Writer.writeAll s (b :: rest) = (.error .nothingTaken, t) → motive s (b :: rest))
    (taken : ∀ s b rest n t, Answers (b :: rest) s (.ok (n + 1), t) →
      Writer.writeAll s (b :: rest) = Writer.writeAll t (rest.drop n) →
      motive t (rest.drop n) → motive s (b :: rest))
    (s : Sink) (bytes : List Byte) : motive s bytes := by
  -- There is an end to it because a call that takes some leaves fewer.
  induction hlength : bytes.length using Nat.strongRecOn generalizing s bytes with
  | ind length ih =>
      cases bytes with
      | nil => exact nil s
      | cons b rest =>
          have hanswers := s.answers_answer (b :: rest)
          have hwrite := Writer.writeAll_cons s b rest
          rcases hanswer : Writer.answer s (b :: rest) with ⟨cause | _ | n, t⟩ <;>
            rw [hanswer] at hanswers hwrite
          · exact refused s b rest cause t hanswers hwrite
          · exact nothing s b rest t hanswers hwrite
          · have hfewer : (rest.drop n).length < length := by
              rw [← hlength, List.length_drop, List.length_cons]
              omega
            exact taken s b rest n t hanswers hwrite (ih _ hfewer t (rest.drop n) rfl)

/-- What is written leaves the policy as it is, and of it there reaches the sink a front part; all of
it, if there is no error. -/
theorem received_writeAll (s : Sink) (bytes : List Byte) :
    (Writer.writeAll s bytes).2.policy = s.policy ∧ ∃ front, front <+: bytes ∧
      (Writer.writeAll s bytes).2.received.toList = s.received.toList ++ front ∧
      ((Writer.writeAll s bytes).1 = .ok () → front = bytes) := by
  induction s, bytes using writeAll_induct with
  | nil s => exact ⟨rfl, [], List.prefix_rfl, (List.append_nil _).symm, fun _ => rfl⟩
  | refused s b rest cause t hanswers hwrite =>
      rw [hwrite]
      refine ⟨hanswers.policy, [], List.nil_prefix, ?_, fun hok => by cases hok⟩
      rw [hanswers.received_of_error rfl, List.append_nil]
  | nothing s b rest t hanswers hwrite =>
      rw [hwrite]
      refine ⟨hanswers.policy, [], List.nil_prefix, ?_, fun hok => by cases hok⟩
      exact (hanswers.received_of_ok rfl).2
  | taken s b rest n t hanswers hwrite ih =>
      obtain ⟨-, hreceived⟩ := hanswers.received_of_ok rfl
      obtain ⟨hpolicy, front, ⟨back, hback⟩, hlater, hall⟩ := ih
      rw [hwrite]
      refine ⟨hpolicy.trans hanswers.policy, b :: (rest.take n ++ front), ⟨back, ?_⟩, ?_,
        fun hok => ?_⟩
      · rw [List.cons_append, List.append_assoc, hback, List.take_append_drop]
      · rw [hlater, hreceived, List.append_assoc]
        rfl
      · rw [hall hok, List.take_append_drop]

/-- All that is written has reached the sink if there is no error. -/
theorem received_of_writeAll_eq_ok (h : Writer.writeAll s bytes = (.ok (), t)) :
    t.policy = s.policy ∧ t.received.toList = s.received.toList ++ bytes := by
  obtain ⟨hpolicy, front, -, hreceived, hall⟩ := s.received_writeAll bytes
  rw [h] at hpolicy hreceived hall
  exact ⟨hpolicy, hall rfl ▸ hreceived⟩

/-- That a call was interrupted is never the reason for which the bytes could not be written. -/
theorem writeAll_ne_interrupted (s : Sink) (bytes : List Byte) :
    (Writer.writeAll s bytes).1 ≠ .error .interrupted := by
  intro h
  induction s, bytes using writeAll_induct with
  | nil s => cases h
  | refused s b rest cause t hanswers hwrite =>
      rw [hwrite] at h
      exact hanswers.ne_interrupted (congrArg Except.error (Except.error.inj h))
  | nothing s b rest t hanswers hwrite =>
      rw [hwrite] at h
      cases h
  | taken s b rest n t hanswers hwrite ih => exact ih (hwrite ▸ h)

/-- **What reaches any sink** is a front part of the pieces that are written to it, one after the
other, and all of them if there is no error. -/
theorem received_writePieces (s : Sink) (pieces : List (List Byte)) :
    (s.writePieces pieces).2.policy = s.policy ∧ ∃ front, front <+: pieces.flatten ∧
      (s.writePieces pieces).2.received.toList = s.received.toList ++ front ∧
      ((s.writePieces pieces).1 = .ok () → front = pieces.flatten) := by
  induction pieces generalizing s with
  | nil => exact ⟨rfl, [], List.prefix_rfl, (List.append_nil _).symm, fun _ => rfl⟩
  | cons piece rest ih =>
      obtain ⟨hpolicy, front, hfront, hreceived, hall⟩ := s.received_writeAll piece
      rw [writePieces, List.flatten_cons]
      rcases hwrite : Writer.writeAll s piece with ⟨cause | ⟨⟩, t⟩ <;>
        rw [hwrite] at hpolicy hreceived hall
      · refine ⟨hpolicy, front, hfront.trans (List.prefix_append _ _), hreceived, fun hok => ?_⟩
        cases hok
      · obtain ⟨hpolicy', later, hlater, hreceived', hall'⟩ := ih t
        obtain rfl := hall rfl
        refine ⟨hpolicy'.trans hpolicy, front ++ later, (List.prefix_append_right_inj _).2 hlater,
          ?_, fun hok => ?_⟩
        · rw [hreceived', hreceived, List.append_assoc]
        · rw [hall' hok]

/-- Pieces behind others are written if the others could be. -/
theorem writePieces_append (s : Sink) (front back : List (List Byte)) :
    s.writePieces (front ++ back) = match s.writePieces front with
      | (.ok (), s) => s.writePieces back
      | (.error cause, s) => (.error cause, s) := by
  induction front generalizing s with
  | nil => rfl
  | cons piece rest ih =>
      rw [List.cons_append, writePieces, writePieces]
      rcases Writer.writeAll s piece with ⟨cause | ⟨⟩, t⟩
      · rfl
      · exact ih t

/-! ### Whole writes -/

/-- A policy by which a write is taken whole, if it is taken. -/
def Policy.Whole (policy : Policy) : Prop :=
  ∀ p bytes n, policy.write p bytes = .ok n → n = bytes.length

/-- A call that is made again while it is interrupted is taken whole then. -/
theorem Policy.Whole.eq_length (h : s.policy.Whole) {n : Nat}
    (hanswers : Answers bytes s (.ok n, t)) : n = bytes.length := by
  generalize ho : ((.ok n, t) : Except SystemError Nat × Sink) = o at hanswers
  induction hanswers with
  | again hwrite _ ih => exact ih (by rw [eq_after_of_write_eq_error hwrite]; exact h) ho
  | @done s _ =>
      rw [Sink.write] at ho
      split at ho
      · next hanswer =>
          cases ho
          exact h _ _ _ hanswer
      · cases ho

/-- If a call takes its bytes whole, then it takes all that there is to be written. -/
theorem writeAll_of_answers_whole (hbytes : bytes ≠ [])
    (h : Answers bytes s (.ok bytes.length, t)) : Writer.writeAll s bytes = (.ok (), t) := by
  obtain ⟨b, rest, rfl⟩ := List.exists_cons_of_ne_nil hbytes
  rw [Writer.writeAll_cons, h.answer_eq]
  dsimp only [List.length_cons]
  rw [List.drop_length, Writer.writeAll_nil]

/-- A call that is refused is the end of it. -/
theorem writeAll_of_answers_error {cause : SystemError} (hbytes : bytes ≠ [])
    (h : Answers bytes s (.error cause, t)) : Writer.writeAll s bytes = (.error cause, t) := by
  obtain ⟨b, rest, rfl⟩ := List.exists_cons_of_ne_nil hbytes
  rw [Writer.writeAll_cons, h.answer_eq]

/-- Interrupts the first call, takes the second one whole, and refuses all others. -/
def Policy.faltering (flush : Progress → Option SystemError) : Policy where
  write p bytes :=
    match p.writes with
    | 0 => .error .interrupted
    | 1 => .ok bytes.length
    | _ + 2 => .error (.other "output closed")
  flush
  patience _ _ := 1
  within := by
    intro p bytes n h
    split at h <;> cases h
    exact Nat.le_refl _
  settles := by
    intro p bytes
    refine ⟨1, Nat.le_refl 1, ?_⟩
    rw [show (p.interrupted bytes 1).writes = p.writes + 1 from rfl]
    cases p.writes <;> exact nofun

/-- It takes a write whole, if it takes it. -/
theorem whole_faltering (flush : Progress → Option SystemError) :
    (Policy.faltering flush).Whole := by
  intro p bytes n h
  dsimp only [Policy.faltering] at h
  split at h <;> cases h
  rfl

/-! ### Sinks by lines -/

/-- A policy is **by lines** if a write is taken whole or refused, by the lines that went through. -/
def Policy.ByLines (policy : Policy) : Prop :=
  ∃ refusal : Nat → Option SystemError, ∀ p bytes,
    policy.write p bytes = verdict (refusal p.newlines) bytes

/-- A sink that takes every write is by lines. -/
theorem IsOpen.byLines (h : s.IsOpen) : s.policy.ByLines := ⟨fun _ => none, h⟩

/-- So is one that closes after some lines. -/
theorem byLines_closedAfter (lines : Nat) : (Policy.closedAfter lines).ByLines :=
  ⟨fun newlines => (if lines ≤ newlines then some "output closed" else none).map .other,
    fun _ _ => rfl⟩

/-- A write that is interrupted brings no newline, so that it would be interrupted for ever: a sink by
lines interrupts none. -/
theorem Policy.ByLines.answers (h : s.policy.ByLines) (bytes : List Byte) :
    Answers bytes s (s.write bytes) := by
  obtain ⟨refusal, hrefusal⟩ := h
  obtain ⟨n, -, hsettled⟩ := s.policy.settles s.progress bytes
  refine .done (mt write_eq_interrupted.1 fun hinterrupted => hsettled ?_)
  rw [hrefusal] at hinterrupted ⊢
  exact hinterrupted

section Lines

variable {refusal : Nat → Option SystemError}
  (hlines : ∀ p bytes, s.policy.write p bytes = verdict (refusal p.newlines) bytes)

include hlines

/-- What is written to a sink by lines is answered by the lines that went through. -/
theorem answers_of_byLines (bytes : List Byte) :
    Answers bytes s (match refusal s.progress.newlines with
      | some cause => (.error cause, s.after bytes 0)
      | none => (.ok bytes.length, s.after bytes bytes.length)) := by
  have hanswers := Policy.ByLines.answers ⟨refusal, hlines⟩ bytes
  rw [write, hlines] at hanswers
  cases hrefusal : refusal s.progress.newlines <;> rw [hrefusal] at hanswers <;> exact hanswers

/-- A line that is refused leaves nothing. -/
theorem writePieces_of_refused {cause : SystemError}
    (h : refusal s.progress.newlines = some cause) (front : List (List Byte)) :
    ∃ s', s.writePieces (front ++ [[newline]]) = (.error cause, s') ∧ s'.policy = s.policy ∧
      s'.progress.newlines = s.progress.newlines ∧
      s'.received.toList = s.received.toList := by
  have hrefused : ∀ bytes ≠ [], ∀ later, ∃ s',
      s.writePieces (bytes :: later) = (.error cause, s') ∧ s'.policy = s.policy ∧
        s'.progress.newlines = s.progress.newlines ∧
        s'.received.toList = s.received.toList := by
    intro bytes hbytes later
    have hanswers := answers_of_byLines hlines bytes
    rw [h] at hanswers
    rw [writePieces, writeAll_of_answers_error hbytes hanswers]
    exact ⟨_, rfl, rfl, rfl, hanswers.received_of_error rfl⟩
  induction front with
  | nil => exact hrefused _ (List.cons_ne_nil _ _) []
  | cons piece rest ih =>
      cases piece with
      | nil => exact ih
      | cons b piece => exact hrefused _ (List.cons_ne_nil _ _) _

/-- Nothing in a line is refused but the whole. -/
theorem writePieces_of_taken (h : refusal s.progress.newlines = none) {front : List (List Byte)}
    (hfront : newline ∉ front.flatten) :
    ∃ s', s.writePieces (front ++ [[newline]]) = (.ok (), s') ∧ s'.policy = s.policy ∧
      s'.progress.newlines = s.progress.newlines + 1 ∧
      s'.received.toList = s.received.toList ++ (front.flatten ++ [newline]) := by
  induction front generalizing s with
  | nil =>
      have hanswers := answers_of_byLines hlines [newline]
      rw [h] at hanswers
      rw [List.nil_append, writePieces, writeAll_of_answers_whole (List.cons_ne_nil _ _) hanswers]
      exact ⟨_, rfl, rfl, rfl, received_after s [newline] 1⟩
  | cons piece rest ih =>
      rw [List.flatten_cons, List.mem_append, not_or] at hfront
      obtain ⟨hpiece, hrest⟩ := hfront
      cases piece with
      | nil => exact ih hlines h hrest
      | cons b piece =>
          have hanswers := answers_of_byLines hlines (b :: piece)
          rw [h] at hanswers
          have hnewlines : (s.after (b :: piece) (b :: piece).length).progress.newlines =
              s.progress.newlines := by
            rw [after, List.take_length, List.count_eq_zero.2 hpiece, Nat.add_zero]
          obtain ⟨s', hwrite, hpolicy, hlater, hreceived⟩ :=
            @ih (s.after (b :: piece) (b :: piece).length) hlines (hnewlines ▸ h) hrest
          refine ⟨s', ?_, hpolicy, hnewlines ▸ hlater, ?_⟩
          · rw [List.cons_append, writePieces,
              writeAll_of_answers_whole (List.cons_ne_nil _ _) hanswers]
            exact hwrite
          · rw [hreceived, received_after, List.take_length, List.flatten_cons, List.append_assoc,
              List.append_assoc]

end Lines

/-! ### Sinks by counts -/

/-- A policy is **by counts** if a write is taken whole or refused, by the calls that were made and the
lines that went through. -/
def Policy.ByCounts (policy : Policy) : Prop :=
  ∃ refusal : Nat → Nat → Option SystemError, ∀ p bytes,
    policy.write p bytes = verdict (refusal p.writes p.newlines) bytes

/-- Two sinks that a policy by counts does not tell apart: they may have got other bytes, but by as
many calls, and with as many newlines. -/
structure SameCounts (s s' : Sink) : Prop where
  policy : s'.policy = s.policy
  writes : s'.progress.writes = s.progress.writes
  newlines : s'.progress.newlines = s.progress.newlines

/-- Two answers to calls that are alike: the bytes of the calls were taken whole in both, or both
were refused for the same reason. -/
structure Alike (bytes bytes' : List Byte) (o o' : Except SystemError Nat × Sink) : Prop where
  counts : o.2.SameCounts o'.2
  answers : (o.1 = .ok bytes.length ∧ o'.1 = .ok bytes'.length) ∨
    ∃ cause, o.1 = .error cause ∧ o'.1 = .error cause

section Counts

variable {bytes' : List Byte} (hnewlines : bytes'.count newline = bytes.count newline)

include hnewlines

/-- A call comes to the same in two sinks of the same counts. -/
theorem SameCounts.write (h : s.SameCounts s') (hcounts : s.policy.ByCounts) :
    Alike bytes bytes' (s.write bytes) (s'.write bytes') := by
  obtain ⟨refusal, hrefusal⟩ := hcounts
  rw [Sink.write, Sink.write, h.policy, hrefusal, hrefusal, h.writes, h.newlines]
  have hwrites : s'.progress.writes + 1 = s.progress.writes + 1 := congrArg (· + 1) h.writes
  cases refusal s.progress.writes s.progress.newlines with
  | some cause => exact ⟨⟨h.policy, hwrites, h.newlines⟩, .inr ⟨cause, rfl, rfl⟩⟩
  | none =>
      refine ⟨⟨h.policy, hwrites, ?_⟩, .inl ⟨rfl, rfl⟩⟩
      change _ + _ = _ + _
      rw [List.take_length, List.take_length, h.newlines, hnewlines]

/-- So does one that is made again while it is interrupted. -/
theorem Answers.sameCounts {o : Except SystemError Nat × Sink} (ho : Answers bytes s o)
    (hcounts : s.policy.ByCounts) (h : s.SameCounts s') :
    ∃ o', Answers bytes' s' o' ∧ Alike bytes bytes' o o' := by
  induction ho generalizing s' with
  | @again s t o hwrite _ ih =>
      obtain ⟨hsame, halike⟩ := h.write hnewlines hcounts
      rw [hwrite] at hsame halike
      obtain ⟨hok, -⟩ | ⟨cause, hcause, hwrite'⟩ := halike
      · cases hok
      · cases hcause
        have hpolicy : t.policy = s.policy := by rw [eq_after_of_write_eq_error hwrite]; rfl
        obtain ⟨o', ho', halike⟩ := ih (hpolicy ▸ hcounts) hsame
        exact ⟨o', .again (Prod.ext hwrite' rfl) ho', halike⟩
  | done hne =>
      have halike := h.write hnewlines hcounts
      refine ⟨_, .done fun hinterrupted => ?_, halike⟩
      obtain ⟨-, hok⟩ | ⟨cause, hcause, hcause'⟩ := halike.answers
      · rw [hinterrupted] at hok
        cases hok
      · exact hne (hcause.trans (hcause'.symm.trans hinterrupted))

/-- So does all that is written, whatever it is, if there is anything. -/
theorem SameCounts.writeAll (h : s.SameCounts s') (hcounts : s.policy.ByCounts) (hbytes : bytes ≠ [])
    (hbytes' : bytes' ≠ []) :
    ∃ t t', t.SameCounts t' ∧
      ((Writer.writeAll s bytes = (.ok (), t) ∧ Writer.writeAll s' bytes' = (.ok (), t')) ∨
        ∃ cause, Writer.writeAll s bytes = (.error cause, t) ∧
          Writer.writeAll s' bytes' = (.error cause, t') ∧
          t.received.toList = s.received.toList ∧ t'.received.toList = s'.received.toList) := by
  have hanswers := s.answers_answer bytes
  generalize Writer.answer s bytes = o at hanswers
  obtain ⟨r, t⟩ := o
  obtain ⟨⟨r', t'⟩, hanswers', hsame, halike⟩ := hanswers.sameCounts hnewlines hcounts h
  refine ⟨t, t', hsame, ?_⟩
  obtain ⟨rfl, rfl⟩ | ⟨cause, rfl, rfl⟩ := halike
  · exact .inl ⟨writeAll_of_answers_whole hbytes hanswers,
      writeAll_of_answers_whole hbytes' hanswers'⟩
  · exact .inr ⟨cause, writeAll_of_answers_error hbytes hanswers,
      writeAll_of_answers_error hbytes' hanswers', hanswers.received_of_error rfl,
      hanswers'.received_of_error rfl⟩

end Counts

/-- The same pieces come to the same in two sinks of the same counts, and as much of them reaches
both. -/
theorem SameCounts.writePieces (h : s.SameCounts s') (hcounts : s.policy.ByCounts)
    (pieces : List (List Byte)) :
    ∃ result t t' out, s.writePieces pieces = (result, t) ∧
      s'.writePieces pieces = (result, t') ∧ t.SameCounts t' ∧
      t.received.toList = s.received.toList ++ out ∧
      t'.received.toList = s'.received.toList ++ out := by
  induction pieces generalizing s s' with
  | nil => exact ⟨_, s, s', [], rfl, rfl, h, (List.append_nil _).symm, (List.append_nil _).symm⟩
  | cons piece rest ih =>
      by_cases hpiece : piece = []
      · subst hpiece
        exact ih h hcounts
      · rw [Sink.writePieces, Sink.writePieces]
        obtain ⟨t, t', hsame, ⟨hwrite, hwrite'⟩ | ⟨cause, hwrite, hwrite', hnone, hnone'⟩⟩ :=
          h.writeAll rfl hcounts hpiece hpiece
        · obtain ⟨hpolicy, hreceived⟩ := received_of_writeAll_eq_ok hwrite
          obtain ⟨-, hreceived'⟩ := received_of_writeAll_eq_ok hwrite'
          obtain ⟨result, u, u', out, hrest, hrest', hsame', hout, hout'⟩ :=
            ih hsame (hpolicy ▸ hcounts)
          rw [hwrite, hwrite']
          refine ⟨result, u, u', piece ++ out, hrest, hrest', hsame', ?_, ?_⟩
          · rw [hout, hreceived, List.append_assoc]
          · rw [hout', hreceived', List.append_assoc]
        · rw [hwrite, hwrite']
          refine ⟨_, t, t', [], rfl, rfl, hsame, ?_, ?_⟩
          · rw [hnone, List.append_nil]
          · rw [hnone', List.append_nil]

end ClockStep.Sink
