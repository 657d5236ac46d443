import ClockStep.Keyboard.Piped
import Mathlib.Data.List.Basic

/-!
# What a Piped Keyboard Hands On

The reader of a piped keyboard and the machine that polls it take turns as they like. This module
follows any interleaving of the two from a keyboard whose source was not touched, and compares the
characters that the polls brought with the bytes of the source.

A poll takes the machine two turns. In the first it sees to it that there is a reader, and in the
second it looks into the queue; the reader may have turns in between, and so a byte may be there for
the very first poll, or the end of the source (`Polled`).

What holds between two turns is `Faithful`: the bytes that were taken, those in the queue and those
in the source make up the whole, in this order; a reader that is finished has left nothing in the
source, and a keyboard that is closed nothing in the queue. Each turn keeps it, by the cases of
`readerStep_cases` and `receive_cases`. That the end is noticed at last is a matter of counting: the
reader uses up the source, and after that the polls use up the queue.

## Convention

A poll **notes the end** when it finds the queue empty and the reader finished; that is what a
channel reports as disconnected. The reader's turns before the first poll are those of a reader that
is not there yet.

## Main results

* `play_poll`: a poll with no turn of the reader in it.
* `Faithful.play`: no turn loses, repeats or reorders a byte.
* `quiet_of_closed`: behind the end there is nothing more.
* `exists_end`: with turns enough for both, the end is noted.
* `input_complete_in_order`: all of it, for any interleaving.
-/

namespace ClockStep

/-- The characters that polls brought, in order. -/
def characters (polls : List Poll) : List Byte := polls.filterMap Poll.character?

/-- Whether a poll found that there is no more input. -/
def Poll.NotesEnd (p : Poll) : Prop := Notice.inputEnded ∈ p.notices

namespace PipedKeyboard

/-! ### The cases of a turn -/

/-- The reader has nothing to do, or moves a byte, or comes to the end of the source. -/
theorem readerStep_cases (k : PipedKeyboard) :
    (k.reader ≠ .reading ∧ k.readerStep.2 = k) ∨
    (k.reader = .reading ∧ ∃ b rest, k.source = b :: rest ∧
      k.readerStep.2 = { k with source := rest, queue := k.queue ++ [b] }) ∨
    (k.reader = .reading ∧ k.source = [] ∧ k.readerStep.2 = { k with reader := .finished }) := by
  rw [readerStep]
  rcases hr : k.reader with _ | _ | _
  · exact .inl ⟨nofun, rfl⟩
  · rcases hs : k.source with _ | ⟨b, rest⟩
    · exact .inr (.inr ⟨rfl, rfl, rfl⟩)
    · exact .inr (.inl ⟨rfl, b, rest, rfl, rfl⟩)
  · exact .inl ⟨nofun, rfl⟩

/-- Once it was started there is a reader. -/
theorem reader_started (k : PipedKeyboard) : k.started.reader ≠ .idle := by
  rw [started]
  split
  · intro h
    cases h
  · assumption

/-- A reader that is there is not started again. -/
theorem started_of_ne_idle {k : PipedKeyboard} (h : k.reader ≠ .idle) : k.started = k := by
  rw [started, if_neg h]

/-- Starting the reader does not finish it. -/
theorem reader_started_eq_finished_iff {k : PipedKeyboard} :
    k.started.reader = .finished ↔ k.reader = .finished := by
  by_cases h : k.reader = .idle
  · rw [started, if_pos h, h]
    constructor <;> intro h <;> cases h
  · rw [started_of_ne_idle h]

/-- From a closed keyboard nothing is taken. From another one the first byte of the queue is taken; if
there is none, the end is noted or there is nothing for the time being. -/
theorem receive_cases (k : PipedKeyboard) :
    (k.closed = true ∧ k.receive = ({}, k)) ∨
    (k.closed = false ∧ ∃ b rest, k.queue = b :: rest ∧
      k.receive = ({ answer := .ok (some b) }, { k with queue := rest })) ∨
    (k.closed = false ∧ k.queue = [] ∧ k.reader = .finished ∧
      k.receive = ({ notices := [.inputEnded] }, { k with closed := true })) ∨
    (k.closed = false ∧ k.queue = [] ∧ k.reader ≠ .finished ∧ k.receive = ({}, k)) := by
  rw [receive]
  cases hc : k.closed with
  | true => exact .inl ⟨rfl, rfl⟩
  | false =>
      cases hq : k.queue with
      | cons b rest => exact .inr (.inl ⟨rfl, b, rest, rfl, rfl⟩)
      | nil =>
          by_cases hf : k.reader = .finished
          · exact .inr (.inr (.inl ⟨rfl, rfl, hf, by simp [hf]⟩))
          · exact .inr (.inr (.inr ⟨rfl, rfl, hf, by simp [hf]⟩))

/-- Whoever looks into the queue leaves the reader and the source alone. -/
theorem reader_receive (k : PipedKeyboard) :
    k.receive.2.reader = k.reader ∧ k.receive.2.source = k.source := by
  rcases k.receive_cases with
    ⟨-, hk⟩ | ⟨-, b, rest, -, hk⟩ | ⟨-, -, -, hk⟩ | ⟨-, -, -, hk⟩ <;> rw [hk] <;> exact ⟨rfl, rfl⟩

/-- Looking into the queue never fails. -/
theorem exists_answer_receive (k : PipedKeyboard) :
    ∃ character?, k.receive.1.answer = .ok character? := by
  rcases k.receive_cases with
    ⟨-, hk⟩ | ⟨-, b, rest, -, hk⟩ | ⟨-, -, -, hk⟩ | ⟨-, -, -, hk⟩ <;> rw [hk] <;> exact ⟨_, rfl⟩

/-! ### Turns -/

/-- A turn of one of the two parties. -/
inductive Turn where
  /-- The reader moves a byte, or comes to the end of the source. -/
  | reader
  /-- The machine begins a poll, or goes on with the poll that it has begun. -/
  | poller
deriving Repr, DecidableEq

/-- A keyboard, of which a poll may be half done. -/
structure Polled where
  keyboard : PipedKeyboard
  /-- Whether a poll has begun. -/
  begun : Bool := false
deriving Repr, DecidableEq

namespace Polled

/-- What a turn leaves, with the answer to the poll that ends with it, if one does. -/
def turn (p : Polled) : Turn → Option Poll × Polled
  | .reader => (none, { p with keyboard := p.keyboard.readerStep.2 })
  | .poller =>
    if p.begun then (some p.keyboard.receive.1, ⟨p.keyboard.receive.2, false⟩)
    else (none, ⟨p.keyboard.started, true⟩)

/-- Turns one after the other, with the answers to the polls. -/
def play : List Turn → Polled → List Poll × Polled
  | [], p => ([], p)
  | turn :: turns, p =>
    ((p.turn turn).1.toList ++ (play turns (p.turn turn).2).1, (play turns (p.turn turn).2).2)

/-- If the reader has no turn in between, the two turns of the machine are a poll. -/
theorem play_poll (k : PipedKeyboard) :
    play [.poller, .poller] ⟨k, false⟩ = ([k.poll.1], ⟨k.poll.2, false⟩) := rfl

/-- What a turn of the machine leaves: a poll is begun or ended. -/
theorem turn_poller_cases (p : Polled) :
    (p.begun = false ∧ p.turn .poller = (none, ⟨p.keyboard.started, true⟩)) ∨
    (p.begun = true ∧
      p.turn .poller = (some p.keyboard.receive.1, ⟨p.keyboard.receive.2, false⟩)) := by
  rw [turn]
  cases p.begun with
  | false => exact .inl ⟨rfl, rfl⟩
  | true => exact .inr ⟨rfl, rfl⟩

/-- Turns are played one part after the other. -/
theorem play_append (turns later : List Turn) (p : Polled) :
    play (turns ++ later) p =
      ((play turns p).1 ++ (play later (play turns p).2).1, (play later (play turns p).2).2) := by
  induction turns generalizing p with
  | nil => rfl
  | cons turn turns ih => rw [List.cons_append, play, ih, play, List.append_assoc]

/-- An answer among the answers is that of a poll that was begun, at some turn. -/
theorem exists_turn_of_play {turns : List Turn} {p : Polled} {earlier later : List Poll} {q : Poll}
    (h : (play turns p).1 = earlier ++ q :: later) :
    ∃ before after, (play before p).1 = earlier ∧ (play before p).2.begun = true ∧
      (play before p).2.keyboard.receive.1 = q ∧
      (play after ⟨(play before p).2.keyboard.receive.2, false⟩).1 = later := by
  induction turns generalizing p earlier with
  | nil => exact absurd h.symm (List.append_ne_nil_of_right_ne_nil _ (List.cons_ne_nil _ _))
  | cons turn turns ih =>
      have hquiet : (p.turn turn).1 = none → ∃ before after, (play before p).1 = earlier ∧
          (play before p).2.begun = true ∧ (play before p).2.keyboard.receive.1 = q ∧
          (play after ⟨(play before p).2.keyboard.receive.2, false⟩).1 = later := by
        intro hnone
        rw [play, hnone] at h
        obtain ⟨before, after, hbefore, hlater⟩ := ih h
        refine ⟨turn :: before, after, ?_, hlater⟩
        rw [play, hnone, hbefore]
        rfl
      cases turn with
      | reader => exact hquiet rfl
      | poller =>
          obtain ⟨-, hturn⟩ | ⟨hbegun, hturn⟩ := p.turn_poller_cases
          · exact hquiet (congrArg Prod.fst hturn)
          · rw [play, hturn] at h
            cases earlier with
            | nil =>
                obtain ⟨hfirst, hlater⟩ := List.cons.inj h
                exact ⟨[], turns, rfl, hbegun, hfirst, hlater⟩
            | cons first earlier =>
                obtain ⟨hfirst, hrest⟩ := List.cons.inj h
                obtain ⟨before, after, hbefore, hlater⟩ := ih hrest
                refine ⟨.poller :: before, after, ?_, ?_⟩
                · rw [play, hturn, hbefore, hfirst]
                  rfl
                · rw [play, hturn]
                  exact hlater

/-- Before the first poll begins nothing happens. -/
theorem play_of_idle {turns : List Turn} {p : Polled} (hp : p.keyboard.reader = .idle)
    (h : .poller ∉ turns) : play turns p = ([], p) := by
  induction turns with
  | nil => rfl
  | cons turn turns ih =>
      rw [List.mem_cons, not_or] at h
      obtain ⟨hturn, hturns⟩ := h
      cases turn with
      | poller => exact absurd rfl hturn
      | reader =>
          have hidle : p.keyboard.readerStep.2 = p.keyboard := by rw [readerStep, hp]
          rw [play, turn, hidle]
          exact ih hturns

/-! ### No byte is lost -/

/-- A keyboard that hands on some bytes, of which some were taken already. -/
structure Faithful (bytes taken : List Byte) (p : Polled) : Prop where
  accounted : taken ++ (p.keyboard.queue ++ p.keyboard.source) = bytes
  drained : p.keyboard.reader = .finished → p.keyboard.source = []
  emptied : p.keyboard.closed = true → p.keyboard.reader = .finished ∧ p.keyboard.queue = []
  /-- There is a reader when a poll has begun. -/
  ready : p.begun = true → p.keyboard.reader ≠ .idle

variable {bytes taken : List Byte} {p : Polled} {turns : List Turn}

/-- A turn of the reader takes nothing. -/
theorem Faithful.reader (h : Faithful bytes taken p) :
    Faithful bytes taken (p.turn .reader).2 := by
  obtain ⟨haccounted, hdrained, hemptied, hready⟩ := h
  rw [turn]
  rcases p.keyboard.readerStep_cases with ⟨-, hk⟩ | ⟨hr, b, rest, hs, hk⟩ | ⟨hr, hs, hk⟩ <;> rw [hk]
  · exact ⟨haccounted, hdrained, hemptied, hready⟩
  · refine ⟨?_, fun hf => ?_, fun hc => ?_, hready⟩
    · rw [hs] at haccounted
      rw [← haccounted, List.append_assoc]
      rfl
    · rw [hr] at hf
      cases hf
    · have hf := (hemptied hc).1
      rw [hr] at hf
      cases hf
  · exact ⟨haccounted, fun _ => hs, fun hc => ⟨rfl, (hemptied hc).2⟩, fun _ => nofun⟩

/-- Nor does the beginning of a poll. -/
theorem Faithful.started (h : Faithful bytes taken p) :
    Faithful bytes taken ⟨p.keyboard.started, true⟩ := by
  have hreader := p.keyboard.reader_started
  have hfinished := reader_started_eq_finished_iff (k := p.keyboard)
  rw [started_eq] at hreader hfinished ⊢
  exact ⟨h.accounted, fun hf => h.drained (hfinished.1 hf),
    fun hc => ⟨hfinished.2 (h.emptied hc).1, (h.emptied hc).2⟩, fun _ => hreader⟩

/-- The end of a poll takes what it brings. -/
theorem Faithful.received (h : Faithful bytes taken p) :
    Faithful bytes (taken ++ characters [p.keyboard.receive.1]) ⟨p.keyboard.receive.2, false⟩ := by
  have hnone : taken ++ [] = taken := List.append_nil taken
  have hidle : Faithful bytes taken ⟨p.keyboard, false⟩ := ⟨h.accounted, h.drained, h.emptied, nofun⟩
  rcases p.keyboard.receive_cases with
    ⟨-, hk⟩ | ⟨hc, b, rest, hq, hk⟩ | ⟨-, hq, hf, hk⟩ | ⟨-, -, -, hk⟩ <;> rw [hk]
  · exact hnone.symm ▸ hidle
  · refine ⟨?_, h.drained, fun hc' => ?_, nofun⟩
    · have haccounted := h.accounted
      rw [hq] at haccounted
      rw [← haccounted, List.append_assoc]
      rfl
    · rw [hc] at hc'
      cases hc'
  · exact hnone.symm ▸ ⟨h.accounted, h.drained, fun _ => ⟨hf, hq⟩, nofun⟩
  · exact hnone.symm ▸ hidle

/-- A turn takes the character that its poll brings, if a poll ends with it. -/
theorem Faithful.turn (h : Faithful bytes taken p) (turn : Turn) :
    Faithful bytes (taken ++ characters (p.turn turn).1.toList) (p.turn turn).2 := by
  have hnone : taken ++ characters [] = taken := List.append_nil taken
  cases turn with
  | reader => exact hnone.symm ▸ h.reader
  | poller =>
      obtain ⟨-, hturn⟩ | ⟨-, hturn⟩ := p.turn_poller_cases <;> rw [hturn]
      · exact hnone.symm ▸ h.started
      · exact h.received

/-- **No turn loses, repeats or reorders a byte.** -/
theorem Faithful.play (h : Faithful bytes taken p) (turns : List Turn) :
    Faithful bytes (taken ++ characters (play turns p).1) (play turns p).2 := by
  induction turns generalizing taken p with
  | nil => exact (List.append_nil taken).symm ▸ h
  | cons turn turns ih =>
      have hlater := ih (h.turn turn)
      rw [List.append_assoc, characters, characters, ← List.filterMap_append] at hlater
      exact hlater

/-- Who notes the end has all bytes behind it, and closes the keyboard. -/
theorem Faithful.of_notesEnd (h : Faithful bytes taken p)
    (hend : p.keyboard.receive.1.NotesEnd) :
    taken = bytes ∧ p.keyboard.receive.1.answer = .ok none ∧
      p.keyboard.receive.2.closed = true := by
  rcases p.keyboard.receive_cases with
    ⟨-, hk⟩ | ⟨-, b, rest, -, hk⟩ | ⟨-, hq, hf, hk⟩ | ⟨-, -, -, hk⟩ <;> rw [hk] at hend ⊢
  · cases hend
  · cases hend
  · have haccounted := h.accounted
    rw [hq, h.drained hf, List.append_nil, List.append_nil] at haccounted
    exact ⟨haccounted, rfl, rfl⟩
  · cases hend

/-- A closed keyboard stays closed, and brings nothing. -/
theorem turn_of_closed (h : p.keyboard.closed = true) (turn : Turn) :
    (p.turn turn).2.keyboard.closed = true ∧
      ∀ q ∈ (p.turn turn).1, q.answer = .ok none ∧ ¬q.NotesEnd := by
  cases turn with
  | reader =>
      refine ⟨?_, nofun⟩
      rw [Polled.turn]
      rcases p.keyboard.readerStep_cases with ⟨-, hk⟩ | ⟨-, b, rest, -, hk⟩ | ⟨-, -, hk⟩ <;>
        rw [hk] <;> exact h
  | poller =>
      obtain ⟨-, hturn⟩ | ⟨-, hturn⟩ := p.turn_poller_cases <;> rw [hturn]
      · refine ⟨?_, nofun⟩
        rw [started_eq]
        exact h
      · rcases p.keyboard.receive_cases with ⟨-, hk⟩ | ⟨ho, -⟩ | ⟨ho, -⟩ | ⟨ho, -⟩
        · rw [hk]
          refine ⟨h, fun q hq => ?_⟩
          obtain rfl := Option.mem_some_iff.1 hq
          exact ⟨rfl, List.not_mem_nil⟩
        all_goals
          rw [h] at ho
          cases ho

/-- **Behind the end there is nothing more.** -/
theorem quiet_of_closed (h : p.keyboard.closed = true) (turns : List Turn) :
    ∀ q ∈ (play turns p).1, q.answer = .ok none ∧ ¬q.NotesEnd := by
  induction turns generalizing p with
  | nil => exact List.forall_mem_nil _
  | cons turn turns ih =>
      obtain ⟨hclosed, hquiet⟩ := turn_of_closed h turn
      exact List.forall_mem_append.2 ⟨fun q hq => hquiet q (Option.mem_toList.1 hq), ih hclosed⟩

/-- No poll fails. -/
theorem exists_answer_of_mem_play {q : Poll} (h : q ∈ (play turns p).1) :
    ∃ character?, q.answer = .ok character? := by
  obtain ⟨earlier, later, hplay⟩ := List.append_of_mem h
  obtain ⟨before, -, -, -, rfl, -⟩ := exists_turn_of_play hplay
  exact (Polled.play before p).2.keyboard.exists_answer_receive

/-! ### The end is noted -/

/-- A turn of the machine leaves the source alone, and the reader if there is one. -/
theorem turn_poller_of_ne_idle (h : p.keyboard.reader ≠ .idle) :
    (p.turn .poller).2.keyboard.reader = p.keyboard.reader ∧
      (p.turn .poller).2.keyboard.source = p.keyboard.source := by
  obtain ⟨-, hturn⟩ | ⟨-, hturn⟩ := p.turn_poller_cases <;> rw [hturn]
  · rw [started_of_ne_idle h]
    exact ⟨rfl, rfl⟩
  · exact p.keyboard.reader_receive

/-- A reader with more turns than there are bytes in the source comes to its end. -/
theorem finished_of_length_lt (hp : p.keyboard.reader ≠ .idle)
    (h : p.keyboard.reader = .finished ∨ p.keyboard.source.length < turns.count .reader) :
    (play turns p).2.keyboard.reader = .finished := by
  induction turns generalizing p with
  | nil => exact h.resolve_right (Nat.not_lt_zero _)
  | cons turn turns ih =>
      cases turn with
      | reader =>
          rcases p.keyboard.readerStep_cases with ⟨hr, hk⟩ | ⟨hr, b, rest, hs, hk⟩ | ⟨hr, hs, hk⟩ <;>
            rw [play, turn, hk]
          · have hf : p.keyboard.reader = .finished := by
              cases hreader : p.keyboard.reader with
              | idle => exact absurd hreader hp
              | reading => exact absurd hreader hr
              | finished => rfl
            exact ih hp (.inl hf)
          · refine ih hp (.inr ?_)
            obtain hf | hlength := h
            · rw [hr] at hf
              cases hf
            · rw [hs, List.length_cons, List.count_cons_self] at hlength
              exact Nat.lt_of_succ_lt_succ hlength
          · exact ih nofun (.inl rfl)
      | poller =>
          obtain ⟨hreader, hsource⟩ := turn_poller_of_ne_idle hp
          refine ih (hreader ▸ hp) ?_
          rw [hreader, hsource]
          rwa [List.count_cons_of_ne (by simp)] at h

/-- The turns that the machine needs to take the bytes of the queue, and to see that it is empty: two
for each poll, but for one that has begun. -/
def turnsNeeded (p : Polled) : Nat := 2 * p.keyboard.queue.length + if p.begun then 1 else 2

/-- Once the reader is finished, with the turns that are needed the end is noted. -/
theorem exists_end_of_turnsNeeded_le (hf : p.keyboard.reader = .finished)
    (hc : p.keyboard.closed = false) (h : p.turnsNeeded ≤ turns.count .poller) :
    ∃ q ∈ (play turns p).1, q.NotesEnd := by
  have hne : p.keyboard.reader ≠ .idle := by rw [hf]; exact nofun
  induction turns generalizing p with
  | nil =>
      rw [turnsNeeded, List.count_nil] at h
      split at h <;> omega
  | cons turn turns ih =>
      cases turn with
      | reader =>
          rw [List.count_cons_of_ne (by simp)] at h
          rcases p.keyboard.readerStep_cases with ⟨-, hk⟩ | ⟨hr, -⟩ | ⟨hr, -⟩
          · rw [play, turn, hk]
            exact ih hf hc h hne
          all_goals
            rw [hf] at hr
            cases hr
      | poller =>
          rw [List.count_cons_self, turnsNeeded] at h
          obtain ⟨hbegun, hturn⟩ | ⟨hbegun, hturn⟩ := p.turn_poller_cases <;> rw [play, hturn] <;>
            rw [hbegun] at h
          · rw [started_of_ne_idle hne]
            exact ih hf hc (Nat.le_of_succ_le_succ h) hne
          · rcases p.keyboard.receive_cases with
              ⟨ho, -⟩ | ⟨-, b, rest, hq, hk⟩ | ⟨-, -, -, hk⟩ | ⟨-, -, hr, -⟩
            · rw [hc] at ho
              cases ho
            · rw [hk]
              rw [hq, List.length_cons] at h
              have hlater : ∃ q ∈ (play turns ⟨{ p.keyboard with queue := rest }, false⟩).1,
                  q.NotesEnd := ih hf hc (Nat.le_of_succ_le_succ h) hne
              obtain ⟨q, hmem, hend⟩ := hlater
              exact ⟨q, List.mem_append_right _ hmem, hend⟩
            · rw [hk]
              exact ⟨_, List.mem_append_left _ (List.mem_singleton_self _),
                List.mem_singleton_self _⟩
            · exact absurd hf hr

/-- A keyboard that was closed by turns has noted the end in one of them. -/
theorem exists_end_of_closed (hp : p.keyboard.closed = false)
    (h : (play turns p).2.keyboard.closed = true) : ∃ q ∈ (play turns p).1, q.NotesEnd := by
  induction turns generalizing p with
  | nil =>
      rw [play, hp] at h
      cases h
  | cons turn turns ih =>
      have hgoOn : (p.turn turn).2.keyboard.closed = false →
          ∃ q ∈ (play (turn :: turns) p).1, q.NotesEnd := by
        intro hopen
        obtain ⟨q, hmem, hend⟩ := ih hopen h
        exact ⟨q, List.mem_append_right _ hmem, hend⟩
      cases turn with
      | reader =>
          refine hgoOn ?_
          rw [Polled.turn]
          rcases p.keyboard.readerStep_cases with ⟨-, hk⟩ | ⟨-, b, rest, -, hk⟩ | ⟨-, -, hk⟩ <;>
            rw [hk] <;> exact hp
      | poller =>
          obtain ⟨-, hturn⟩ | ⟨-, hturn⟩ := p.turn_poller_cases
          · refine hgoOn ?_
            rw [hturn, started_eq]
            exact hp
          · rcases p.keyboard.receive_cases with
              ⟨-, hk⟩ | ⟨-, b, rest, -, hk⟩ | ⟨-, -, -, hk⟩ | ⟨-, -, -, hk⟩
            · exact hgoOn (by rw [hturn, hk]; exact hp)
            · exact hgoOn (by rw [hturn, hk]; exact hp)
            · rw [play, hturn, hk]
              exact ⟨_, List.mem_append_left _ (List.mem_singleton_self _),
                List.mem_singleton_self _⟩
            · exact hgoOn (by rw [hturn, hk]; exact hp)

/-- There is a reader behind any turn of the machine. -/
theorem Faithful.ne_idle_turn (h : Faithful bytes taken p) :
    (p.turn .poller).2.keyboard.reader ≠ .idle := by
  obtain ⟨-, hturn⟩ | ⟨hbegun, hturn⟩ := p.turn_poller_cases <;> rw [hturn]
  · exact p.keyboard.reader_started
  · rw [p.keyboard.reader_receive.1]
    exact h.ready hbegun

/-- There are no more bytes in the queue, or in the source, than there are. -/
theorem Faithful.length_le (h : Faithful bytes taken p) :
    p.keyboard.queue.length + p.keyboard.source.length ≤ bytes.length := by
  have hlength := congrArg List.length h.accounted
  simp only [List.length_append] at hlength
  omega

/-- **With turns enough for both, the end is noted**: once a poll has begun, the reader has more turns
than there are bytes, and then the machine has two for each byte and two more. -/
theorem exists_end (h : Faithful bytes taken p) (hc : p.keyboard.closed = false)
    (opening : List Turn) {reading polling : List Turn}
    (hreading : bytes.length < reading.count .reader)
    (hpolling : 2 * bytes.length + 2 ≤ polling.count .poller) :
    ∃ q ∈ (play (opening ++ .poller :: (reading ++ polling)) p).1, q.NotesEnd := by
  have hsplit : opening ++ Turn.poller :: (reading ++ polling) =
      (opening ++ .poller :: reading) ++ polling := by simp
  rw [hsplit, play_append]
  have hread := h.play (opening ++ .poller :: reading)
  generalize hp : (play (opening ++ .poller :: reading) p).2 = p' at hread ⊢
  have hfinished : p'.keyboard.reader = .finished := by
    have hopened := h.play opening
    have hlength := (hopened.turn .poller).length_le
    rw [← hp, play_append]
    change (PipedKeyboard.Polled.play reading
      ((PipedKeyboard.Polled.play opening p).2.turn .poller).2).2.keyboard.reader = .finished
    exact finished_of_length_lt hopened.ne_idle_turn (.inr (by omega))
  cases hclosed : p'.keyboard.closed with
  | false =>
      have hneeded : p'.turnsNeeded ≤ polling.count .poller := by
        have hlength := hread.length_le
        rw [turnsNeeded]
        split <;> omega
      obtain ⟨q, hmem, hend⟩ := exists_end_of_turnsNeeded_le hfinished hclosed hneeded
      exact ⟨q, List.mem_append_right _ hmem, hend⟩
  | true =>
      obtain ⟨q, hmem, hend⟩ := exists_end_of_closed hc (hp ▸ hclosed)
      exact ⟨q, List.mem_append_left _ hmem, hend⟩

/-! ### Any interleaving -/

/-- A keyboard whose source was not touched hands on what is in it. -/
theorem faithful_new (bytes : List Byte) (failure : Option SystemError) :
    Faithful bytes [] { keyboard := { source := bytes, failure } } where
  accounted := rfl
  drained := nofun
  emptied := nofun
  ready := nofun

end Polled

open Polled (play Faithful)

/-- **Input arrives complete, in order, and once.** Take any source, with or without a failure
behind its last byte, and any turns of reader and machine; a poll takes two turns of the machine, and
the reader may have turns in the middle of it, so of the first one, too. No poll fails, and the
characters that the polls brought are a prefix of the bytes. When a poll notes the end, all bytes were
brought by the polls before it; neither it nor any later poll brings anything, and no later one notes
the end again. Before the first poll begins the keyboard is as it was, its source included. And the
end is noted, all bytes having been brought, if after some turn of the machine the reader has more
turns than there are bytes, and then the machine has two for each byte and two more. -/
theorem input_complete_in_order (bytes : List Byte) (failure : Option SystemError)
    (turns : List Turn) :
    let answers := (play turns { keyboard := { source := bytes, failure } }).1
    characters answers <+: bytes ∧
    (∀ p ∈ answers, ∃ character?, p.answer = .ok character?) ∧
    (∀ earlier p later, answers = earlier ++ p :: later → p.NotesEnd →
      characters earlier = bytes ∧ p.answer = .ok none ∧
        ∀ q ∈ later, q.answer = .ok none ∧ ¬q.NotesEnd) ∧
    (.poller ∉ turns → (play turns { keyboard := { source := bytes, failure } }).2 =
      { keyboard := { source := bytes, failure } }) ∧
    ∀ opening reading polling, turns = opening ++ .poller :: (reading ++ polling) →
      bytes.length < reading.count .reader → 2 * bytes.length + 2 ≤ polling.count .poller →
      (∃ p ∈ answers, p.NotesEnd) ∧ characters answers = bytes := by
  have hnew := Polled.faithful_new bytes failure
  have hbrought : ∀ turns : List Turn,
      characters (play turns { keyboard := { source := bytes, failure } }).1 <+: bytes := by
    intro turns
    exact ⟨_, (hnew.play turns).accounted⟩
  have hends : ∀ earlier p later,
      (play turns { keyboard := { source := bytes, failure } }).1 = earlier ++ p :: later →
      p.NotesEnd → characters earlier = bytes ∧ p.answer = .ok none ∧
        ∀ q ∈ later, q.answer = .ok none ∧ ¬q.NotesEnd := by
    intro earlier p later hplay hend
    obtain ⟨before, after, rfl, -, rfl, rfl⟩ := Polled.exists_turn_of_play hplay
    obtain ⟨htaken, hnone, hclosed⟩ := (hnew.play before).of_notesEnd hend
    exact ⟨htaken, hnone, Polled.quiet_of_closed (by exact hclosed) after⟩
  refine ⟨hbrought turns, fun p => Polled.exists_answer_of_mem_play, hends, fun hpoll => ?_, ?_⟩
  · rw [Polled.play_of_idle rfl hpoll]
  · intro opening reading polling hturns hreading hpolling
    have hend := Polled.exists_end hnew rfl opening hreading hpolling
    rw [← hturns] at hend
    refine ⟨hend, ?_⟩
    obtain ⟨p, hmem, hnotes⟩ := hend
    obtain ⟨earlier, later, hplay⟩ := List.append_of_mem hmem
    obtain ⟨hall, -⟩ := hends earlier p later hplay hnotes
    -- All bytes were brought before the end, and the polls bring no more than all.
    have hlonger : bytes <+:
        characters (play turns { keyboard := { source := bytes, failure } }).1 := by
      rw [hplay, characters, List.filterMap_append, ← characters, hall]
      exact List.prefix_append ..
    exact (hbrought turns).eq_of_length_le hlonger.length_le

/-- The reader comes to a failure behind two bytes in the middle of the first poll, which brings the
first byte already; the second poll brings the other one, and the third notes the end. -/
theorem input_complete_in_order_failing :
    let answers := (play (List.replicate 2 .reader ++ .poller ::
      (List.replicate 3 .reader ++ List.replicate 6 .poller))
      { keyboard := { source := [0x6f, 0x6b], failure := some .noDevice } }).1
    answers.map Poll.character? = [some 0x6f, some 0x6b, none] ∧
    characters answers = [0x6f, 0x6b] ∧ ∃ p ∈ answers, p.NotesEnd := by
  obtain ⟨-, -, -, -, hcomplete⟩ := input_complete_in_order [0x6f, 0x6b] (some .noDevice)
    (List.replicate 2 .reader ++ .poller ::
      (List.replicate 3 .reader ++ List.replicate 6 .poller))
  obtain ⟨hend, hall⟩ := hcomplete _ _ _ rfl (by decide) (by decide)
  exact ⟨rfl, hall, hend⟩

end PipedKeyboard

end ClockStep
