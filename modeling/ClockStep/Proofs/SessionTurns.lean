import ClockStep.Proofs.SessionRuns
import Mathlib.Data.List.Chain

/-!
# The Turns of a Session

A session deals with one occasion after the other: its opening, unless it is interactive, and then
the events in the order in which they happen. This module keeps a record of that: a **turn** for
each occasion that is dealt with, with the lines recorded by then and the session as it was when its
turn came (`turns`). The record is also kept for a session that finds no end within its fuel; its
last turn is then the one that does not end.

Two things are to be said. The record is in order: it begins where the session began, and each turn
begins where the one before went on (`InOrder`). And the session comes to what the record's last
turn came to, the rest being unread (`Concludes`). Both are kept by one turn more, and that is how
they are shown for whole sessions.

## Convention

An input without further events is at its end. An event by which the surroundings of the machine
change is an occasion too, although the session does nothing about it.

## Main results

* `turns_inOrder`: the record is in order.
* `comesTo_run`: the session comes to what its last turn came to.
* `answer_of_limit?`: an occasion on which the machine runs comes to that run.
* `run_in_order`: all of it, with what dealing with each kind of occasion comes to.
-/

namespace ClockStep.Session

open Command (Failure Invocation Tokens)

/-! ### Occasions -/

/-- Something that a session deals with: that it opens, if the machine is to run first, or an
event. -/
inductive Occasion (μ : Type) where
  | opening
  | read (event : Event μ)

namespace Occasion

variable {μ : Type}

/-- Whether the machine is to go on: the session opens, or the line is blank. -/
def GoesOn : Occasion μ → Prop
  | .opening => True
  | .read (.line text) => Text.allBlank text.toList = true
  | .read _ => False

/-- The line that goes into the history, if there is one. -/
def recorded : Occasion μ → List String
  | .read (.line text) => if Text.allBlank text.toList then [] else [text]
  | .opening | .read _ => []

/-- How far the machine runs, if it does. -/
def limit? : Occasion μ → Option Limit
  | .opening => some .unbounded
  | .read (.line text) =>
    if Text.allBlank text.toList then some .unbounded else commandLimit? text
  | .read _ => none

/-- Where the machine is to go on, nothing is recorded. -/
theorem recorded_of_goesOn {occasion : Occasion μ} (h : occasion.GoesOn) :
    occasion.recorded = [] := by
  rcases occasion with _ | ⟨text⟩ | _ | _ | _ | _
  · rfl
  · exact if_pos h
  all_goals exact h.elim

/-- Where the machine is to go on, it runs without a limit. -/
theorem limit?_of_goesOn {occasion : Occasion μ} (h : occasion.GoesOn) :
    occasion.limit? = some .unbounded := by
  rcases occasion with _ | ⟨text⟩ | _ | _ | _ | _
  · rfl
  · exact if_pos h
  all_goals exact h.elim

end Occasion

/-- What a session has to deal with, in order. -/
def occasions {μ : Type} (interactive : Bool) (events : List (Event μ)) : List (Occasion μ) :=
  if interactive then events.map .read else .opening :: events.map .read

variable {γ κ : Type} [Core γ] [Keyboard κ]

/-- What a session does on an occasion. -/
def answer (fuel : Nat) : Occasion (Machine γ κ) → Action γ κ ProgramError Flow
  | .opening => continueRunning fuel
  | .read (.line text) =>
    if Text.allBlank text.toList then continueRunning fuel else handle fuel text
  | .read .interrupt => do
    say .system .plain "CTRL+C caught, press CTRL+D to exit."
    return .continue
  | .read .endOfInput => pure .quit
  | .read (.failure cause) => throw (.system cause)
  | .read (.meanwhile change) => do
    modify fun s => { s with machine := change s.machine }
    return .continue

/-! ### Turns -/

/-- An occasion that is dealt with. -/
structure Turn (γ κ : Type) where
  occasion : Occasion (Machine γ κ)
  /-- The lines in the history by then, that of the occasion included. -/
  history : List String
  /-- The session as it was. -/
  session : Session γ κ

/-- What a turn comes to. -/
def Turn.answer (fuel : Nat) (t : Turn γ κ) : Option (Except ProgramError Flow × Session γ κ) :=
  Session.answer fuel t.occasion t.session

/-- The turns of a session, up to the first that does not go on. -/
def turns (fuel : Nat) :
    List (Occasion (Machine γ κ)) → List String → Session γ κ → List (Turn γ κ)
  | [], _, _ => []
  | occasion :: due, history, s =>
    let turn : Turn γ κ := ⟨occasion, history ++ occasion.recorded, s⟩
    turn :: match turn.answer fuel with
      | some (.ok .continue, s') => turns fuel due turn.history s'
      | _ => []

/-- What a session comes to by its record: what its last turn came to, if there was one. -/
def lastAnswer (fuel : Nat) (s : Session γ κ) (record : List (Turn γ κ)) :
    Option (Except ProgramError Flow × Session γ κ) :=
  match record.getLast? with
  | none => some (.ok .continue, s)
  | some t => t.answer fuel

variable {fuel : Nat} {occasion : Occasion (Machine γ κ)} {due : List (Occasion (Machine γ κ))}
  {history : List String} {s s' : Session γ κ} {record : List (Turn γ κ)}

/-- A turn that goes on is followed by the turns behind it. -/
theorem turns_of_continue (h : answer fuel occasion s = some (.ok .continue, s')) :
    turns fuel (occasion :: due) history s =
      ⟨occasion, history ++ occasion.recorded, s⟩ ::
        turns fuel due (history ++ occasion.recorded) s' := by
  rw [turns, Turn.answer, h]

/-- Any other turn is the last. -/
theorem turns_of_end (h : ∀ s', answer fuel occasion s ≠ some (.ok .continue, s')) :
    turns fuel (occasion :: due) history s = [⟨occasion, history ++ occasion.recorded, s⟩] := by
  rw [turns, Turn.answer]
  split
  · next s' hs => exact absurd hs (h s')
  · rfl

/-- Behind a turn that goes on, the last answer is that of the others. -/
theorem lastAnswer_cons {t : Turn γ κ} (h : t.answer fuel = some (.ok .continue, s')) :
    lastAnswer fuel s (t :: record) = lastAnswer fuel s' record := by
  cases record with
  | nil => exact h
  | cons next later =>
      obtain ⟨last, hlast⟩ := Option.isSome_iff_exists.1
        (show (next :: later).getLast?.isSome from List.getLast?_isSome.2 nofun)
      rw [lastAnswer, lastAnswer, List.getLast?_cons_cons, hlast]

/-! ### The record is in order -/

/-- A record is in order: it deals with what is due, from the first occasion on and leaving none
out; it begins with the session as it was, each turn begins with the session that the one before
left, and only the last turn may come to anything but going on. -/
structure InOrder (fuel : Nat) (due : List (Occasion (Machine γ κ))) (history : List String)
    (s : Session γ κ) (record : List (Turn γ κ)) : Prop where
  dealt : record.map (·.occasion) <+: due
  first : ∀ t ∈ record.head?, t.session = s
  next : record.IsChain fun t next => t.answer fuel = some (.ok .continue, next.session)
  recorded : ∀ k t, record[k]? = some t →
    t.history = history ++ (due.take (k + 1)).flatMap Occasion.recorded

/-- A single turn is in order. -/
theorem inOrder_singleton :
    InOrder fuel (occasion :: due) history s
      [⟨occasion, history ++ occasion.recorded, s⟩] where
  dealt := ⟨due, rfl⟩
  first t ht := by
    cases ht
    rfl
  next := .singleton _
  recorded k t ht := by
    obtain ⟨rfl, rfl⟩ : k = 0 ∧ _ = t := by
      rcases k with _ | k
      · exact ⟨rfl, Option.some.inj ht⟩
      · cases ht
    simp

/-- A turn that goes on, before turns in order, is in order. -/
theorem InOrder.cons (hnext : answer fuel occasion s = some (.ok .continue, s'))
    (h : InOrder fuel due (history ++ occasion.recorded) s' record) :
    InOrder fuel (occasion :: due) history s
      (⟨occasion, history ++ occasion.recorded, s⟩ :: record) where
  dealt := List.cons_prefix_cons.2 ⟨rfl, h.dealt⟩
  first t ht := by
    cases ht
    rfl
  next := by
    refine List.isChain_cons.2 ⟨fun t ht => ?_, h.next⟩
    rw [h.first t ht]
    exact hnext
  recorded k t ht := by
    rcases k with _ | k
    · obtain rfl := Option.some.inj ht
      simp
    · rw [h.recorded k t ht]
      simp

/-- **The record is in order.** -/
theorem turns_inOrder (fuel : Nat) (due : List (Occasion (Machine γ κ))) (history : List String)
    (s : Session γ κ) : InOrder fuel due history s (turns fuel due history s) := by
  induction due generalizing history s with
  | nil =>
      refine ⟨List.prefix_rfl, fun t ht => ?_, .nil, fun k t ht => ?_⟩
      · cases ht
      · cases ht
  | cons occasion due ih =>
      by_cases h : ∃ s', answer fuel occasion s = some (.ok .continue, s')
      · obtain ⟨s', hs⟩ := h
        rw [turns_of_continue hs]
        exact (ih _ s').cons hs
      · rw [turns_of_end (not_exists.1 h)]
        exact inOrder_singleton

/-- No turn follows one that does not go on. -/
theorem InOrder.eq_nil_of_answer {earlier later : List (Turn γ κ)} {t : Turn γ κ}
    (h : InOrder fuel due history s (earlier ++ t :: later))
    (hend : ∀ s', t.answer fuel ≠ some (.ok .continue, s')) : later = [] := by
  cases later with
  | nil => rfl
  | cons next later =>
      exact (hend _ (List.isChain_iff_forall_rel_of_append_cons_cons.1 h.next rfl)).elim

/-! ### What the session comes to -/

/-- A session ends as its record does: with the result and the session that the last turn came to,
with the lines of all turns in the history, and without having read anything behind the last turn.
If the last turn would have gone on, there was nothing left. -/
structure Concludes (fuel : Nat) (due : List (Occasion (Machine γ κ))) (history : List String)
    (s : Session γ κ) (record : List (Turn γ κ)) (ending : Ending γ κ) : Prop where
  unread : due = record.map (·.occasion) ++ ending.unread.map .read
  history : ending.transcript.history.toList =
    history ++ record.flatMap fun t => t.occasion.recorded
  answered : ∃ flow, lastAnswer fuel s record = some (flow, ending.session) ∧
    ending.result = flow.map (fun _ => ()) ∧ (flow = .ok .continue → ending.unread = [])

/-- A session that ends with its first turn. -/
theorem concludes_singleton {events : List (Event (Machine γ κ))}
    {flow : Except ProgramError Flow} {t : Transcript}
    (h : answer fuel occasion s = some (flow, s')) (hflow : flow ≠ .ok .continue)
    (ht : t.history.toList = history ++ occasion.recorded) :
    Concludes fuel (occasion :: events.map .read) history s
      [⟨occasion, history ++ occasion.recorded, s⟩] ⟨flow.map fun _ => (), s', t, events⟩ where
  unread := rfl
  history := by rw [ht, List.flatMap_singleton]
  answered := ⟨flow, h, rfl, fun hcontinue => absurd hcontinue hflow⟩

/-- A turn that goes on, before turns that conclude a session, concludes it with them. -/
theorem Concludes.cons {ending : Ending γ κ}
    (hnext : answer fuel occasion s = some (.ok .continue, s'))
    (h : Concludes fuel due (history ++ occasion.recorded) s' record ending) :
    Concludes fuel (occasion :: due) history s
      (⟨occasion, history ++ occasion.recorded, s⟩ :: record) ending where
  unread := congrArg (occasion :: ·) h.unread
  history := by rw [h.history, List.flatMap_cons, List.append_assoc]
  answered := by
    rw [lastAnswer_cons (show Turn.answer fuel ⟨occasion, _, s⟩ = _ from hnext)]
    exact h.answered

/-- What a session comes to is told by its record. -/
structure ComesTo (fuel : Nat) (due : List (Occasion (Machine γ κ))) (history : List String)
    (s : Session γ κ) (ending? : Option (Ending γ κ)) : Prop where
  endless : ending? = none ↔ lastAnswer fuel s (turns fuel due history s) = none
  ends : ∀ ending, ending? = some ending →
    Concludes fuel due history s (turns fuel due history s) ending

/-- How a dialogue goes on after an occasion, given what dealing with it came to: with what follows,
unless it ends here. -/
def followed (followUp : Session γ κ → Option (Ending γ κ)) (t : Transcript)
    (unread : List (Event (Machine γ κ))) :
    Option (Except ProgramError Flow × Session γ κ) → Option (Ending γ κ)
  | none => none
  | some (.ok .continue, s) => followUp s
  | some (.ok .quit, s) => some ⟨.ok (), s, t, unread⟩
  | some (.error e, s) => some ⟨.error e, s, t, unread⟩

/-- One occasion more. -/
theorem comesTo_cons {followUp : Session γ κ → Option (Ending γ κ)} {t : Transcript}
    {events : List (Event (Machine γ κ))}
    (ht : t.history.toList = history ++ occasion.recorded)
    (hlater : ∀ s', ComesTo fuel (events.map .read) (history ++ occasion.recorded) s'
      (followUp s')) :
    ComesTo fuel (occasion :: events.map .read) history s
      (followed followUp t events (answer fuel occasion s)) := by
  by_cases hnext : ∃ s', answer fuel occasion s = some (.ok .continue, s')
  · obtain ⟨s', hs⟩ := hnext
    obtain ⟨hendless, hends⟩ := hlater s'
    rw [hs]
    constructor
    · rw [turns_of_continue hs,
        lastAnswer_cons (show Turn.answer fuel ⟨occasion, _, s⟩ = _ from hs)]
      exact hendless
    · intro ending hending
      rw [turns_of_continue hs]
      exact (hends ending hending).cons hs
  · -- the dialogue ends with this occasion, or not at all
    have hlast : lastAnswer fuel s [⟨occasion, history ++ occasion.recorded, s⟩] =
      answer fuel occasion s := rfl
    constructor
    · rw [turns_of_end (not_exists.1 hnext), hlast]
      rcases hs : answer fuel occasion s with _ | ⟨e | _ | _, s'⟩
      · exact iff_of_true rfl rfl
      · exact iff_of_false nofun nofun
      · exact (hnext ⟨s', hs⟩).elim
      · exact iff_of_false nofun nofun
    · intro ending hending
      rw [turns_of_end (not_exists.1 hnext)]
      rcases hs : answer fuel occasion s with _ | ⟨e | _ | _, s'⟩ <;> rw [hs] at hending
      · cases hending
      · cases hending
        exact concludes_singleton hs nofun ht
      · exact (hnext ⟨s', hs⟩).elim
      · cases hending
        exact concludes_singleton hs nofun ht

/-- Whether an event is a change of the surroundings, after which no line is asked for again. -/
def Event.isMeanwhile {μ : Type} : Event μ → Bool
  | .meanwhile _ => true
  | .line _ | .interrupt | .endOfInput | .failure _ => false

/-- A transcript when the session turns to an event: a line was asked for, and one that goes into the
history is there. -/
def Transcript.turn (t : Transcript) (asked : Bool) (s : Session γ κ)
    (event : Event (Machine γ κ)) : Transcript :=
  { if asked then t else t.ask s with
    history := t.history ++ (Occasion.read event).recorded.toArray }

omit [Core γ] [Keyboard κ] in
/-- Each event records its own line behind the others. -/
theorem history_turn (t : Transcript) (asked : Bool) (s : Session γ κ)
    (event : Event (Machine γ κ)) :
    (t.turn asked s event).history.toList =
      t.history.toList ++ (Occasion.read event).recorded :=
  Array.toList_append ..

omit [Core γ] [Keyboard κ] in
/-- An event that records nothing only asks, and only if nothing was asked yet. -/
theorem turn_of_recorded {event : Event (Machine γ κ)}
    (h : (Occasion.read event).recorded = []) (t : Transcript) (asked : Bool) (s : Session γ κ) :
    t.turn asked s event = if asked then t else t.ask s := by
  rw [Transcript.turn, h, Array.append_empty]
  cases asked <;> rfl

/-- A dialogue deals with its first event and goes on. -/
theorem converse_cons (fuel : Nat) (asked : Bool) (event : Event (Machine γ κ))
    (events : List (Event (Machine γ κ))) (t : Transcript) (s : Session γ κ) :
    converse fuel asked (event :: events) t s =
      followed (converse fuel event.isMeanwhile events (t.turn asked s event))
        (t.turn asked s event) events (answer fuel (.read event) s) := by
  cases event with
  | line text =>
      rcases hblank : Text.allBlank text.toList with _ | _
      · have hturn : t.turn asked s (.line text) = { (if asked then t else t.ask s) with
            history := (if asked then t else t.ask s).history.push text } := by
          rw [Transcript.turn, Occasion.recorded, hblank]
          cases asked <;> rfl
        simp only [converse, answer, hblank, hturn, Bool.false_eq_true, if_false]
        rcases handle fuel text s with _ | ⟨e | _ | _, s'⟩ <;> rfl
      · rw [turn_of_recorded (by simp [Occasion.recorded, hblank])]
        simp only [converse, answer, hblank, if_true]
        rcases continueRunning fuel s with _ | ⟨e | _ | _, s'⟩ <;> rfl
  | interrupt =>
      rw [turn_of_recorded rfl]
      simp only [converse, answer]
      generalize (do
        say .system .plain "CTRL+C caught, press CTRL+D to exit."
        return .continue : Action γ κ ProgramError Flow) s = answered
      rcases answered with _ | ⟨e | _ | _, s'⟩ <;> rfl
  | endOfInput | failure cause | meanwhile change =>
      rw [turn_of_recorded rfl]
      rfl

/-- What the session loop comes to, by induction on the events. -/
theorem comesTo_converse (fuel : Nat) (asked : Bool) (events : List (Event (Machine γ κ)))
    (t : Transcript) (s : Session γ κ) :
    ComesTo fuel (events.map .read) t.history.toList s (converse fuel asked events t s) := by
  induction events generalizing asked t s with
  | nil =>
      refine ⟨iff_of_false nofun nofun, fun ending hending => ?_⟩
      cases hending
      refine ⟨rfl, ?_, .ok .continue, rfl, rfl, fun _ => rfl⟩
      cases asked <;> exact (List.append_nil _).symm
  | cons event events ih =>
      have hhistory := history_turn t asked s event
      rw [converse_cons, List.map_cons]
      refine comesTo_cons hhistory fun s' => ?_
      rw [← hhistory]
      exact ih _ _ s'

/-- Unless it is interactive, a session deals with its opening and goes on. -/
theorem run_of_not_interactive (fuel : Nat) (events : List (Event (Machine γ κ)))
    (s : Session γ κ) :
    run fuel false events s =
      followed (converse fuel false events {}) {} events (answer fuel .opening s) := by
  rw [run, if_neg Bool.false_ne_true, answer]
  rcases continueRunning fuel s with _ | ⟨e | _ | _, s'⟩ <;> rfl

/-- **A session comes to what its last turn came to.** -/
theorem comesTo_run (fuel : Nat) (interactive : Bool) (events : List (Event (Machine γ κ)))
    (s : Session γ κ) :
    ComesTo fuel (occasions interactive events) [] s (run fuel interactive events s) := by
  cases interactive with
  | true => exact comesTo_converse fuel false events {} s
  | false =>
      rw [run_of_not_interactive]
      exact comesTo_cons rfl fun s' => comesTo_converse fuel false events {} s'

/-- The session ends as its last turn did. -/
theorem exists_ending_of_last {interactive : Bool} {events : List (Event (Machine γ κ))}
    {flow : Except ProgramError Flow} {earlier : List (Turn γ κ)} {t : Turn γ κ}
    (hrecord : turns fuel (occasions interactive events) [] s = earlier ++ [t])
    (h : t.answer fuel = some (flow, s')) :
    ∃ ending, run fuel interactive events s = some ending ∧
      occasions interactive events =
        (turns fuel (occasions interactive events) [] s).map (·.occasion) ++
          ending.unread.map .read ∧
      ending.session = s' ∧ ending.result = flow.map (fun _ => ()) ∧
      (flow = .ok .continue → ending.unread = []) := by
  obtain ⟨hendless, hends⟩ := comesTo_run fuel interactive events s
  have hlast : lastAnswer fuel s (turns fuel (occasions interactive events) [] s) =
      some (flow, s') := by
    rw [hrecord, lastAnswer, List.getLast?_concat]
    exact h
  cases hrun : run fuel interactive events s with
  | none =>
      rw [hendless.1 hrun] at hlast
      cases hlast
  | some ending =>
      obtain ⟨hunread, -, flow', hanswered, hresult, hrest⟩ := hends ending hrun
      rw [hlast] at hanswered
      obtain ⟨rfl, rfl⟩ := Prod.mk.inj (Option.some.inj hanswered)
      exact ⟨ending, rfl, hunread, rfl, hresult, hrest⟩

/-! ### What turns come to -/

/-- **An occasion on which the machine runs comes to that run.** -/
theorem answer_of_limit? {limit : Limit} (h : occasion.limit? = some limit) (fuel : Nat)
    (s : Session γ κ) :
    answer fuel occasion s =
      (s.readied.machine.run fuel limit s.readied.breakpoints).map s.concluded := by
  have hgoOn : limit = .unbounded → continueRunning fuel s =
      (s.readied.machine.run fuel limit s.readied.breakpoints).map s.concluded := by
    rintro rfl
    exact attempt_runLoop fuel .unbounded "continue" "" s
  rcases occasion with _ | ⟨text⟩ | _ | _ | _ | _
  · exact hgoOn (Option.some.inj h).symm
  · rw [Occasion.limit?] at h
    rw [answer]
    rcases hblank : Text.allBlank text.toList with _ | _
    · rw [if_neg (by simp [hblank])] at h
      rw [if_neg Bool.false_ne_true]
      exact handle_of_commandLimit? h fuel s
    · rw [if_pos hblank] at h
      rw [if_pos rfl]
      exact hgoOn (Option.some.inj h).symm
  all_goals cases h

/-- A line that is not blank is handled. -/
theorem answer_of_not_goesOn {text : String}
    (h : ¬(Occasion.read (.line text) : Occasion (Machine γ κ)).GoesOn) (fuel : Nat)
    (s : Session γ κ) : answer fuel (.read (.line text)) s = handle fuel text s :=
  congrFun (if_neg h) s

/-- The operator is told how to leave, and that is all. -/
theorem answer_interrupt (fuel : Nat) (s : Session γ κ) :
    answer fuel (.read .interrupt) s =
      let told := s.printer.line .plain "CTRL+C caught, press CTRL+D to exit."
      some (told.1.mapError ProgramError.system |>.map fun _ => .continue,
        { s with printer := told.2 }) := by
  rw [answer, bind_apply, say_apply]
  rcases s.printer.line .plain "CTRL+C caught, press CTRL+D to exit." with
    ⟨(cause | ⟨⟩), printer⟩ <;> rfl

/-- An earlier request to stop does not matter to the machine's going on, nor to a command. -/
theorem answer_of_cancelled (h : occasion.GoesOn ∨ ∃ text d,
      occasion = .read (.line text) ∧ Command.lookup? (spellingOf text) = some d)
    (fuel : Nat) (s : Session γ κ) (cancelled : Bool) :
    answer fuel occasion { s with machine := { s.machine with cancelled } } =
      answer fuel occasion s := by
  by_cases hgoes : occasion.GoesOn
  · have hlimit := Occasion.limit?_of_goesOn hgoes
    rw [answer_of_limit? hlimit, answer_of_limit? hlimit]
    rfl
  · obtain ⟨text, d, rfl, hlookup⟩ := h.resolve_left hgoes
    rw [answer_of_not_goesOn hgoes, answer_of_not_goesOn hgoes,
      handle_of_lookup?_eq_some hlookup, handle_of_lookup?_eq_some hlookup]
    rfl

/-- **A session deals with every input once and in order.** The machine runs first unless the
session is interactive; then the events are read one by one, up to the first on which the session
ends, and none is read behind it. A line that is not blank is in the history when its turn comes,
also if it ends the session, and its turn is that its command is looked up, by a word that is not
empty, and carried out. On a blank line the machine runs without limit, and nothing is recorded. An
interrupt changes nothing but what the operator has been told. A request to stop that was made
before does not matter. -/
theorem run_in_order (fuel : Nat) (interactive : Bool) (events : List (Event (Machine γ κ)))
    (s : Session γ κ) :
    let due := occasions interactive events
    let record := turns fuel due [] s
    InOrder fuel due [] s record ∧ ComesTo fuel due [] s (run fuel interactive events s) ∧
    ∀ t ∈ record,
      (t.occasion.GoesOn → t.occasion.recorded = [] ∧ t.answer fuel =
        (t.session.readied.machine.run fuel .unbounded t.session.readied.breakpoints).map
          t.session.concluded) ∧
      (∀ text, t.occasion = .read (.line text) → ¬t.occasion.GoesOn →
        t.occasion.recorded = [text] ∧ (Tokens.ofLine text).next.1 ≠ [] ∧
        t.answer fuel = handle fuel text t.session) ∧
      (t.occasion = .read .interrupt → t.occasion.recorded = [] ∧ t.answer fuel =
        let told := t.session.printer.line .plain "CTRL+C caught, press CTRL+D to exit."
        some (told.1.mapError ProgramError.system |>.map fun _ => .continue,
          { t.session with printer := told.2 })) ∧
      (t.occasion = .read .endOfInput → t.answer fuel = some (.ok .quit, t.session)) ∧
      (∀ cause, t.occasion = .read (.failure cause) →
        t.answer fuel = some (.error (.system cause), t.session)) ∧
      ((t.occasion.GoesOn ∨ ∃ text d,
          t.occasion = .read (.line text) ∧ Command.lookup? (spellingOf text) = some d) →
        ∀ cancelled, answer fuel t.occasion
          { t.session with machine := { t.session.machine with cancelled } } = t.answer fuel) := by
  refine ⟨turns_inOrder .., comesTo_run .., ?_⟩
  rintro ⟨occasion, history, s⟩ -
  refine ⟨fun h => ?_, ?_, ?_, ?_, ?_, fun h => answer_of_cancelled h fuel s⟩
  · exact ⟨Occasion.recorded_of_goesOn h, answer_of_limit? (Occasion.limit?_of_goesOn h) fuel s⟩
  · rintro text rfl hline
    have hword : (Tokens.ofLine text).next.1 ≠ [] := fun hnil =>
      hline ((Tokens.next_eq_nil_iff _).1 hnil)
    exact ⟨if_neg hline, hword, answer_of_not_goesOn hline fuel s⟩
  · rintro rfl
    exact ⟨rfl, answer_interrupt fuel s⟩
  · rintro rfl
    rfl
  · rintro cause rfl
    rfl

/-- A bench session whose operator asks to stop at the second and the fifth poll. -/
def busySession : Session BenchCore BenchKeyboard :=
  { machine := { Machine.benchAtFetch with keyboard := { stops := [2, 5] } } }

/-- Lines of several kinds, an interrupt and a request to stop. -/
def busyEvents : List (Event (Machine BenchCore BenchKeyboard)) :=
  [.line " \t", .interrupt, .meanwhile .cancel, .line "  step", .line "q 1", .line "print"]

/-- The session ends with the line by which the operator quits: the lines of both commands are
recorded, the blank line is not, and the last line is not read. -/
theorem run_in_order_busy :
    ∃ ending, run 20 false busyEvents busySession = some ending ∧
      ending.transcript.history.toList = ["  step", "q 1"] ∧ ending.unread = [.line "print"] ∧
      ending.result = .ok () := by
  obtain ⟨horder, hcomes, -⟩ := run_in_order 20 false busyEvents busySession
  have hlength : (turns 20 (occasions false busyEvents) [] busySession).length = 6 := by
    decide +kernel
  have hdealt := List.prefix_iff_eq_take.1 horder.dealt
  rw [List.length_map, hlength] at hdealt
  have hquit : (lastAnswer 20 busySession
      (turns 20 (occasions false busyEvents) [] busySession)).map (·.1) = some (.ok .quit) := by
    decide +kernel
  obtain ⟨ending, hending⟩ : ∃ ending, run 20 false busyEvents busySession = some ending := by
    refine Option.ne_none_iff_exists'.1 fun hnone => ?_
    rw [hcomes.endless.1 hnone] at hquit
    cases hquit
  obtain ⟨hunread, hhistory, flow, hlast, hresult, -⟩ := hcomes.ends ending hending
  refine ⟨ending, hending, ?_, ?_, ?_⟩
  · rw [hhistory, ← List.flatMap_map, hdealt]
    decide
  · have hrest : occasions false busyEvents =
      (occasions false busyEvents).take 6 ++ [.read (.line "print")] := rfl
    rw [hdealt, hrest] at hunread
    obtain ⟨event, hevent, hread⟩ :=
      List.map_eq_singleton_iff.1 (List.append_cancel_left hunread).symm
    rw [hevent, Occasion.read.inj hread]
  · rw [hlast] at hquit
    obtain rfl : flow = .ok .quit := Option.some.inj hquit
    exact hresult

end ClockStep.Session
