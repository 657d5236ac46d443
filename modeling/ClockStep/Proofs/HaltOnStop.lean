import ClockStep.Proofs.Halts
import ClockStep.Proofs.SessionFrames

/-!
# What a Halt Does to a Session

A halt ends every run. Whether it ends the session too is a matter of the settings: if the session
is to end on a halt, then the turn in which the machine halts is the last one, and the operator is
told two lines and nothing about where the machine stands; otherwise the operator is told where it
stands, and the session goes on. What a session executes is told by its record: the cycles of a turn
are those of the run on its occasion (`Turn.starts`), and the cycle counter bears out that there are
no others.

## Convention

A printer may refuse what the operator is told about a halt. Then the refusal ends the session, in
either case, and it is what the session comes to.

## Main results

* `cycles_of_answer`, `cycles_of_lastAnswer`: the cycles of a turn and of a session.
* `answer_of_halts`: what a turn comes to in which the machine halts.
* `halts_end_runs_and_sessions`: runs, resets and sessions together.
-/

namespace ClockStep.Session

variable {γ κ : Type} [Core γ] [Keyboard κ]

/-! ### The cycles of a session -/

/-- The machines from which the cycles of a turn start, in order. -/
def Turn.starts (fuel : Nat) (t : Turn γ κ) : List (Machine γ κ) :=
  match t.occasion.limit? with
  | none => []
  | some limit => (t.session.readied.machine.course fuel limit t.session.readied.breakpoints).1

/-- The number of cycles that are completed. -/
def completed (starts : List (Machine γ κ)) : Nat := starts.countP fun start => start.step.1.isOk

variable {fuel : Nat} {t : Turn γ κ} {flow : Except ProgramError Flow} {s s' : Session γ κ}

/-- The cycles that two parts complete add up. -/
theorem completed_append (starts later : List (Machine γ κ)) :
    completed (starts ++ later) = completed starts + completed later :=
  List.countP_append

/-- A change of the surroundings that leaves the settings and the cycle counter alone. -/
def Harmless (change : Machine γ κ → Machine γ κ) : Prop :=
  ∀ m, (change m).settings = m.settings ∧ (change m).cycles = m.cycles

/-- A turn keeps the settings, and its cycles count, unless the surroundings interfere. -/
theorem cycles_of_answer (h : t.answer fuel = some (flow, s'))
    (hchange : ∀ change, t.occasion = .read (.meanwhile change) → Harmless change) :
    s'.machine.settings = t.session.machine.settings ∧
      s'.machine.cycles = t.session.machine.cycles + completed (t.starts fuel) := by
  obtain ⟨occasion, history, s⟩ := t
  cases hlimit : occasion.limit? with
  | none =>
      have hnone : Turn.starts fuel ⟨occasion, history, s⟩ = [] := by
        rw [Turn.starts, hlimit]
      rw [hnone]
      by_cases hmeanwhile : ∃ change, occasion = .read (.meanwhile change)
      · obtain ⟨change, rfl⟩ := hmeanwhile
        cases h
        exact hchange change rfl s.machine
      · have hsteady : Steady fun s : Session γ κ => (s.machine.settings, s.machine.cycles) :=
          ⟨fun _ _ => rfl, fun _ _ => rfl, fun _ _ => rfl, fun _ _ => rfl, fun _ _ => rfl⟩
        exact Prod.mk.inj (keeps_answer hsteady hlimit (not_exists.1 hmeanwhile) fuel _ _ h)
  | some limit =>
      rw [Turn.answer, answer_of_limit? hlimit] at h
      obtain ⟨o, ho, hconcluded⟩ := Option.map_eq_some_iff.1 h
      have hpath := Machine.course_path ho
      obtain ⟨console, hmachine⟩ := s.machine_concluded o
      rw [hconcluded] at hmachine
      rw [Turn.starts, hlimit, hmachine, ← s.settings_readied, ← s.cycles_readied]
      exact ⟨hpath.settings.1, hpath.cycles⟩

/-- The cycles of its turns are all that a session executes, and the settings stay as they are,
unless the surroundings interfere. -/
theorem cycles_of_lastAnswer {due : List (Occasion (Machine γ κ))}
    (hchange : ∀ change, .read (.meanwhile change) ∈ due → Harmless change)
    (history : List String) (s : Session γ κ) :
    (∀ t ∈ turns fuel due history s, t.session.machine.settings = s.machine.settings) ∧
    ∀ flow s', lastAnswer fuel s (turns fuel due history s) = some (flow, s') →
      s'.machine.cycles =
        s.machine.cycles + completed ((turns fuel due history s).flatMap (Turn.starts fuel)) := by
  induction due generalizing history s with
  | nil =>
      refine ⟨List.forall_mem_nil _, fun flow s' h => ?_⟩
      cases h
      rfl
  | cons occasion due ih =>
      have hturn : ∀ flow s', answer fuel occasion s = some (flow, s') →
          s'.machine.settings = s.machine.settings ∧ s'.machine.cycles = s.machine.cycles +
            completed (Turn.starts fuel ⟨occasion, history ++ occasion.recorded, s⟩) :=
        fun flow s' h => cycles_of_answer (t := ⟨occasion, history ++ occasion.recorded, s⟩) h
          fun change hoccasion => hchange change (hoccasion ▸ List.mem_cons_self ..)
      by_cases hnext : ∃ s', answer fuel occasion s = some (.ok .continue, s')
      · obtain ⟨s₁, hs⟩ := hnext
        obtain ⟨hsettings, hcycles⟩ := hturn _ s₁ hs
        obtain ⟨hlater, hall⟩ := ih
          (fun change hmem => hchange change (List.mem_cons_of_mem _ hmem))
          (history ++ occasion.recorded) s₁
        rw [turns_of_continue hs]
        constructor
        · intro t ht
          rcases List.mem_cons.1 ht with rfl | ht
          · rfl
          · exact (hlater t ht).trans hsettings
        · intro flow s' hlast
          rw [lastAnswer_cons (show Turn.answer fuel ⟨occasion, _, s⟩ = _ from hs)] at hlast
          rw [hall flow s' hlast, hcycles, List.flatMap_cons, completed_append, Nat.add_assoc]
      · rw [turns_of_end (not_exists.1 hnext)]
        constructor
        · intro t ht
          obtain rfl := List.mem_singleton.1 ht
          rfl
        · intro flow s' hlast
          rw [List.flatMap_singleton]
          exact (hturn flow s' hlast).2

/-! ### Turns in which the machine halts -/

/-- **A turn ends with the first cycle that halts.** The operator is told what the settings say
about a halt, and nothing else follows. -/
theorem answer_of_halts {before after : List (Machine γ κ)} {start : Machine γ κ}
    (hstarts : t.starts fuel = before ++ start :: after) (hhalts : start.Halts) :
    after = [] ∧ ∃ o : Machine.Outcome γ κ, o.machine = start.step.2 ∧
      let reason := t.session.machine.settings.haltReason
      let told := (t.session.settled o).printer.printAll
        (stopLines (t.session.settled o).machine reason)
      t.answer fuel = some ((told.1.mapError ProgramError.system).map fun _ => reason.flow,
        { t.session.settled o with printer := told.2 }) := by
  rw [Turn.starts] at hstarts
  cases hlimit : t.occasion.limit? with
  | none =>
      rw [hlimit] at hstarts
      simp at hstarts
  | some limit =>
      rw [hlimit] at hstarts
      obtain ⟨hafter, o, ho, hmachine, hresult⟩ := Machine.run_of_halts hstarts hhalts
      rw [settings_readied] at hresult
      refine ⟨hafter, o, hmachine, ?_⟩
      rw [Turn.answer, answer_of_limit? hlimit, ho, Option.map_some, concluded, hresult]
      dsimp only [stopTold]
      rcases ((t.session.settled o).printer.printAll _).1 with cause | _ <;> rfl

/-! ### Whole sessions -/

/-- **A halt ends every run, and the session exactly if it is to.** A run executes no cycle behind
one that halts, and is told to have halted exactly if its last cycle did. Of a halt under reset
nothing is told. In a session, the turns keep the settings, and their cycles are all that is
executed. If the session is to end on a halt, the turn in which a cycle halts is the last one; it
executes no further cycle, no event behind it is read, the operator is told the two lines of
`farewell`, and the session ends without an error if both were taken, and otherwise with the
refusal. If it is not to, the operator is told that the machine halted and where it stands, and if
this was taken, the session goes on with whatever is left to deal with. -/
theorem halts_end_runs_and_sessions (fuel : Nat) (interactive : Bool)
    (events : List (Event (Machine γ κ))) (s : Session γ κ) :
    let due := occasions interactive events
    let record := turns fuel due [] s
    (∀ fuel limit breakpoints (m : Machine γ κ), m.TellsHalts fuel limit breakpoints) ∧
    (∀ m : Machine γ κ, m.reset.journal = m.journal.push .resetting ∧ ∀ n last, ∃ m',
      m.stepTimes true (n + 1) last = (.ok (some .running), m') ∧ m'.journal = m.journal) ∧
    (∀ t ∈ record, ∀ flow s', t.answer fuel = some (flow, s') →
      (∀ change, t.occasion ≠ .read (.meanwhile change)) →
      s'.machine.settings = t.session.machine.settings ∧
        s'.machine.cycles = t.session.machine.cycles + completed (t.starts fuel)) ∧
    ((∀ change, .read (.meanwhile change) ∈ due → Harmless change) →
      (∀ t ∈ record, t.session.machine.settings = s.machine.settings) ∧
      ∀ ending, run fuel interactive events s = some ending → ending.session.machine.cycles =
        s.machine.cycles + completed (record.flatMap (Turn.starts fuel))) ∧
    ∀ earlier t later before start after, record = earlier ++ t :: later →
      t.starts fuel = before ++ start :: after → start.Halts →
      after = [] ∧ ∃ o : Machine.Outcome γ κ, o.machine = start.step.2 ∧
        (t.session.machine.settings.haltOnStop = true →
          later = [] ∧ ∃ ending, run fuel interactive events s = some ending ∧
            due = record.map (·.occasion) ++ ending.unread.map .read ∧
            let told := (t.session.settled o).printer.printAll farewell
            ending.session = { t.session.settled o with printer := told.2 } ∧
            ending.result = told.1.mapError .system) ∧
        (t.session.machine.settings.haltOnStop = false →
          let told := (t.session.settled o).printer.printAll
            ((.bold, "Machine halted.") :: positionLines (t.session.settled o).machine)
          t.answer fuel = some ((told.1.mapError ProgramError.system).map fun _ => .continue,
            { t.session.settled o with printer := told.2 }) ∧
          (told.1 = .ok () → later = [] → due = record.map (·.occasion))) := by
  refine ⟨fun fuel limit breakpoints m => Machine.tellsHalts fuel limit breakpoints m,
    fun m => ⟨m.journal_reset, m.stepTimes_reset⟩, fun t _ flow s' h hrunning => ?_,
    fun hchange => ?_, ?_⟩
  · exact cycles_of_answer h fun change hoccasion => (hrunning change hoccasion).elim
  · obtain ⟨hsettings, hcycles⟩ := cycles_of_lastAnswer hchange [] s
    refine ⟨hsettings, fun ending hending => ?_⟩
    obtain ⟨-, -, flow, hanswered, -⟩ := (comesTo_run fuel interactive events s).ends ending hending
    exact hcycles flow ending.session hanswered
  · intro earlier t later before start after hrecord hstarts hhalts
    obtain ⟨hafter, o, hmachine, hanswer⟩ := answer_of_halts hstarts hhalts
    refine ⟨hafter, o, hmachine, fun hstop => ?_, fun hstop => ?_⟩
    · have hreason : t.session.machine.settings.haltReason = .exit := if_pos hstop
      rw [hreason] at hanswer
      generalize htold : (t.session.settled o).printer.printAll farewell = told
      replace hanswer : t.answer fuel = some ((told.1.mapError ProgramError.system).map fun _ =>
          .quit, { t.session.settled o with printer := told.2 }) := htold ▸ hanswer
      have horder := turns_inOrder fuel (occasions interactive events) [] s
      rw [hrecord] at horder
      obtain rfl : later = [] := horder.eq_nil_of_answer fun s' hnext => by
        rw [hanswer] at hnext
        rcases told with ⟨cause | _, printer⟩ <;> cases hnext
      obtain ⟨ending, hrun, hdue, hsession, hresult, -⟩ := exists_ending_of_last hrecord hanswer
      refine ⟨rfl, ending, hrun, hdue, hsession, hresult.trans ?_⟩
      rcases told.1 with cause | _ <;> rfl
    · have hreason : t.session.machine.settings.haltReason = .halted :=
        if_neg (by simp [hstop])
      rw [hreason] at hanswer
      generalize htold : (t.session.settled o).printer.printAll
        ((.bold, "Machine halted.") :: positionLines (t.session.settled o).machine) = told
      replace hanswer : t.answer fuel = some ((told.1.mapError ProgramError.system).map fun _ =>
          .continue, { t.session.settled o with printer := told.2 }) := htold ▸ hanswer
      refine ⟨hanswer, fun htaken hlast => ?_⟩
      rw [htaken] at hanswer
      rw [hlast] at hrecord
      obtain ⟨ending, -, hdue, -, -, hrest⟩ := exists_ending_of_last hrecord hanswer
      rw [hrest rfl, List.map_nil, List.append_nil] at hdue
      exact hdue

/-- A bench machine whose third cycle halts, for a session that is to end on that. -/
def haltingMachine : Machine BenchCore BenchKeyboard :=
  { Machine.benchAtFetch with
    core := { Machine.benchAtFetch.core with events := [⟨3, [.halt true]⟩] }
    settings := { haltOnStop := true } }

/-- Its run without a limit ends in a halt. -/
theorem exists_halt : ∃ before start,
    (haltingMachine.course 20 .unbounded ∅).1 = before ++ [start] ∧ start.Halts := by
  have hlast : (haltingMachine.course 20 .unbounded ∅).1.getLast?.map
      (fun m => (m.step.1.isOk, m.step.2.lines.halt)) = some (true, true) := by decide +kernel
  obtain ⟨start, hstart, hhalts⟩ := Option.map_eq_some_iff.1 hlast
  obtain ⟨before, hbefore⟩ := List.getLast?_eq_some_iff.1 hstart
  exact ⟨before, start, hbefore, Prod.mk.inj hhalts⟩

/-- A session with that machine and a printer that writes to the given sink. -/
def haltingSession (sink : Sink) : Session BenchCore BenchKeyboard :=
  { machine := haltingMachine, printer := { sink } }

/-- With an output that is closed, the session does not end well: the first line that the operator
would be told about the halt is refused. -/
theorem halts_refused :
    ∃ ending, run 20 false [.line "step"] (haltingSession { policy := .closedAfter 0 }) =
        some ending ∧
      (∃ t ∈ turns 20 (occasions false [.line "step"]) []
          (haltingSession { policy := .closedAfter 0 }),
        t.session.machine.settings.haltOnStop = true ∧ ∃ start ∈ t.starts 20, start.Halts) ∧
      ending.result = .error (.system (.other "output closed")) := by
  obtain ⟨before, start, hstarts, hhalts⟩ := exists_halt
  have hresult : (run 20 false [.line "step"] (haltingSession { policy := .closedAfter 0 })).map
      (·.result) = some (.error (.system (.other "output closed"))) := by decide +kernel
  obtain ⟨ending, hrun, hended⟩ := Option.map_eq_some_iff.1 hresult
  refine ⟨ending, hrun, ⟨_, List.mem_cons_self .., rfl, start, ?_, hhalts⟩, hended⟩
  change start ∈ (haltingMachine.course 20 .unbounded ∅).1
  rw [hstarts]
  exact List.mem_append_cons_self

/-- With an output that takes everything, it ends well with the third cycle of the opening, and the
command is not read. -/
theorem halts_end_runs_and_sessions_bench :
    ∃ ending, run 20 false [.line "step"] (haltingSession {}) = some ending ∧
      ending.unread = [.line "step"] ∧ ending.result = .ok () ∧
      ending.session.machine.cycles = 3 := by
  obtain ⟨before, start, hstarts, hhalts⟩ := exists_halt
  obtain ⟨-, -, -, hcycles, hends⟩ :=
    halts_end_runs_and_sessions 20 false [.line "step"] (haltingSession {})
  obtain ⟨-, o, -, hstop, -⟩ :=
    hends [] ⟨.opening, [], haltingSession {}⟩ _ before start [] rfl hstarts hhalts
  obtain ⟨hlast, ending, hrun, hdue, -, hresult⟩ := hstop rfl
  have hturns : turns 20 (occasions false [.line "step"]) [] (haltingSession {}) =
    [⟨.opening, [], haltingSession {}⟩] := congrArg (List.cons _) hlast
  rw [hturns] at hdue hcycles
  refine ⟨ending, hrun, ?_, ?_, ?_⟩
  · obtain ⟨event, hevent, hread⟩ := List.map_eq_singleton_iff.1 (List.cons.inj hdue).2.symm
    rw [hevent, Occasion.read.inj hread]
  · have hopen : ((haltingSession {}).settled o).printer.IsOpen := fun _ _ => rfl
    rw [hresult, Printer.printAll_of_isOpen hopen]
    rfl
  · obtain ⟨-, hcount⟩ := hcycles fun change hmem => by simp [occasions] at hmem
    have hthree : completed (haltingMachine.course 20 .unbounded ∅).1 = 3 := by decide +kernel
    refine (hcount ending hrun).trans ?_
    rw [List.flatMap_singleton]
    exact (Nat.zero_add _).trans hthree

end ClockStep.Session
