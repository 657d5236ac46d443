import ClockStep.Proofs.Cancellation

/-!
# Halts

A cycle **halts** when it is completed and the core shows the halt line high after it. Then the
machine is not running any more, and what is told of that passes through a cycle, an instruction or
a stride, and the loop of a run, each of which could lose it or put something else first. This
module says that none does: a run ends with the first cycle that halts, and it is told as halted
exactly if its last cycle did.

What carries this through the layers is a property of the record alone (`ShowsHalts`): a start that
halts is the last one and the reason to stop is the halt, and that is the reason only then. It holds
of a cycle by the cases of its status and is kept when a record that ended without a reason is
continued.

## Main results

* `showsHalts_courseFrom`: the record of a run shows its halts.
* `Path.cycles`, `Path.settings`: what the cycles of a path count and keep.
* `tellsHalts`: a run ends with the first halt, and tells it.
* `journal_reset`, `stepTimes_reset`: of a halt under reset nothing is told or noted.
-/

namespace ClockStep

/-- Why a machine stops that halts. -/
def Settings.haltReason (settings : Settings) : StopReason :=
  if settings.haltOnStop then .exit else .halted

/-- Whether a machine stopped because it halts. -/
def StopReason.isHalt : StopReason → Bool
  | .halted | .exit => true
  | .completed | .breakpoint _ | .interrupted => false

namespace Machine

variable {γ κ : Type} [Core γ] [Keyboard κ]

/-! ### One cycle -/

omit [Keyboard κ] in
/-- A completed cycle is told as a halt exactly if it leaves the halt line high. -/
theorem finish_cases (m : Machine γ κ) :
    (m.finish.2.lines.halt = false ∧ m.finish.1 = .running) ∨
    m.finish.2.lines.halt = true ∧ m.finish.1.stopReason = some m.finish.2.settings.haltReason := by
  rw [finish]
  rcases hhalt : m.lines.halt with _ | _
  · exact .inl ⟨hhalt, rfl⟩
  · refine .inr ⟨hhalt, ?_⟩
    change Status.stopReason (if m.settings.haltOnStop then .exit else .halted) =
      some m.settings.haltReason
    rw [Settings.haltReason]
    split <;> rfl

/-- A cycle leaves the settings. -/
theorem settings_step (m : Machine γ κ) : m.step.2.settings = m.settings := by
  obtain ⟨receiver, console, ⟨e, he⟩ | hs⟩ := m.step_cases
  · rw [he]
  · obtain ⟨journal, hpoll⟩ := { m with receiver, console }.pollKeyboard_eq
    rw [hs, hpoll, finish]
    split <;> rfl

/-- Whether the next cycle halts: it is completed and leaves the halt line high. -/
def Halts (m : Machine γ κ) : Prop := m.step.1.isOk = true ∧ m.step.2.lines.halt = true

/-- A cycle is broken off, or leaves the machine running, or halts. -/
theorem halt_cases (m : Machine γ κ) :
    (¬m.Halts ∧ ∃ e, m.step.1 = .error e) ∨
    (¬m.Halts ∧ m.step.1 = .ok .running) ∨
    m.Halts ∧ m.step.1.map Status.stopReason = .ok (some m.settings.haltReason) := by
  rw [← m.settings_step, Halts]
  obtain ⟨receiver, console, ⟨e, he⟩ | hs⟩ := m.step_cases
  · rw [he]
    exact .inl ⟨fun h => Bool.false_ne_true h.1, e, rfl⟩
  · rw [hs]
    rcases finish_cases { m with receiver, console }.pollKeyboard.clockPeriod with
      ⟨hline, hstatus⟩ | ⟨hline, hreason⟩
    · refine .inr (.inl ⟨fun h => ?_, congrArg Except.ok hstatus⟩)
      exact Bool.false_ne_true (hline.symm.trans h.2)
    · exact .inr (.inr ⟨⟨rfl, hline⟩, congrArg Except.ok hreason⟩)

/-- A cycle that leaves the machine running leaves the halt line low. -/
theorem halt_of_running {m : Machine γ κ} (h : m.step.1 = .ok .running) :
    m.step.2.lines.halt = false := by
  rcases m.halt_cases with ⟨hnot, e, he⟩ | ⟨hnot, -⟩ | ⟨-, hreason⟩
  · rw [h] at he
    cases he
  · rw [Halts, h] at hnot
    exact Bool.eq_false_iff.2 fun hhalt => hnot ⟨rfl, hhalt⟩
  · rw [h] at hreason
    cases hreason

/-! ### Records that show their halts -/

/-- A record shows its halts, given the reason to stop that it ended with: a start that halts is the
last one, and is the reason; and a halt is the reason only then. -/
structure ShowsHalts (starts : List (Machine γ κ)) (reason? : Option StopReason) : Prop where
  last : ∀ before start after, starts = before ++ start :: after → start.Halts →
    after = [] ∧ reason? = some start.settings.haltReason
  shown : ∀ reason ∈ reason?, reason.isHalt = true → ∃ start ∈ starts.getLast?, start.Halts

/-- Where no cycle starts, no halt is shown, if none is the reason. -/
theorem showsHalts_nil {reason? : Option StopReason}
    (h : reason?.any StopReason.isHalt = false) :
    ShowsHalts ([] : List (Machine γ κ)) reason? where
  last before start after hstarts := by simp at hstarts
  shown reason hreason hhalt := by
    rw [Option.mem_def.1 hreason, Option.any_some, hhalt] at h
    cases h

/-- A record that ended without a reason may be continued. -/
theorem ShowsHalts.append {starts later : List (Machine γ κ)} {reason? : Option StopReason}
    (h : ShowsHalts starts none) (hlater : ShowsHalts later reason?) :
    ShowsHalts (starts ++ later) reason? where
  last before start after hstarts hhalts := by
    rcases append_eq_append_cons hstarts with ⟨rest, hfirst, -⟩ | ⟨rest, -, hsecond⟩
    · cases (h.last before start rest hfirst hhalts).2
    · exact hlater.last rest start after hsecond hhalts
  shown reason hreason hhalt := by
    obtain ⟨start, hlast, hhalts⟩ := hlater.shown reason hreason hhalt
    refine ⟨start, ?_, hhalts⟩
    rw [List.getLast?_append, hlast]
    rfl

/-- The reason to stop that a stride ended with, if it did. -/
def Stride.reason? (stride : Stride γ κ) : Option StopReason := stride.1.toOption.join

/-- The reason to stop that a run ended with, if it was not broken off. -/
def Outcome.reason? (o : Outcome γ κ) : Option StopReason := o.result.toOption

/-- A single cycle that does not halt shows no halt. -/
theorem showsHalts_of_not_halts {m : Machine γ κ} (h : ¬m.Halts) : ShowsHalts [m] none where
  last before start after hstarts hhalts := by
    obtain ⟨-, rfl, -⟩ := eq_of_singleton_eq_append hstarts
    exact (h hhalts).elim
  shown reason hreason := by cases hreason

/-- A single cycle that halts shows it as the settings say. -/
theorem showsHalts_of_halts {m : Machine γ κ} (h : m.Halts) :
    ShowsHalts [m] (some m.settings.haltReason) where
  last before start after hstarts _ := by
    obtain ⟨-, rfl, rfl⟩ := eq_of_singleton_eq_append hstarts
    exact ⟨rfl, rfl⟩
  shown _ _ _ := ⟨m, rfl, h⟩

/-- A single cycle shows its halt. -/
theorem showsHalts_cycle (m : Machine γ κ) :
    ShowsHalts [m] (Stride.reason? (m.step.1.map Status.stopReason, m.step.2)) := by
  rcases m.halt_cases with ⟨hnot, e, he⟩ | ⟨hnot, hrunning⟩ | ⟨hhalts, hreason⟩
  · rw [he]
    exact showsHalts_of_not_halts hnot
  · rw [hrunning]
    exact showsHalts_of_not_halts hnot
  · rw [hreason]
    exact showsHalts_of_halts hhalts

/-! ### The layers of a run -/

/-- So does the course of one cycle. -/
theorem showsHalts_cycleCourse (m : Machine γ κ) :
    ShowsHalts m.cycleCourse.1 m.cycleCourse.2.reason? := by
  rcases hc : m.cancelled with _ | _
  · rw [cycleCourse_of_not_cancelled hc]
    exact m.showsHalts_cycle
  · rw [cycleCourse_of_cancelled hc]
    exact showsHalts_nil rfl

/-- So does the course of one instruction. -/
theorem showsHalts_instructionCourse (fuel : Nat) (m : Machine γ κ) :
    ShowsHalts (m.instructionCourse fuel).1 ((m.instructionCourse fuel).2.bind Stride.reason?) := by
  induction fuel generalizing m with
  | zero => exact showsHalts_nil rfl
  | succ fuel ih =>
      have hcycle := m.showsHalts_cycleCourse
      rcases m.instruction_cases with hc | ⟨hc, hover⟩ | ⟨hc, hs, hf⟩
      · rw [cycleCourse_of_cancelled hc] at hcycle
        rw [instructionCourse, cycleCourse_of_cancelled hc]
        exact hcycle
      · rw [instructionCourse_of_over hc hover]
        exact m.showsHalts_cycle
      · have hfirst := m.showsHalts_cycle
        rw [hs] at hfirst
        rw [instructionCourse_of_running hc hs hf]
        exact hfirst.append (ih m.step.2)

/-- So does the course of either stride. -/
theorem showsHalts_strideCourse (limit : Limit) (fuel : Nat) (m : Machine γ κ) :
    ShowsHalts (m.strideCourse limit fuel).1
      ((m.strideCourse limit fuel).2.bind Stride.reason?) := by
  cases limit with
  | instructions n => exact m.showsHalts_instructionCourse fuel
  | cycles n => exact m.showsHalts_cycleCourse
  | unbounded => exact m.showsHalts_cycleCourse

/-- **The record of a run shows its halts.** -/
theorem showsHalts_courseFrom (limit : Limit) (fuel : Nat) (remaining : Option Nat)
    (breakpoints : Breakpoints) (m : Machine γ κ) :
    ShowsHalts (courseFrom limit fuel remaining breakpoints m).1
      ((courseFrom limit fuel remaining breakpoints m).2.bind Outcome.reason?) := by
  induction fuel generalizing remaining m with
  | zero => exact showsHalts_nil rfl
  | succ fuel ih =>
      have hstride := m.showsHalts_strideCourse limit (fuel + 1)
      rw [courseFrom]
      by_cases hr : remaining = some 0
      · rw [if_pos hr]
        exact showsHalts_nil rfl
      rw [if_neg hr]
      rcases m.hit? breakpoints with _ | ⟨address, rest⟩
      · generalize m.strideCourse limit (fuel + 1) = course at hstride ⊢
        rcases course with ⟨starts, _ | ⟨(e | _ | reason), m'⟩⟩
        · exact hstride
        · exact hstride
        · exact hstride.append (ih _ m')
        · exact hstride
      · exact showsHalts_nil rfl

/-! ### Along a path of cycles -/

/-- All cycles of a path have the settings that it starts with. -/
theorem Path.settings {m m' : Machine γ κ} {starts : List (Machine γ κ)} (h : Path m starts m') :
    m'.settings = m.settings ∧ ∀ start ∈ starts, start.settings = m.settings := by
  induction h with
  | nil m => exact ⟨rfl, List.forall_mem_nil _⟩
  | @cons m m' starts _ ih =>
      obtain ⟨hend, hstarts⟩ := ih
      rw [m.settings_step] at hend hstarts
      refine ⟨hend, fun start hmem => ?_⟩
      rcases List.mem_cons.1 hmem with rfl | hmem
      · rfl
      · exact hstarts start hmem

/-- The cycles that are completed count. -/
theorem Path.cycles {m m' : Machine γ κ} {starts : List (Machine γ κ)} (h : Path m starts m') :
    m'.cycles = m.cycles + starts.countP fun start => start.step.1.isOk := by
  induction h with
  | nil m => rfl
  | @cons m m' starts _ ih =>
      rw [ih, List.countP_cons]
      rcases hs : m.step with ⟨e | status, m₁⟩
      · rw [cycles_of_step_error hs]
        rfl
      · rw [cycles_of_step_ok hs, Nat.add_assoc, Nat.add_comm 1]
        rfl

/-- A path leads to where its last cycle does. -/
theorem Path.eq_step {m m' start : Machine γ κ} {before : List (Machine γ κ)}
    (h : Path m (before ++ [start]) m') : m' = start.step.2 := by
  induction before generalizing m with
  | nil =>
      cases h with
      | cons h => cases h with | nil => rfl
  | cons first before ih =>
      cases h with
      | cons h => exact ih h

/-! ### Whole runs -/

variable {fuel : Nat} {limit : Limit} {breakpoints : Breakpoints} {m : Machine γ κ}

/-- A start of a run has the settings that the run began with. -/
theorem settings_of_mem_course {start : Machine γ κ}
    (h : start ∈ (m.course fuel limit breakpoints).1) : start.settings = m.settings := by
  obtain ⟨m', hpath, -⟩ := courseFrom_path limit fuel limit.strides breakpoints m
  exact hpath.settings.2 start h

/-- A whole run shows its halts, by induction on the fuel. -/
theorem showsHalts_course (fuel : Nat) (limit : Limit) (breakpoints : Breakpoints)
    (m : Machine γ κ) :
    ShowsHalts (m.course fuel limit breakpoints).1
      ((m.run fuel limit breakpoints).bind Outcome.reason?) := by
  rw [← course_snd]
  exact showsHalts_courseFrom limit fuel limit.strides breakpoints m

/-- No cycle follows one that halts: the run ends there. -/
theorem run_of_halts {start : Machine γ κ} {before after : List (Machine γ κ)}
    (hstarts : (m.course fuel limit breakpoints).1 = before ++ start :: after)
    (hhalts : start.Halts) :
    after = [] ∧ ∃ o, m.run fuel limit breakpoints = some o ∧ o.machine = start.step.2 ∧
      o.result = .ok m.settings.haltReason := by
  have hmem : start ∈ (m.course fuel limit breakpoints).1 := hstarts ▸ List.mem_append_cons_self
  obtain ⟨rfl, hreason⟩ := (showsHalts_course ..).last before start after hstarts hhalts
  obtain ⟨o, ho, hresult⟩ := Option.bind_eq_some_iff.1 hreason
  have hpath := course_path ho
  rw [hstarts] at hpath
  rw [settings_of_mem_course hmem, Outcome.reason?] at hresult
  refine ⟨rfl, o, ho, hpath.eq_step, ?_⟩
  cases hend : o.result with
  | error e =>
      rw [hend] at hresult
      cases hresult
  | ok reason =>
      rw [hend] at hresult
      exact congrArg Except.ok (Option.some.inj hresult)

/-- A halt is told exactly if the last cycle halts, and then in the words of the settings. -/
theorem result_eq_halt_iff {o : Outcome γ κ} (h : m.run fuel limit breakpoints = some o)
    {reason : StopReason} (hhalt : reason.isHalt = true) :
    o.result = .ok reason ↔ m.settings.haltReason = reason ∧
      ∃ start ∈ (m.course fuel limit breakpoints).1.getLast?, start.Halts := by
  have htold : (∃ start ∈ (m.course fuel limit breakpoints).1.getLast?, start.Halts) →
      o.result = .ok m.settings.haltReason := by
    rintro ⟨start, hmem, hhalts⟩
    obtain ⟨before, hstarts⟩ := List.getLast?_eq_some_iff.1 hmem
    obtain ⟨-, o', ho', -, hresult⟩ := run_of_halts hstarts hhalts
    obtain rfl : o = o' := Option.some.inj (h.symm.trans ho')
    exact hresult
  constructor
  · intro hreason
    have hended : (m.run fuel limit breakpoints).bind Outcome.reason? = some reason := by
      rw [h, Option.bind_some, Outcome.reason?, hreason]
      rfl
    have hlast := (showsHalts_course ..).shown reason hended hhalt
    exact ⟨Except.ok.inj ((htold hlast).symm.trans hreason), hlast⟩
  · rintro ⟨rfl, hlast⟩
    exact htold hlast

/-- A run tells its halts: no cycle follows one that halts, and the run ends there, with the machine
as that cycle left it; and it is told to have halted, or to have halted for good if this is what the
settings say, exactly if its last cycle halts. -/
structure TellsHalts (fuel : Nat) (limit : Limit) (breakpoints : Breakpoints) (m : Machine γ κ) :
    Prop where
  ends : ∀ before start after,
    (m.course fuel limit breakpoints).1 = before ++ start :: after → start.Halts →
    after = [] ∧ ∃ o, m.run fuel limit breakpoints = some o ∧ o.machine = start.step.2 ∧
      o.result = .ok m.settings.haltReason
  halted_iff : ∀ o, m.run fuel limit breakpoints = some o →
    (o.result = .ok .halted ↔ m.settings.haltOnStop = false ∧
      ∃ start ∈ (m.course fuel limit breakpoints).1.getLast?, start.Halts)
  exit_iff : ∀ o, m.run fuel limit breakpoints = some o →
    (o.result = .ok .exit ↔ m.settings.haltOnStop = true ∧
      ∃ start ∈ (m.course fuel limit breakpoints).1.getLast?, start.Halts)

/-- **A run tells its halts.** -/
theorem tellsHalts (fuel : Nat) (limit : Limit) (breakpoints : Breakpoints) (m : Machine γ κ) :
    TellsHalts fuel limit breakpoints m where
  ends _ _ _ hstarts hhalts := run_of_halts hstarts hhalts
  halted_iff o ho := by
    rw [result_eq_halt_iff ho rfl, Settings.haltReason]
    cases m.settings.haltOnStop <;> simp
  exit_iff o ho := by
    rw [result_eq_halt_iff ho rfl, Settings.haltReason]
    cases m.settings.haltOnStop <;> simp

/-! ### Reset -/

omit [Keyboard κ] in
/-- A reset writes nothing. -/
theorem journal_resetStep (m : Machine γ κ) : m.resetStep.journal = m.journal := rfl

omit [Keyboard κ] in
/-- Of a halt under reset nothing is noted. -/
theorem journal_reset (m : Machine γ κ) : m.reset.journal = m.journal.push .resetting := by
  obtain ⟨held, hjournal, hreset⟩ := exists_held
    (P := fun m' => m'.journal = m.journal.push .resetting) rfl fun m' hm' =>
      m'.journal_resetStep.trans hm'
  rw [hreset]
  exact hjournal

/-- Nor is it told. -/
theorem stepTimes_reset (m : Machine γ κ) (n : Nat) (last : Option Status) :
    ∃ m', m.stepTimes true (n + 1) last = (.ok (some .running), m') ∧ m'.journal = m.journal := by
  induction n generalizing m last with
  | zero =>
      rw [stepTimes, if_pos rfl, stepTimes]
      exact ⟨m.resetStep, rfl, m.journal_resetStep⟩
  | succ n ih =>
      obtain ⟨m', hm', hjournal⟩ := ih m.resetStep (some .running)
      rw [stepTimes, if_pos rfl]
      exact ⟨m', hm', hjournal.trans m.journal_resetStep⟩

end Machine

end ClockStep
