import ClockStep.Proofs.Halts
import ClockStep.Proofs.ObservedCore

/-!
# Every Half Period Once

The machine keeps two counters, one of clock periods and one of half periods, and its core may keep a
record of the half periods. They are written in different places, and a cycle may be broken off by
the console, or not be started, in the midst of a run. This module shows that they stay together,
whatever is called on a machine, from the moment at which it is put together.

The log of an observed core says what was done to the core. It is always the log of whole cycles
(`Observation.ofCycles`): in each the core is evaluated with the clock high and with the clock low and
otherwise the same inputs, and if the machine is traced, each half period is recorded at its time,
right after it is evaluated.

## Main results

* `Regular.clockPeriod`: a clock period adds one cycle to the log.
* `Regular.perform`: what is kept by any call.
* `every_half_period_once`: counters and log, for all that can be called on a machine.
-/

namespace ClockStep

/-! ### The log of cycles -/

namespace Observation

/-- The inputs of an evaluation. -/
def inputs? : Observation → Option InputLines
  | .evaluated inputs => some inputs
  | .recorded _ => none

/-- The time of a record. -/
def time? : Observation → Option Nat
  | .evaluated _ => none
  | .recorded time => some time

/-- What a half period leaves in the log. -/
def ofHalfPeriod (traced : Bool) (time : Nat) (inputs : InputLines) : List Observation :=
  .evaluated inputs :: if traced then [.recorded time] else []

/-- What cycles leave in the log that start at a time, given the inputs driven in each. -/
def ofCycles (traced : Bool) : Nat → List InputLines → List Observation
  | _, [] => []
  | time, inputs :: rest =>
    ofHalfPeriod traced time { inputs with clock := true } ++
      ofHalfPeriod traced (time + 1) { inputs with clock := false } ++
      ofCycles traced (time + 2) rest

variable (traced : Bool) (time : Nat)

/-- One more cycle is two more half periods. -/
theorem ofCycles_concat (driven : List InputLines) (inputs : InputLines) :
    ofCycles traced time (driven ++ [inputs]) =
      ofCycles traced time driven ++
        (ofHalfPeriod traced (time + 2 * driven.length) { inputs with clock := true } ++
          ofHalfPeriod traced (time + 2 * driven.length + 1) { inputs with clock := false }) := by
  induction driven generalizing time with
  | nil => simp [ofCycles]
  | cons first rest ih =>
      have htime : time + 2 + 2 * rest.length = time + 2 * (first :: rest).length := by
        rw [List.length_cons]
        omega
      rw [List.cons_append, ofCycles, ofCycles, ih, htime]
      simp only [List.append_assoc]

/-- In the log of cycles, the core is evaluated twice for each, with the clock high and low. -/
theorem filterMap_inputs?_ofCycles (driven : List InputLines) :
    (ofCycles traced time driven).filterMap inputs? =
      driven.flatMap fun inputs => [{ inputs with clock := true }, { inputs with clock := false }] := by
  induction driven generalizing time with
  | nil => rfl
  | cons first rest ih =>
      rw [ofCycles, List.filterMap_append, ih, List.flatMap_cons]
      cases traced <;> rfl

/-- In the log of cycles, the records are those of consecutive times, if there are any. -/
theorem filterMap_time?_ofCycles (driven : List InputLines) :
    (ofCycles traced time driven).filterMap time? =
      if traced then List.range' time (2 * driven.length) else [] := by
  induction driven generalizing time with
  | nil => cases traced <;> rfl
  | cons first rest ih =>
      rw [ofCycles, List.filterMap_append, ih]
      cases traced
      · rfl
      · rw [List.length_cons, Nat.mul_succ]
        rfl

end Observation

namespace Machine

variable {γ κ : Type} [Core γ]

/-! ### What a machine keeps -/

/-- A machine over an observed core is **regular** if its counters and the log of its core are those
of so many cycles. -/
structure Regular (settings : Settings) (m : Machine (Observed γ) κ) : Prop where
  configured : m.settings = settings
  time : m.time = 2 * m.cycles
  log : ∃ driven : List InputLines, driven.length = m.cycles ∧
    m.core.log = Observation.ofCycles settings.traced 0 driven

variable {settings : Settings} {m m' : Machine (Observed γ) κ}

omit [Core γ] in
/-- Regularity is a matter of core, settings and counters. -/
theorem Regular.congr (h : Regular settings m) (hcore : m'.core = m.core)
    (hsettings : m'.settings = m.settings) (hcycles : m'.cycles = m.cycles)
    (htime : m'.time = m.time) : Regular settings m' where
  configured := hsettings.trans h.configured
  time := by rw [htime, hcycles, h.time]
  log := by rw [hcycles, hcore]; exact h.log

/-- A half period leaves its own part in the log. -/
theorem log_halfPeriod (clock : Bool) (m : Machine (Observed γ) κ) :
    (m.halfPeriod clock).core.log =
      m.core.log ++ Observation.ofHalfPeriod m.settings.traced m.time { m.inputs with clock } := by
  obtain ⟨core, memory, ⟨haltOnStop, traced⟩, _⟩ := m
  cases traced
  · rfl
  · exact List.append_assoc ..

/-- A clock period leaves two half periods in the log, with inputs that differ in the clock only. -/
theorem log_clockPeriod (m : Machine (Observed γ) κ) :
    m.clockPeriod.core.log = m.core.log ++
      (Observation.ofHalfPeriod m.settings.traced m.time
          { m.driveInterrupts.inputs with clock := true } ++
        Observation.ofHalfPeriod m.settings.traced (m.time + 1)
          { m.driveInterrupts.inputs with clock := false }) := by
  have hhigh := log_halfPeriod true m.driveInterrupts
  have hlow := log_halfPeriod false (m.driveInterrupts.halfPeriod true)
  rw [hhigh, List.append_assoc] at hlow
  exact hlow

/-- **A clock period adds one cycle to the log.** -/
theorem Regular.clockPeriod (h : Regular settings m) : Regular settings m.clockPeriod where
  configured := h.configured
  time := by
    change m.time + 1 + 1 = 2 * (m.cycles + 1)
    rw [h.time]
    omega
  log := by
    obtain ⟨driven, hlength, hlog⟩ := h.log
    refine ⟨driven ++ [m.driveInterrupts.inputs], ?_, ?_⟩
    · rw [List.length_append, hlength]
      rfl
    · rw [log_clockPeriod, hlog, Observation.ofCycles_concat, h.configured, h.time, hlength,
        Nat.zero_add]

/-- A reset leaves the log regular. -/
theorem Regular.reset (h : Regular settings m) : Regular settings m.reset := by
  obtain ⟨held, hheld, hreset⟩ := exists_held (P := Regular settings) (m := m)
    (h.congr rfl rfl rfl rfl) fun m hm => hm.clockPeriod
  rw [hreset]
  exact hheld.congr rfl rfl rfl rfl

variable [Keyboard κ]

/-- A cycle that is broken off leaves the log alone, and any other one is a clock period. -/
theorem Regular.step (h : Regular settings m) : Regular settings m.step.2 := by
  obtain ⟨receiver, console, ⟨e, hs⟩ | hs⟩ := m.step_cases <;> rw [hs]
  · exact h.congr rfl rfl rfl rfl
  · obtain ⟨journal, hpoll⟩ := pollKeyboard_eq { m with receiver, console }
    have hpolled : Regular settings { m with receiver, console }.pollKeyboard := by
      rw [hpoll]
      exact h.congr rfl rfl rfl rfl
    have hperiod := hpolled.clockPeriod
    rw [finish]
    split
    · exact hperiod.congr rfl rfl rfl rfl
    · exact hperiod

/-- Cycles leave the log regular. -/
theorem Regular.path {starts : List (Machine (Observed γ) κ)} (hpath : Path m starts m')
    (h : Regular settings m) : Regular settings m' := by
  induction hpath with
  | nil m => exact h
  | cons _ ih => exact ih h.step

/-- **Whatever is called on a regular machine, it stays regular.** -/
theorem Regular.perform (h : Regular settings m) {call : Call} (hcall : call.perform m = some m') :
    Regular settings m' := by
  cases call with
  | cycle => exact Option.some.inj hcall ▸ h.step
  | resetCycle => exact Option.some.inj hcall ▸ h.clockPeriod
  | instruction fuel =>
      obtain ⟨stride, hstride, rfl⟩ := Option.map_eq_some_iff.1 hcall
      obtain ⟨m', hpath, hend⟩ := instructionCourse_path fuel m
      rw [instructionCourse_snd] at hend
      rw [hend stride hstride]
      exact h.path hpath
  | run fuel limit breakpoints =>
      obtain ⟨o, ho, rfl⟩ := Option.map_eq_some_iff.1 hcall
      exact h.path (course_path ho)
  | reset => exact Option.some.inj hcall ▸ h.reset
  | raise request | cancel requested | write address value =>
      exact Option.some.inj hcall ▸ h.congr rfl rfl rfl rfl

/-- Calls leave the log regular, by induction on the calls. -/
theorem Regular.performAll (h : Regular settings m) {calls : List Call}
    (hcalls : performAll calls m = some m') : Regular settings m' := by
  induction calls generalizing m with
  | nil => exact Option.some.inj hcalls ▸ h
  | cons call calls ih =>
      obtain ⟨m₁, hcall, hrest⟩ := Option.bind_eq_some_iff.1 hcalls
      exact ih (h.perform hcall) hrest

/-! ### The counter of cycles -/

omit [Keyboard κ] in
/-- A reset counts its own cycles. -/
theorem cycles_reset (m : Machine γ κ) : m.reset.cycles = m.cycles + resetCycles := by
  have hrepeat : ∀ (n : Nat) (m : Machine γ κ),
      (Nat.repeat resetStep n m).cycles = m.cycles + n := by
    intro n m
    induction n with
    | zero => rfl
    | succ n ih => exact congrArg (· + 1) ih
  exact hrepeat resetCycles _

/-- No call sets the counter of cycles back. -/
theorem Call.cycles_le_of_perform {call : Call} {m m' : Machine γ κ}
    (h : call.perform m = some m') : m.cycles ≤ m'.cycles := by
  have hpath : ∀ {m' : Machine γ κ} {starts : List (Machine γ κ)}, Path m starts m' →
      m.cycles ≤ m'.cycles := fun hpath => by
    rw [hpath.cycles]
    exact Nat.le_add_right _ _
  cases call with
  | cycle => exact Option.some.inj h ▸ hpath (.cons (.nil _))
  | resetCycle => exact Option.some.inj h ▸ Nat.le_succ _
  | instruction fuel =>
      obtain ⟨stride, hstride, rfl⟩ := Option.map_eq_some_iff.1 h
      obtain ⟨m', hm', hend⟩ := instructionCourse_path fuel m
      rw [instructionCourse_snd] at hend
      rw [hend stride hstride]
      exact hpath hm'
  | run fuel limit breakpoints =>
      obtain ⟨o, ho, rfl⟩ := Option.map_eq_some_iff.1 h
      exact hpath (course_path ho)
  | reset =>
      obtain rfl := Option.some.inj h
      rw [cycles_reset]
      exact Nat.le_add_right _ _
  | raise request | cancel requested | write address value =>
      exact Option.some.inj h ▸ Nat.le_refl _

/-! ### Counters and log -/

/-- **Every half period once.** Put a machine together and call on it what you like; calls may end in
an error of the console. The half periods are then twice the cycles, and fit into 64 bits as long as
the cycles fit into 63. With its core observed, the same calls lead to the same machine, and its log
is that of so many cycles: the core was evaluated twice in each, with the clock high and then low and
otherwise the same inputs, and told to record all times from zero on, one for each half period, if
the machine is traced, and nothing otherwise. No further call sets the cycles back, and a reset adds
five. -/
theorem every_half_period_once {core : γ} {memory : Memory} {settings : Settings} {keyboard : κ}
    {console : Console} {journal : Journal} {calls : List Call} {m : Machine γ κ}
    (h : performAll calls (assemble core memory settings keyboard console journal) = some m) :
    m.time = 2 * m.cycles ∧
    (m.cycles < 0x8000000000000000 → m.time < UInt64.size) ∧
    (∃ observed : Machine (Observed γ) κ,
      performAll calls (assemble { core } memory settings keyboard console journal) =
        some observed ∧
      observed.forget = m ∧
      (observed.core.log.filterMap Observation.inputs?).length = 2 * m.cycles ∧
      observed.core.log.filterMap Observation.time? =
        (if settings.traced then List.range (2 * m.cycles) else []) ∧
      ∃ driven : List InputLines, driven.length = m.cycles ∧
        observed.core.log = Observation.ofCycles settings.traced 0 driven ∧
        observed.core.log.filterMap Observation.inputs? = driven.flatMap fun inputs =>
          [{ inputs with clock := true }, { inputs with clock := false }]) ∧
    ∀ call m', Call.perform call m = some m' →
      m.cycles ≤ m'.cycles ∧ (call = .reset → m'.cycles = m.cycles + 5) := by
  have hforget := forget_performAll calls
    (assemble (γ := Observed γ) { core } memory settings keyboard console journal)
  have hassemble : (assemble (γ := Observed γ) { core } memory settings keyboard console
      journal).forget = assemble core memory settings keyboard console journal := rfl
  rw [hassemble, h] at hforget
  obtain ⟨observed, hobserved, rfl⟩ := Option.map_eq_some_iff.1 hforget.symm
  have hstart : Regular settings
      (assemble (γ := Observed γ) { core } memory settings keyboard console journal) :=
    ⟨rfl, rfl, [], rfl, rfl⟩
  have hregular := hstart.performAll hobserved
  obtain ⟨driven, hlength, hlog⟩ := hregular.log
  have hevaluated : observed.core.log.filterMap Observation.inputs? = driven.flatMap fun inputs =>
      [{ inputs with clock := true }, { inputs with clock := false }] := by
    rw [hlog, Observation.filterMap_inputs?_ofCycles]
  have hrecorded : observed.core.log.filterMap Observation.time? =
      if settings.traced then List.range (2 * observed.cycles) else [] := by
    rw [hlog, Observation.filterMap_time?_ofCycles, hlength, List.range_eq_range']
  have hcount : (observed.core.log.filterMap Observation.inputs?).length = 2 * observed.cycles := by
    rw [hevaluated, ← hlength, List.length_flatMap]
    simp [List.map_const', Nat.mul_comm]
  refine ⟨hregular.time, fun hcycles => ?_, ⟨observed, hobserved, rfl, hcount, hrecorded, driven,
    hlength, hlog, hevaluated⟩, fun call m' hcall => ⟨Call.cycles_le_of_perform hcall, ?_⟩⟩
  · have hsize : UInt64.size = 2 * 0x8000000000000000 := rfl
    rw [hsize, show observed.forget.time = 2 * observed.forget.cycles from hregular.time]
    omega
  · rintro rfl
    obtain rfl := Option.some.inj hcall
    exact cycles_reset _

/-- A traced machine over an empty memory that is reset, stepped, told to finish the instruction, run
for three cycles, and run again after the operator asked to stop: thirteen cycles, and twenty-six half
periods that were recorded in order. -/
theorem every_half_period_once_bench :
    ∃ (m : Machine BenchCore BenchKeyboard) (observed : Machine (Observed BenchCore) BenchKeyboard),
      performAll
        [.reset, .cycle, .instruction 10, .run 10 (.cycles 3) ∅, .cancel true, .run 10 .unbounded ∅]
        (assemble {} benchAtFetch.memory { traced := true } {} {} #[]) = some m ∧
      m.cycles = 13 ∧ m.time = 26 ∧ observed.forget = m ∧
      observed.core.log.filterMap Observation.time? = List.range 26 := by
  obtain ⟨m, hm⟩ : ∃ m : Machine BenchCore BenchKeyboard, performAll
      [.reset, .cycle, .instruction 10, .run 10 (.cycles 3) ∅, .cancel true, .run 10 .unbounded ∅]
      (assemble {} benchAtFetch.memory { traced := true } {} {} #[]) = some m :=
    Option.isSome_iff_exists.1 rfl
  have hcycles : m.cycles = 13 := by
    have hmap := congrArg (Option.map Machine.cycles) hm
    exact (Option.some.inj hmap).symm
  obtain ⟨htime, -, ⟨observed, -, hforget, -, hrecorded, -⟩, -⟩ := every_half_period_once hm
  rw [hcycles] at htime hrecorded
  exact ⟨m, observed, hm, hcycles, htime, hforget, hrecorded⟩

end Machine

end ClockStep
