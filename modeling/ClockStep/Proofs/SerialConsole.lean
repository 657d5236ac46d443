import ClockStep.Proofs.Course
import ClockStep.Proofs.FrameReception

/-!
# From the Serial Line to the Console

A cycle outside of reset starts by looking at the level that the last cycle left on the serial line,
so the console is a cycle behind the core, and whatever groups the cycles comes in between: the end
of a run, a reset, a halt, a change of the machine's surroundings. This module says that none of it
matters. The console gets what a new receiver finds in the levels at the starts of these cycles
(`Hearing`), and over the bench core these levels are what was laid out for the line, in order, none
of it twice and none left out (`Speaking`).

## Conventions

`Listening m₀ levels m` gathers the levels: the machine `m₀` became `m`, and `levels` are those at
the starts of the cycles outside of reset, be they single, of an instruction or of a run. Cycles of
reset come in whole resets, between which the reset line is down.

## Main results

* `Listening.hearing`: what a machine has heard at any moment.
* `Listening.speaking`: what the bench core has put on the line at any moment.
* `console_hears_line`: the two together, and what they come to for frames.
-/

namespace ClockStep

/-! ### What is found in levels -/

namespace Uart

/-- The bytes that a new receiver finds in levels. -/
def heard (levels : List Bool) : List Byte :=
  (Receiver.receiveFrom .standard 0 {} levels).map Prod.snd

/-- One level more completes a byte, or does not. -/
theorem heard_concat (levels : List Bool) (level : Bool) :
    heard (levels ++ [level]) =
      heard levels ++ ((Receiver.fed .standard levels {}).tick .standard level).2.toList := by
  rw [heard, heard, Receiver.receiveFrom_append, List.map_append, Receiver.receiveFrom]
  rcases (Receiver.fed .standard levels {}).tick .standard level with ⟨r, _ | byte⟩
  · rfl
  · rfl

/-- A receiver at rest that follows the line finds the text of the frames on it. -/
theorem receiveFrom_text {pace : Pace} {q : Nat} (h : pace.Follows q) (text : List Byte)
    (k index : Nat) :
    (Receiver.receiveFrom pace index {}
      (expand (text.flatMap (frame q)) ++ List.replicate k true)).map Prod.snd = text := by
  induction text generalizing index with
  | nil =>
      have hidle := Receiver.receiveFrom_high pace index 0 k []
      rw [List.append_nil] at hidle
      exact congrArg (List.map Prod.snd) hidle
  | cons b rest ih =>
      rw [List.flatMap_cons, expand_append, List.append_assoc]
      refine (congrArg (List.map Prod.snd) (Receiver.receiveFrom_frame h index 0 b _)).trans ?_
      rw [List.map_cons]
      exact congrArg (b :: ·) (ih _)

/-- A text takes the ticks of ten bits for each of its bytes. -/
theorem length_expand_text (q : Nat) (text : List Byte) :
    (expand (text.flatMap (frame q))).length = 10 * q * text.length := by
  induction text with
  | nil => rfl
  | cons b rest ih =>
      rw [List.flatMap_cons, expand_append, List.length_append, ih, length_expand_frame,
        List.length_cons, Nat.mul_succ, Nat.add_comm]

/-- The text of frames at the machine's own bit time is heard, after a level of idle line; and if
there is any text, also after a low level, which only makes the first start bit longer. -/
theorem heard_text {level : Bool} {text : List Byte} (h : level = true ∨ text ≠ []) (k : Nat) :
    heard (level :: (expand (text.flatMap (frame Pace.standard.bitTime)) ++
      List.replicate k true)) = text := by
  have hb : Timing.standard.bitPeriod = .ok 433 := rfl
  have hs : Timing.standard.startDelay = .ok 650 := rfl
  have hfollows : Pace.standard.Follows Pace.standard.bitTime :=
    Pace.follows_bitTime hb hs (by decide)
  cases level with
  | true =>
      have hidle := Receiver.receiveFrom_high .standard 0 0 1
        (expand (text.flatMap (frame Pace.standard.bitTime)) ++ List.replicate k true)
      exact (congrArg (List.map Prod.snd) hidle).trans (receiveFrom_text hfollows text k _)
  | false =>
      rcases text with _ | ⟨b, rest⟩
      · simp at h
      · rw [List.flatMap_cons, expand_append, List.append_assoc]
        have hsampled : ∀ i < 8,
            1 + (i + 1) * Pace.standard.bitTime ≤
                Pace.standard.leadTime + i * Pace.standard.bitTime ∧
              Pace.standard.leadTime + i * Pace.standard.bitTime <
                1 + (i + 2) * Pace.standard.bitTime := by decide
        have hearly := Receiver.receiveFrom_early_frame hfollows.pos hsampled (by decide) 0 0 b
          (expand (rest.flatMap (frame Pace.standard.bitTime)) ++ List.replicate k true)
        refine (congrArg (List.map Prod.snd) hearly).trans ?_
        rw [List.map_cons]
        exact congrArg (b :: ·) (receiveFrom_text hfollows rest k _)

/-- Reception at the machine's own rates, level by level. -/
theorem receive_standard (levels : List Bool) :
    ∃ arrivals, receive .standard (levels.map (·, 1)) = .ok arrivals ∧
      arrivals.map Prod.snd = heard levels := by
  have hpace : Timing.standard.pace = .ok .standard := rfl
  refine ⟨_, receive_eq_ok hpace _, ?_⟩
  rw [expand_map_one, heard]

end Uart

open Uart

namespace Machine

variable {γ κ : Type}

/-- The machine in other surroundings: the core, its inputs, the receiver and the console stay. -/
def within (other m : Machine γ κ) : Machine γ κ :=
  { other with core := m.core, inputs := m.inputs, receiver := m.receiver, console := m.console }

variable [Core γ] [Keyboard κ]

/-- What a machine may go through, with the levels of the serial line at the starts of its cycles
outside of reset. -/
inductive Listening (m₀ : Machine γ κ) : List Bool → Machine γ κ → Prop
  | start : Listening m₀ [] m₀
  /-- A single cycle. -/
  | cycle {levels : List Bool} {m : Machine γ κ} :
      Listening m₀ levels m → Listening m₀ (levels ++ [m.lines.transmit]) m.step.2
  /-- An instruction, or as much of it as is executed. -/
  | instruction {levels : List Bool} {m : Machine γ κ} {fuel : Nat} {stride : Stride γ κ} :
      m.stepInstruction fuel = some stride → Listening m₀ levels m →
      Listening m₀ (levels ++ (m.instructionCourse fuel).1.map (·.lines.transmit)) stride.2
  /-- A run of any kind, whatever it ends with. -/
  | run {levels : List Bool} {m : Machine γ κ} {fuel : Nat} {limit : Limit}
      {breakpoints : Breakpoints} {o : Outcome γ κ} :
      m.run fuel limit breakpoints = some o → Listening m₀ levels m →
      Listening m₀ (levels ++ (m.course fuel limit breakpoints).1.map (·.lines.transmit)) o.machine
  /-- A reset. -/
  | reset {levels : List Bool} {m : Machine γ κ} :
      Listening m₀ levels m → Listening m₀ levels m.reset
  /-- The surroundings change. -/
  | surround {levels : List Bool} {m : Machine γ κ} (other : Machine γ κ) :
      Listening m₀ levels m → Listening m₀ levels (within other m)

/-- What holds at the start, is kept by a cycle outside of reset, by a reset and by other
surroundings holds at any moment. -/
theorem Listening.induct {m₀ m : Machine γ κ} {levels : List Bool} (h : Listening m₀ levels m)
    {P : List Bool → Machine γ κ → Prop} (start : P [] m₀)
    (cycle : ∀ levels m, P levels m → P (levels ++ [m.lines.transmit]) m.step.2)
    (reset : ∀ levels m, P levels m → P levels m.reset)
    (surround : ∀ levels m other, P levels m → P levels (within other m)) : P levels m := by
  -- the cycles of an instruction and of a run are a path
  have hpath : ∀ {levels : List Bool} {m m' : Machine γ κ} {starts : List (Machine γ κ)},
      Path m starts m' → P levels m → P (levels ++ starts.map (·.lines.transmit)) m' := by
    intro levels m m' starts hpath
    induction hpath generalizing levels with
    | nil m =>
        intro hm
        rw [List.map_nil, List.append_nil]
        exact hm
    | @cons m m' starts _ ih =>
        intro hm
        rw [List.map_cons, List.append_cons]
        exact ih (cycle _ _ hm)
  induction h with
  | start => exact start
  | cycle _ ih => exact cycle _ _ ih
  | @instruction levels m fuel stride hstride _ ih =>
      obtain ⟨m', hm', hend⟩ := instructionCourse_path fuel m
      rw [instructionCourse_snd] at hend
      rw [hend stride hstride]
      exact hpath hm' ih
  | run hrun _ ih => exact hpath (course_path hrun) ih
  | reset _ ih => exact reset _ _ ih
  | surround other _ ih => exact surround _ _ other ih

/-! ### Hearing -/

omit [Keyboard κ] in
/-- Under an open console the serial line is listened to without fail. -/
theorem listen_of_isOpen {m : Machine γ κ} (h : m.console.IsOpen) :
    ∃ console, m.listen = (.ok (), { m with
        receiver := (m.receiver.tick .standard m.lines.transmit).1
        console }) ∧
      console.IsOpen ∧ console.terminal = m.console.terminal ∧
      console.sink.received.toList = m.console.sink.received.toList ++
        (m.receiver.tick .standard m.lines.transmit).2.toList.flatMap m.console.passed := by
  rw [listen]
  rcases m.receiver.tick .standard m.lines.transmit with ⟨receiver, _ | byte⟩
  · exact ⟨m.console, rfl, h, rfl, (List.append_nil _).symm⟩
  · obtain ⟨sink, hsend, hpolicy, hreceived⟩ := Console.send_of_isOpen h byte
    dsimp only
    rw [hsend]
    refine ⟨{ m.console with sink }, rfl, ⟨fun progress => ?_, fun progress => ?_⟩, rfl, ?_⟩
    · rw [hpolicy]
      exact h.write progress
    · rw [hpolicy]
      exact h.flush progress
    · rw [hreceived]
      simp

/-- The rest of a cycle, after the serial line was listened to. -/
theorem step_of_listen {m m' : Machine γ κ} (h : m.listen = (.ok (), m')) :
    m.step.2 = m'.pollKeyboard.clockPeriod.finish.2 := by
  rw [step, h]
  dsimp only
  rw [finish]
  split <;> rfl

/-- The rest of a cycle leaves receiver and console alone. -/
theorem receiver_console_of_listen {m m' : Machine γ κ} (h : m.listen = (.ok (), m')) :
    m.step.2.receiver = m'.receiver ∧ m.step.2.console = m'.console := by
  obtain ⟨journal, hpoll⟩ := m'.pollKeyboard_eq
  rw [step_of_listen h, hpoll, finish]
  split
  · exact ⟨rfl, rfl⟩
  · exact ⟨rfl, rfl⟩

omit [Keyboard κ] in
/-- A cycle of reset feeds nothing to the receiver, and nothing comes of it. -/
theorem receiver_console_resetStep (m : Machine γ κ) :
    m.resetStep.receiver = m.receiver ∧ m.resetStep.console = m.console :=
  ⟨rfl, rfl⟩

omit [Keyboard κ] in
/-- Nor does a whole reset. -/
theorem receiver_console_reset (m : Machine γ κ) :
    m.reset.receiver = m.receiver ∧ m.reset.console = m.console := by
  obtain ⟨held, ⟨hreceiver, hconsole⟩, hreset⟩ := exists_held
    (P := fun held : Machine γ κ => held.receiver = m.receiver ∧ held.console = m.console) (m := m)
    ⟨rfl, rfl⟩ fun held hheld => hheld
  rw [hreset]
  exact ⟨hreceiver, hconsole⟩

/-- What a machine **has heard**: the receiver was fed with the levels, and what it found went to
the console. -/
structure Hearing (m₀ : Machine γ κ) (levels : List Bool) (m : Machine γ κ) : Prop where
  receiver : m.receiver = Receiver.fed .standard levels {}
  isOpen : m.console.IsOpen
  terminal : m.console.terminal = m₀.console.terminal
  received : m.console.sink.received.toList =
    m₀.console.sink.received.toList ++ (heard levels).flatMap m₀.console.passed

/-- A cycle feeds one level. -/
theorem Hearing.cycle {m₀ m : Machine γ κ} {levels : List Bool} (h : Hearing m₀ levels m) :
    Hearing m₀ (levels ++ [m.lines.transmit]) m.step.2 := by
  obtain ⟨console, hlisten, hopen, hterminal, hreceived⟩ := listen_of_isOpen h.isOpen
  obtain ⟨hr, hc⟩ := receiver_console_of_listen hlisten
  have hpassed : m.console.passed = m₀.console.passed := by
    funext b
    rw [Console.passed, Console.passed, h.terminal]
  refine ⟨?_, hc ▸ hopen, ?_, ?_⟩
  · rw [hr, h.receiver, Receiver.fed, Receiver.fed, List.foldl_append, List.foldl_cons,
      List.foldl_nil]
  · rw [hc, hterminal, h.terminal]
  · rw [hc, hreceived, h.received, h.receiver, heard_concat, hpassed, List.flatMap_append,
      List.append_assoc]

omit [Core γ] [Keyboard κ] in
/-- Hearing is a matter of the receiver and the console. -/
theorem Hearing.congr {m₀ m m' : Machine γ κ} {levels : List Bool} (h : Hearing m₀ levels m)
    (hreceiver : m'.receiver = m.receiver) (hconsole : m'.console = m.console) :
    Hearing m₀ levels m' where
  receiver := hreceiver ▸ h.receiver
  isOpen := hconsole ▸ h.isOpen
  terminal := hconsole ▸ h.terminal
  received := hconsole ▸ h.received

omit [Keyboard κ] in
/-- A reset feeds no level to the receiver. -/
theorem Hearing.reset {m₀ m : Machine γ κ} {levels : List Bool} (h : Hearing m₀ levels m) :
    Hearing m₀ levels m.reset :=
  h.congr m.receiver_console_reset.1 m.receiver_console_reset.2

/-- What a machine has heard at any moment, if it starts with a new receiver. -/
theorem Listening.hearing {m₀ m : Machine γ κ} {levels : List Bool} (h : Listening m₀ levels m)
    (hnew : m₀.receiver = {}) (hopen : m₀.console.IsOpen) : Hearing m₀ levels m := by
  refine h.induct ?_ ?_ ?_ ?_
  · exact ⟨hnew, hopen, rfl, (List.append_nil _).symm⟩
  · intro levels m hm
    exact hm.cycle
  · intro levels m hm
    exact hm.reset
  · intro levels m other hm
    exact hm.congr rfl rfl

end Machine

/-! ### Speaking -/

/-- Only the change of its own line touches the serial line. -/
theorem OutputLines.transmit_change {change : LineChange} (h : ∀ value, change ≠ .transmit value)
    (lines : OutputLines) : (lines.change change).transmit = lines.transmit := by
  cases change with
  | transmit value => exact absurd rfl (h value)
  | _ => rfl

namespace Uart

/-- The next level and the ones after it are the levels of the runs, if there are any. -/
theorem nextLevel_of_expand_eq_nil {runs : List (Bool × Nat)} (h : expand runs = []) :
    (nextLevel runs).1 = true ∧ expand (nextLevel runs).2 = [] := by
  induction runs with
  | nil => exact ⟨rfl, rfl⟩
  | cons run runs ih =>
      rcases run with ⟨level, _ | n⟩
      · rw [nextLevel]
        exact ih (by simpa [expand] using h)
      · simp [expand, List.replicate_succ] at h

/-- As long as levels are left, the next one is the first of them. -/
theorem nextLevel_of_expand_ne_nil {runs : List (Bool × Nat)} (h : expand runs ≠ []) :
    (nextLevel runs).1 :: expand (nextLevel runs).2 = expand runs := by
  induction runs with
  | nil => exact absurd rfl h
  | cons run runs ih =>
      rcases run with ⟨level, _ | n⟩
      · rw [nextLevel, ih (by simpa [expand] using h)]
        simp [expand]
      · rw [nextLevel]
        by_cases hn : n = 0
        · subst hn
          simp [expand]
        · simp [expand, hn, List.replicate_succ]

end Uart

namespace BenchCore

/-- None of the changes laid out for a core forces its serial line. -/
def Undisturbed (c : BenchCore) : Prop :=
  ∀ event ∈ c.events, ∀ value, LineChange.transmit value ∉ event.changes

/-- Where nothing disturbs the line, what is laid out leaves it. -/
theorem Undisturbed.transmit_strike {c : BenchCore} (h : c.Undisturbed) :
    c.strike.lines.transmit = c.lines.transmit := by
  refine strike_keeps OutputLines.transmit fun event hevent change hchange => ?_
  refine OutputLines.transmit_change fun value hvalue => ?_
  exact h event hevent value (hvalue ▸ hchange)

/-- The level on the serial line, and those that are still to appear on it. -/
def upcoming (c : BenchCore) : List Bool := c.lines.transmit :: expand c.serial

/-- The serial line and what is laid out for it after a rising edge, if nothing forces the line: in
reset nothing happens to it. -/
def spoken (reset : Bool) (c : BenchCore) : Bool × List (Bool × Nat) :=
  if reset then (c.lines.transmit, c.serial) else nextLevel c.serial

/-- The serial side of a rising edge; whether the core is halted does not matter. -/
theorem risingEdge_serial (inputs : InputLines) (c : BenchCore) (memory : Memory) :
    (c.risingEdge inputs memory).1.events = c.events ∧
    ((c.risingEdge inputs memory).1.lines.transmit, (c.risingEdge inputs memory).1.serial) =
      c.spoken inputs.reset := by
  rw [risingEdge, spoken]
  by_cases hreset : inputs.reset = true
  · rw [if_pos hreset, if_pos hreset]
    exact ⟨rfl, rfl⟩
  · rw [if_neg hreset, if_neg hreset]
    refine ⟨rfl, ?_⟩
    dsimp only
    by_cases hhalt : (c.lines.answer inputs).halt = true
    · rw [if_pos hhalt]
    · obtain ⟨pc, ir, microPc, halt, mar, mdr, hlines⟩ := advance_lines c.store
        { c.lines.answer inputs with transmit := (nextLevel c.serial).1 } memory
      rw [if_neg hhalt, hlines]

/-- The serial side of an evaluation with the clock high. -/
theorem evaluate_serial {inputs : InputLines} {c : BenchCore} (hclock : inputs.clock = true)
    (memory : Memory) (h : c.Undisturbed) :
    (c.evaluate inputs memory).1.Undisturbed ∧
    ((c.evaluate inputs memory).1.lines.transmit, (c.evaluate inputs memory).1.serial) =
      c.spoken inputs.reset := by
  obtain ⟨hevents, hserial⟩ :=
    risingEdge_serial inputs { c with seen := inputs, edges := c.edges + 1 } memory
  have hundisturbed : (risingEdge inputs { c with seen := inputs, edges := c.edges + 1 }
      memory).1.Undisturbed := by
    intro event hevent
    rw [hevents] at hevent
    exact h event hevent
  rw [evaluate, if_pos hclock]
  refine ⟨hundisturbed, ?_⟩
  dsimp only
  rw [hundisturbed.transmit_strike]
  exact hserial

end BenchCore

namespace Machine

variable {κ : Type}

/-- The serial side of a clock period. -/
theorem spoken_clockPeriod {m : Machine BenchCore κ} (h : m.core.Undisturbed) :
    m.clockPeriod.core.Undisturbed ∧
    (m.clockPeriod.core.lines.transmit, m.clockPeriod.core.serial) =
      m.core.spoken m.inputs.reset := by
  obtain ⟨seen, recorded, hcore⟩ := m.core_clockPeriod_eq
  rw [hcore]
  exact BenchCore.evaluate_serial rfl m.memory h

/-- Levels that begin with some and go on with high ones. -/
theorem eq_append_replicate_of_isPrefix {front levels : List Bool} {n : Nat}
    (h : levels <+: front ++ List.replicate n true) (hlength : front.length ≤ levels.length) :
    levels = front ++ List.replicate (levels.length - front.length) true := by
  have hle := h.length_le
  rw [List.length_append, List.length_replicate] at hle
  have htake := List.prefix_iff_eq_take.1 h
  rw [List.take_append, List.take_of_length_le hlength, List.take_replicate,
    Nat.min_eq_left (by omega)] at htake
  exact htake

/-- What the bench core **has said**: the levels so far and those to come are the ones laid out at
the start, and then the line is high. -/
structure Speaking (m₀ : Machine BenchCore κ) (levels : List Bool) (m : Machine BenchCore κ) :
    Prop where
  undisturbed : m.core.Undisturbed
  released : m.inputs.reset = false
  said : ∃ k, levels ++ m.core.upcoming = m₀.core.upcoming ++ List.replicate k true

/-- A clock period with the reset line up says nothing. -/
theorem upcoming_resetStep {m : Machine BenchCore κ} (h : m.core.Undisturbed)
    (hreset : m.inputs.reset = true) :
    m.resetStep.core.Undisturbed ∧ m.resetStep.core.upcoming = m.core.upcoming := by
  obtain ⟨hundisturbed, hspoken⟩ := spoken_clockPeriod h
  rw [hreset, BenchCore.spoken, if_pos rfl] at hspoken
  obtain ⟨htransmit, hserial⟩ := Prod.mk.inj hspoken
  refine ⟨hundisturbed, ?_⟩
  rw [resetStep, BenchCore.upcoming, BenchCore.upcoming, htransmit, hserial]

/-- Nor does a whole reset. -/
theorem upcoming_reset {m : Machine BenchCore κ} (h : m.core.Undisturbed) :
    m.reset.core.Undisturbed ∧ m.reset.inputs.reset = false ∧
      m.reset.core.upcoming = m.core.upcoming := by
  have hstep : ∀ held : Machine BenchCore κ,
      held.core.Undisturbed ∧ held.inputs.reset = true ∧ held.core.upcoming = m.core.upcoming →
      held.resetStep.core.Undisturbed ∧ held.resetStep.inputs.reset = true ∧
        held.resetStep.core.upcoming = m.core.upcoming := by
    rintro held ⟨hundisturbed, hup, hsame⟩
    obtain ⟨hundisturbed', hsame'⟩ := upcoming_resetStep hundisturbed hup
    exact ⟨hundisturbed', hup, hsame'.trans hsame⟩
  obtain ⟨held, ⟨hundisturbed, -, hsame⟩, hreset⟩ := exists_held ⟨h, rfl, rfl⟩ hstep
  rw [hreset]
  exact ⟨hundisturbed, rfl, hsame⟩

variable [Keyboard κ]

/-- Outside of reset a cycle puts the next level on the line. -/
theorem spoken_step {m m' : Machine BenchCore κ} (hlisten : m.listen = (.ok (), m'))
    (h : m.core.Undisturbed) (hreleased : m.inputs.reset = false) :
    m.step.2.core.Undisturbed ∧ m.step.2.inputs.reset = false ∧
      (m.step.2.core.lines.transmit, m.step.2.core.serial) = nextLevel m.core.serial := by
  obtain ⟨receiver, console, hsnd⟩ := m.listen_snd
  rw [hlisten] at hsnd
  obtain rfl : m' = _ := hsnd
  have hperiod : ∀ m' : Machine BenchCore κ, m'.core = m.core → m'.inputs = m.inputs →
      m'.clockPeriod.core.Undisturbed ∧ m'.clockPeriod.inputs.reset = false ∧
      (m'.clockPeriod.core.lines.transmit, m'.clockPeriod.core.serial) =
        nextLevel m.core.serial := by
    intro m' hcore hinputs
    rw [← hcore] at h ⊢
    rw [← hinputs] at hreleased
    obtain ⟨hundisturbed, hspoken⟩ := spoken_clockPeriod h
    rw [hreleased, BenchCore.spoken, if_neg Bool.false_ne_true] at hspoken
    exact ⟨hundisturbed, hreleased, hspoken⟩
  obtain ⟨journal, hpoll⟩ := { m with receiver, console }.pollKeyboard_eq
  rw [step_of_listen hlisten, hpoll, finish]
  split
  · exact hperiod _ rfl rfl
  · exact hperiod _ rfl rfl

/-- A cycle takes one level off the line and puts the next one on it. -/
theorem Speaking.cycle {m₀ m : Machine BenchCore κ} {levels : List Bool}
    (h : Speaking m₀ levels m) (hopen : m.console.IsOpen) :
    Speaking m₀ (levels ++ [m.lines.transmit]) m.step.2 := by
  obtain ⟨console, hlisten, -⟩ := listen_of_isOpen hopen
  obtain ⟨hundisturbed, hreleased, hspoken⟩ := spoken_step hlisten h.undisturbed h.released
  obtain ⟨k, hsaid⟩ := h.said
  obtain ⟨htransmit, hserial⟩ := Prod.mk.inj hspoken
  refine ⟨hundisturbed, hreleased, ?_⟩
  rw [BenchCore.upcoming] at hsaid
  rw [BenchCore.upcoming, htransmit, hserial, lines]
  by_cases hnone : expand m.core.serial = []
  · -- nothing is laid out any more: the line goes high
    obtain ⟨hlevel, hrest⟩ := nextLevel_of_expand_eq_nil hnone
    rw [hnone] at hsaid
    refine ⟨k + 1, ?_⟩
    rw [hlevel, hrest, List.replicate_succ', ← List.append_assoc, ← hsaid]
    rfl
  · refine ⟨k, ?_⟩
    rw [nextLevel_of_expand_ne_nil hnone, ← hsaid, List.append_assoc]
    rfl

/-- What the bench core has put on the line at any moment. -/
theorem Listening.speaking {m₀ m : Machine BenchCore κ} {levels : List Bool}
    (h : Listening m₀ levels m) (hnew : m₀.receiver = {}) (hopen : m₀.console.IsOpen)
    (hundisturbed : m₀.core.Undisturbed) (hreleased : m₀.inputs.reset = false) :
    Speaking m₀ levels m := by
  -- a cycle that the console breaks off would be one in which nothing is said
  have hboth : Hearing m₀ levels m ∧ Speaking m₀ levels m := by
    refine h.induct (P := fun levels m => Hearing m₀ levels m ∧ Speaking m₀ levels m) ?_ ?_ ?_ ?_
    · refine ⟨⟨hnew, hopen, rfl, (List.append_nil _).symm⟩, ⟨hundisturbed, hreleased, 0, ?_⟩⟩
      exact (List.append_nil _).symm
    · rintro levels m ⟨hheard, hsaid⟩
      exact ⟨hheard.cycle, hsaid.cycle hheard.isOpen⟩
    · rintro levels m ⟨hheard, hsaid⟩
      obtain ⟨hundisturbed, hreleased, hsame⟩ := upcoming_reset hsaid.undisturbed
      obtain ⟨k, hk⟩ := hsaid.said
      refine ⟨hheard.reset, hundisturbed, hreleased, k, ?_⟩
      rw [hsame, hk]
    · rintro levels m other ⟨hheard, hsaid⟩
      exact ⟨hheard.congr rfl rfl, hsaid.undisturbed, hsaid.released, hsaid.said⟩
  exact hboth.2

omit [Keyboard κ] in
/-- The levels that the bench core has said are those laid out for the line, from the one that was
on it at the start, and then high ones. -/
theorem Speaking.levels_isPrefix {m₀ m : Machine BenchCore κ} {levels : List Bool}
    (h : Speaking m₀ levels m) :
    levels <+: m₀.lines.transmit ::
      (expand m₀.core.serial ++ List.replicate levels.length true) := by
  obtain ⟨k, hsaid⟩ := h.said
  have hlength : levels.length ≤ m₀.core.upcoming.length + k := by
    have := congrArg List.length hsaid
    simp only [List.length_append, List.length_replicate] at this
    omega
  have htake : levels = (m₀.core.upcoming ++ List.replicate k true).take levels.length := by
    rw [← hsaid, List.take_left]
  have hmore : (m₀.core.upcoming ++ List.replicate k true).take levels.length =
      (m₀.core.upcoming ++ List.replicate levels.length true).take levels.length := by
    rw [List.take_append, List.take_append, List.take_replicate, List.take_replicate]
    congr 2
    omega
  exact List.prefix_iff_eq_take.2 (htake.trans hmore)

/-- **The console gets what the serial line says.** Take a machine with a new receiver and a console
that takes every write, and let it go through cycles, instructions, runs and resets of any kind. The
bytes that its console got are those that a new receiver at the machine's own rates finds in the
levels at the starts of the cycles outside of reset; a cycle of reset leaves receiver and console
alone. Over a bench core whose serial line nothing forces, these levels are the one at the start and
then those laid out for the line, each of them once, and high ones from there on; so frames that are
laid out come out as their text as soon as their levels have gone by, whether or not the core is
halted. -/
theorem console_hears_line {γ : Type} [Core γ] :
    (∀ (m₀ m : Machine γ κ) (levels : List Bool), m₀.receiver = {} → m₀.console.IsOpen →
      Listening m₀ levels m →
      ∃ arrivals, receive .standard (levels.map (·, 1)) = .ok arrivals ∧
        m.console.sink.received.toList = m₀.console.sink.received.toList ++
          (arrivals.map Prod.snd).flatMap m₀.console.passed) ∧
    (∀ m : Machine γ κ, m.resetStep.receiver = m.receiver ∧ m.resetStep.console = m.console) ∧
    ∀ (m₀ m : Machine BenchCore κ) (levels : List Bool), m₀.receiver = {} → m₀.console.IsOpen →
      m₀.core.Undisturbed → m₀.inputs.reset = false → Listening m₀ levels m →
      levels <+: m₀.lines.transmit ::
        (expand m₀.core.serial ++ List.replicate levels.length true) ∧
      ∀ text, expand m₀.core.serial = expand (text.flatMap (frame Pace.standard.bitTime)) →
        (m₀.lines.transmit = true ∨ text ≠ []) → 1 + 4340 * text.length ≤ levels.length →
        m.console.sink.received.toList =
          m₀.console.sink.received.toList ++ text.flatMap m₀.console.passed := by
  refine ⟨?_, fun m => m.receiver_console_resetStep, ?_⟩
  · intro m₀ m levels hnew hopen h
    obtain ⟨arrivals, harrivals, hheard⟩ := receive_standard levels
    refine ⟨arrivals, harrivals, ?_⟩
    rw [(h.hearing hnew hopen).received, hheard]
  · intro m₀ m levels hnew hopen hundisturbed hreleased h
    have hlevels := (h.speaking hnew hopen hundisturbed hreleased).levels_isPrefix
    refine ⟨hlevels, fun text hserial hstart hlong => ?_⟩
    have hlength : (m₀.lines.transmit ::
        expand (text.flatMap (frame Pace.standard.bitTime))).length ≤ levels.length := by
      have hbits : 10 * Pace.standard.bitTime = 4340 := rfl
      rw [List.length_cons, length_expand_text, hbits]
      omega
    rw [hserial, ← List.cons_append] at hlevels
    rw [(h.hearing hnew hopen).received, eq_append_replicate_of_isPrefix hlevels hlength,
      List.cons_append, heard_text hstart]

/-- Any number of cycles may follow. -/
theorem Listening.exists_cycles {m₀ m : Machine BenchCore κ} {levels : List Bool}
    (h : Listening m₀ levels m) (n : Nat) :
    ∃ later m', later.length = levels.length + n ∧ Listening m₀ later m' := by
  induction n with
  | zero => exact ⟨levels, m, rfl, h⟩
  | succ n ih =>
      obtain ⟨later, m', hlength, hlater⟩ := ih
      refine ⟨later ++ [m'.lines.transmit], m'.step.2, ?_, hlater.cycle⟩
      rw [List.length_append, hlength]
      rfl

/-- A halted bench machine with two frames laid out for its serial line. -/
def benchSpeaking : Machine BenchCore BenchKeyboard :=
  { benchAtFetch with core := { benchAtFetch.core with
      lines.halt := true
      serial := [0x68, 0x69].flatMap (frame 434) } }

/-- Two frames are heard from a core that is halted during the first one and reset in it, once all
their levels have gone by. -/
theorem console_hears_line_bench :
    ∃ levels m, Listening benchSpeaking levels m ∧ levels.length = 8681 ∧
      m.console.sink.received.toList = [0x68, 0x69] := by
  have hstart : Listening benchSpeaking [] benchSpeaking := .start
  obtain ⟨levels, m, hlength, h⟩ := hstart.exists_cycles 3000
  obtain ⟨levels', m', hlength', h'⟩ := h.reset.exists_cycles 5681
  rw [hlength] at hlength'
  have hundisturbed : benchSpeaking.core.Undisturbed := List.forall_mem_nil _
  obtain ⟨-, -, hbench⟩ := console_hears_line (γ := BenchCore) (κ := BenchKeyboard)
  obtain ⟨-, hframes⟩ := hbench benchSpeaking m' levels' rfl ⟨fun _ _ => rfl, fun _ => rfl⟩
    hundisturbed rfl h'
  refine ⟨levels', m', h', hlength', ?_⟩
  have hframed : expand benchSpeaking.core.serial =
      expand ([0x68, 0x69].flatMap (frame Pace.standard.bitTime)) := congrArg expand rfl
  exact hframes [0x68, 0x69] hframed (Or.inl rfl) (by rw [hlength']; decide)

end Machine

end ClockStep
