import ClockStep.Proofs.RaiseDelivery
import Mathlib.Data.List.Induction

/-!
# The Order in which Raises are Taken

A raise may be lost, but none is taken twice, and none is overtaken: what the bench core takes is
always the latest raise, and it takes it once. This module proves so for any life of a machine over
the bench core, in which cycles, resets, raises by hand and whole runs may be mixed and everything
around the handshake of core and controller may change in between (`Life`).

The acknowledge line is a level that stays up over several cycles, and the controller's answer to it
is a pulse that a core in reset does not see, so the two sides are not in step at every moment. What
holds at every moment is `Handshake`: a request that waits while the line is down is the latest
raise, and was not taken. A clock period keeps it (`handshake_clockPeriod`), and so does everything
else that happens to a machine.

## Main results

* `Handshake.history`: what the core has taken is in the record of events, in order.
* `taken_in_order`: the data taken are those of some of the raises, each the latest at its moment.
-/

namespace ClockStep

/-! ### Takes among the events -/

/-- The data that the core takes at a drive: the inputs show a request, the answering pulse is not
there, and the acknowledge line is down. -/
def Drive.taken? (d : Drive) : Option Word :=
  if !d.high.reset && !d.high.acknowledgeClear && d.high.deviceReady && !d.acknowledge then
    some d.high.data
  else none

/-- Where data are taken, the line is high and its acknowledgement low, and they are the data on the
lines. -/
theorem Drive.of_taken? {d : Drive} {data : Word} (h : d.taken? = some data) :
    d.high.deviceReady = true ∧ d.acknowledge = false ∧ d.high.data = data := by
  rw [taken?, Option.ite_none_right_eq_some] at h
  obtain ⟨htakes, hdata⟩ := h
  simp only [Bool.and_eq_true, Bool.not_eq_true'] at htakes
  exact ⟨htakes.1.2, htakes.2, Option.some.inj hdata⟩

namespace Event

/-- The data of a raise. -/
def raised? : Event → Option Word
  | .raised request => some request.data
  | .driven _ => none

/-- The data that the core takes. -/
def taken? : Event → Option Word
  | .raised _ => none
  | .driven d => d.taken?

/-- The data of the latest raise, as long as it was not taken. -/
def untaken (latest : Option Word) (event : Event) : Option Word :=
  match event with
  | .raised request => some request.data
  | .driven d => if d.taken?.isSome then none else latest

/-- Among some events, all that is taken is the latest raise, and that only once; `latest` is the
one from before, if it was not taken. -/
def InOrder : Option Word → List Event → Prop
  | _, [] => True
  | latest, event :: events =>
    (∀ data, event.taken? = some data → latest = some data) ∧ InOrder (event.untaken latest) events

/-- A raise takes nothing. -/
theorem inOrder_raised (latest : Option Word) (request : Interrupt) :
    InOrder latest [.raised request] := by
  refine ⟨fun data hdata => ?_, trivial⟩
  cases hdata

/-- Events are in order exactly when each part is, the second given what the first leaves
untaken. -/
theorem inOrder_append {latest : Option Word} {events later : List Event} :
    InOrder latest (events ++ later) ↔
      InOrder latest events ∧ InOrder (events.foldl untaken latest) later := by
  induction events generalizing latest with
  | nil => exact ⟨fun h => ⟨trivial, h⟩, And.right⟩
  | cons event events ih =>
      rw [List.cons_append, InOrder, InOrder, ih, and_assoc]
      rfl

/-- What a drive takes is all that is taken in it. -/
theorem filterMap_taken?_driven (d : Drive) : [driven d].filterMap taken? = d.taken?.toList := by
  rw [List.filterMap_cons, taken?]
  cases d.taken? <;> rfl

/-- What is taken in order is some of what was raised. -/
theorem InOrder.sublist {latest : Option Word} {events : List Event} (h : InOrder latest events) :
    (events.filterMap taken?).Sublist (latest.toList ++ events.filterMap raised?) := by
  induction events generalizing latest with
  | nil => exact List.nil_sublist _
  | cons event events ih =>
      obtain ⟨htaken, hlater⟩ := h
      have hrest := ih hlater
      cases event with
      | raised request => exact hrest.trans (List.sublist_append_right ..)
      | driven d =>
          cases hd : d.taken? with
          | none => simpa [List.filterMap_cons, untaken, taken?, raised?, hd] using hrest
          | some data =>
              obtain rfl : latest = some data := htaken data hd
              simpa [List.filterMap_cons, untaken, taken?, raised?, hd] using hrest

/-- A raise that was not taken is the latest one, and nothing was taken since. -/
theorem exists_raised_of_foldl_untaken {events : List Event} {data : Word}
    (h : events.foldl untaken none = some data) :
    ∃ front request back, events = front ++ .raised request :: back ∧ request.data = data ∧
      ∀ event ∈ back, event.raised? = none ∧ event.taken? = none := by
  induction events using List.reverseRecOn with
  | nil => cases h
  | append_singleton events event ih =>
      rw [List.foldl_append, List.foldl_cons, List.foldl_nil] at h
      cases event with
      | raised request =>
          exact ⟨events, request, [], rfl, Option.some.inj h, List.forall_mem_nil _⟩
      | driven d =>
          cases hd : d.taken? with
          | some data' => simp [untaken, hd] at h
          | none =>
              have hbefore : events.foldl untaken none = some data := by simpa [untaken, hd] using h
              obtain ⟨front, request, back, rfl, hdata, hback⟩ := ih hbefore
              refine ⟨front, request, back ++ [.driven d], by simp, hdata, ?_⟩
              intro event hevent
              rcases List.mem_append.1 hevent with hevent | hevent
              · exact hback event hevent
              · obtain rfl := List.mem_singleton.1 hevent
                exact ⟨rfl, hd⟩

end Event

/-- A poll of the keyboard takes nothing. -/
theorem Poll.filterMap_taken?_events (poll : Poll) : poll.events.filterMap Event.taken? = [] := by
  rw [events]
  cases poll.character? <;> rfl

/-! ### The core's side of the handshake -/

namespace OutputLines

/-- Only the change of its own line touches the acknowledgement. -/
theorem acknowledge_change {change : LineChange} (h : ∀ value, change ≠ .acknowledge value)
    (lines : OutputLines) : (lines.change change).acknowledge = lines.acknowledge := by
  cases change with
  | acknowledge value => exact absurd rfl (h value)
  | _ => rfl

end OutputLines

namespace BenchCore

/-- None of the changes laid out for a core forces its acknowledge line. -/
def Unforced (c : BenchCore) : Prop :=
  ∀ event ∈ c.events, ∀ value, LineChange.acknowledge value ∉ event.changes

/-- Where nothing forces the line, what is laid out leaves it. -/
theorem Unforced.acknowledge_strike {c : BenchCore} (h : c.Unforced) :
    c.strike.lines.acknowledge = c.lines.acknowledge := by
  refine strike_keeps OutputLines.acknowledge fun event hevent change hchange => ?_
  refine OutputLines.acknowledge_change fun value hvalue => ?_
  exact h event hevent value (hvalue ▸ hchange)

/-- A step of the micro-program leaves the acknowledgement. -/
theorem acknowledge_advance (store : Option (Word × Word)) (lines : OutputLines)
    (memory : Memory) :
    (advance id (execute store) lines memory).1.acknowledge = lines.acknowledge := by
  obtain ⟨pc, ir, microPc, halt, mar, mdr, h⟩ := advance_lines store lines memory
  rw [h]

/-- The acknowledge line after a rising edge with the given inputs, if nothing forces it. -/
def settle (inputs : InputLines) (c : BenchCore) : Bool :=
  if inputs.reset then c.lines.acknowledge else (c.lines.answer inputs).acknowledge

/-- The data that a rising edge with the given inputs takes. -/
def takes? (inputs : InputLines) (c : BenchCore) : Option Word :=
  if !inputs.reset && c.lines.takesInterrupt inputs then some inputs.data else none

/-- Whoever takes an interrupt puts the acknowledge line up. -/
theorem settle_of_takes? {inputs : InputLines} {c : BenchCore} {data : Word}
    (h : c.takes? inputs = some data) : c.settle inputs = true := by
  rw [takes?, OutputLines.takesInterrupt] at h
  rw [settle, OutputLines.answer]
  cases hreset : inputs.reset <;> cases hclear : inputs.acknowledgeClear <;>
    cases hready : inputs.deviceReady <;> cases hack : c.lines.acknowledge <;> simp_all

/-- The core's side of a rising edge. -/
theorem risingEdge_handshake (inputs : InputLines) (c : BenchCore) (memory : Memory) :
    (c.risingEdge inputs memory).1.events = c.events ∧
    (c.risingEdge inputs memory).1.taken.toList =
      c.taken.toList ++ (c.takes? inputs).toList ∧
    (c.risingEdge inputs memory).1.lines.acknowledge = c.settle inputs := by
  rw [risingEdge, takes?, settle]
  by_cases hreset : inputs.reset = true
  · simp [hreset, OutputLines.restart]
  · simp only [hreset, Bool.not_false, Bool.true_and, if_false, Bool.false_eq_true]
    refine ⟨trivial, ?_, ?_⟩
    · split <;> simp
    · split
      · rfl
      · exact acknowledge_advance _ _ _

/-- The core's side of an evaluation with the clock high. -/
theorem evaluate_handshake {inputs : InputLines} {c : BenchCore}
    (hclock : inputs.clock = true) (memory : Memory) (h : c.Unforced) :
    (c.evaluate inputs memory).1.Unforced ∧
    (c.evaluate inputs memory).1.taken.toList = c.taken.toList ++ (c.takes? inputs).toList ∧
    (c.evaluate inputs memory).1.lines.acknowledge = c.settle inputs := by
  obtain ⟨hevents, htaken, hacknowledge⟩ :=
    risingEdge_handshake inputs { c with seen := inputs, edges := c.edges + 1 } memory
  have hunforced : (risingEdge inputs { c with seen := inputs, edges := c.edges + 1 }
      memory).1.Unforced := by
    intro event hevent
    rw [hevents] at hevent
    exact h event hevent
  rw [evaluate, if_pos hclock]
  exact ⟨hunforced, htaken, hunforced.acknowledge_strike.trans hacknowledge⟩

end BenchCore

/-! ### The handshake -/

namespace Machine

variable {κ : Type}

/-- What holds at every moment: a request that waits while the acknowledge line is down is the
latest raise, and it was not taken. -/
structure Handshake (latest : Option Word) (m : Machine BenchCore κ) : Prop where
  unforced : m.core.Unforced
  untaken : m.interrupts.pending = true → m.lines.acknowledge = false →
    latest = some m.interrupts.latest.data

/-- The core takes at a drive what the record of the drive says. -/
theorem takes?_drive (m : Machine BenchCore κ) :
    m.core.takes? m.drive.high = m.drive.taken? := by
  rw [BenchCore.takes?, Drive.taken?, OutputLines.takesInterrupt, ← Bool.and_assoc,
    ← Bool.and_assoc]
  rfl

/-- The core's side of a clock period. -/
theorem core_clockPeriod {m : Machine BenchCore κ} (h : m.core.Unforced) :
    m.clockPeriod.core.Unforced ∧
    m.clockPeriod.core.taken.toList = m.core.taken.toList ++ m.drive.taken?.toList ∧
    m.clockPeriod.lines.acknowledge = m.core.settle m.drive.high := by
  have hhigh : m.drive.high = { m.driveInterrupts.inputs with clock := true } :=
    seen_halfPeriod true m.driveInterrupts
  obtain ⟨hunforced, htaken, hacknowledge⟩ :=
    BenchCore.evaluate_handshake (hhigh ▸ rfl : m.drive.high.clock = true) m.memory h
  obtain ⟨seen, recorded, hcore⟩ := m.core_clockPeriod_eq
  rw [← takes?_drive, lines, hcore, ← hhigh]
  exact ⟨hunforced, htaken, hacknowledge⟩

/-- **A clock period** keeps the handshake: if the core takes something, it is the latest raise. -/
theorem handshake_clockPeriod {latest : Option Word} {m : Machine BenchCore κ}
    (h : m.Handshake latest) :
    Event.InOrder latest [.driven m.drive] ∧
    m.clockPeriod.Handshake (Event.untaken latest (.driven m.drive)) ∧
    m.clockPeriod.core.taken.toList = m.core.taken.toList ++ m.drive.taken?.toList := by
  obtain ⟨hunforced, htaken, hline⟩ := core_clockPeriod h.unforced
  obtain ⟨hrequest, hready⟩ := m.shows_drive m.drive.high (List.mem_cons_self ..)
  have hlatest : m.clockPeriod.interrupts.latest = m.interrupts.latest :=
    InterruptController.latest_heed _ _
  have hpending : m.clockPeriod.interrupts.pending =
      (m.interrupts.pending && !m.lines.acknowledge) :=
    InterruptController.pending_heed _ _
  refine ⟨⟨fun data hdata => ?_, trivial⟩, ⟨hunforced, ?_⟩, htaken⟩
  · obtain ⟨hshown, hdown, rfl⟩ := Drive.of_taken? hdata
    rw [hready, hdown, Bool.not_false, Bool.and_true] at hshown
    rw [h.untaken hshown hdown]
    exact congrArg (some ·.data) hrequest.symm
  · intro hwaits hdown
    rw [hpending, Bool.and_eq_true, Bool.not_eq_true'] at hwaits
    rw [hlatest, Event.untaken]
    cases hd : m.drive.taken? with
    | none => exact h.untaken hwaits.1 hwaits.2
    | some data =>
        rw [hline, BenchCore.settle_of_takes? (m.takes?_drive.trans hd)] at hdown
        cases hdown

/-- The receiver does not reach the core. -/
theorem core_listen (m : Machine BenchCore κ) : m.listen.2.core = m.core := by
  obtain ⟨receiver, console, h⟩ := m.listen_snd
  rw [h]

/-- Nor does the end of a cycle. -/
theorem core_finish (m : Machine BenchCore κ) : m.finish.2.core = m.core := by
  rw [finish]
  split <;> rfl

/-- The handshake is a matter of the core and the controller. -/
theorem Handshake.congr {latest : Option Word} {m m' : Machine BenchCore κ}
    (h : m.Handshake latest) (hcore : m'.core = m.core)
    (hinterrupts : m'.interrupts = m.interrupts) : m'.Handshake latest where
  unforced := hcore ▸ h.unforced
  untaken := by
    rw [hinterrupts, lines, hcore]
    exact h.untaken

/-- A raise is the latest raise. -/
theorem Handshake.raise {latest : Option Word} {m : Machine BenchCore κ} (h : m.Handshake latest)
    (request : Interrupt) : (m.raise request).Handshake (some request.data) where
  unforced := h.unforced
  untaken _ _ := rfl

/-- The machine with its reset line up, as the cycles of a reset find it. -/
def held (m : Machine BenchCore κ) : Machine BenchCore κ :=
  let m := m.note [.resetting]
  { m with inputs := { m.inputs with reset := true } }

/-- Putting the reset line down does not touch the core. -/
theorem core_reset (m : Machine BenchCore κ) :
    m.reset.core = (Nat.repeat resetStep resetCycles m.held).core := by
  unfold reset held
  dsimp only

variable [Keyboard κ]

/-- Asking the keyboard keeps the handshake. -/
theorem Handshake.pollKeyboard {latest : Option Word} {m : Machine BenchCore κ}
    (h : m.Handshake latest) :
    m.pollKeyboard.core = m.core ∧
    Event.InOrder latest (Keyboard.poll m.keyboard).1.events ∧
    m.pollKeyboard.Handshake ((Keyboard.poll m.keyboard).1.events.foldl Event.untaken latest) := by
  obtain ⟨journal, hpoll⟩ := m.pollKeyboard_eq
  rw [hpoll, Poll.events, InterruptController.afterPoll]
  cases (Keyboard.poll m.keyboard).1.character? with
  | none => exact ⟨rfl, trivial, h.congr rfl rfl⟩
  | some character =>
      exact ⟨rfl, Event.inOrder_raised .., (h.raise _).congr rfl rfl⟩

/-- An operation leaves the core's side of the handshake to the core: in other surroundings the
acknowledge line, the record of what was taken and the changes laid out stay as they are. -/
def Operation.Lawful (m : Machine BenchCore κ) : Operation κ → Prop
  | .arrange other =>
    other.core.lines.acknowledge = m.core.lines.acknowledge ∧
      other.core.taken = m.core.taken ∧ other.core.events = m.core.events
  | _ => True

/-- **One operation.** What the core takes in it is the latest raise, is recorded, and is on its
list. -/
theorem Handshake.record {latest : Option Word} {m : Machine BenchCore κ} (h : m.Handshake latest)
    {operation : Operation κ} (hlawful : operation.Lawful m) :
    Event.InOrder latest (operation.record m).1 ∧
    (operation.record m).2.Handshake ((operation.record m).1.foldl Event.untaken latest) ∧
    (operation.record m).2.core.taken.toList =
      m.core.taken.toList ++ (operation.record m).1.filterMap Event.taken? := by
  cases operation with
  | cycle =>
      have hcore := m.core_listen
      have hinterrupts := m.interrupts_listen
      rw [Operation.record, recordCycle]
      rcases hl : m.listen with ⟨(e | ⟨⟩), m'⟩ <;> rw [hl] at hcore hinterrupts
      · refine ⟨trivial, h.congr hcore hinterrupts, ?_⟩
        rw [show m'.core = m.core from hcore]
        exact (List.append_nil _).symm
      · obtain ⟨hsame, hpolled, hpoll⟩ := (h.congr hcore hinterrupts).pollKeyboard
        obtain ⟨hdriven, hperiod, htaken⟩ := handshake_clockPeriod hpoll
        dsimp only
        rw [Event.inOrder_append, List.foldl_append, core_finish, htaken, hsame, hcore]
        refine ⟨⟨hpolled, hdriven⟩, hperiod.congr (core_finish _) (interrupts_finish _), ?_⟩
        rw [List.filterMap_append, Poll.filterMap_taken?_events, List.nil_append]
        exact congrArg _ (Event.filterMap_taken?_driven _).symm
  | resetCycle =>
      obtain ⟨hdriven, hperiod, htaken⟩ := handshake_clockPeriod h
      exact ⟨hdriven, hperiod, htaken.trans (congrArg _ (Event.filterMap_taken?_driven _).symm)⟩
  | raise request =>
      refine ⟨Event.inOrder_raised .., h.raise request, ?_⟩
      exact (List.append_nil _).symm
  | arrange other =>
      obtain ⟨hline, htaken, hevents⟩ := hlawful
      refine ⟨trivial, ⟨?_, ?_⟩, ?_⟩
      · intro event hevent
        exact h.unforced event (hevents ▸ hevent)
      · intro hwaits hdown
        exact h.untaken hwaits (hline ▸ hdown)
      · exact (congrArg Array.toList htaken).trans (List.append_nil _).symm

/-- Every operation of a history is lawful when its turn comes. -/
def Lawful : List (Operation κ) → Machine BenchCore κ → Prop
  | [], _ => True
  | operation :: operations, m => operation.Lawful m ∧ Lawful operations (operation.record m).2

/-- **A whole history.** -/
theorem Handshake.history {latest : Option Word} {m : Machine BenchCore κ} (h : m.Handshake latest)
    {operations : List (Operation κ)} (hlawful : Lawful operations m) :
    Event.InOrder latest (history operations m).1 ∧
    (history operations m).2.Handshake ((history operations m).1.foldl Event.untaken latest) ∧
    (history operations m).2.core.taken.toList =
      m.core.taken.toList ++ (history operations m).1.filterMap Event.taken? := by
  induction operations generalizing latest m with
  | nil => exact ⟨trivial, h, (List.append_nil _).symm⟩
  | cons operation operations ih =>
      obtain ⟨hfirst, hlater⟩ := hlawful
      obtain ⟨horder, hnext, htaken⟩ := h.record hfirst
      obtain ⟨horder', hend, htaken'⟩ := ih hnext hlater
      rw [Machine.history]
      dsimp only
      rw [Event.inOrder_append, List.foldl_append, List.filterMap_append, htaken', htaken,
        List.append_assoc]
      exact ⟨⟨horder, horder'⟩, hend, rfl⟩

/-! ### Lives -/

/-- The operations that make up a reset. -/
def resetOperations (m : Machine BenchCore κ) : List (Operation κ) :=
  .arrange m.held :: (List.replicate resetCycles .resetCycle ++ [.arrange m.reset])

/-- The operations that make up a run. -/
def runOperations (fuel : Nat) (limit : Limit) (breakpoints : Breakpoints)
    (m : Machine BenchCore κ) : List (Operation κ) :=
  List.replicate (m.course fuel limit breakpoints).1.length .cycle

/-- The operations of a reset make the reset. -/
theorem history_resetOperations (m : Machine BenchCore κ) :
    (history m.resetOperations m).2 = m.reset :=
  rfl

/-- The operations of a run make the run. -/
theorem history_runOperations {fuel : Nat} {limit : Limit} {breakpoints : Breakpoints}
    {m : Machine BenchCore κ} {o : Outcome BenchCore κ}
    (h : m.run fuel limit breakpoints = some o) :
    (history (m.runOperations fuel limit breakpoints) m).2 = o.machine :=
  history_of_path (course_path h)

/-- A history is lawful exactly when each of its parts is, in its turn. -/
theorem lawful_append {operations later : List (Operation κ)} {m : Machine BenchCore κ} :
    Lawful (operations ++ later) m ↔
      Lawful operations m ∧ Lawful later (history operations m).2 := by
  induction operations generalizing m with
  | nil => exact ⟨fun h => ⟨trivial, h⟩, And.right⟩
  | cons operation operations ih =>
      rw [List.cons_append, Lawful, Lawful, ih, and_assoc]
      rfl

/-- Cycles are always lawful. -/
theorem lawful_replicate_cycle (n : Nat) (m : Machine BenchCore κ) :
    Lawful (List.replicate n .cycle) m := by
  induction n generalizing m with
  | zero => trivial
  | succ n ih => exact ⟨trivial, ih _⟩

/-- Cycles of reset that follow each other are lawful. -/
theorem lawful_replicate_resetCycle (n : Nat) (m : Machine BenchCore κ) :
    Lawful (List.replicate n .resetCycle) m ∧
      (history (List.replicate n .resetCycle) m).2 = Nat.repeat resetStep n m := by
  induction n generalizing m with
  | zero => exact ⟨trivial, rfl⟩
  | succ n ih => exact ⟨⟨trivial, (ih _).1⟩, (ih _).2.trans (repeat_resetStep n m)⟩

/-- The operations of a reset are lawful. -/
theorem lawful_resetOperations (m : Machine BenchCore κ) : Lawful m.resetOperations m := by
  obtain ⟨hlawful, hend⟩ := lawful_replicate_resetCycle resetCycles m.held
  have hstart : ((Operation.arrange m.held).record m).2 = m.held := rfl
  refine ⟨⟨rfl, rfl, rfl⟩, ?_⟩
  rw [hstart, lawful_append, hend, Lawful, Operation.Lawful, core_reset]
  exact ⟨hlawful, ⟨rfl, rfl, rfl⟩, trivial⟩

/-- The machine with other surroundings: all but the controller, the acknowledge line, the record of
what was taken and the changes laid out becomes as in another machine. -/
def amid (other m : Machine BenchCore κ) : Machine BenchCore κ :=
  { other with
    interrupts := m.interrupts
    core := { other.core with
      lines.acknowledge := m.core.lines.acknowledge
      taken := m.core.taken
      events := m.core.events } }

/-- `Life m events m'`: a life that starts with `m` comes, with these events, to `m'`. -/
inductive Life (m₀ : Machine BenchCore κ) : List Event → Machine BenchCore κ → Prop
  | start : Life m₀ [] m₀
  /-- A cycle outside of reset, with a poll of the keyboard. -/
  | cycle {events : List Event} {m : Machine BenchCore κ} :
      Life m₀ events m → Life m₀ (events ++ m.recordCycle.1) m.step.2
  /-- A reset. -/
  | reset {events : List Event} {m : Machine BenchCore κ} :
      Life m₀ events m → Life m₀ (events ++ (history m.resetOperations m).1) m.reset
  /-- A single cycle of reset. -/
  | resetCycle {events : List Event} {m : Machine BenchCore κ} :
      Life m₀ events m → Life m₀ (events ++ [.driven m.drive]) m.resetStep
  /-- An interrupt is raised by hand. -/
  | raise {events : List Event} {m : Machine BenchCore κ} (request : Interrupt) :
      Life m₀ events m → Life m₀ (events ++ [.raised request]) (m.raise request)
  /-- A run of any kind. -/
  | run {events : List Event} {m : Machine BenchCore κ} {fuel : Nat} {limit : Limit}
      {breakpoints : Breakpoints} {o : Outcome BenchCore κ} :
      m.run fuel limit breakpoints = some o → Life m₀ events m →
      Life m₀ (events ++ (history (m.runOperations fuel limit breakpoints) m).1) o.machine
  /-- The surroundings change. -/
  | surround {events : List Event} {m : Machine BenchCore κ} (other : Machine BenchCore κ) :
      Life m₀ events m → Life m₀ events (amid other m)

/-- What holds of a life at any moment: the core took in order what is recorded, and the handshake
stands. -/
structure Orderly (m₀ : Machine BenchCore κ) (events : List Event) (m : Machine BenchCore κ) :
    Prop where
  inOrder : Event.InOrder none events
  handshake : m.Handshake (events.foldl Event.untaken none)
  taken : m.core.taken.toList = m₀.core.taken.toList ++ events.filterMap Event.taken?

/-- A lawful history may follow. -/
theorem Orderly.history {m₀ m : Machine BenchCore κ} {events : List Event}
    (h : Orderly m₀ events m) (operations : List (Operation κ)) (hlawful : Lawful operations m) :
    Orderly m₀ (events ++ (Machine.history operations m).1) (Machine.history operations m).2 := by
  obtain ⟨horder, hhandshake, htaken⟩ := h.handshake.history hlawful
  refine ⟨Event.inOrder_append.2 ⟨h.inOrder, horder⟩, ?_, ?_⟩
  · rw [List.foldl_append]
    exact hhandshake
  · rw [htaken, h.taken, List.filterMap_append, List.append_assoc]

/-- By induction along a life, whatever it begins with that is quiet and unforced stays orderly. -/
theorem Life.orderly {m₀ m : Machine BenchCore κ} {events : List Event} (h : Life m₀ events m)
    (hquiet : m₀.interrupts.pending = false) (hunforced : m₀.core.Unforced) :
    Orderly m₀ events m := by
  induction h with
  | start =>
      refine ⟨trivial, ⟨hunforced, fun hwaits => ?_⟩, (List.append_nil _).symm⟩
      rw [hquiet] at hwaits
      cases hwaits
  | cycle _ ih =>
      rw [← recordCycle_snd]
      simpa [Machine.history, Operation.record] using
        ih.history [.cycle] ⟨trivial, trivial⟩
  | reset _ ih =>
      rw [← history_resetOperations]
      exact ih.history _ (lawful_resetOperations _)
  | resetCycle _ ih => exact ih.history [.resetCycle] ⟨trivial, trivial⟩
  | raise request _ ih => exact ih.history [.raise request] ⟨trivial, trivial⟩
  | run hrun _ ih =>
      rw [← history_runOperations hrun]
      exact ih.history _ (lawful_replicate_cycle _ _)
  | @surround events m other _ ih =>
      have hlawful : Lawful [.arrange (amid other m)] m := ⟨⟨rfl, rfl, rfl⟩, trivial⟩
      have hsame := ih.history _ hlawful
      rw [show (Machine.history [.arrange (amid other m)] m).1 = [] from rfl,
        List.append_nil] at hsame
      exact hsame

/-- **Raises are taken at most once and in order.** Take a life of a machine over the bench core in
which nothing forces the acknowledge line, from a moment at which no request waits and nothing was
taken. The data on the core's list are what it takes in the record of events, and they are some of
the data raised, in the order of the raises. Whenever the core takes something, it is what was
raised last, and between this raise and the take nothing else is taken. -/
theorem taken_in_order {m₀ m : Machine BenchCore κ} {events : List Event}
    (hquiet : m₀.interrupts.pending = false) (hunforced : m₀.core.Unforced)
    (hnone : m₀.core.taken = #[]) (h : Life m₀ events m) :
    m.core.taken.toList = events.filterMap Event.taken? ∧
    (events.filterMap Event.taken?).Sublist (events.filterMap Event.raised?) ∧
    ∀ before event later data, events = before ++ event :: later → event.taken? = some data →
      ∃ front request back, before = front ++ .raised request :: back ∧ request.data = data ∧
        ∀ e ∈ back, e.raised? = none ∧ e.taken? = none := by
  obtain ⟨horder, -, htaken⟩ := h.orderly hquiet hunforced
  refine ⟨?_, horder.sublist, ?_⟩
  · rw [htaken, hnone]
    rfl
  · rintro before event later data rfl htake
    exact Event.exists_raised_of_foldl_untaken ((Event.inOrder_append.1 horder).2.1 data htake)

/-- Three raises by hand, a cycle after each, with a reset in between: the second raise comes while
the acknowledge of the first is up and is lost, the other two are taken. -/
theorem taken_in_order_bench :
    ∃ events m, Life benchAtFetch events m ∧ events.filterMap Event.raised? = [7, 8, 9] ∧
      m.core.taken.toList = [7, 9] ∧ [7, 9].Sublist (events.filterMap Event.raised?) := by
  have hstart : Life benchAtFetch [] benchAtFetch := .start
  have hlife := (((hstart.raise { data := 7 }).cycle.raise { data := 8 }).cycle.reset.raise
    { data := 9 }).cycle
  have hunforced : benchAtFetch.core.Unforced := List.forall_mem_nil _
  obtain ⟨htaken, hsome, -⟩ := taken_in_order rfl hunforced rfl hlife
  refine ⟨_, _, hlife, rfl, ?_⟩
  rw [htaken]
  exact ⟨rfl, hsome⟩

end Machine

end ClockStep
