import ClockStep.Proofs.BenchCycle
import ClockStep.Proofs.ImagePlacement
import ClockStep.Proofs.ObservedCore
import ClockStep.Proofs.RaiseOrder
import ClockStep.Proofs.SessionFrames

/-!
# Resetting a Machine

A reset brings the bench machine back to its entry point, whatever happened to the machine before:
it may have halted, or be in the midst of an instruction, of an interrupt or of a byte on the serial
line, and its memory may have been overwritten. Two things are behind that. The entry point is not
looked up when the machine is reset; it is on the reset vector's lines from the moment at which the
machine is put together, and nothing that can be done with the machine changes them
(`Reachable.resetVector`). And a cycle of reset does to the core what a reset does, and to the rest
of the machine what every clock period does, which is to count and to drive the interrupt lines
(`resetStep_eq`); memory, keyboard, console, receiver and the levels laid out for the serial line
take no part in it.

## Convention

A reset is **quiet** when no change of the output lines is laid out for one of its rising edges.

## Main results

* `Reachable.resetVector`: the reset vector is the one the machine was put together with.
* `resetStep_eq`, `holdReset_eq`: what cycles of reset do to the machine.
* `reset_of_reachable`: from every state that the machine can come to, a reset succeeds, leads to the
  entry point of the images that were loaded, and leaves everything else alone.
-/

namespace ClockStep

/-! ### The entry point -/

/-- The entry point of images: a fixed one in the operating system if there is one, and otherwise the
program's origin. -/
def entryPoint (program : Image) (system : Option Image) : Word :=
  if system.isSome then 0x02CA else program.origin

/-- Memory that was loaded has the entry point of its images. -/
theorem Memory.entry_of_load {program : Image} {system : Option Image} {order : ByteOrder}
    {notices : List Notice} {memory : Memory}
    (h : load program system order = (notices, .ok memory)) :
    memory.entry = entryPoint program system := by
  have hno : ∀ e, (load program system order).2 ≠ .error e := fun e he => by
    rw [h] at he
    cases he
  have hsystem : ∀ os ∈ system, 2 ≤ os.bytes.length := fun os hos => Nat.not_lt.1 fun hlt =>
    hno _ ((load_eq_error_iff order).2 (.inl ⟨os, hos, hlt, rfl⟩))
  have hprogram : 2 ≤ program.bytes.length := Nat.not_lt.1 fun hlt =>
    hno _ ((load_eq_error_iff order).2 (.inr ⟨hsystem, hlt, rfl⟩))
  cases system with
  | none =>
      obtain ⟨m, hload, hentry, -⟩ := load_alone order hprogram
      rw [h] at hload
      cases hload
      exact hentry
  | some os =>
      obtain ⟨m, hload, hentry, -⟩ := load_over order (hsystem os rfl) hprogram
      rw [h] at hload
      cases hload
      exact hentry

/-! ### The core under reset -/

namespace BenchCore

/-- No change of the lines is laid out for the next rising edges. -/
def Quiet (c : BenchCore) (count : Nat) : Prop :=
  ∀ event ∈ c.events, ¬(c.edges < event.edge ∧ event.edge ≤ c.edges + count)

/-- Where no change is laid out for the present edge, none hits the lines. -/
theorem strike_of_forall_ne {c : BenchCore} (h : ∀ event ∈ c.events, event.edge ≠ c.edges) :
    c.strike = c := by
  have hdue : c.events.filter (fun event => event.edge == c.edges) = [] :=
    List.filter_eq_nil_iff.2 fun event hevent => by simp [h event hevent]
  rw [strike, hdue]
  rfl

/-- With the reset line high, a rising edge restarts the lines and does nothing else. -/
theorem risingEdge_of_reset {inputs : InputLines} (h : inputs.reset = true) (c : BenchCore)
    (memory : Memory) :
    c.risingEdge inputs memory =
      ({ c with lines := c.lines.restart inputs.resetVector }, memory) :=
  if_pos h

/-- An evaluation under reset restarts the lines, and leaves the levels laid out for the serial line
and memory alone. -/
theorem evaluate_of_reset {inputs : InputLines} (hclock : inputs.clock = true)
    (hreset : inputs.reset = true) {c : BenchCore}
    (h : ∀ event ∈ c.events, event.edge ≠ c.edges + 1) (memory : Memory) :
    c.evaluate inputs memory =
      ({ c with lines := c.lines.restart inputs.resetVector, seen := inputs, edges := c.edges + 1 },
        memory) := by
  rw [evaluate, if_pos hclock]
  dsimp only
  rw [risingEdge_of_reset hreset]
  exact congrArg (·, memory) (strike_of_forall_ne h)

end BenchCore

namespace Machine

variable {κ : Type}

/-! ### Cycles of reset -/

/-- The interrupt controller while the core holds its acknowledge line as it is: the first cycle
answers an acknowledge, and the later ones have nothing more to do. -/
def settledInterrupts (m : Machine BenchCore κ) : InterruptController :=
  { m.interrupts with
    pending := m.interrupts.pending && !m.lines.acknowledge, acknowledged := false }

/-- The machine after some cycles of reset, up to the inputs that its core was given and the times
that were recorded. -/
def underReset (m : Machine BenchCore κ) (count : Nat) (seen : InputLines) (recorded : Array Nat)
    (inputs : InputLines) : Machine BenchCore κ :=
  { m with
    core := { m.core with
      lines := m.lines.restart m.inputs.resetVector, edges := m.core.edges + count, seen, recorded }
    cycles := m.cycles + count
    time := m.time + 2 * count
    interrupts := m.settledInterrupts
    inputs }

/-- **A cycle of reset** restarts the core and drives the interrupt lines; besides that it only
counts. -/
theorem resetStep_eq {m : Machine BenchCore κ} (hreset : m.inputs.reset = true)
    (h : ∀ event ∈ m.core.events, event.edge ≠ m.core.edges + 1) :
    ∃ seen recorded inputs, inputs.reset = true ∧
      inputs.resetVector = m.inputs.resetVector ∧
      m.resetStep = m.underReset 1 seen recorded inputs := by
  let raised : InputLines := { m.driveInterrupts.inputs with clock := true }
  have hcore :=
    BenchCore.evaluate_of_reset (show raised.clock = true from rfl) hreset h m.memory
  obtain ⟨seen, recorded, hperiod⟩ := m.core_clockPeriod_eq
  have hmemory : m.clockPeriod.memory = m.memory :=
    m.memory_clockPeriod_eq.trans (congrArg Prod.snd hcore)
  rw [hcore] at hperiod
  have hinterrupts : m.clockPeriod.interrupts = m.settledInterrupts := by
    change (if m.lines.acknowledge then m.interrupts.acknowledge else m.interrupts).afterDrive = _
    rw [settledInterrupts]
    cases m.lines.acknowledge
    · simp [InterruptController.afterDrive]
    · simp [InterruptController.afterDrive, InterruptController.acknowledge]
  refine ⟨seen, recorded, m.clockPeriod.inputs, hreset, rfl, ?_⟩
  -- core, memory and interrupt controller are known, and the other fields count or stay
  have hfields : m.resetStep = { m with
      core := m.clockPeriod.core, memory := m.clockPeriod.memory, cycles := m.cycles + 1
      time := m.time + 1 + 1, interrupts := m.clockPeriod.interrupts
      inputs := m.clockPeriod.inputs } := rfl
  rw [hfields, hperiod, hmemory, hinterrupts]
  rfl

/-- One more cycle of reset. -/
theorem underReset_underReset {m : Machine BenchCore κ} {inputs : InputLines}
    (h : inputs.resetVector = m.inputs.resetVector) (count : Nat) (seen seen' inputs' : InputLines)
    (recorded recorded' : Array Nat) :
    (m.underReset count seen recorded inputs).underReset 1 seen' recorded' inputs' =
      m.underReset (count + 1) seen' recorded' inputs' := by
  have hinterrupts : (m.underReset count seen recorded inputs).settledInterrupts =
      m.settledInterrupts := by
    change { m.interrupts with
      pending := (m.interrupts.pending && !m.lines.acknowledge) && !m.lines.acknowledge
      acknowledged := false } = _
    rw [Bool.and_assoc, Bool.and_self, settledInterrupts]
  have hlines : ((m.underReset count seen recorded inputs).lines.restart
      (m.underReset count seen recorded inputs).inputs.resetVector) =
      m.lines.restart m.inputs.resetVector :=
    congrArg m.lines.restart h
  rw [underReset, hinterrupts, hlines, underReset, underReset]
  rfl

/-- What some cycles of reset do, if it is quiet: the core is restarted by the first, and stays so. -/
theorem holdReset_eq {m : Machine BenchCore κ} (hreset : m.inputs.reset = true) {count : Nat}
    (hquiet : m.core.Quiet (count + 1)) :
    ∃ seen recorded inputs, inputs.reset = true ∧
      inputs.resetVector = m.inputs.resetVector ∧
      Nat.repeat resetStep (count + 1) m = m.underReset (count + 1) seen recorded inputs := by
  induction count with
  | zero =>
      exact resetStep_eq hreset fun event hevent hedge => hquiet event hevent (by omega)
  | succ count ih =>
      obtain ⟨seen, recorded, inputs, hheld, hvector, hrepeat⟩ :=
        ih fun event hevent hedge => hquiet event hevent (by omega)
      obtain ⟨seen', recorded', inputs', hheld', hvector', hstep⟩ :=
        resetStep_eq (m := m.underReset (count + 1) seen recorded inputs) hheld
          fun event hevent hedge => hquiet event hevent (by
            change event.edge = m.core.edges + (count + 1) + 1 at hedge
            omega)
      refine ⟨seen', recorded', inputs', hheld', hvector'.trans hvector, ?_⟩
      rw [Nat.repeat, hrepeat, hstep, underReset_underReset hvector]

/-- Cycles of reset never fail: a machine is running after them, whatever it was before. -/
theorem stepTimes_reset_eq [Keyboard κ] (count : Nat) (last : Option Status)
    (m : Machine BenchCore κ) :
    m.stepTimes true (count + 1) last = (.ok (some .running), Nat.repeat resetStep (count + 1) m) := by
  induction count generalizing m last with
  | zero => rfl
  | succ count ih =>
      rw [stepTimes, if_pos rfl, ih, repeat_resetStep]

/-- `Restarts entry m m'`: a reset leads from `m` to `m'` and to an entry point. -/
structure Restarts [Keyboard κ] (entry : Word) (m m' : Machine BenchCore κ) : Prop where
  /-- The cycles of the reset all succeed, and after them its line is put down. -/
  succeeds : ∃ last, m.held.stepTimes true resetCycles none = (.ok (some .running), last) ∧
    m' = { last with inputs := { last.inputs with reset := false } }
  atFetch : m'.atFetch = true
  runs : m'.lines.halt = false
  ir : m'.lines.ir = 0
  pc : m'.lines.pc = entry
  released : m'.inputs.reset = false
  cycles : m'.cycles = m.cycles + 5
  memory : m'.memory = m.memory
  keyboard : m'.keyboard = m.keyboard
  serial : m'.core.serial = m.core.serial
  console : m'.console = m.console
  receiver : m'.receiver = m.receiver
  /-- There is nothing else that changes, but for the times and the notice that a reset leaves and
  the interrupt lines, which are driven as ever. -/
  frame : ∃ seen recorded inputs, m' = { m with
    core := { m.core with
      lines := { m.lines with pc := entry, ir := 0, microPc := fetchState, halt := false }
      edges := m.core.edges + 5, seen, recorded }
    cycles := m.cycles + 5
    time := m.time + 10
    interrupts := m.settledInterrupts
    journal := m.journal.push .resetting
    inputs }

/-- **A reset that is quiet restarts the machine** at the address on the reset vector's lines. -/
theorem restarts_reset [Keyboard κ] {m : Machine BenchCore κ} (h : m.core.Quiet resetCycles) :
    m.Restarts m.inputs.resetVector m.reset := by
  obtain ⟨seen, recorded, inputs, -, -, hrepeat⟩ := holdReset_eq (m := m.held) rfl
    (show m.held.core.Quiet (4 + 1) from h)
  have hreset : m.reset = m.held.underReset 5 seen recorded { inputs with reset := false } := by
    change { Nat.repeat resetStep 5 m.held with
      inputs := { (Nat.repeat resetStep 5 m.held).inputs with reset := false } } = _
    rw [hrepeat]
    rfl
  rw [hreset]
  exact
    { succeeds := ⟨_, (stepTimes_reset_eq 4 none m.held).trans (by rw [hrepeat]), rfl⟩
      atFetch := rfl
      runs := rfl
      ir := rfl
      pc := rfl
      released := rfl
      cycles := rfl
      memory := rfl
      keyboard := rfl
      serial := rfl
      console := rfl
      receiver := rfl
      frame := ⟨seen, recorded, _, rfl⟩ }

/-! ### What a machine can come to -/

section

variable {γ : Type} [Core γ]

/-- A reset leaves the reset vector. -/
theorem resetVector_reset (m : Machine γ κ) :
    m.reset.inputs.resetVector = m.inputs.resetVector := by
  obtain ⟨held, hvector, hreset⟩ := exists_held (m := m)
    (P := fun m' => m'.inputs.resetVector = m.inputs.resetVector) rfl fun _ hm => hm
  rw [hreset]
  exact hvector

variable [Keyboard κ]

/-- A cycle leaves the reset vector. -/
theorem resetVector_step (m : Machine γ κ) :
    m.step.2.inputs.resetVector = m.inputs.resetVector := by
  obtain ⟨receiver, console, ⟨e, he⟩ | hs⟩ := m.step_cases
  · rw [he]
  · obtain ⟨journal, hpoll⟩ := { m with receiver, console }.pollKeyboard_eq
    rw [hs, hpoll, finish]
    split <;> rfl

/-- Cycles leave the reset vector. -/
theorem Path.resetVector {m m' : Machine γ κ} {starts : List (Machine γ κ)}
    (h : Path m starts m') : m'.inputs.resetVector = m.inputs.resetVector := by
  induction h with
  | nil m => rfl
  | @cons m m' starts _ ih => exact ih.trans m.resetVector_step

/-- No call changes the reset vector's lines. -/
theorem Call.resetVector_perform {call : Call} {m m' : Machine γ κ}
    (h : call.perform m = some m') : m'.inputs.resetVector = m.inputs.resetVector := by
  cases call with
  | cycle => exact Option.some.inj h ▸ m.resetVector_step
  | resetCycle => exact Option.some.inj h ▸ rfl
  | instruction fuel =>
      obtain ⟨stride, hstride, rfl⟩ := Option.map_eq_some_iff.1 h
      obtain ⟨m', hpath, hend⟩ := instructionCourse_path fuel m
      rw [instructionCourse_snd] at hend
      rw [hend stride hstride]
      exact hpath.resetVector
  | run fuel limit breakpoints =>
      obtain ⟨o, ho, rfl⟩ := Option.map_eq_some_iff.1 h
      exact (course_path ho).resetVector
  | reset => exact Option.some.inj h ▸ m.resetVector_reset
  | raise request | cancel requested | write address value => exact Option.some.inj h ▸ rfl

/-- Nor does anything that a session does. -/
theorem resetVector_answer {fuel : Nat} {occasion : Session.Occasion (Machine γ κ)}
    {s s' : Session γ κ} {result : Except ProgramError Flow}
    (hchange : ∀ change, occasion ≠ .read (.meanwhile change))
    (h : Session.answer fuel occasion s = some (result, s')) :
    s'.machine.inputs.resetVector = s.machine.inputs.resetVector := by
  cases hlimit : occasion.limit? with
  | none =>
      exact Session.keeps_answer (f := fun s => s.machine.inputs.resetVector)
        ⟨fun _ _ => rfl, fun _ _ => rfl, fun _ _ => rfl, fun _ _ => rfl, fun _ _ => rfl⟩
        hlimit hchange fuel result s' h
  | some limit =>
      rw [Session.answer_of_limit? hlimit] at h
      obtain ⟨o, ho, hconcluded⟩ := Option.map_eq_some_iff.1 h
      obtain ⟨console, hmachine⟩ := s.machine_concluded o
      obtain ⟨terminal, journal, hreadied⟩ := s.readied_eq
      have hvector := (course_path ho).resetVector
      rw [hreadied] at hvector
      rw [hconcluded] at hmachine
      rw [hmachine]
      exact hvector

end

/-- `Reachable m₀ m`: put together as `m₀`, the machine can come to be `m`. -/
inductive Reachable [Keyboard κ] (m₀ : Machine BenchCore κ) : Machine BenchCore κ → Prop
  | start : Reachable m₀ m₀
  /-- Something is called on the machine, and it may end in an error. -/
  | call {m m' : Machine BenchCore κ} {call : Call} :
      Reachable m₀ m → call.perform m = some m' → Reachable m₀ m'
  /-- A session does something with it: it opens, carries out a line, or is interrupted. -/
  | turn {s s' : Session BenchCore κ} {fuel : Nat}
      {occasion : Session.Occasion (Machine BenchCore κ)} {result : Except ProgramError Flow} :
      Reachable m₀ s.machine → (∀ change, occasion ≠ .read (.meanwhile change)) →
      Session.answer fuel occasion s = some (result, s') → Reachable m₀ s'.machine
  /-- Its surroundings change: keys are pressed, memory is overwritten, or levels of the serial line
  or another store are laid out for the core. -/
  | surroundings {m : Machine BenchCore κ} (keyboard : κ) (memory : Memory)
      (serial : List (Bool × Nat)) (store : Option (Word × Word)) :
      Reachable m₀ m →
      Reachable m₀ { m with keyboard, memory, core := { m.core with serial, store } }

variable [Keyboard κ]

/-- **The reset vector is the one the machine was put together with.** -/
theorem Reachable.resetVector {m₀ m : Machine BenchCore κ} (h : Reachable m₀ m) :
    m.inputs.resetVector = m₀.inputs.resetVector := by
  induction h with
  | start => rfl
  | call _ hcall ih => exact (Call.resetVector_perform hcall).trans ih
  | turn _ hchange hanswer ih => exact (resetVector_answer hchange hanswer).trans ih
  | surroundings _ _ _ _ _ ih => exact ih

/-- **A reset works from every state.** Load images and put a machine together on the memory they
make; let it run, call on it what you like and overwrite its memory. If then no change of the output
lines is laid out for its rising edges, a reset succeeds. It leaves the machine about to fetch, not
halted, with an empty instruction register and the program counter at the entry point of the images,
with the reset line low, five cycles later; and memory, keyboard, console, receiver and the levels
laid out for the serial line are as they were. -/
theorem reset_of_reachable {program : Image} {system : Option Image} {order : ByteOrder}
    {notices : List Notice} {memory : Memory}
    (hload : Memory.load program system order = (notices, .ok memory)) {core : BenchCore}
    {settings : Settings} {keyboard : κ} {console : Console} {journal : Journal}
    {m : Machine BenchCore κ}
    (h : Reachable (assemble core memory settings keyboard console journal) m)
    (hquiet : m.core.Quiet resetCycles) : m.Restarts (entryPoint program system) m.reset := by
  have hvector : m.inputs.resetVector = entryPoint program system :=
    h.resetVector.trans (Memory.entry_of_load hload)
  rw [← hvector]
  exact restarts_reset hquiet

/-- A program of one word at x3000, to be loaded without an operating system. -/
def oneWordImage : Image := { name := "one", bytes := [0x30, 0x00, 0x10, 0x21] }

/-- A core in the midst of a frame, which is halted in the midst of an instruction at its first
edge. -/
def haltingCore : BenchCore :=
  { lines := { transmit := false }, serial := [(false, 433)]
    events := [{ edge := 1, changes := [.microPc 32, .halt true] }] }

/-- A cycle by which the machine halts while it receives, a request that nobody will take, and the
first word of the program overwritten: a reset goes to x3000 all the same. -/
theorem reset_of_reachable_halted :
    ∃ (memory : Memory) (m : Machine BenchCore BenchKeyboard),
      Memory.load oneWordImage none .little = (oneWordImage.notices .program, .ok memory) ∧
      Reachable (assemble haltingCore memory {} { keys := [.nothing, .character 65] } {} #[]) m ∧
      (m.lines.halt = true ∧ m.lines.microPc = 32 ∧ m.interrupts.pending = true ∧
        m.receiver.countdown = 650) ∧
      m.core.Quiet resetCycles ∧
      m.reset.atFetch = true ∧ m.reset.lines.halt = false ∧ m.reset.lines.pc = 0x3000 ∧
      m.reset.memory.get 0x3000 = 0xFFFF := by
  obtain ⟨memory, hload, -⟩ := Memory.load_alone .little
    (show 2 ≤ oneWordImage.bytes.length by decide)
  let assembled : Machine BenchCore BenchKeyboard :=
    assemble haltingCore memory {} { keys := [.nothing, .character 65] } {} #[]
  have hcycle : Reachable assembled assembled.step.2 :=
    .call .start (show Call.cycle.perform assembled = _ from rfl)
  have hraised : Reachable assembled (assembled.step.2.raise {}) :=
    .call hcycle (show (Call.raise {}).perform assembled.step.2 = _ from rfl)
  have hreach := hraised.call (show (Call.write 0x3000 0xFFFF).perform _ = some _ from rfl)
  have hquiet : BenchCore.Quiet { haltingCore with edges := 1 } resetCycles := by
    rw [BenchCore.Quiet]
    decide
  have hrestarts := reset_of_reachable hload hreach hquiet
  refine ⟨memory, _, hload, hreach, ⟨rfl, rfl, rfl, rfl⟩, hquiet, hrestarts.atFetch,
    hrestarts.runs, hrestarts.pc, ?_⟩
  rw [hrestarts.memory]
  exact Vector.getElem_set_self _

end Machine

end ClockStep
