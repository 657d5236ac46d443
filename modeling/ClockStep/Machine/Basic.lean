import ClockStep.Console
import ClockStep.Core.Lines
import ClockStep.Keyboard.Piped
import ClockStep.Uart.Receiver

/-!
# The machine

A **machine** is a core with its memory and what stands around it: the receiver on its serial line,
the interrupt controller, the keyboard and the console. It works in cycles of one clock period:
outside of reset the receiver first takes the level that the last cycle left on the serial line and
the keyboard is asked; then the interrupt lines are driven and the core is evaluated with the clock
high and with the clock low.

A received byte that the console refuses fails the cycle before the keyboard is asked; nothing but
receiver and console has changed then.

Devices share one request line. Raising a request sets vector, priority and data and puts the line
up; a second request before the core took the first replaces it. When the core acknowledges, the
line goes down, and the next time the inputs are driven the acknowledge is answered by one pulse on
the clear line.
-/

/-! ### The interrupt controller -/

namespace ClockStep

/-- The vector of the keyboard. -/
def keyboardVector : Byte := 0x80

/-- The priority of the keyboard. -/
def keyboardPriority : Byte := 4

/-- A request of a device. -/
structure Interrupt where
  /-- The device's vector. -/
  vector : Byte := 0
  /-- The device's priority. -/
  priority : Byte := 0
  /-- What the device has to say. -/
  data : Word := 0
deriving Repr, DecidableEq

/-- The request that brings a character from the keyboard. -/
def Interrupt.ofKey (character : Byte) : Interrupt :=
  { vector := keyboardVector, priority := keyboardPriority, data := character.toUInt16 }

/-- What the controller remembers between two cycles. -/
structure InterruptController where
  /-- The latest request. -/
  latest : Interrupt := {}
  /-- Whether the latest request waits for the core. -/
  pending : Bool := false
  /-- Whether an acknowledge is still to be answered. -/
  acknowledged : Bool := false
deriving Repr, DecidableEq

namespace InterruptController

/-- A device raises a request. -/
def raise (request : Interrupt) (c : InterruptController) : InterruptController :=
  { c with latest := request, pending := true }

/-- The core acknowledges. -/
def acknowledge (c : InterruptController) : InterruptController :=
  { c with pending := false, acknowledged := true }

/-- The inputs of the core with the controller's lines driven onto them. -/
def driven (c : InterruptController) (inputs : InputLines) : InputLines :=
  { inputs with
    vector := c.latest.vector
    priority := c.latest.priority
    data := c.latest.data
    deviceReady := c.pending
    acknowledgeClear := c.acknowledged }

/-- The controller once its lines were driven. -/
def afterDrive (c : InterruptController) : InterruptController := { c with acknowledged := false }

end InterruptController

end ClockStep

/-! ### Machines -/

namespace ClockStep

/-- How a machine is to behave. -/
structure Settings where
  /-- The session ends when the machine halts. -/
  haltOnStop : Bool := false
  /-- The core records every half period. -/
  traced : Bool := false
deriving Repr, DecidableEq

/-- Why a machine cannot go on. -/
inductive MachineError where
  /-- There is no core to drive. -/
  | coreUnavailable
  /-- The core could not be set up. -/
  | core (reason : String)
  /-- The console refused a byte. -/
  | console (cause : SystemError)
deriving Repr, DecidableEq

/-- The wording of a machine error. -/
def MachineError.message : MachineError → String
  | .coreUnavailable =>
    "No hardware model is linked into this build, enable the `verilated` feature"
  | .core reason => "Hardware model failure: " ++ reason
  | .console cause => "Could not write serial output to the console: " ++ cause.message

/-- What lies behind a machine error, each cause in its own words. -/
def MachineError.causes : MachineError → List String
  | .console cause => [cause.message]
  | .coreUnavailable | .core _ => []

/-- How a cycle left the machine. -/
inductive Status where
  | running
  | halted
  /-- Halted, and the session is to end. -/
  | exit
deriving Repr, DecidableEq

/-- A machine over a core of type `γ` and a keyboard of type `κ`. -/
structure Machine (γ κ : Type) where
  core : γ
  memory : Memory
  settings : Settings := {}
  /-- The clock periods so far. -/
  cycles : Nat := 0
  /-- The half periods so far. -/
  time : Nat := 0
  /-- The inputs of the core as they are driven at the moment. -/
  inputs : InputLines := {}
  receiver : Uart.Receiver := {}
  interrupts : InterruptController := {}
  keyboard : κ
  console : Console := {}
  /-- Whether the operator asked to stop. -/
  cancelled : Bool := false
  journal : Journal := #[]

namespace Machine

variable {γ κ : Type}

/-- Puts a machine together; its reset vector is memory's entry point. -/
def assemble (core : γ) (memory : Memory) (settings : Settings) (keyboard : κ) (console : Console)
    (journal : Journal) : Machine γ κ :=
  { core, memory, settings, keyboard, console
    inputs := { resetVector := memory.entry }
    journal := if settings.traced then journal.push .tracing else journal }

/-- Adds to the journal. -/
def note (m : Machine γ κ) (notices : List Notice) : Machine γ κ :=
  { m with journal := notices.foldl Array.push m.journal }

/-- The operator asks to stop. -/
def cancel (m : Machine γ κ) : Machine γ κ := { m with cancelled := true }

/-- An earlier request to stop is forgotten. -/
def forgetCancel (m : Machine γ κ) : Machine γ κ := { m with cancelled := false }

/-- A device raises an interrupt. -/
def raise (request : Interrupt) (m : Machine γ κ) : Machine γ κ :=
  { m with interrupts := m.interrupts.raise request }

variable [Core γ]

/-- What the core shows. -/
def lines (m : Machine γ κ) : OutputLines := Core.lines m.core

/-- Whether a new instruction starts with the next cycle. -/
def atFetch (m : Machine γ κ) : Bool := m.lines.atFetch

/-- The word of the instruction in progress. -/
def instructionWord (m : Machine γ κ) : Word := m.lines.instructionWord m.memory

/-! ### The parts of a cycle -/

/-- Feeds the serial line's level to the receiver and a received byte to the console. -/
def listen (m : Machine γ κ) : Except MachineError Unit × Machine γ κ :=
  match m.receiver.tick .standard m.lines.transmit with
  | (receiver, none) => (.ok (), { m with receiver })
  | (receiver, some byte) =>
    match m.console.send byte with
    | (.ok (), console) => (.ok (), { m with receiver, console })
    | (.error cause, console) => (.error (.console cause), { m with receiver, console })

/-- Asks the keyboard: a character raises an interrupt, a failure is only noted. -/
def pollKeyboard [Keyboard κ] (m : Machine γ κ) : Machine γ κ :=
  let (poll, keyboard) := Keyboard.poll m.keyboard
  let m := { m with keyboard, cancelled := m.cancelled || poll.cancels }.note poll.notices
  match poll.answer with
  | .ok (some character) => m.raise (.ofKey character)
  | .ok none => m
  | .error cause => m.note [.pollFailed cause]

/-- Passes the core's acknowledge to the interrupt controller and drives its lines. -/
def driveInterrupts (m : Machine γ κ) : Machine γ κ :=
  let interrupts := if m.lines.acknowledge then m.interrupts.acknowledge else m.interrupts
  { m with inputs := interrupts.driven m.inputs, interrupts := interrupts.afterDrive }

/-- Evaluates the core with the clock at the given level. -/
def halfPeriod (clock : Bool) (m : Machine γ κ) : Machine γ κ :=
  let ⟨core, memory, settings, cycles, time, inputs, receiver, interrupts, keyboard, console,
    cancelled, journal⟩ := m
  let inputs := { inputs with clock }
  let (core, memory) := Core.evaluate inputs core memory
  let core := if settings.traced then Core.record time core else core
  ⟨core, memory, settings, cycles, time + 1, inputs, receiver, interrupts, keyboard, console,
    cancelled, journal⟩

/-- One clock period with the interrupt lines driven. -/
def clockPeriod (m : Machine γ κ) : Machine γ κ :=
  let m := (m.driveInterrupts.halfPeriod true).halfPeriod false
  { m with cycles := m.cycles + 1 }

/-! ### Cycles -/

/-- One cycle outside of reset. -/
def step [Keyboard κ] (m : Machine γ κ) : Except MachineError Status × Machine γ κ :=
  match m.listen with
  | (.error e, m) => (.error e, m)
  | (.ok (), m) =>
    let m := m.pollKeyboard.clockPeriod
    if m.lines.halt then
      let m := m.note [.halted m.cycles]
      (.ok (if m.settings.haltOnStop then .exit else .halted), m)
    else (.ok .running, m)

/-- One cycle of reset: the serial line is not listened to, the keyboard is not asked, and a halt is
not reported. -/
def resetStep (m : Machine γ κ) : Machine γ κ := m.clockPeriod

/-- The number of cycles that reset is held. -/
def resetCycles : Nat := 5

/-- Holds the reset line for `resetCycles` cycles. -/
def reset (m : Machine γ κ) : Machine γ κ :=
  let m := m.note [.resetting]
  let m := { m with inputs := { m.inputs with reset := true } }
  let m := Nat.repeat resetStep resetCycles m
  { m with inputs := { m.inputs with reset := false } }

/-- Repeats a cycle up to a number of times, until one leaves the machine other than running. The
status is that of the last cycle, if there was one. -/
def stepTimes [Keyboard κ] (inReset : Bool) :
    Nat → Option Status → Machine γ κ → Except MachineError (Option Status) × Machine γ κ
  | 0, last, m => (.ok last, m)
  | n + 1, _, m =>
    if inReset then stepTimes inReset n (some .running) m.resetStep
    else match m.step with
      | (.ok .running, m) => stepTimes inReset n (some .running) m
      | (.ok status, m) => (.ok (some status), m)
      | (.error e, m) => (.error e, m)

end Machine

end ClockStep
