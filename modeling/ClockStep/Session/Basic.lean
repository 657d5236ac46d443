import ClockStep.Command.Invocation
import ClockStep.Image
import ClockStep.Keyboard.Terminal
import ClockStep.Machine.Run
import ClockStep.Printer

/-!
# Sessions

A **session** is a machine with its breakpoints and the operator's output. What happens in it is an
`Action`: it changes the session and may fail, and the changes made before a failure stay. An
action that lets the machine run may also find no end within its fuel.
-/

namespace ClockStep

/-- Why the program cannot go on. -/
inductive ProgramError where
  /-- The images could not be loaded. -/
  | load (cause : LoadError)
  /-- The machine cannot go on. -/
  | machine (cause : MachineError)
  /-- The line editor could not be set up. -/
  | lineEditor (reason : String)
  /-- Input or output failed. -/
  | system (cause : SystemError)
deriving Repr, DecidableEq

/-- The wording of a fatal error. -/
def ProgramError.message : ProgramError → String
  | .load cause => cause.message
  | .machine cause => cause.message
  | .lineEditor reason => "Could not initialize the command line editor: " ++ reason
  | .system cause => "Shell I/O failed: " ++ cause.message

/-- What lies behind a fatal error, each cause in its own words. -/
def ProgramError.causes : ProgramError → List String
  | .load cause => cause.message :: cause.causes
  | .machine cause => cause.message :: cause.causes
  | .lineEditor _ => []
  | .system cause => [cause.message]

/-- Whether more commands are read. -/
inductive Flow where
  | continue
  | quit
deriving Repr, DecidableEq

/-- A machine in the hands of an operator. -/
structure Session (γ κ : Type) where
  machine : Machine γ κ
  breakpoints : Breakpoints := ∅
  printer : Printer := {}
  /-- The terminal that is switched to raw mode while the machine runs, if any. -/
  terminal : Option Terminal := none
  /-- Whether the console's bytes go where the operator's output goes. -/
  shared : Bool := false

/-- What happens in a session: it may fail with an `ε`, or not end. -/
abbrev Action (γ κ ε α : Type) := ExceptT ε (StateT (Session γ κ) Option) α

namespace Session

variable {γ κ : Type}

/-- Switches the terminal to raw mode. -/
def enterRaw (s : Session γ κ) : Session γ κ :=
  match s.terminal with
  | none => s
  | some terminal =>
    let (notices, terminal) := terminal.enterRaw
    { s with terminal := some terminal, machine := s.machine.note notices }

/-- Switches the terminal back to line mode. -/
def leaveRaw (s : Session γ κ) : Session γ κ := { s with terminal := s.terminal.map .leaveRaw }

/-- Passes on what the console was sent, if it goes where the operator's output goes. -/
def collectConsole (s : Session γ κ) : Session γ κ :=
  if s.shared then
    { s with
      printer.sink.received := s.printer.sink.received ++ s.machine.console.sink.received
      machine.console.sink.received := #[] }
  else s

/-- Prints a line, a refusal being passed on as an error. -/
def say {ε : Type} (refused : SystemError → ε) (style : Style) (text : String) :
    Action γ κ ε Unit := do
  let s ← get
  let (result, printer) := s.printer.line style text
  set { s with printer }
  match result with
  | .ok () => pure ()
  | .error cause => throw (refused cause)

variable [Core γ] [Keyboard κ]

/-- Lets the machine run, with the terminal in raw mode, and tells why it stopped. -/
def drive (fuel : Nat) (limit : Limit) : Action γ κ Command.Failure StopReason :=
  ExceptT.mk fun s =>
    let ⟨machine, breakpoints, printer, terminal, shared⟩ := s.enterRaw
    match machine.run fuel limit breakpoints with
    | none => none
    | some ⟨result, machine, breakpoints⟩ =>
      let s : Session γ κ := ⟨machine, breakpoints, printer, terminal, shared⟩
      some (result.mapError .machine, s.leaveRaw.collectConsole)

end Session

end ClockStep
