import ClockStep.Session.Commands

/-!
# The dialogue with the operator

Lines are read and carried out until the operator quits, the input ends, or something fails for
good. A blank line lets the machine go on; every other line goes into the history and is looked up
as a command. A failure that concerns one command only is told to the operator, with the usage of
the command if its numbers were malformed.
-/

namespace ClockStep.Session

open Command (Failure Invocation Tokens)

variable {γ κ : Type} [Core γ] [Keyboard κ]

/-- What is asked for before each line. -/
def promptText : String := "(lc3) "

/-- Something that happens while a line is read: the line arrives, or the operator interrupts, or
the input comes to its end, or the reading fails; or the surroundings of the machine change and
reading goes on. -/
inductive Event (μ : Type) where
  | line (text : String)
  | interrupt
  | endOfInput
  | failure (cause : SystemError)
  | meanwhile (change : μ → μ)

/-- Tells the operator about a failure that concerns one command only, and passes on the others. -/
def report (result : Except Failure Flow) (spelling usage : String) :
    Action γ κ ProgramError Flow :=
  match result with
  | .ok flow => pure flow
  | .error (.machine cause) => throw (.machine cause)
  | .error (.output cause) => throw (.system cause)
  | .error failure => do
    say .system .boldRed ("  " ++ failure.message)
    if failure.isMalformed then
      say .system .boldRed "  Invalid syntax"
      say .system .bold ("  Usage: " ++ spelling ++ " " ++ usage)
    return .continue

/-- Carries out a command and tells the operator about a failure. An earlier request to stop is
forgotten first. -/
def attempt (command : Action γ κ Failure Flow) (spelling usage : String) :
    Action γ κ ProgramError Flow := do
  modify fun s => { s with machine := s.machine.forgetCancel }
  let result ← ExceptT.lift command.run
  report result spelling usage

/-- Lets the machine go on until it stops. -/
def continueRunning (fuel : Nat) : Action γ κ ProgramError Flow :=
  attempt (runLoop fuel .unbounded) "continue" ""

/-- Carries out a command line. -/
def handle (fuel : Nat) (line : String) : Action γ κ ProgramError Flow := do
  let (word, args) := (Tokens.ofLine line).next
  let spelling := String.ofList word
  match Command.lookup? spelling with
  | none =>
    say .system .boldRed "  Unknown command"
    return .continue
  | some d =>
    attempt (do perform fuel (← Invocation.read d.command args)) spelling d.usage

/-! ### Whole sessions -/

/-- What a dialogue leaves besides the session. -/
structure Transcript where
  /-- The lines that went into the history. -/
  history : Array String := #[]
  /-- How much the operator was told before each line was asked for, in bytes. -/
  prompts : Array Nat := #[]
deriving Repr, DecidableEq

/-- How a dialogue ended. -/
structure Ending (γ κ : Type) where
  /-- The error that ended it, if it was one. -/
  result : Except ProgramError Unit
  session : Session γ κ
  transcript : Transcript
  /-- The events that were not read. -/
  unread : List (Event (Machine γ κ))

/-- Notes that a line is asked for. -/
def Transcript.ask (t : Transcript) (s : Session γ κ) : Transcript :=
  { t with prompts := t.prompts.push s.printer.sink.received.size }

/-- Reads and carries out lines; `asked` tells that a line was asked for already. When there is no
event any more, the input is at its end. -/
def converse (fuel : Nat) (asked : Bool) :
    List (Event (Machine γ κ)) → Transcript → Session γ κ → Option (Ending γ κ)
  | [], t, s => some ⟨.ok (), s, if asked then t else t.ask s, []⟩
  | event :: rest, t, s =>
    let t := if asked then t else t.ask s
    let goOn (t : Transcript) : Option (Except ProgramError Flow × Session γ κ) →
        Option (Ending γ κ)
      | none => none
      | some (.ok .continue, s) => converse fuel false rest t s
      | some (.ok .quit, s) => some ⟨.ok (), s, t, rest⟩
      | some (.error e, s) => some ⟨.error e, s, t, rest⟩
    match event with
    | .meanwhile change => converse fuel true rest t { s with machine := change s.machine }
    | .endOfInput => some ⟨.ok (), s, t, rest⟩
    | .failure cause => some ⟨.error (.system cause), s, t, rest⟩
    | .interrupt =>
      goOn t <| (do
        say .system .plain "CTRL+C caught, press CTRL+D to exit."
        return .continue : Action γ κ ProgramError Flow) s
    | .line text =>
      if Text.allBlank text.toList then goOn t (continueRunning fuel s)
      else goOn { t with history := t.history.push text } (handle fuel text s)

/-- A whole session: unless it is interactive, the machine runs first. -/
def run (fuel : Nat) (interactive : Bool) (events : List (Event (Machine γ κ)))
    (s : Session γ κ) : Option (Ending γ κ) :=
  if interactive then converse fuel false events {} s
  else match continueRunning fuel s with
    | none => none
    | some (.ok .continue, s) => converse fuel false events {} s
    | some (.ok .quit, s) => some ⟨.ok (), s, {}, events⟩
    | some (.error e, s) => some ⟨.error e, s, {}, events⟩

end ClockStep.Session
