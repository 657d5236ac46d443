import ClockStep.Proofs.CommandRefusal
import ClockStep.Proofs.Course

/-!
# What a Run Does to a Session

Whoever asks for a run, be it a command, a blank line or the opening of a session, gets the same: an
earlier request to stop is forgotten, the terminal is switched, the machine runs, the terminal is
switched back, and the operator is told why the machine stopped and where. This module says so in
one equation (`attempt_runLoop`), for any printer. A printer may refuse a line; then the lines
behind it are not printed, and the refusal ends the session.

## Convention

A session is **readied** when its machine is about to run, **settled** when the machine has run, and
**concluded** when the operator was told.

## Main results

* `say_apply`, `tellAll_apply`: what is told to the operator changes the printer, and is a failure
  exactly if a line is refused.
* `runLoop_apply`: the operator is told the lines of the reason for which the run stopped.
* `attempt_runLoop`: a run of a session is a run of its machine.
* `handle_of_commandLimit?`: so is a line that calls a command by which the machine runs.
-/

namespace ClockStep

/-! ### Lines that may be refused -/

namespace Printer

/-- Prints lines one after the other, up to the first that is refused. -/
def printAll (p : Printer) : List (Style × String) → Except SystemError Unit × Printer
  | [] => (.ok (), p)
  | line :: rest =>
    match p.line line.1 line.2 with
    | (.ok (), p) => p.printAll rest
    | (.error cause, p) => (.error cause, p)

/-- An open printer takes all lines. -/
theorem printAll_of_isOpen {p : Printer} (h : p.IsOpen) (lines : List (Style × String)) :
    p.printAll lines = (.ok (), p.told lines) := by
  induction lines generalizing p with
  | nil => rfl
  | cons line rest ih =>
      rw [printAll, line_of_isOpen h]
      exact ih (isOpen_told h [line])

end Printer

namespace Command

/-- How far a command lets the machine run, if it does so. -/
def Invocation.limit? : Invocation → Option Limit
  | .step count => some (.cycles count)
  | .stepInstruction count => some (.instructions count)
  | .continue => some .unbounded
  | _ => none

end Command

/-- Only a halt that is to end the session ends it. -/
def StopReason.flow : StopReason → Flow
  | .exit => .quit
  | .completed | .breakpoint _ | .halted | .interrupted => .continue

namespace Session

open Command (Failure Invocation Tokens)

variable {γ κ ε : Type}

/-- Printing a line changes the printer, whether the line is taken or refused. -/
theorem say_apply (refused : SystemError → ε) (style : Style) (text : String) (s : Session γ κ) :
    (say refused style text : Action γ κ ε Unit) s =
      some ((s.printer.line style text).1.mapError refused,
        { s with printer := (s.printer.line style text).2 }) := by
  simp only [say, bind_apply, get_apply, set_apply]
  rcases s.printer.line style text with ⟨(cause | ⟨⟩), printer⟩ <;> rfl

/-- Telling texts is printing them, in bold, with a refusal as the failure. -/
theorem tellAll_apply (texts : List String) (s : Session γ κ) :
    (tellAll texts : Action γ κ Failure Unit) s =
      some ((s.printer.printAll (texts.map (Style.bold, ·))).1.mapError .output,
        { s with printer := (s.printer.printAll (texts.map (Style.bold, ·))).2 }) := by
  induction texts generalizing s with
  | nil => rfl
  | cons text rest ih =>
      have hcons : (tellAll (text :: rest) : Action γ κ Failure Unit) =
          (tell text >>= fun _ => tellAll rest) := rfl
      rw [hcons, bind_apply, tell, say_apply, List.map_cons, Printer.printAll]
      rcases s.printer.line .bold text with ⟨(cause | ⟨⟩), printer⟩
      · rfl
      · exact ih _

/-! ### What the operator is told about a run -/

/-- What the action that prints a dump does with a session. -/
theorem hexdump_apply (base : Nat) (bytes : List Byte) (s : Session γ κ) :
    (do
      let s ← get
      let (result, printer) := s.printer.hexdump base bytes
      set { s with printer }
      match result with
      | .ok () => pure ()
      | .error cause => throw (.output cause) : Action γ κ Failure Unit) s =
      some ((s.printer.hexdump base bytes).1.mapError .output,
        { s with printer := (s.printer.hexdump base bytes).2 }) := by
  simp only [bind_apply, get_apply, set_apply]
  rcases s.printer.hexdump base bytes with ⟨(cause | ⟨⟩), printer⟩ <;> rfl

variable [Core γ]

/-- Where the machine stands, as the operator is told. -/
def positionLines (m : Machine γ κ) : List (Style × String) :=
  (positionReport m).map (Style.bold, ·)

/-- The two lines about a halt that ends the session. -/
def farewell : List (Style × String) :=
  [(.bold, "Machine halted."), (.bold, "  Quitting. Goodbye.")]

/-- What the operator is told about a run that stopped: why, and where, unless the session ends. -/
def stopLines (m : Machine γ κ) : StopReason → List (Style × String)
  | .completed => positionLines m
  | .breakpoint address =>
    (.bold, "Breakpoint at x" ++ Text.hexWord address ++ " reached") :: positionLines m
  | .halted => (.bold, "Machine halted.") :: positionLines m
  | .exit => farewell
  | .interrupted => (.boldYellow, "Execution interrupted by CTRL+C!") :: positionLines m

/-- The session in which the operator was told why a run stopped, and whether it goes on, if all was
taken. -/
def stopTold (s : Session γ κ) (reason : StopReason) : Except SystemError Flow × Session γ κ :=
  ((s.printer.printAll (stopLines s.machine reason)).1.map fun _ => reason.flow,
    { s with printer := (s.printer.printAll (stopLines s.machine reason)).2 })

/-- Telling the position is what a completed run tells. -/
theorem tell_position_apply (s : Session γ κ) :
    (do
      tellAll (positionReport (← get).machine)
      return .continue : Action γ κ Failure Flow) s =
      some ((s.stopTold .completed).1.mapError .output, (s.stopTold .completed).2) := by
  rw [bind_apply, get_apply]
  dsimp only
  rw [bind_apply, tellAll_apply, stopTold, stopLines, positionLines]
  rcases s.printer.printAll ((positionReport s.machine).map (Style.bold, ·)) with
    ⟨(cause | ⟨⟩), printer⟩ <;> rfl

/-- A line about the reason, and then where the machine stands. -/
theorem say_tell_position_apply {reason : StopReason} {style : Style} {text : String}
    {s : Session γ κ}
    (hlines : stopLines s.machine reason = (style, text) :: positionLines s.machine)
    (hflow : reason.flow = .continue) :
    (do
      say .output style text
      tellAll (positionReport (← get).machine)
      return .continue : Action γ κ Failure Flow) s =
      some ((s.stopTold reason).1.mapError .output, (s.stopTold reason).2) := by
  rw [bind_apply, say_apply, stopTold, hlines, hflow, Printer.printAll]
  rcases s.printer.line style text with ⟨(cause | ⟨⟩), printer⟩
  · rfl
  · exact tell_position_apply { s with printer }

variable [Keyboard κ]

/-- A run that was driven to its end is told, and one that failed is not. -/
theorem runLoop_apply (fuel : Nat) (limit : Limit) (s : Session γ κ) :
    runLoop fuel limit s = (drive fuel limit s).bind fun
      | (.error e, s') => some (.error e, s')
      | (.ok reason, s') =>
        some ((s'.stopTold reason).1.mapError .output, (s'.stopTold reason).2) := by
  rw [runLoop, bind_apply]
  rcases drive fuel limit s with _ | ⟨(e | reason), s'⟩
  · rfl
  · rfl
  cases reason with
  | completed => exact tell_position_apply s'
  | breakpoint address => exact say_tell_position_apply rfl rfl
  | halted => exact say_tell_position_apply rfl rfl
  | exit =>
      change (tell "Machine halted." >>= fun _ =>
        tell "  Quitting. Goodbye." >>= fun _ => pure Flow.quit) s' = _
      rw [bind_apply, tell, say_apply]
      dsimp only [Option.bind, stopTold, stopLines, farewell, Printer.printAll]
      rcases s'.printer.line .bold "Machine halted." with ⟨(cause | ⟨⟩), printer⟩
      · rfl
      · dsimp only [Except.mapError]
        rw [bind_apply, tell, say_apply]
        dsimp only
        rcases printer.line .bold "  Quitting. Goodbye." with ⟨(cause | ⟨⟩), printer'⟩ <;> rfl
  | interrupted => exact say_tell_position_apply rfl rfl

/-! ### Runs -/

/-- The session that a run starts from: an earlier request to stop is forgotten, and the terminal is
switched. -/
def readied (s : Session γ κ) : Session γ κ :=
  enterRaw { s with machine := s.machine.forgetCancel }

/-- The session that a run leaves, before the operator is told. -/
def settled (s : Session γ κ) (o : Machine.Outcome γ κ) : Session γ κ :=
  ({ s.readied with machine := o.machine, breakpoints := o.breakpoints }).leaveRaw.collectConsole

/-- How a run concludes: an error ends the session, and anything else is told to the operator. -/
def concluded (s : Session γ κ) (o : Machine.Outcome γ κ) :
    Except ProgramError Flow × Session γ κ :=
  match o.result with
  | .error cause => (.error (.machine cause), s.settled o)
  | .ok reason =>
    (((s.settled o).stopTold reason).1.mapError .system, ((s.settled o).stopTold reason).2)

omit [Core γ] [Keyboard κ] in
/-- Besides the request to stop and the terminal, it is only the journal that changes. -/
theorem readied_eq (s : Session γ κ) :
    ∃ terminal journal, s.readied =
      { s with terminal, machine := { s.machine with cancelled := false, journal } } := by
  rw [readied, enterRaw]
  split <;> exact ⟨_, _, rfl⟩

omit [Core γ] [Keyboard κ] in
/-- Making ready leaves the settings. -/
theorem settings_readied (s : Session γ κ) :
    s.readied.machine.settings = s.machine.settings := by
  obtain ⟨terminal, journal, h⟩ := s.readied_eq
  rw [h]

omit [Core γ] [Keyboard κ] in
/-- Making ready leaves the counter of cycles. -/
theorem cycles_readied (s : Session γ κ) : s.readied.machine.cycles = s.machine.cycles := by
  obtain ⟨terminal, journal, h⟩ := s.readied_eq
  rw [h]

omit [Core γ] [Keyboard κ] in
/-- Making ready leaves memory. -/
theorem memory_readied (s : Session γ κ) : s.readied.machine.memory = s.machine.memory := by
  obtain ⟨terminal, journal, h⟩ := s.readied_eq
  rw [h]

omit [Core γ] [Keyboard κ] in
/-- Making ready leaves the breakpoints. -/
theorem breakpoints_readied (s : Session γ κ) : s.readied.breakpoints = s.breakpoints := by
  obtain ⟨terminal, journal, h⟩ := s.readied_eq
  rw [h]

omit [Keyboard κ] in
/-- The machine is left as the run left it; what its console received may have been passed on. -/
theorem machine_concluded (s : Session γ κ) (o : Machine.Outcome γ κ) :
    ∃ console, (s.concluded o).2.machine = { o.machine with console } := by
  have hsettled : ∃ console, (s.settled o).machine = { o.machine with console } := by
    rw [settled, collectConsole]
    split <;> exact ⟨_, rfl⟩
  rw [concluded]
  cases o.result with
  | error cause => exact hsettled
  | ok reason => exact hsettled

/-- The machine runs between two switches of the terminal, whatever the printer is. -/
theorem drive_eq (fuel : Nat) (limit : Limit) (s : Session γ κ) :
    drive fuel limit s =
      (s.enterRaw.machine.run fuel limit s.enterRaw.breakpoints).map fun o =>
        (o.result.mapError .machine, ({ s.enterRaw with
          machine := o.machine, breakpoints := o.breakpoints }).leaveRaw.collectConsole) := by
  rw [drive, ExceptT.mk]
  rcases s.enterRaw with ⟨machine, breakpoints, printer, terminal, shared⟩
  dsimp only
  cases machine.run fuel limit breakpoints <;> rfl

/-- Driving is a run of the machine made ready, with the terminal switched back behind it. -/
theorem drive_apply (fuel : Nat) (limit : Limit) (s : Session γ κ) :
    drive fuel limit { s with machine := s.machine.forgetCancel } =
      (s.readied.machine.run fuel limit s.readied.breakpoints).map fun o =>
        (o.result.mapError .machine, s.settled o) :=
  drive_eq fuel limit { s with machine := s.machine.forgetCancel }

/-- **A run of a session is a run of its machine.** Whoever asks for it, a command or a blank line
or the opening of a session, the machine runs once and the run is concluded. -/
theorem attempt_runLoop (fuel : Nat) (limit : Limit) (spelling usage : String) (s : Session γ κ) :
    attempt (runLoop fuel limit) spelling usage s =
      (s.readied.machine.run fuel limit s.readied.breakpoints).map s.concluded := by
  rw [attempt_apply, runLoop_apply, drive_apply]
  cases s.readied.machine.run fuel limit s.readied.breakpoints with
  | none => rfl
  | some o =>
      rw [Option.map_some, Option.map_some, concluded]
      cases o.result with
      | error cause => rfl
      | ok reason =>
          dsimp only [Option.bind, Except.mapError]
          rcases (s.settled o).stopTold reason with ⟨(cause | flow), s'⟩ <;> rfl

/-! ### Who asks for a run -/

/-- How far a command line lets the machine run, if it does so: if it calls a command that does, and
the arguments of the command can be read. -/
def commandLimit? (line : String) : Option Limit :=
  (Command.lookup? (spellingOf line)).bind fun d =>
    (Invocation.read d.command (Tokens.ofLine line).next.2).toOption.bind Invocation.limit?

/-- The invocations with a limit are performed by letting the machine run so far. -/
theorem perform_of_limit? {invocation : Invocation} {limit : Limit}
    (h : invocation.limit? = some limit) (fuel : Nat) :
    (perform fuel invocation : Action γ κ Failure Flow) = runLoop fuel limit := by
  cases invocation with
  | step count | stepInstruction count | «continue» =>
      cases h
      rfl
  | _ => cases h

/-- A command whose arguments are read is performed. -/
theorem execute_of_read_eq_ok {command : Command} {args : Tokens} {invocation : Invocation}
    (h : Invocation.read command args = .ok invocation) (fuel : Nat) :
    (execute fuel command args : Action γ κ Failure Flow) = perform fuel invocation := by
  rw [execute, h]
  rfl

/-- A command whose arguments are not read fails. -/
theorem execute_of_read_eq_error {command : Command} {args : Tokens} {failure : Failure}
    (h : Invocation.read command args = .error failure) (fuel : Nat) :
    (execute fuel command args : Action γ κ Failure Flow) = throw failure := by
  rw [execute, h]
  rfl

/-- A line that asks for a run makes that run, and concludes it. -/
theorem handle_of_commandLimit? {line : String} {limit : Limit}
    (h : commandLimit? line = some limit) (fuel : Nat) (s : Session γ κ) :
    handle fuel line s =
      (s.readied.machine.run fuel limit s.readied.breakpoints).map s.concluded := by
  obtain ⟨d, hlookup, hlimit⟩ := Option.bind_eq_some_iff.1 h
  obtain ⟨invocation, hread, hinvocation⟩ := Option.bind_eq_some_iff.1 hlimit
  have hargs : Invocation.read d.command (Tokens.ofLine line).next.2 = .ok invocation := by
    cases hargs : Invocation.read d.command (Tokens.ofLine line).next.2 with
    | error e =>
        rw [hargs] at hread
        cases hread
    | ok invocation' =>
        rw [hargs] at hread
        exact congrArg Except.ok (Option.some.inj hread)
  rw [handle_of_lookup?_eq_some hlookup, execute_of_read_eq_ok hargs,
    perform_of_limit? hinvocation, ← attempt_apply, attempt_runLoop]

end Session

end ClockStep
