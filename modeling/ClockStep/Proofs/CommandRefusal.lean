import ClockStep.Proofs.CommandGrammar
import ClockStep.Proofs.Cycle
import ClockStep.Proofs.SessionActions
import ClockStep.Session.Dialogue

/-!
# What Refused Commands Leave Alone

A command line is refused when its first word calls no command, or when the words behind it do not
fit the command that it calls. A refused line changes nothing but what the operator has been told:
it does not touch the machine, save that an earlier request to stop is forgotten, nor the
breakpoints. Every other line is carried out, and the failures that are left for it are those of the
machine.

No command changes anything before its last check. The checks of the arguments come first because
all of them are made while the arguments are being read (`Invocation.read_eq_checked`), and those of
the breakpoints because changing the breakpoints is the first thing that such a command does
(`perform_of_failing_check`).

## Main results

* `execute_of_failing_check`: a command fails with the first of its checks that does not hold, and
  leaves the session as it was.
* `execute_of_fits`: a command all of whose checks hold does what its words call.
* `report_of_check`: what the operator is told about a check that does not hold.
* `handle_refuses_or_performs`: which lines are refused, and what each kind of line leaves.
-/

namespace ClockStep.Session

open Command (Failure Invocation Tokens Check Quantity Fits called checks argumentChecks)
open Text (words)

variable {γ κ : Type}

/-! ### Lines -/

/-- The word that a line calls its command with, empty for a line without words. -/
def spellingOf (line : String) : String := String.ofList ((words line.toList).headD [])

/-- The words of a line behind the first. -/
def argumentsOf (line : String) : List (List Char) := (words line.toList).tail

/-- Whether a line calls a command, given the breakpoints: its first word is a spelling of the
command, and the words behind it fit. -/
structure Calls (breakpoints : Breakpoints) (line : String) (d : Command.Descriptor) : Prop where
  registered : d ∈ Command.registry
  spelled : spellingOf line ∈ d.spellings
  fits : Fits breakpoints (argumentsOf line) d.command

/-! ### What the operator is told -/

/-- What the operator is told about a check that does not hold: always why, and the usage of the
command if the check is about a word that is no number. -/
def refusal (check : Check) (spelling usage : String) : List (Style × String) :=
  (.boldRed, "  " ++ check.failure.message) ::
    if check.isOfWord then
      [(.boldRed, "  Invalid syntax"), (.bold, "  Usage: " ++ spelling ++ " " ++ usage)]
    else []

/-- Under an open printer, the operator is told about a check that does not hold, and the session
goes on. -/
theorem report_of_check {s : Session γ κ} (h : s.printer.IsOpen) (check : Check)
    (spelling usage : String) :
    report (.error check.failure) spelling usage s =
      some (.ok .continue,
        { s with printer := s.printer.told (refusal check spelling usage) }) := by
  have hopen := Printer.isOpen_told h [(.boldRed, "  " ++ check.failure.message)]
  have husage := Printer.isOpen_told hopen [(.boldRed, "  Invalid syntax")]
  cases check with
  | hex word | dec word =>
      simp only [Check.failure, report, bind_apply, say_of_isOpen h, Failure.isMalformed, if_true]
      rw [say_of_isOpen hopen]
      dsimp only
      rw [say_of_isOpen husage]
      rfl
  | inRange quantity value =>
      cases quantity <;>
        simp only [Check.failure, Quantity.refusal, report, bind_apply, say_of_isOpen h] <;> rfl
  | unset address | set address =>
      simp only [Check.failure, report, bind_apply, say_of_isOpen h]
      rfl

/-- A command is attempted once an earlier request to stop is forgotten. -/
theorem attempt_apply (x : Action γ κ Failure Flow) (spelling usage : String) (s : Session γ κ) :
    attempt x spelling usage s =
      (x { s with machine := s.machine.forgetCancel }).bind fun o =>
        report o.1 spelling usage o.2 := by
  have hlift : ∀ s' : Session γ κ, (ExceptT.lift x.run : Action γ κ ProgramError _) s' =
      (x s').bind fun o => some (.ok o.1, o.2) := fun _ => rfl
  rw [attempt, bind_apply]
  change ((ExceptT.lift x.run : Action γ κ ProgramError _) >>= fun result =>
    report result spelling usage) { s with machine := s.machine.forgetCancel } = _
  rw [bind_apply, hlift]
  cases x { s with machine := s.machine.forgetCancel } <;> rfl

variable [Core γ] [Keyboard κ]

/-! ### Carrying out a command -/

/-- A check of the breakpoints that does not hold is what an invocation fails with, before it does
anything. -/
theorem perform_of_failing_check {invocation : Invocation} {check : Check} {s : Session γ κ}
    (h : invocation.breakpointChecks.find? (!·.holds s.breakpoints) = some check) (fuel : Nat) :
    perform fuel invocation s = some (.error check.failure, s) := by
  cases invocation with
  | «break» address =>
      obtain ⟨hfails, rfl⟩ : address ∈ s.breakpoints ∧ Check.unset address = check := by
        simpa [Invocation.breakpointChecks, List.find?_singleton, Check.holds] using h
      rw [perform, bind_apply, changeBreakpoints_eq, Breakpoints.insert_of_mem hfails]
      rfl
  | breakRemove address =>
      obtain ⟨hfails, rfl⟩ : address ∉ s.breakpoints ∧ Check.set address = check := by
        simpa [Invocation.breakpointChecks, List.find?_singleton, Check.holds] using h
      rw [perform, bind_apply, changeBreakpoints_eq, Breakpoints.erase_of_not_mem hfails]
      rfl
  | _ => cases h

/-- Reads the arguments of a command and carries it out. -/
def execute (fuel : Nat) (command : Command) (args : Tokens) : Action γ κ Failure Flow := do
  perform fuel (← Invocation.read command args)

/-- A command fails with the first of its checks that does not hold, and leaves the session as it
was. -/
theorem execute_of_failing_check {command : Command} {args : Tokens} {s : Session γ κ}
    {check : Check}
    (h : (checks (words args.rest) command).find? (!·.holds s.breakpoints) = some check)
    (fuel : Nat) : execute fuel command args s = some (.error check.failure, s) := by
  rw [checks, List.find?_append] at h
  rw [execute, bind_apply, Invocation.read_eq_checked s.breakpoints, Check.checked]
  cases hfirst : (argumentChecks (words args.rest) command).find? (!·.holds s.breakpoints) with
  | some first =>
      rw [hfirst] at h
      cases h
      rfl
  | none =>
      rw [hfirst, Option.none_or] at h
      exact perform_of_failing_check h fuel

/-- A command all of whose checks hold does what its words call. -/
theorem execute_of_fits {command : Command} {args : Tokens} {s : Session γ κ}
    (h : Fits s.breakpoints (words args.rest) command) (fuel : Nat) :
    execute fuel command args s = perform fuel (called (words args.rest) command) s := by
  rw [execute, bind_apply, Invocation.read_of_fits args h]
  rfl

/-- Words that fit leave the machine as the only reason for a command to fail. -/
theorem calm_perform_of_fits {command : Command} {args : List (List Char)} {s : Session γ κ}
    (hopen : s.printer.IsOpen) (h : Fits s.breakpoints args command) (fuel : Nat) :
    Calm (perform fuel (called args command)) s := by
  have hall := Command.holds_checks_iff.2 h
  rw [checks, List.all_append, Bool.and_eq_true] at hall
  refine calm_perform hopen fuel _ (fun address hcalled => ?_) fun address hcalled => ?_
  · simpa [hcalled, Invocation.breakpointChecks] using hall.2
  · simpa [hcalled, Invocation.breakpointChecks] using hall.2

/-! ### Handling a line -/

/-- The first token of a line is its spelling. -/
theorem spellingOf_eq (line : String) :
    String.ofList (Tokens.ofLine line).next.1 = spellingOf line :=
  congrArg String.ofList (Tokens.ofLine line).next_words.1

/-- The words behind the first token are the arguments. -/
theorem argumentsOf_eq (line : String) :
    words (Tokens.ofLine line).next.2.rest = argumentsOf line :=
  (Tokens.ofLine line).next_words.2

/-- A line whose spelling nobody has is told to be unknown, and nothing else is done. -/
theorem handle_of_lookup?_eq_none {line : String} (h : Command.lookup? (spellingOf line) = none)
    {s : Session γ κ} (hopen : s.printer.IsOpen) (fuel : Nat) :
    handle fuel line s =
      some (.ok .continue, { s with printer := s.printer.told [(.boldRed, "  Unknown command")] }) := by
  simp only [handle, spellingOf_eq, h, bind_apply, say_of_isOpen hopen]
  rfl

/-- Any other line is carried out, once an earlier request to stop is forgotten. -/
theorem handle_of_lookup?_eq_some {line : String} {d : Command.Descriptor}
    (h : Command.lookup? (spellingOf line) = some d) (s : Session γ κ) (fuel : Nat) :
    handle fuel line s =
      (execute fuel d.command (Tokens.ofLine line).next.2
        { s with machine := s.machine.forgetCancel }).bind fun o =>
          report o.1 (spellingOf line) d.usage o.2 := by
  simp only [handle, spellingOf_eq, h]
  exact attempt_apply ..

/-- How the end of a command is the end of its line: what it leaves is passed on, and so is a failure
of the machine. No other failure is left. -/
inductive PassedOn :
    Option (Except Failure Flow × Session γ κ) →
    Option (Except ProgramError Flow × Session γ κ) → Prop
  /-- There is no end within the fuel. -/
  | endless : PassedOn none none
  /-- The command did what it was called for. -/
  | done (flow : Flow) (s : Session γ κ) : PassedOn (some (.ok flow, s)) (some (.ok flow, s))
  /-- The machine cannot go on. -/
  | failed (cause : MachineError) (s : Session γ κ) :
      PassedOn (some (.error (.machine cause), s)) (some (.error (.machine cause), s))

/-- A line that calls a command leaves what the command leaves. -/
theorem handle_of_calls {s : Session γ κ} (hopen : s.printer.IsOpen) {line : String}
    {d : Command.Descriptor} (h : Calls s.breakpoints line d) (fuel : Nat) :
    PassedOn
      (perform fuel (called (argumentsOf line) d.command)
        { s with machine := s.machine.forgetCancel })
      (handle fuel line s) := by
  have hlookup := Command.lookup?_eq_some_iff.2 ⟨h.registered, h.spelled⟩
  have hexecute := execute_of_fits (s := { s with machine := s.machine.forgetCancel })
    (argumentsOf_eq line ▸ h.fits) fuel
  have hcalm := calm_perform_of_fits (s := { s with machine := s.machine.forgetCancel }) hopen
    h.fits fuel
  rw [handle_of_lookup?_eq_some hlookup, hexecute, argumentsOf_eq]
  cases hperform : perform fuel (called (argumentsOf line) d.command)
      { s with machine := s.machine.forgetCancel } with
  | none => exact .endless
  | some ended =>
      rcases ended with ⟨e | flow, s'⟩
      · obtain ⟨cause, rfl⟩ := (hcalm _ _ hperform).2 e rfl
        exact .failed cause s'
      · exact .done flow s'

/-- A line whose words do not fit the command that it calls is refused on account of the first check
that does not hold. -/
theorem handle_of_not_fits {s : Session γ κ} (hopen : s.printer.IsOpen) {line : String}
    {d : Command.Descriptor} (hlookup : Command.lookup? (spellingOf line) = some d)
    (hfits : ¬ Fits s.breakpoints (argumentsOf line) d.command) (fuel : Nat) :
    ∃ check, (checks (argumentsOf line) d.command).find? (!·.holds s.breakpoints) = some check ∧
      handle fuel line s =
        some (.ok .continue,
          { s with
            machine := s.machine.forgetCancel
            printer := s.printer.told (refusal check (spellingOf line) d.usage) }) := by
  obtain ⟨check, hcheck⟩ : ∃ check,
      (checks (argumentsOf line) d.command).find? (!·.holds s.breakpoints) = some check := by
    refine Option.ne_none_iff_exists'.1 fun hnone => hfits (Command.holds_checks_iff.1 ?_)
    simpa using hnone
  refine ⟨check, hcheck, ?_⟩
  rw [← argumentsOf_eq] at hcheck
  have hrefused := execute_of_failing_check (s := { s with machine := s.machine.forgetCancel })
    hcheck fuel
  rw [handle_of_lookup?_eq_some hlookup, hrefused]
  exact report_of_check (s := { s with machine := s.machine.forgetCancel }) hopen check _ _

/-- **Which lines are refused, and what lines leave.** Under an open printer, a line that calls a
command leaves what the command leaves, and the machine is the only reason for it to fail. Every
other line is refused: the session goes on, the operator is told why, and nothing else changes,
except that a request to stop is forgotten if the first word called a command. What is told then is
about the first check that does not hold, in the order of `checks`. -/
theorem handle_refuses_or_performs {s : Session γ κ} (hopen : s.printer.IsOpen) (fuel : Nat)
    (line : String) :
    (∀ d, Calls s.breakpoints line d →
      PassedOn
        (perform fuel (called (argumentsOf line) d.command)
          { s with machine := { s.machine with cancelled := false } })
        (handle fuel line s)) ∧
    ((∀ d, ¬ Calls s.breakpoints line d) →
      ∃ cancelled told, handle fuel line s =
          some (.ok .continue,
            { s with machine := { s.machine with cancelled }, printer := s.printer.told told }) ∧
        ((∀ d ∈ Command.registry, spellingOf line ∉ d.spellings) →
          cancelled = s.machine.cancelled ∧ told = [(.boldRed, "  Unknown command")]) ∧
        ∀ d ∈ Command.registry, spellingOf line ∈ d.spellings →
          cancelled = false ∧
          ∃ check, (checks (argumentsOf line) d.command).find? (!·.holds s.breakpoints) =
              some check ∧ told = refusal check (spellingOf line) d.usage) := by
  refine ⟨fun d h => handle_of_calls hopen h fuel, fun hnone => ?_⟩
  cases hlookup : Command.lookup? (spellingOf line) with
  | none =>
      refine ⟨_, _, handle_of_lookup?_eq_none hlookup hopen fuel, fun _ => ⟨rfl, rfl⟩,
        fun d hregistered hspelled => ?_⟩
      rw [Command.lookup?_eq_some_iff.2 ⟨hregistered, hspelled⟩] at hlookup
      cases hlookup
  | some d =>
      obtain ⟨hregistered, hspelled⟩ := Command.lookup?_eq_some_iff.1 hlookup
      obtain ⟨check, hcheck, hhandle⟩ := handle_of_not_fits hopen hlookup
        (fun hfits => hnone d ⟨hregistered, hspelled, hfits⟩) fuel
      refine ⟨_, _, hhandle, fun hunknown => absurd hspelled (hunknown d hregistered),
        fun d' hregistered' hspelled' => ⟨rfl, ?_⟩⟩
      rw [Command.lookup?_eq_some_iff.2 ⟨hregistered', hspelled'⟩] at hlookup
      cases hlookup
      exact ⟨check, hcheck, rfl⟩

/-- A session with the bench machine and a printer that takes everything. -/
def benchSession : Session BenchCore BenchKeyboard := { machine := .benchAtFetch }

/-- Of an interrupt whose vector and priority are too large and whose data are no number, the
operator is told about the data; words behind a command without arguments do not matter. -/
theorem handle_refuses_or_performs_bench :
    handle 0 "irq 300 9 zz" benchSession =
      some (.ok .continue,
        { benchSession with
          printer := benchSession.printer.told
            [ (.boldRed, "  'zz' is not a valid positive hexadecimal integer"),
              (.boldRed, "  Invalid syntax"),
              (.bold, "  Usage: irq <hex8 vector> <dec priority> <hex16 data> ") ] }) ∧
    ∃ s', handle 0 " q  300" benchSession = some (.ok .quit, s') := by
  have hopen : benchSession.printer.IsOpen := fun _ _ => rfl
  obtain ⟨-, hrefuses⟩ := handle_refuses_or_performs hopen 0 "irq 300 9 zz"
  obtain ⟨hperforms, -⟩ := handle_refuses_or_performs hopen 0 " q  300"
  constructor
  · have hmember : ⟨.interrupt, ["irq"], "<hex8 vector> <dec priority> <hex16 data> ",
        "Raises the specified IRQ"⟩ ∈ Command.registry := by decide
    have hspelled : spellingOf "irq 300 9 zz" = "irq" := by decide
    have hnone : ∀ d, ¬ Calls ∅ "irq 300 9 zz" d := by
      rintro d ⟨hregistered, hspelled', hfits⟩
      have hlookup := Command.lookup?_eq_some_iff.2 ⟨hregistered, hspelled'⟩
      have hcommand : d.command = .interrupt := by
        rw [hspelled] at hlookup
        cases hlookup
        rfl
      rw [hcommand, ← Command.holds_checks_iff] at hfits
      revert hfits
      decide
    obtain ⟨cancelled, told, hhandle, -, hknown⟩ := hrefuses hnone
    obtain ⟨rfl, check, hcheck, rfl⟩ := hknown _ hmember (by rw [hspelled]; decide)
    obtain rfl : Check.hex ['z', 'z'] = check := Option.some.inj hcheck
    exact hhandle
  · have hcalls : Calls ∅ " q  300" ⟨.quit, ["quit", "exit", "q"], "", "Terminates the simulation"⟩ :=
      ⟨by decide, by decide, trivial⟩
    have hpassed := hperforms _ hcalls
    have hquit := say_of_isOpen (s := { benchSession with machine.cancelled := false }) hopen
      Failure.output .bold "  Quitting. Goodbye."
    rw [called, perform, bind_apply, tell, hquit] at hpassed
    generalize handle 0 " q  300" benchSession = handled at hpassed ⊢
    cases hpassed
    exact ⟨_, rfl⟩

end ClockStep.Session
