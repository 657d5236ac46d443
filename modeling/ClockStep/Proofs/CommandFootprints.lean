import ClockStep.Proofs.BreakpointStops
import ClockStep.Proofs.Halts
import ClockStep.Proofs.MemoryAccesses
import ClockStep.Proofs.SessionRuns

/-!
# What Each Command Touches

The operator relies on a command to do what it is called for and nothing beside it. For every command
`Touches` says what may be different afterwards: the output alone, for those that report; one word of
memory, the latest interrupt, or one breakpoint, for those that are there to change it; and for those
by which the machine runs, what the machine itself changes. Of these, `Ran` says what becomes of the
counter of cycles, of memory and of the breakpoints.

## Convention

Before a command is carried out, an earlier request to stop is forgotten; this is not told again for
every command. What a run does is counted from the machines at which its cycles start
(`Machine.course`).

## Main results

* `touches_perform`: what a command leaves by which the machine does not run.
* `ran_concluded`: what a run leaves.
* `commands_touch_own_part`: what command lines leave.
-/

namespace ClockStep

namespace Session

open Command (Invocation Tokens called)
open Text (hexWord)

variable {γ κ : Type} {s : Session γ κ}

/-! ### What a command may touch -/

/-- The line that shows a word of memory. -/
def peekLine (memory : Memory) (address : Word) : Style × String :=
  (.bold, "  x" ++ hexWord address ++ ": x" ++ hexWord (memory.get address))

variable [Core γ] [Accessing γ] [Keyboard κ]

/-- What a run has done to a session, apart from the core and what stands around it. -/
structure Ran (fuel : Nat) (limit : Limit) (s s' : Session γ κ) : Prop where
  /-- The run came to an end. -/
  ended : (s.readied.machine.run fuel limit s.breakpoints).isSome = true
  /-- The cycles that are completed count. -/
  cycles : s'.machine.cycles = s.machine.cycles +
    (s.readied.machine.course fuel limit s.breakpoints).1.countP fun start => start.step.1.isOk
  /-- Memory is changed by the accesses of the core that write, made during the cycles. -/
  memory : s'.machine.memory = s.machine.memory.written
    ((s.readied.machine.course fuel limit s.breakpoints).1.flatMap Machine.accesses)
  /-- At most the breakpoint is cleared that the operator is told of. -/
  breakpoints : s'.breakpoints = s.breakpoints ∨ ∃ address ∈ s.breakpoints,
    (∀ a, a ∈ s'.breakpoints ↔ a ∈ s.breakpoints ∧ a ≠ address) ∧
    ∃ printer : Printer, printer.IsOpen ∧
      s'.printer = printer.told (stopLines s'.machine (.breakpoint address))

/-- What a command that is carried out from a session `s` may have changed when it leaves a session
`s'`. Unless the machine runs, whatever is not mentioned is as it was. -/
def Touches (fuel : Nat) (s : Session γ κ) : Invocation → Session γ κ → Prop
  | .peek address, s' => s' = { s with printer := s.printer.told [peekLine s.machine.memory address] }
  | .help, s' | .registers, s' | .microState, s' | .allRegisters, s' | .dumpMemory _ _, s'
  | .print, s' | .breakList, s' | .quit, s' =>
    ∃ printer, s' = { s with printer }
  | .poke address value, s' =>
    s' = { s with machine.memory := s.machine.memory.set address value.toUInt16 }
  | .interrupt request, s' =>
    ∃ printer, s' = { s with
      printer
      machine.interrupts := { s.machine.interrupts with latest := request, pending := true } }
  | .break address, s' =>
    ∃ printer breakpoints, s' = { s with printer, breakpoints } ∧ address ∉ s.breakpoints ∧
      ∀ a, a ∈ breakpoints ↔ a = address ∨ a ∈ s.breakpoints
  | .breakRemove address, s' =>
    ∃ printer breakpoints, s' = { s with printer, breakpoints } ∧ address ∈ s.breakpoints ∧
      ∀ a, a ∈ breakpoints ↔ a ≠ address ∧ a ∈ s.breakpoints
  | .step count, s' => Ran fuel (.cycles count) s s'
  | .stepInstruction count, s' => Ran fuel (.instructions count) s s'
  | .continue, s' => Ran fuel .unbounded s s'

/-- Where the machine does not run, its counter of cycles stays. -/
theorem Touches.cycles_eq {fuel : Nat} {s s' : Session γ κ} {invocation : Invocation}
    (h : Touches fuel s invocation s') (hlimit : invocation.limit? = none) :
    s'.machine.cycles = s.machine.cycles := by
  cases invocation with
  | step count | stepInstruction count | «continue» => cases hlimit
  | peek address | poke address value =>
      obtain rfl : s' = _ := h
      rfl
  | «break» address | breakRemove address =>
      obtain ⟨printer, breakpoints, rfl, -⟩ := h
      rfl
  | _ =>
      obtain ⟨printer, rfl⟩ := h
      rfl

/-! ### Commands by which the machine does not run -/

omit [Accessing γ] in
/-- A word is told, and nothing else is changed. -/
theorem perform_peek (h : s.printer.IsOpen) (fuel : Nat) (address : Word) :
    perform fuel (.peek address) s =
      some (.ok .continue,
        { s with printer := s.printer.told [peekLine s.machine.memory address] }) := by
  rw [perform, bind_apply, get_apply]
  dsimp only
  rw [bind_apply, tell, say_of_isOpen h]
  rfl

/-- A command by which the machine does not run does what it is called for, unless breakpoints stand
against it, and touches nothing else. -/
theorem touches_perform (h : s.printer.IsOpen) {invocation : Invocation}
    (hlimit : invocation.limit? = none)
    (hchecks : invocation.breakpointChecks.all (·.holds s.breakpoints) = true) (fuel : Nat) :
    ∃ s', perform fuel invocation s = some (.ok invocation.flow, s') ∧
      Touches fuel s invocation s' := by
  have htells : invocation.reports = true → Tells (perform fuel invocation) invocation.flow s :=
    fun hreports => tells_perform h hreports fuel
  cases invocation with
  | step count | stepInstruction count | «continue» => cases hlimit
  | help | registers | microState | allRegisters | dumpMemory start count | print | breakList
  | quit =>
      obtain ⟨printer, -, hperform⟩ := htells rfl
      exact ⟨_, hperform, printer, rfl⟩
  | peek address => exact ⟨_, perform_peek h fuel address, rfl⟩
  | poke address value => exact ⟨_, rfl, rfl⟩
  | interrupt request =>
      rw [perform, bind_apply, tell, say_of_isOpen h]
      exact ⟨_, rfl, _, rfl⟩
  | «break» address =>
      have hmem : address ∉ s.breakpoints := by simpa [Invocation.breakpointChecks] using hchecks
      obtain ⟨more, hmore, hmembers⟩ := Breakpoints.insert_of_not_mem hmem
      exact ⟨_, changeBreakpoints_tell h hmore _, _, more, rfl, hmem, hmembers⟩
  | breakRemove address =>
      have hmem : address ∈ s.breakpoints := by simpa [Invocation.breakpointChecks] using hchecks
      obtain ⟨rest, hrest, hmembers⟩ := Breakpoints.erase_of_mem hmem
      exact ⟨_, changeBreakpoints_tell h hrest _, _, rest, rfl, hmem, hmembers⟩

/-! ### Commands by which the machine runs -/

omit [Core γ] [Accessing γ] [Keyboard κ] in
/-- The breakpoints behind a run are those that the run leaves. -/
theorem breakpoints_settled (s : Session γ κ) (o : Machine.Outcome γ κ) :
    (s.settled o).breakpoints = o.breakpoints := by
  rw [settled, collectConsole]
  split <;> rfl

omit [Accessing γ] in
/-- The printer is open behind a run. -/
theorem isOpen_settled (h : s.printer.IsOpen) {fuel : Nat} {limit : Limit}
    {o : Machine.Outcome γ κ}
    (ho : s.readied.machine.run fuel limit s.breakpoints = some o) :
    (s.settled o).printer.IsOpen := by
  have hdrive := drive_apply fuel limit s
  rw [breakpoints_readied, ho] at hdrive
  exact (calm_drive (s := { s with machine := s.machine.forgetCancel }) h fuel limit _ _ hdrive).1

/-- What a run has done to a session once it is concluded. -/
theorem ran_concluded (h : s.printer.IsOpen) {fuel : Nat} {limit : Limit}
    {o : Machine.Outcome γ κ}
    (ho : s.readied.machine.run fuel limit s.breakpoints = some o) :
    Ran fuel limit s (s.concluded o).2 := by
  obtain ⟨console, hmachine⟩ := machine_concluded s o
  have hbreakpoints : (s.concluded o).2.breakpoints = o.breakpoints := by
    rw [← breakpoints_settled s o, concluded]
    cases o.result <;> rfl
  constructor
  · rw [ho]
    rfl
  · rw [hmachine, ← cycles_readied]
    exact (Machine.course_path ho).cycles
  · rw [hmachine, ← memory_readied]
    exact Machine.memory_run ho
  · rw [hbreakpoints]
    rcases Machine.runFrom_outcome ho with ⟨address, hresult, hhit⟩ | ⟨-, hkept⟩
    · obtain ⟨-, -, herase⟩ := Machine.hit?_eq_some_iff.1 hhit
      have hopen := isOpen_settled h ho
      refine .inr ⟨address, Breakpoints.mem_of_erase herase, fun a => ?_, _, hopen, ?_⟩
      · rw [Breakpoints.mem_erase herase, and_comm]
      · rw [concluded, hresult]
        dsimp only [stopTold]
        rw [Printer.printAll_of_isOpen hopen]
    · exact .inl hkept

/-! ### Command lines -/

omit [Core γ] [Accessing γ] [Keyboard κ] in
/-- How far a called command lets the machine run. -/
theorem commandLimit?_of_calls {breakpoints : Breakpoints} {line : String} {d : Command.Descriptor}
    (h : Calls breakpoints line d) :
    commandLimit? line = (called (argumentsOf line) d.command).limit? := by
  have hlookup := Command.lookup?_eq_some_iff.2 ⟨h.registered, h.spelled⟩
  have hread := Invocation.read_of_fits (Tokens.ofLine line).next.2 (argumentsOf_eq line ▸ h.fits)
  rw [argumentsOf_eq] at hread
  rw [commandLimit?, hlookup, Option.bind_some, hread]
  rfl

omit [Accessing γ] in
/-- A called command that succeeds is the whole of what its line does. -/
theorem handle_of_perform_eq_ok (h : s.printer.IsOpen) {line : String} {d : Command.Descriptor}
    (hcalls : Calls s.breakpoints line d) {fuel : Nat} {flow : Flow} {s' : Session γ κ}
    (hperform : perform fuel (called (argumentsOf line) d.command)
      { s with machine := s.machine.forgetCancel } = some (.ok flow, s')) :
    handle fuel line s = some (.ok flow, s') := by
  have hpassed := handle_of_calls h hcalls fuel
  rw [hperform] at hpassed
  generalize handle fuel line s = handled at hpassed ⊢
  cases hpassed
  rfl

/-- A line that calls a command by which the machine does not run. -/
theorem handle_of_limit?_eq_none (h : s.printer.IsOpen) {line : String} {d : Command.Descriptor}
    (hcalls : Calls s.breakpoints line d)
    (hlimit : (called (argumentsOf line) d.command).limit? = none) (fuel : Nat) :
    ∃ s', handle fuel line s = some (.ok (called (argumentsOf line) d.command).flow, s') ∧
      Touches fuel { s with machine := s.machine.forgetCancel }
        (called (argumentsOf line) d.command) s' := by
  have hchecks := Command.holds_checks_iff.2 hcalls.fits
  rw [Command.checks, List.all_append, Bool.and_eq_true] at hchecks
  obtain ⟨s', hperform, htouches⟩ := touches_perform
    (s := { s with machine := s.machine.forgetCancel }) h hlimit hchecks.2 fuel
  exact ⟨s', handle_of_perform_eq_ok h hcalls hperform, htouches⟩

/-- A run touches what commands by which the machine runs may touch. -/
theorem Ran.touches {fuel : Nat} {limit : Limit} {s s' : Session γ κ} (h : Ran fuel limit s s')
    {invocation : Invocation} (hlimit : invocation.limit? = some limit) :
    Touches fuel s invocation s' := by
  cases invocation with
  | step count | stepInstruction count | «continue» =>
      cases hlimit
      exact h
  | _ => cases hlimit

/-- A line that calls a command leaves what the command may leave. -/
theorem touches_of_handle (h : s.printer.IsOpen) {line : String} {d : Command.Descriptor}
    (hcalls : Calls s.breakpoints line d) {fuel : Nat} {r : Except ProgramError Flow}
    {s' : Session γ κ} (hr : handle fuel line s = some (r, s')) :
    Touches fuel { s with machine := s.machine.forgetCancel }
      (called (argumentsOf line) d.command) s' := by
  cases hlimit : (called (argumentsOf line) d.command).limit? with
  | none =>
      obtain ⟨s'', hhandle, htouches⟩ := handle_of_limit?_eq_none h hcalls hlimit fuel
      rw [hr] at hhandle
      cases hhandle
      exact htouches
  | some limit =>
      rw [handle_of_commandLimit? ((commandLimit?_of_calls hcalls).trans hlimit),
        breakpoints_readied] at hr
      obtain ⟨o, ho, hconcluded⟩ := Option.map_eq_some_iff.1 hr
      have hran := ran_concluded (s := { s with machine := s.machine.forgetCancel }) h ho
      have hend : ({ s with machine := s.machine.forgetCancel } : Session γ κ).concluded o =
          (r, s') := hconcluded
      rw [hend] at hran
      exact hran.touches hlimit

omit [Accessing γ] in
/-- A line that asks for a word tells that word, and does nothing else. -/
theorem handle_peek (h : s.printer.IsOpen) {line : String} {d : Command.Descriptor}
    (hcalls : Calls s.breakpoints line d) {address : Word}
    (hcalled : called (argumentsOf line) d.command = .peek address) (fuel : Nat) :
    handle fuel line s =
      some (.ok .continue,
        { s with
          machine := s.machine.forgetCancel
          printer := s.printer.told [peekLine s.machine.memory address] }) := by
  refine handle_of_perform_eq_ok h hcalls ?_
  rw [hcalled, perform_peek (s := { s with machine := s.machine.forgetCancel }) h]
  rfl

/-- **Each command touches its own part of a session only.** Under an open printer, a line that
calls a command by which the machine does not run is carried out, and no cycle is counted; and
whatever a line calls, when it is carried out it has changed what `Touches` says and nothing else. In
particular, after a word was poked, peeking there tells that word, and peeking elsewhere tells what
it would have told before. -/
theorem commands_touch_own_part (h : s.printer.IsOpen) {line : String} {d : Command.Descriptor}
    (hcalls : Calls s.breakpoints line d) {invocation : Invocation}
    (hcalled : called (argumentsOf line) d.command = invocation) (fuel : Nat) :
    (invocation.limit? = none →
      ∃ s', handle fuel line s = some (.ok invocation.flow, s') ∧
        s'.machine.cycles = s.machine.cycles) ∧
    (∀ r s', handle fuel line s = some (r, s') →
      Touches fuel { s with machine.cancelled := false } invocation s') ∧
    ∀ address value, invocation = .poke address value →
      ∃ s', handle fuel line s = some (.ok .continue, s') ∧
        ∀ line' d' a, Calls s.breakpoints line' d' →
          called (argumentsOf line') d'.command = .peek a → ∀ fuel',
          handle fuel' line' s' =
            some (.ok .continue,
              { s' with
                printer := s'.printer.told [(.bold, "  x" ++ hexWord a ++ ": x" ++
                  hexWord (if a = address then value.toUInt16 else s.machine.memory.get a))] }) := by
  subst hcalled
  refine ⟨fun hlimit => ?_, fun r s' hr => touches_of_handle h hcalls hr, fun address value hpoke => ?_⟩
  · obtain ⟨s', hhandle, htouches⟩ := handle_of_limit?_eq_none h hcalls hlimit fuel
    exact ⟨s', hhandle, htouches.cycles_eq hlimit⟩
  · have hlimit : (called (argumentsOf line) d.command).limit? = none := by rw [hpoke]; rfl
    obtain ⟨s', hhandle, htouches⟩ := handle_of_limit?_eq_none h hcalls hlimit fuel
    rw [hpoke] at hhandle htouches
    have hpoked : s' = { s with machine := { s.machine with
        memory := s.machine.memory.set address value.toUInt16, cancelled := false } } := htouches
    have hprinter : s'.printer = s.printer := by rw [hpoked]
    have hbreakpoints : s'.breakpoints = s.breakpoints := by rw [hpoked]
    have hmemory : s'.machine.memory = s.machine.memory.set address value.toUInt16 := by rw [hpoked]
    have hforgotten : s'.machine.forgetCancel = s'.machine := by rw [hpoked]; rfl
    refine ⟨s', hhandle, fun line' d' a hcalls' hcalled' fuel' => ?_⟩
    have hpeek := handle_peek (hprinter ▸ h) (hbreakpoints ▸ hcalls') hcalled' fuel'
    rwa [hforgotten, peekLine, hmemory, Memory.get_set] at hpeek

/-- At the bench, poking a byte and peeking there. -/
theorem commands_touch_own_part_bench :
    ∃ s', handle 0 "poke 3000 7f" benchSession = some (.ok .continue, s') ∧
      handle 0 "peek 3000" s' =
        some (.ok .continue,
          { s' with printer := s'.printer.told [(.bold, "  x3000: x007f")] }) := by
  have hpoke : Calls ∅ "poke 3000 7f"
      ⟨.poke, ["poke", "po"], "<hex16 addr> <hex8 value> ", "Sets the word at addr to value"⟩ :=
    ⟨by decide, by decide, Command.holds_checks_iff.1 (by decide)⟩
  have hpeek : Calls ∅ "peek 3000"
      ⟨.peek, ["peek", "pk"], "<hex16 addr> ", "Prints the word at addr"⟩ :=
    ⟨by decide, by decide, Command.holds_checks_iff.1 (by decide)⟩
  have hopen : benchSession.printer.IsOpen := fun _ _ => rfl
  have hcalled : called (argumentsOf "poke 3000 7f") .poke = .poke 0x3000 0x7f := by decide
  obtain ⟨-, -, hpoked⟩ := commands_touch_own_part hopen hpoke hcalled 0
  obtain ⟨s', hhandle, hpeeked⟩ := hpoked _ _ rfl
  exact ⟨s', hhandle, hpeeked _ _ 0x3000 hpeek (by decide) 0⟩

end Session

end ClockStep
