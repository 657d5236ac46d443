import ClockStep.Proofs.SessionTurns

/-!
# What Stays Unless the Machine Runs

Most of a session is changed by runs only: the core, how many cycles went by, the keyboard, the
console, the terminal. Something of a session is **steady** when it does not depend on what the
other commands may change, which is the output, the breakpoints, memory, the pending interrupt and
the request to stop. This module shows that what is steady stays as it is on every occasion on which
the machine does not run, for any printer, and also if the occasion ends the session.

As with calm actions, an action is followed from a single start, and sequencing keeps what the parts
keep.

## Main results

* `keeps_perform`: a command by which the machine does not run.
* `keeps_handle`: a command line by which it does not run.
* `keeps_answer`: an occasion on which it does not run.
-/

namespace ClockStep.Session

open Command (Failure Invocation Tokens)

variable {γ κ ε α β σ : Type}

/-- What does not depend on anything that commands may change while the machine does not run. -/
structure Steady (f : Session γ κ → σ) : Prop where
  printer : ∀ (s : Session γ κ) printer, f { s with printer } = f s
  breakpoints : ∀ (s : Session γ κ) breakpoints, f { s with breakpoints } = f s
  memory : ∀ (s : Session γ κ) memory, f { s with machine := { s.machine with memory } } = f s
  interrupts : ∀ (s : Session γ κ) interrupts,
    f { s with machine := { s.machine with interrupts } } = f s
  cancelled : ∀ (s : Session γ κ) cancelled,
    f { s with machine := { s.machine with cancelled } } = f s

/-- Carried out from a session, an action leaves something of it as it was, if it ends. -/
def Keeps (f : Session γ κ → σ) (x : Action γ κ ε α) (s : Session γ κ) : Prop :=
  ∀ r s', x s = some (r, s') → f s' = f s

variable {f : Session γ κ → σ} {s : Session γ κ}

/-! ### Sequencing -/

/-- What an action leaves tells whether it keeps something. -/
theorem Keeps.of_eq {x : Action γ κ ε α} {r : Except ε α} {s' : Session γ κ}
    (h : x s = some (r, s')) (hf : f s' = f s) : Keeps f x s := by
  intro r' s'' hr
  rw [h] at hr
  cases hr
  exact hf

/-- A value keeps everything. -/
theorem keeps_pure (a : α) : Keeps f (pure a : Action γ κ ε α) s := .of_eq rfl rfl

/-- A failure keeps everything. -/
theorem keeps_throw (e : ε) : Keeps f (throw e : Action γ κ ε α) s := .of_eq rfl rfl

/-- What each of two actions keeps, both keep. -/
theorem Keeps.bind {x : Action γ κ ε α} {g : α → Action γ κ ε β} (hx : Keeps f x s)
    (hg : ∀ a s', Keeps f (g a) s') : Keeps f (x >>= g) s := by
  intro r s'' hr
  rw [bind_apply] at hr
  split at hr
  · cases hr
  · next a s' hxs => exact (hg a s' r s'' hr).trans (hx _ _ hxs)
  · next e s' hxs =>
    cases hr
    exact hx _ _ hxs

/-- What an action keeps from the session that it looks at, it keeps. -/
theorem Keeps.get_bind {g : Session γ κ → Action γ κ ε α} (h : Keeps f (g s) s) :
    Keeps f (get >>= g) s := by
  intro r s' hr
  rw [bind_apply] at hr
  exact h r s' hr

/-- Something that is only done on a condition, and something after it. -/
theorem Keeps.when {c : Prop} [Decidable c] {x : Action γ κ ε α} {k : Action γ κ ε β}
    (hx : Keeps f x s) (hk : ∀ s', Keeps f k s') :
    Keeps f (if c then (do let _ ← x; k) else k) s := by
  split
  · exact hx.bind fun _ s' => hk s'
  · exact hk s

/-! ### Telling the operator -/

/-- A line keeps everything but the printer. -/
theorem keeps_say (hf : Steady f) (refused : SystemError → ε) (style : Style) (text : String) :
    Keeps f (say refused style text : Action γ κ ε Unit) s :=
  .of_eq (say_apply refused style text s) (hf.printer s _)

/-- So does any number of lines. -/
theorem keeps_tellAll (hf : Steady f) (texts : List String) :
    Keeps f (tellAll texts : Action γ κ Failure Unit) s :=
  .of_eq (tellAll_apply texts s) (hf.printer s _)

/-- So does a dump. -/
theorem keeps_dump (hf : Steady f) (start : Word) (count : Nat) :
    Keeps f (dump start count : Action γ κ Failure Unit) s := by
  refine .get_bind (.when (keeps_say hf _ _ _) fun s' => ?_)
  exact .of_eq (hexdump_apply _ _ s') (hf.printer s' _)

/-- A change of the breakpoints keeps everything beside the breakpoints. -/
theorem keeps_changeBreakpoints (hf : Steady f)
    (change : Breakpoints → Except BreakpointError Breakpoints) :
    Keeps f (changeBreakpoints change : Action γ κ Failure Unit) s := by
  intro r s' hr
  rw [changeBreakpoints_eq] at hr
  split at hr
  · cases hr
    exact hf.breakpoints s _
  · cases hr
    rfl

/-! ### Commands and their lines -/

variable [Core γ] [Keyboard κ]

/-- A command by which the machine does not run keeps what is steady. -/
theorem keeps_perform (hf : Steady f) {invocation : Invocation} (h : invocation.limit? = none)
    (fuel : Nat) : Keeps f (perform fuel invocation) s := by
  cases invocation with
  | step count | stepInstruction count | «continue» => cases h
  | help => exact (keeps_tellAll hf _).bind fun _ _ => keeps_pure _
  | quit => exact (keeps_say hf _ _ _).bind fun _ _ => keeps_pure _
  | registers | microState | allRegisters | breakList =>
      exact .get_bind ((keeps_tellAll hf _).bind fun _ _ => keeps_pure _)
  | peek address => exact .get_bind ((keeps_say hf _ _ _).bind fun _ _ => keeps_pure _)
  | poke address value => exact .of_eq rfl (hf.memory s _)
  | dumpMemory start count => exact (keeps_dump hf _ _).bind fun _ _ => keeps_pure _
  | interrupt request =>
      exact (keeps_say hf _ _ _).bind fun _ s' => .of_eq rfl (hf.interrupts s' _)
  | print => exact .get_bind ((keeps_say hf _ _ _).bind fun _ _ => keeps_pure _)
  | breakRemove address | «break» address =>
      exact (keeps_changeBreakpoints hf _).bind fun _ _ =>
        (keeps_say hf _ _ _).bind fun _ _ => keeps_pure _

omit [Core γ] [Keyboard κ] in
/-- Telling how a command went keeps everything but the printer. -/
theorem keeps_report (hf : Steady f) (result : Except Failure Flow) (spelling usage : String) :
    Keeps f (report result spelling usage) s := by
  have htold : ∀ failure : Failure, Keeps f (do
      say .system .boldRed ("  " ++ failure.message)
      if failure.isMalformed then
        say .system .boldRed "  Invalid syntax"
        say .system .bold ("  Usage: " ++ spelling ++ " " ++ usage)
      return .continue : Action γ κ ProgramError Flow) s := by
    intro failure
    refine (keeps_say hf _ _ _).bind fun _ s' => ?_
    split
    · exact (keeps_say hf _ _ _).bind fun _ _ => (keeps_say hf _ _ _).bind fun _ _ => keeps_pure _
    · exact keeps_pure _
  cases result with
  | ok flow => exact keeps_pure _
  | error failure =>
      cases failure with
      | machine cause | output cause => exact keeps_throw _
      | _ => exact htold _

/-- A command line by which the machine does not run keeps what is steady. -/
theorem keeps_handle (hf : Steady f) {line : String} (h : commandLimit? line = none) (fuel : Nat) :
    Keeps f (handle fuel line) s := by
  cases hlookup : Command.lookup? (spellingOf line) with
  | none =>
      have hunknown : (handle fuel line : Action γ κ ProgramError Flow) = do
          say .system .boldRed "  Unknown command"
          return .continue := by
        simp only [handle, spellingOf_eq, hlookup]
      rw [hunknown]
      exact (keeps_say hf _ _ _).bind fun _ _ => keeps_pure _
  | some d =>
      have hexecute : ∀ s : Session γ κ,
          Keeps f (execute fuel d.command (Tokens.ofLine line).next.2) s := by
        intro s
        rw [commandLimit?, hlookup, Option.bind_some] at h
        cases hread : Invocation.read d.command (Tokens.ofLine line).next.2 with
        | ok invocation =>
            rw [hread] at h
            rw [execute_of_read_eq_ok hread]
            exact keeps_perform hf h fuel
        | error failure =>
            rw [execute_of_read_eq_error hread]
            exact keeps_throw failure
      intro r s'' hr
      rw [handle_of_lookup?_eq_some hlookup] at hr
      obtain ⟨⟨result, s'⟩, hexecuted, hreported⟩ := Option.bind_eq_some_iff.1 hr
      calc f s'' = f s' := keeps_report hf result _ _ r s'' hreported
        _ = f { s with machine := s.machine.forgetCancel } := hexecute _ result s' hexecuted
        _ = f s := hf.cancelled s false

/-- **On an occasion on which the machine does not run, what is steady stays as it is.** -/
theorem keeps_answer (hf : Steady f) {occasion : Occasion (Machine γ κ)}
    (h : occasion.limit? = none) (hchange : ∀ change, occasion ≠ .read (.meanwhile change))
    (fuel : Nat) : Keeps f (answer fuel occasion) s := by
  rcases occasion with _ | text | _ | _ | cause | change
  · cases h
  · by_cases hblank : (Occasion.read (.line text) : Occasion (Machine γ κ)).GoesOn
    · rw [Occasion.limit?_of_goesOn hblank] at h
      cases h
    · have hlimit : commandLimit? text = none := (if_neg hblank).symm.trans h
      intro r s' hr
      rw [answer_of_not_goesOn hblank] at hr
      exact keeps_handle hf hlimit fuel r s' hr
  · exact .of_eq (answer_interrupt fuel s) (hf.printer s _)
  · exact keeps_pure _
  · exact keeps_throw _
  · exact (hchange change rfl).elim

end ClockStep.Session
