import ClockStep.Proofs.ColouredPrinting
import ClockStep.Proofs.SessionTurns

/-!
# Sessions in Colour

Two sessions that differ in the colour of their printers do the same, and tell the operator the same
but for control sequences. The two are followed side by side: an action is **alike** in them if it
comes to the same result in both, or to none, and leaves sessions that still differ in nothing but
their printers, which are twins (`Alike`). Sequencing keeps this, and so a command is alike when its
parts are; what is printed has to be plain for it.

## Convention

A console that is shared with the operator's output puts the machine's bytes into it as they are. A
machine can make control sequences of its own, so for a shared console the outputs are compared
where there is no escape in the one without colour.

## Main results

* `alike_perform`: a command.
* `alike_answer`: an occasion.
* `colour_keeps_content`: lines, dumps and whole sessions.
-/

namespace ClockStep.Session

open Command (Failure Invocation Tokens)
open Text (IsPlain isPlain_append isPlain_ofList isPlain_hexWord isPlain_hexPadded isPlain_toString)

variable {γ κ ε α β : Type} {before : List Byte} {quiet : Prop}

/-! ### Sessions side by side -/

/-- Two sessions that differ in their printers only, and these are twins; a session that shares its
console is not quiet. -/
structure Twins (before : List Byte) (quiet : Prop) (s s' : Session γ κ) : Prop where
  same : s' = { s with printer := s'.printer }
  printers : s.printer.Twins before quiet s'.printer
  unshared : quiet → s.shared = false

/-- Two ends of an action that are alike: the results are the same, an error being one of those that
are expected, and the sessions are twins. -/
structure LikeEnds (before : List Byte) (quiet : Prop) (expected : ε → Prop)
    (o o' : Except ε α × Session γ κ) : Prop where
  result : o'.1 = o.1
  errors : ∀ e, o.1 = .error e → expected e
  sessions : Twins before quiet o.2 o'.2

/-- An action is **alike** in two sessions if it comes to no end in both, or to ends that are alike.
-/
def Alike (before : List Byte) (quiet : Prop) (expected : ε → Prop) (x : Action γ κ ε α)
    (s s' : Session γ κ) : Prop :=
  Option.Rel (LikeEnds before quiet expected) (x s) (x s')

variable {expected : ε → Prop} {s s' : Session γ κ}

/-- Twins stay twins when their printers are replaced by twins. -/
theorem Twins.of_printer (h : Twins before quiet s s') {p p' : Printer}
    (hprinters : p.Twins before quiet p') :
    Twins before quiet { s with printer := p } { s' with printer := p' } where
  same := by rw [h.same]
  printers := hprinters
  unshared := h.unshared

/-- What does not look at the printer leaves twins. -/
theorem Twins.map (h : Twins before quiet s s') {f : Session γ κ → Session γ κ}
    (hf : ∀ printer, f { s with printer } = { f s with printer })
    (hshared : (f s).shared = s.shared) : Twins before quiet (f s) (f s') := by
  have hprinter : (f s).printer = s.printer := by
    have hcommutes := congrArg Session.printer (hf s.printer)
    exact hcommutes
  have hsame : f s' = { f s with printer := s'.printer } := by rw [h.same, hf]
  refine ⟨?_, ?_, fun hquiet => hshared.trans (h.unshared hquiet)⟩
  · rw [hsame]
  · rw [hsame, hprinter]
    exact h.printers

/-- Twins stay twins when the terminal goes into raw mode. -/
theorem Twins.enterRaw (h : Twins before quiet s s') :
    Twins before quiet s.enterRaw s'.enterRaw := by
  refine h.map (fun printer => ?_) ?_
  · rcases s with ⟨machine, breakpoints, old, _ | terminal, shared⟩ <;> rfl
  · rcases s with ⟨machine, breakpoints, old, _ | terminal, shared⟩ <;> rfl

/-- The console's bytes are the same in both. -/
theorem Twins.collectConsole (h : Twins before quiet s s') :
    Twins before quiet s.collectConsole s'.collectConsole := by
  have hshared : s'.shared = s.shared := by rw [h.same]
  have hmachine : s'.machine = s.machine := by rw [h.same]
  rw [Session.collectConsole, Session.collectConsole, hshared]
  split
  · next htrue =>
      have hloud : ¬quiet := fun hquiet => Bool.false_ne_true ((h.unshared hquiet).symm.trans htrue)
      refine ⟨?_, ⟨h.printers.plain, h.printers.coloured, h.printers.wraps, ?_⟩,
        fun hquiet => absurd hquiet hloud⟩
      · rw [h.same]
      · let passed : Piece := .passed s.machine.console.sink.received.toList
        have hpassed : ∀ color, [passed].flatMap (Piece.bytes color) =
            s.machine.console.sink.received.toList := fun _ => List.append_nil _
        refine h.printers.sinks.append rfl rfl h.printers.sinks.newlines
          ((Array.toList_append ..).trans (congrArg _ (hpassed false).symm))
          ((Array.toList_append ..).trans (congrArg _ ?_))
          (List.forall_mem_singleton.2 trivial) fun hquiet => absurd hquiet hloud
        rw [hmachine, hpassed]
  · exact h

/-! ### Sequencing -/

/-- Actions are alike that give one result, and an error only as expected, and leave twins. -/
theorem Alike.of_eq {x : Action γ κ ε α} {r : Except ε α} {t t' : Session γ κ}
    (h : x s = some (r, t)) (h' : x s' = some (r, t')) (herrors : ∀ e, r = .error e → expected e)
    (ht : Twins before quiet t t') : Alike before quiet expected x s s' := by
  rw [Alike, h, h']
  exact .some ⟨rfl, herrors, ht⟩

/-- So are actions that give one value and leave twins. -/
theorem Alike.of_ok {x : Action γ κ ε α} {a : α} {t t' : Session γ κ} (h : x s = some (.ok a, t))
    (h' : x s' = some (.ok a, t')) (ht : Twins before quiet t t') :
    Alike before quiet expected x s s' :=
  .of_eq h h' (fun _ he => by cases he) ht

/-- A value is the same for both. -/
theorem alike_pure (h : Twins before quiet s s') (a : α) :
    Alike before quiet expected (pure a : Action γ κ ε α) s s' :=
  .of_ok rfl rfl h

/-- An expected error is the same for both. -/
theorem alike_throw (h : Twins before quiet s s') {e : ε} (he : expected e) :
    Alike before quiet expected (throw e : Action γ κ ε α) s s' :=
  .of_eq rfl rfl (fun _ he' => by cases he'; exact he) h

/-- Actions that are alike one after the other are alike together. -/
theorem Alike.bind {x : Action γ κ ε α} {g : α → Action γ κ ε β}
    (hx : Alike before quiet expected x s s')
    (hg : ∀ a t t', Twins before quiet t t' → Alike before quiet expected (g a) t t') :
    Alike before quiet expected (x >>= g) s s' := by
  rw [Alike, bind_apply, bind_apply]
  rw [Alike] at hx
  generalize x s = o, x s' = o' at hx ⊢
  cases hx with
  | none => exact .none
  | @some o o' hends =>
      obtain ⟨r, t⟩ := o
      obtain ⟨r', t'⟩ := o'
      obtain ⟨hresult, herrors, ht⟩ := hends
      cases hresult
      cases r with
      | error e => exact .some ⟨rfl, fun e' he' => herrors e' (by cases he'; rfl), ht⟩
      | ok a => exact hg a t t' ht

/-- Something, and then an answer. -/
theorem Alike.answering {x : Action γ κ ε α} (hx : Alike before quiet expected x s s') (b : β) :
    Alike before quiet expected (do let _ ← x; return b) s s' :=
  hx.bind fun _ _ _ ht => alike_pure ht b

/-- What is done with a session does not depend on its printer. -/
theorem Alike.get_bind {g : Session γ κ → Action γ κ ε α} (h : Twins before quiet s s')
    (hprinter : ∀ printer, g { s with printer } = g s)
    (hg : Alike before quiet expected (g s) s s') :
    Alike before quiet expected (get >>= g) s s' := by
  rw [Alike, bind_apply, bind_apply, get_apply, get_apply]
  have hsame : g s' = g s := by rw [h.same, hprinter]
  change Option.Rel _ (g s s) (g s' s')
  rw [hsame]
  exact hg

/-- Something that is only done on a condition, and something after it. -/
theorem Alike.when {c : Prop} [Decidable c] {x : Action γ κ ε α} {k : Action γ κ ε β}
    (h : Twins before quiet s s') (hx : Alike before quiet expected x s s')
    (hk : ∀ t t', Twins before quiet t t' → Alike before quiet expected k t t') :
    Alike before quiet expected (if c then (do let _ ← x; k) else k) s s' := by
  split
  · exact hx.bind fun _ t t' ht => hk t t' ht
  · exact hk s s' h

/-! ### Telling the operator -/

/-- Something that is printed, and may be refused. -/
theorem Alike.of_printed {x : Action γ κ ε Unit} {refused : SystemError → ε}
    {result : Except SystemError Unit} {p p' : Printer} (h : Twins before quiet s s')
    (hrefused : ∀ cause, expected (refused cause))
    (hx : x s = some (result.mapError refused, { s with printer := p }))
    (hx' : x s' = some (result.mapError refused, { s' with printer := p' }))
    (hprinters : p.Twins before quiet p') : Alike before quiet expected x s s' := by
  refine .of_eq hx hx' (fun e he => ?_) (h.of_printer hprinters)
  cases result with
  | error cause =>
      cases he
      exact hrefused cause
  | ok => cases he

/-- A plain text is said alike. -/
theorem alike_say (h : Twins before quiet s s') {refused : SystemError → ε}
    (hrefused : ∀ cause, expected (refused cause)) (style : Style) {text : String}
    (htext : IsPlain text) :
    Alike before quiet expected (say refused style text : Action γ κ ε Unit) s s' := by
  obtain ⟨hresult, hprinters⟩ := h.printers.line style htext
  refine .of_printed h hrefused (say_apply refused style text s) ?_ hprinters
  rw [say_apply, hresult]

/-- Plain texts are told alike. -/
theorem alike_tellAll (h : Twins before quiet s s') {texts : List String}
    (htexts : ∀ text ∈ texts, IsPlain text) :
    Alike before quiet Failure.WordIsPlain (tellAll texts : Action γ κ Failure Unit) s s' := by
  induction texts generalizing s s' with
  | nil => exact alike_pure h ()
  | cons text rest ih =>
      obtain ⟨htext, hrest⟩ := List.forall_mem_cons.1 htexts
      exact (alike_say h (fun _ => trivial) .bold htext).bind fun _ t t' ht => ih ht hrest

/-- Dumps are told alike, whatever bytes they show. -/
theorem alike_dump (h : Twins before quiet s s') (start : Word) (count : Nat) :
    Alike before quiet Failure.WordIsPlain (dump start count : Action γ κ Failure Unit) s s' := by
  have hwarning : ∀ n : Nat, IsPlain ("  Only " ++ toString n ++ " words left from x" ++
      Text.hexWord start ++ ", dump clamped") := by
    intro n
    simp only [isPlain_append, isPlain_toString, isPlain_hexWord, and_true]
    and_intros <;> exact isPlain_ofList rfl
  refine .get_bind h (fun _ => rfl)
    (.when h (alike_say h (fun _ => trivial) .boldYellow (hwarning _)) fun t t' ht => ?_)
  obtain ⟨hresult, hprinters⟩ := ht.printers.hexdump start.toNat
    (bytesOfWords (s.machine.memory.slice start.toNat count))
  have hrefused : ∀ cause, (Failure.output cause).WordIsPlain := fun _ => trivial
  refine .of_printed ht hrefused (hexdump_apply _ _ t) ?_ hprinters
  exact (hexdump_apply _ _ t').trans (by rw [hresult])

/-! ### Commands -/

/-- Breakpoints change alike. -/
theorem alike_changeBreakpoints (h : Twins before quiet s s')
    (change : Breakpoints → Except BreakpointError Breakpoints) :
    Alike before quiet Failure.WordIsPlain
      (changeBreakpoints change : Action γ κ Failure Unit) s s' := by
  have hbreakpoints : s'.breakpoints = s.breakpoints := by rw [h.same]
  rw [Alike, changeBreakpoints_eq, changeBreakpoints_eq, hbreakpoints]
  cases change s.breakpoints with
  | error e => exact .some ⟨rfl, fun e' he => by cases he; trivial, h⟩
  | ok breakpoints =>
      have hchanged := h.map (f := fun s => { s with breakpoints }) (fun _ => rfl) rfl
      exact .some ⟨rfl, (fun _ he => by cases he), hchanged⟩

variable [Core γ] [Keyboard κ]

/-- The machine is driven alike: it does not see the printer. -/
theorem alike_drive (h : Twins before quiet s s') (fuel : Nat) (limit : Limit) :
    Alike before quiet Failure.WordIsPlain (drive fuel limit) s s' := by
  have hready := h.enterRaw
  have hmachine : s'.enterRaw.machine = s.enterRaw.machine := by rw [hready.same]
  have hbreakpoints : s'.enterRaw.breakpoints = s.enterRaw.breakpoints := by rw [hready.same]
  rw [Alike, drive_eq, drive_eq, hmachine, hbreakpoints]
  cases s.enterRaw.machine.run fuel limit s.enterRaw.breakpoints with
  | none => exact .none
  | some o =>
      refine .some ⟨rfl, fun e he => ?_, ?_⟩
      · dsimp only at he
        cases hresult : o.result with
        | error cause =>
            rw [hresult] at he
            cases he
            trivial
        | ok reason =>
            rw [hresult] at he
            cases he
      · have hran := hready.map (f := fun s => ({ s with
          machine := o.machine, breakpoints := o.breakpoints }).leaveRaw) (fun _ => rfl) rfl
        exact hran.collectConsole

/-- The run of a machine does not depend on the printer, and what the operator is told about it is
plain. -/
theorem alike_runLoop (h : Twins before quiet s s') (fuel : Nat) (limit : Limit) :
    Alike before quiet Failure.WordIsPlain (runLoop fuel limit) s s' := by
  have hposition : ∀ t t' : Session γ κ, Twins before quiet t t' →
      Alike before quiet Failure.WordIsPlain (do
        tellAll (positionReport (← get).machine)
        return .continue : Action γ κ Failure Flow) t t' := fun t t' ht =>
    .get_bind ht (fun _ => rfl) ((alike_tellAll ht (isPlain_positionReport _)).answering _)
  refine (alike_drive h fuel limit).bind fun reason t t' ht => ?_
  have hsaid : ∀ (style : Style) {text : String}, IsPlain text →
      Alike before quiet Failure.WordIsPlain (do
        say .output style text
        tellAll (positionReport (← get).machine)
        return .continue : Action γ κ Failure Flow) t t' := fun style _ htext =>
    (alike_say ht (fun _ => trivial) style htext).bind fun _ => hposition
  cases reason with
  | completed => exact hposition t t' ht
  | breakpoint address =>
      exact hsaid .bold (isPlain_append.2
        ⟨isPlain_append.2 ⟨isPlain_ofList rfl, isPlain_hexWord address⟩, isPlain_ofList rfl⟩)
  | halted => exact hsaid .bold (isPlain_ofList rfl)
  | exit =>
      exact (alike_say ht (fun _ => trivial) .bold (isPlain_ofList rfl)).bind fun _ _ _ htold =>
        (alike_say htold (fun _ => trivial) .bold (isPlain_ofList rfl)).answering _
  | interrupted => exact hsaid .boldYellow (isPlain_ofList rfl)

/-- A command. -/
theorem alike_perform (h : Twins before quiet s s') (fuel : Nat) (invocation : Invocation) :
    Alike before quiet Failure.WordIsPlain (perform fuel invocation) s s' := by
  cases invocation with
  | step count | stepInstruction count | «continue» => exact alike_runLoop h fuel _
  | help =>
      refine (alike_tellAll h fun text htext => ?_).answering _
      obtain ⟨d, hd, rfl⟩ := List.mem_map.1 htext
      exact isPlain_helpLine hd
  | registers =>
      exact .get_bind h (fun _ => rfl) ((alike_tellAll h (isPlain_registersReport _)).answering _)
  | microState =>
      exact .get_bind h (fun _ => rfl) ((alike_tellAll h (isPlain_microStateReport _)).answering _)
  | allRegisters =>
      have hrule : IsPlain "==============================" := isPlain_ofList rfl
      have hreport := List.forall_mem_append.2 ⟨List.forall_mem_append.2
        ⟨isPlain_registersReport s.machine.lines, List.forall_mem_singleton.2 hrule⟩,
        isPlain_microStateReport s.machine.lines⟩
      exact .get_bind h (fun _ => rfl) ((alike_tellAll h hreport).answering _)
  | breakList =>
      exact .get_bind h (fun _ => rfl) ((alike_tellAll h (isPlain_breakpointsReport _)).answering _)
  | peek address =>
      refine .get_bind h (fun _ => rfl)
        ((alike_say h (fun _ => trivial) .bold ?_).answering _)
      simp only [isPlain_append, isPlain_hexWord, and_true]
      and_intros <;> exact isPlain_ofList rfl
  | print =>
      have hdisassembly : IsPlain s.machine.instructionWord.disassembly :=
        Instruction.isPlain_text _
      refine .get_bind h (fun _ => rfl)
        ((alike_say h (fun _ => trivial) .bold ?_).answering _)
      simp only [isPlain_append, isPlain_hexWord, hdisassembly, and_true]
      and_intros <;> exact isPlain_ofList rfl
  | poke address value =>
      exact .of_ok rfl rfl (h.map (f := fun s =>
        { s with machine.memory := s.machine.memory.set address value.toUInt16 })
        (fun _ => rfl) rfl)
  | dumpMemory start count => exact (alike_dump h _ _).answering _
  | quit =>
      exact (alike_say h (fun _ => trivial) .bold (isPlain_ofList rfl)).answering _
  | interrupt request =>
      refine (alike_say h (fun _ => trivial) .bold ?_).bind fun _ t t' ht => ?_
      · simp only [isPlain_append, isPlain_hexPadded, isPlain_toString, isPlain_hexWord, and_true]
        and_intros <;> exact isPlain_ofList rfl
      · exact .of_ok rfl rfl (ht.map (f := fun s =>
          { s with machine := s.machine.raise request }) (fun _ => rfl) rfl)
  | breakRemove address =>
      refine (alike_changeBreakpoints h _).bind fun _ t t' ht =>
        (alike_say ht (fun _ => trivial) .bold ?_).answering _
      simp only [isPlain_append, isPlain_hexWord, and_true]
      and_intros <;> exact isPlain_ofList rfl
  | «break» address =>
      refine (alike_changeBreakpoints h _).bind fun _ t t' ht =>
        (alike_say ht (fun _ => trivial) .bold ?_).answering _
      exact isPlain_append.2 ⟨isPlain_ofList rfl, isPlain_hexWord address⟩

/-! ### Command lines -/

omit [Core γ] [Keyboard κ] in
/-- What is told about a failure is plain, and errors that end the session are passed on. -/
theorem alike_report (h : Twins before quiet s s') {result : Except Failure Flow}
    (hresult : ∀ failure, result = .error failure → failure.WordIsPlain) {spelling usage : String}
    (hspelling : IsPlain spelling) (husage : IsPlain usage) :
    Alike before quiet (fun _ => True) (report result spelling usage) s s' := by
  have htold : ∀ failure : Failure, IsPlain failure.message →
      Alike before quiet (fun _ => True) (do
        say .system .boldRed ("  " ++ failure.message)
        if failure.isMalformed then
          say .system .boldRed "  Invalid syntax"
          say .system .bold ("  Usage: " ++ spelling ++ " " ++ usage)
        return .continue : Action γ κ ProgramError Flow) s s' := by
    intro failure hmessage
    have hline : IsPlain ("  Usage: " ++ spelling ++ " " ++ usage) := by
      simp only [isPlain_append, hspelling, husage, and_true]
      and_intros <;> exact isPlain_ofList rfl
    refine (alike_say h (fun _ => trivial) .boldRed
      (isPlain_append.2 ⟨isPlain_ofList rfl, hmessage⟩)).bind fun _ t t' ht => ?_
    split
    · exact (alike_say ht (fun _ => trivial) .boldRed (isPlain_ofList rfl)).bind fun _ _ _ ht =>
        (alike_say ht (fun _ => trivial) .bold hline).answering _
    · exact alike_pure ht _
  cases result with
  | ok flow => exact alike_pure h flow
  | error failure =>
      have hword := hresult failure rfl
      cases failure with
      | machine cause | output cause => exact alike_throw h trivial
      | _ => exact htold _ (Failure.isPlain_message hword nofun nofun)

omit [Core γ] [Keyboard κ] in
/-- A command and what is told about its failure. -/
theorem alike_attempt (h : Twins before quiet s s') {x : Action γ κ Failure Flow}
    (hx : ∀ t t', Twins before quiet t t' → Alike before quiet Failure.WordIsPlain x t t')
    {spelling usage : String} (hspelling : IsPlain spelling) (husage : IsPlain usage) :
    Alike before quiet (fun _ => True) (attempt x spelling usage) s s' := by
  have hready := h.map (f := fun s => { s with machine := s.machine.forgetCancel })
    (fun _ => rfl) rfl
  have halike := hx _ _ hready
  rw [Alike] at halike ⊢
  rw [attempt_apply, attempt_apply]
  generalize x { s with machine := s.machine.forgetCancel } = o,
    x { s' with machine := s'.machine.forgetCancel } = o' at halike ⊢
  cases halike with
  | none => exact .none
  | @some o o' hends =>
      have hreported := alike_report hends.sessions hends.errors hspelling husage
      change Option.Rel _ (report o.1 spelling usage o.2) (report o'.1 spelling usage o'.2)
      rw [hends.result]
      exact hreported

omit [Core γ] [Keyboard κ] in
/-- What stands behind the name on a line without escapes has none either. -/
theorem escape_not_mem_arguments {line : String} (hline : Style.escape ∉ line.toList) :
    Style.escape ∉ (Tokens.ofLine line).next.2.rest := by
  intro hmem
  have happend := (Tokens.ofLine line).next_append
  rw [show (Tokens.ofLine line).rest = line.toList from rfl] at happend
  rw [happend] at hline
  exact hline (List.mem_append_right _ (List.mem_append_right _ hmem))

/-- A command line with no escape in it. -/
theorem alike_handle (h : Twins before quiet s s') {line : String}
    (hline : Style.escape ∉ line.toList) (fuel : Nat) :
    Alike before quiet (fun _ => True) (handle fuel line) s s' := by
  cases hlookup : Command.lookup? (spellingOf line) with
  | none =>
      have hunknown : (handle fuel line : Action γ κ ProgramError Flow) = do
          say .system .boldRed "  Unknown command"
          return .continue := by
        simp only [handle, spellingOf_eq, hlookup]
      rw [hunknown]
      exact (alike_say h (fun _ => trivial) .boldRed (isPlain_ofList rfl)).answering _
  | some d =>
      have hattempt : (handle fuel line : Action γ κ ProgramError Flow) =
          attempt (execute fuel d.command (Tokens.ofLine line).next.2) (spellingOf line)
            d.usage := by
        simp only [handle, spellingOf_eq, hlookup]
        rfl
      obtain ⟨hregistered, hspelled⟩ := Command.lookup?_eq_some_iff.1 hlookup
      obtain ⟨husage, -, hspellings⟩ := Command.isPlain_of_mem_registry d hregistered
      rw [hattempt]
      refine alike_attempt h (fun t t' ht => ?_) (hspellings _ hspelled) husage
      cases hread : Invocation.read d.command (Tokens.ofLine line).next.2 with
      | ok invocation =>
          rw [execute_of_read_eq_ok hread]
          exact alike_perform ht fuel invocation
      | error failure =>
          rw [execute_of_read_eq_error hread]
          exact alike_throw ht (Failure.wordIsPlain_of_read (escape_not_mem_arguments hline) hread)

/-! ### Whole sessions -/

/-- A run is taken up again alike. -/
theorem alike_continueRunning (h : Twins before quiet s s') (fuel : Nat) :
    Alike before quiet (fun _ => True) (continueRunning fuel) s s' :=
  alike_attempt h (fun _ _ ht => alike_runLoop ht fuel .unbounded) (isPlain_ofList rfl)
    (isPlain_ofList rfl)

/-- **What a session does on an occasion is alike**, unless a line with an escape in it is read. -/
theorem alike_answer (h : Twins before quiet s s') {occasion : Occasion (Machine γ κ)}
    (hlines : ∀ text, occasion = .read (.line text) → Style.escape ∉ text.toList) (fuel : Nat) :
    Alike before quiet (fun _ => True) (answer fuel occasion) s s' := by
  rcases occasion with _ | text | _ | _ | cause | change
  · exact alike_continueRunning h fuel
  · rw [answer]
    split
    · exact alike_continueRunning h fuel
    · exact alike_handle h (hlines text rfl) fuel
  · exact (alike_say h (fun _ => trivial) .plain (isPlain_ofList rfl)).answering _
  · exact alike_pure h _
  · exact alike_throw h trivial
  · exact .of_ok rfl rfl
      (h.map (f := fun s => { s with machine := change s.machine }) (fun _ => rfl) rfl)

/-- Two sessions that ended alike: in all but what they told the operator. -/
structure Matched (before : List Byte) (quiet : Prop) (ending ending' : Ending γ κ) : Prop where
  result : ending'.result = ending.result
  unread : ending'.unread = ending.unread
  history : ending'.transcript.history.toList = ending.transcript.history.toList
  sessions : Twins before quiet ending.session ending'.session

/-- One occasion more. -/
theorem matched_followed {occasion : Occasion (Machine γ κ)} {fuel : Nat}
    {followUp followUp' : Session γ κ → Option (Ending γ κ)} {t t' : Transcript}
    {unread : List (Event (Machine γ κ))}
    (hanswer : Alike before quiet (fun _ => True) (answer fuel occasion) s s')
    (hhistory : t'.history.toList = t.history.toList)
    (hlater : ∀ s s', Twins before quiet s s' →
      Option.Rel (Matched before quiet) (followUp s) (followUp' s')) :
    Option.Rel (Matched before quiet) (followed followUp t unread (answer fuel occasion s))
      (followed followUp' t' unread (answer fuel occasion s')) := by
  rw [Alike] at hanswer
  generalize answer fuel occasion s = o, answer fuel occasion s' = o' at hanswer ⊢
  cases hanswer with
  | none => exact .none
  | @some o o' hends =>
      obtain ⟨r, s⟩ := o
      obtain ⟨r', s'⟩ := o'
      obtain ⟨hresult, -, hs⟩ := hends
      cases hresult
      rcases r with e | _ | _
      · exact .some ⟨rfl, rfl, hhistory, hs⟩
      · exact hlater s s' hs
      · exact .some ⟨rfl, rfl, hhistory, hs⟩

/-- By induction on the events; that a line was asked for makes no difference but in what is noted
about it. -/
theorem matched_converse (fuel : Nat) {events : List (Event (Machine γ κ))}
    (hlines : ∀ text, .line text ∈ events → Style.escape ∉ text.toList)
    (asked asked' : Bool) {t t' : Transcript} (hhistory : t'.history.toList = t.history.toList)
    (h : Twins before quiet s s') :
    Option.Rel (Matched before quiet) (converse fuel asked events t s)
      (converse fuel asked' events t' s') := by
  induction events generalizing asked asked' t t' s s' with
  | nil =>
      refine .some ⟨rfl, rfl, ?_, h⟩
      cases asked <;> cases asked' <;> exact hhistory
  | cons event events ih =>
      have hsame : (t'.turn asked' s' event).history.toList =
          (t.turn asked s event).history.toList := by
        rw [history_turn, history_turn, hhistory]
      rw [converse_cons, converse_cons]
      refine matched_followed (alike_answer h (fun text htext => ?_) fuel) hsame
        fun s s' hs => ih (fun text htext => hlines text (List.mem_cons_of_mem event htext))
          _ _ hsame hs
      cases htext
      exact hlines text List.mem_cons_self

/-- Whole sessions match, event by event. -/
theorem matched_run (fuel : Nat) (interactive : Bool) {events : List (Event (Machine γ κ))}
    (hlines : ∀ text, .line text ∈ events → Style.escape ∉ text.toList)
    (h : Twins before quiet s s') :
    Option.Rel (Matched before quiet) (run fuel interactive events s)
      (run fuel interactive events s') := by
  cases interactive with
  | true => exact matched_converse fuel hlines false false rfl h
  | false =>
      rw [run_of_not_interactive, run_of_not_interactive]
      exact matched_followed (alike_answer h (fun _ htext => by cases htext) fuel) rfl
        fun _ _ hs => matched_converse fuel hlines false false rfl hs

/-! ### What colour changes -/

/-- Two sessions that began as `s`, one without colour and one with, ended in the same way. What
came to their outputs is made of what the operator was told, with the same content, and of what the
console passed on, the same in both; and all of it has the same content, if there is no escape in it
or the console is not shared. -/
structure EndsLike (s : Session γ κ) (ending ending' : Ending γ κ) : Prop where
  result : ending'.result = ending.result
  unread : ending'.unread = ending.unread
  history : ending'.transcript.history.toList = ending.transcript.history.toList
  session : ending'.session = { ending.session with printer := ending'.session.printer }
  told : ∃ pieces : List Piece,
    ending.session.printer.sink.received.toList =
      s.printer.sink.received.toList ++ pieces.flatMap (Piece.bytes false) ∧
    ending'.session.printer.sink.received.toList =
      s.printer.sink.received.toList ++ pieces.flatMap (Piece.bytes true) ∧
    SameContent (pieces.flatMap (Piece.told true)) (pieces.flatMap (Piece.told false)) ∧
    (s.shared = false ∨ escapeByte ∉ pieces.flatMap (Piece.bytes false) →
      SameContent (pieces.flatMap (Piece.bytes true)) (pieces.flatMap (Piece.bytes false)))

omit [Core γ] [Keyboard κ] in
/-- A session and the same one without colour are twins. -/
theorem twins_self {p : Printer} (hwraps : p.painter.Wraps) (h : p.sink.policy.ByLines)
    (quiet : Prop) :
    Printer.Twins p.sink.received.toList quiet { p with color := false }
      { p with color := true } := by
  refine ⟨rfl, rfl, hwraps, rfl, h, rfl, [], ?_, ?_, List.forall_mem_nil _,
    fun _ _ => List.not_mem_nil⟩
  · exact (List.append_nil _).symm
  · exact (List.append_nil _).symm

/-- **Colour never changes content**, whoever it is that wraps texts for a printer. Take a dump of any
bytes at any address: a printer with colour and one without come to the same result, and with the
control sequences left out the sink has got the same from both, whatever the bytes of the dump are. So
it is with a line in any style, if there is no escape in its text; no style is on any more when the
newline comes that ends it. And so it is with whole sessions that differ in colour only, if there is
no escape in their lines: neither ends, or both end in the same way, with the same machine, the same
breakpoints and the same history, and they told the operator the same. -/
theorem colour_keeps_content :
    (∀ (p : Printer) (base : Nat) (bytes : List Byte), p.painter.Wraps →
      p.sink.policy.ByLines →
      let plain := { p with color := false }.hexdump base bytes
      let coloured := { p with color := true }.hexdump base bytes
      coloured.1 = plain.1 ∧ ∃ out out',
        plain.2.sink.received.toList = p.sink.received.toList ++ out ∧
        coloured.2.sink.received.toList = p.sink.received.toList ++ out' ∧ SameContent out' out) ∧
    (∀ (p : Printer) (style : Style) (text : String), p.painter.Wraps → p.IsOpen →
      Style.escape ∉ text.toList →
      let plain := { p with color := false }.line style text
      let coloured := { p with color := true }.line style text
      coloured.1 = plain.1 ∧ ∃ out out',
        plain.2.sink.received.toList = p.sink.received.toList ++ out ∧
        coloured.2.sink.received.toList = p.sink.received.toList ++ out' ∧
        withoutSequences out' = out ∧ ∃ front, shown out' = front ++ [⟨newline, false⟩]) ∧
    ∀ (fuel : Nat) (interactive : Bool) (events : List (Event (Machine γ κ))) (s : Session γ κ),
      s.printer.painter.Wraps → s.printer.sink.policy.ByLines →
      (∀ text, .line text ∈ events → Style.escape ∉ text.toList) →
      Option.Rel (EndsLike s)
        (run fuel interactive events { s with printer.color := false })
        (run fuel interactive events { s with printer.color := true }) := by
  refine ⟨fun p base bytes hwraps h => ?_, fun p style text hwraps h hescape => ?_,
    fun fuel interactive events s hwraps h hlines => ?_⟩
  · obtain ⟨hresult, htwins⟩ := (twins_self hwraps h True).hexdump base bytes
    obtain ⟨pieces, hout, hout', hfits, hquiet⟩ := htwins.sinks.received
    have hdressed := Piece.dressed_bytes hfits (.inl (hquiet trivial))
    exact ⟨hresult, _, _, hout, hout', hdressed.sameContent⟩
  · obtain ⟨out', hok, hok', hreceived, hreceived', hshown⟩ :=
      Printer.received_line h hwraps style hescape
    refine ⟨hok'.trans hok.symm, _, out', hreceived, hreceived', ?_, _, hshown⟩
    rw [withoutSequences, hshown, List.map_append, List.map_map]
    exact congrArg (· ++ [newline]) (List.map_id _)
  · have htwins : Twins s.printer.sink.received.toList (s.shared = false)
        { s with printer.color := false } { s with printer.color := true } :=
      ⟨rfl, twins_self hwraps h _, fun hquiet => hquiet⟩
    have hmatched := matched_run fuel interactive hlines htwins
    generalize run fuel interactive events { s with printer.color := false } = o,
      run fuel interactive events { s with printer.color := true } = o' at hmatched ⊢
    cases hmatched with
    | none => exact .none
    | some hends =>
        obtain ⟨pieces, hout, hout', hfits, hquiet⟩ := hends.sessions.printers.sinks.received
        refine .some ⟨hends.result, hends.unread, hends.history, hends.sessions.same, pieces, hout,
          hout', (Piece.dressed_told hfits).sameContent, fun h => ?_⟩
        exact (Piece.dressed_bytes hfits (h.imp_left hquiet)).sameContent

/-- A session whose output is closed after a line. -/
def hushedSession : Session BenchCore BenchKeyboard :=
  { benchSession with printer := { sink := { policy := .closedAfter 1 } } }

/-- A dump of bytes that are a control sequence, a text of two lines, and a session whose second
line is refused. -/
theorem colour_keeps_content_bench :
    (∃ out out',
      (({ color := false } : Printer).hexdump 0x3000 [0x1B, 0x5B, 0x6D]).2.sink.received.toList =
        out ∧
      (({ color := true } : Printer).hexdump 0x3000 [0x1B, 0x5B, 0x6D]).2.sink.received.toList =
        out' ∧ SameContent out' out) ∧
    withoutSequences
        (({ color := true } : Printer).line .boldRed "a\nb").2.sink.received.toList =
      [0x61, 0x0A, 0x62, 0x0A] ∧
    ∃ ending ending',
      run 0 true [.line "zap", .line "zap"] { hushedSession with printer.color := false } =
        some ending ∧
      run 0 true [.line "zap", .line "zap"] { hushedSession with printer.color := true } =
        some ending' ∧
      ending'.result = .error (.system (.other "output closed")) ∧
      SameContent ending'.session.printer.sink.received.toList
        ending.session.printer.sink.received.toList := by
  obtain ⟨hdump, hline, hsession⟩ := @colour_keeps_content BenchCore BenchKeyboard _ _
  refine ⟨(hdump {} 0x3000 [0x1B, 0x5B, 0x6D] Painter.wraps_ansi
    (Sink.IsOpen.byLines fun _ _ => rfl)).2, ?_, ?_⟩
  · obtain ⟨-, out, out', hout, hout', hsame, -⟩ :=
      hline {} .boldRed "a\nb" Painter.wraps_ansi (fun _ _ => rfl) (by decide)
    have hplain : [0x61, 0x0A, 0x62, 0x0A] = out := hout
    have hcoloured : _ = out' := hout'
    rw [hcoloured, hsame, hplain]
  · have hlines : ∀ text, (.line text : Event (Machine BenchCore BenchKeyboard)) ∈
        [.line "zap", .line "zap"] → Style.escape ∉ text.toList := by
      intro text htext
      obtain rfl : text = "zap" := by simpa using htext
      decide
    have hends := hsession 0 true [.line "zap", .line "zap"] hushedSession
      Painter.wraps_ansi (Sink.byLines_closedAfter 1) hlines
    obtain ⟨ending, hending, hresult⟩ : ∃ ending, run 0 true [.line "zap", .line "zap"]
        { hushedSession with printer.color := false } = some ending ∧
        ending.result = .error (.system (.other "output closed")) := ⟨_, rfl, rfl⟩
    rw [hending] at hends
    generalize run 0 true [.line "zap", .line "zap"]
      { hushedSession with printer.color := true } = ended at hends ⊢
    cases hends with
    | @some _ ending' hlike =>
        obtain ⟨pieces, hout, hout', -, hsame⟩ := hlike.told
        have hcontent := hsame (.inl rfl)
        refine ⟨ending, ending', hending, rfl, hlike.result.trans hresult, ?_⟩
        rw [hout, hout']
        exact hcontent

end ClockStep.Session
