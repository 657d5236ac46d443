import ClockStep.Session.Commands

/-!
# Actions under an Open Printer

An action of a session may fail because its command was refused, because the machine cannot go on,
or because the output does not take what is written. A printer is **open** when its sink takes every
write. This module shows that under an open printer only the machine is left as a reason: what the
operator is told comes through, and a command that got as far as being carried out is not refused
any more.

An action is followed by what it leaves. `Tells` says of a single start that the action gives a value
and has changed nothing but the printer, which is still open; this is so of all that is told to the
operator. `Calm` says that the action, if it ends, leaves an open printer and fails on account of the
machine at most. Sequencing keeps both (`Tells.bind`, `Calm.bind`), so that a command is calm when its
parts are.

## Main results

* `Printer.received_told`: an open printer passes on the pieces of its lines, in order.
* `say_of_isOpen`: printing a line under an open printer changes the printer and nothing else.
* `tells_perform`: so do the commands that only report.
* `calm_perform`: a command that breakpoints do not stand against is calm.
-/

namespace ClockStep

/-! ### Open printers -/

namespace Printer

/-- A printer whose sink takes every write. -/
def IsOpen (p : Printer) : Prop := p.sink.IsOpen

/-- A printer after it printed lines. -/
def told (p : Printer) (lines : List (Style × String)) : Printer :=
  lines.foldl (fun p line => (p.line line.1 line.2).2) p

variable {p : Printer}

/-- An open printer takes every piece, and stays open and as it was painted. -/
theorem writeAll_of_isOpen (h : p.IsOpen) (pieces : List String) :
    (p.writeAll pieces).1 = .ok () ∧ (p.writeAll pieces).2.IsOpen ∧
      (p.writeAll pieces).2.painter? = p.painter? ∧
      (p.writeAll pieces).2.sink.received.toList =
        p.sink.received.toList ++ pieces.flatMap Text.Utf8.encode := by
  obtain ⟨hok, hpolicy, hreceived⟩ :=
    Sink.writePieces_of_isOpen h (pieces.map Text.Utf8.encode)
  refine ⟨hok, h.of_policy_eq hpolicy, rfl, hreceived.trans ?_⟩
  rw [List.flatMap_def]

/-- An open printer takes a line as it is dressed. -/
theorem line_of_isOpen (h : p.IsOpen) (style : Style) (text : String) :
    p.line style text = (.ok (), p.told [(style, text)]) :=
  Prod.ext (writeAll_of_isOpen h _).1 rfl

/-- An open printer takes a dump whole, and is still open. -/
theorem hexdump_of_isOpen (h : p.IsOpen) (base : Nat) (bytes : List UInt8) :
    ∃ p' : Printer, p'.IsOpen ∧ p.hexdump base bytes = (.ok (), p') := by
  obtain ⟨hok, hopen, -⟩ := writeAll_of_isOpen h
    ((Hexdump.rows p.painter? base bytes).flatMap fun row => [row, "\n"])
  exact ⟨_, hopen, Prod.ext hok rfl⟩

/-- A printer that was told something is still open. -/
theorem isOpen_told (h : p.IsOpen) (lines : List (Style × String)) : (p.told lines).IsOpen := by
  induction lines generalizing p with
  | nil => exact h
  | cons line rest ih => exact ih (writeAll_of_isOpen h _).2.1

/-- An open printer passes on the pieces of its lines, one after the other. -/
theorem received_told (h : p.IsOpen) (lines : List (Style × String)) :
    (p.told lines).sink.received.toList =
      p.sink.received.toList ++ lines.flatMap fun line =>
        (linePieces p.painter? line.1 line.2).flatMap Text.Utf8.encode := by
  induction lines generalizing p with
  | nil => simp [told]
  | cons line rest ih =>
      obtain ⟨-, hopen, hpainter, hreceived⟩ :=
        writeAll_of_isOpen h (linePieces p.painter? line.1 line.2)
      refine (ih hopen).trans ?_
      rw [List.flatMap_cons, ← List.append_assoc, hpainter, hreceived]

end Printer

/-! ### What is known of a command beforehand -/

namespace Command.Invocation

/-- Whether a command only tells the operator something. -/
def reports : Invocation → Bool
  | .help | .registers | .microState | .allRegisters | .peek _ | .dumpMemory _ _ | .print
  | .breakList | .quit => true
  | .step _ | .stepInstruction _ | .continue | .poke _ _ | .interrupt _ | .breakRemove _
  | .break _ => false

/-- Whether the session goes on after a command by which the machine does not run. -/
def flow : Invocation → Flow
  | .quit => .quit
  | _ => .continue

end Command.Invocation

/-! ### Sequencing -/

namespace Session

open Command (Failure Invocation)

variable {γ κ ε α β : Type}

/-- Of two actions, the second is carried out from what the first leaves, unless that failed. -/
theorem bind_apply (x : Action γ κ ε α) (f : α → Action γ κ ε β) (s : Session γ κ) :
    (x >>= f) s = match x s with
      | none => none
      | some (.ok a, s') => f a s'
      | some (.error e, s') => some (.error e, s') := by
  change (x s >>= fun o => ExceptT.bindCont f o.1 o.2 : Option _) = _
  cases x s with
  | none => rfl
  | some o => rcases o with ⟨a | e, s'⟩ <;> rfl

/-- Looking at the session changes nothing. -/
theorem get_apply (s : Session γ κ) :
    (get : Action γ κ ε (Session γ κ)) s = some (.ok s, s) := rfl

/-- Replacing the session gives no value. -/
theorem set_apply (s s' : Session γ κ) :
    (set s' : Action γ κ ε PUnit) s = some (.ok ⟨⟩, s') := rfl

/-- Printing a line under an open printer changes the printer and nothing else. -/
theorem say_of_isOpen {s : Session γ κ} (h : s.printer.IsOpen) (refused : SystemError → ε)
    (style : Style) (text : String) :
    (say refused style text : Action γ κ ε Unit) s =
      some (.ok (), { s with printer := s.printer.told [(style, text)] }) := by
  simp only [say, bind_apply, get_apply, set_apply, Printer.line_of_isOpen h]
  rfl

/-! ### Telling, and nothing else -/

/-- Carried out from a session, an action gives a value; what it has changed is the printer, which is
still open. -/
def Tells (x : Action γ κ Failure α) (a : α) (s : Session γ κ) : Prop :=
  ∃ printer : Printer, printer.IsOpen ∧ x s = some (.ok a, { s with printer })

variable {s : Session γ κ}

/-- A value tells nothing. -/
theorem tells_pure (h : s.printer.IsOpen) (a : α) : Tells (pure a : Action γ κ Failure α) a s :=
  ⟨s.printer, h, rfl⟩

/-- What tells, and then tells, tells. -/
theorem Tells.bind {x : Action γ κ Failure α} {f : α → Action γ κ Failure β} {a : α} {b : β}
    (hx : Tells x a s)
    (hf : ∀ printer : Printer, printer.IsOpen → Tells (f a) b { s with printer }) :
    Tells (x >>= f) b s := by
  obtain ⟨printer, hopen, hxs⟩ := hx
  obtain ⟨printer', hopen', hfs⟩ := hf printer hopen
  exact ⟨printer', hopen', by rw [bind_apply, hxs]; exact hfs⟩

/-- An action that looks at the session first tells as it does for that session. -/
theorem Tells.get_bind {f : Session γ κ → Action γ κ Failure α} {a : α} (h : Tells (f s) a s) :
    Tells (get >>= f) a s := by
  obtain ⟨printer, hopen, hfs⟩ := h
  exact ⟨printer, hopen, by rw [bind_apply]; exact hfs⟩

/-- Something that is only done on a condition, and something after it. -/
theorem Tells.when {c : Prop} [Decidable c] {x : Action γ κ Failure α}
    {k : Action γ κ Failure β} {a : α} {b : β} (h : s.printer.IsOpen) (hx : Tells x a s)
    (hk : ∀ printer : Printer, printer.IsOpen → Tells k b { s with printer }) :
    Tells (if c then (do let _ ← x; k) else k) b s := by
  split
  · exact hx.bind hk
  · exact hk s.printer h

/-- One line is told. -/
theorem tells_say (h : s.printer.IsOpen) (style : Style) (text : String) :
    Tells (say .output style text : Action γ κ Failure Unit) () s :=
  ⟨_, Printer.isOpen_told h _, say_of_isOpen h _ style text⟩

/-- Any number of lines is told. -/
theorem tells_tellAll (h : s.printer.IsOpen) (texts : List String) :
    Tells (tellAll texts : Action γ κ Failure Unit) () s := by
  induction texts generalizing s with
  | nil => exact tells_pure h ()
  | cons text rest ih =>
      exact (tells_say h .bold text).bind fun printer hopen => ih (s := { s with printer }) hopen

/-- A dump is told, with its warning if there is one. -/
theorem tells_dump (h : s.printer.IsOpen) (start : Word) (count : Nat) :
    Tells (dump start count : Action γ κ Failure Unit) () s := by
  refine .get_bind (.when h (tells_say h _ _) fun printer hopen => .get_bind ?_)
  obtain ⟨printer', hopen', hdump⟩ := Printer.hexdump_of_isOpen hopen start.toNat
    (bytesOfWords (s.machine.memory.slice start.toNat count))
  refine ⟨printer', hopen', ?_⟩
  dsimp only
  rw [hdump]
  rfl

/-! ### Changing the breakpoints -/

/-- A change of the breakpoints is put in place, or refused and nothing changed. -/
theorem changeBreakpoints_eq (change : Breakpoints → Except BreakpointError Breakpoints) :
    (changeBreakpoints change : Action γ κ Failure Unit) s =
      match change s.breakpoints with
      | .ok breakpoints => some (.ok (), { s with breakpoints })
      | .error e => some (.error (.breakpoint e), s) := by
  change (match change s.breakpoints with
    | .ok breakpoints => (set { s with breakpoints } : Action γ κ Failure Unit)
    | .error e => throw (Failure.breakpoint e)) s = _
  cases change s.breakpoints <;> rfl

/-- Breakpoints that are changed, and a line about it. -/
theorem changeBreakpoints_tell (h : s.printer.IsOpen)
    {change : Breakpoints → Except BreakpointError Breakpoints} {breakpoints : Breakpoints}
    (hchange : change s.breakpoints = .ok breakpoints) (text : String) :
    (do
      changeBreakpoints change
      tell text
      return .continue : Action γ κ Failure Flow) s =
      some (.ok .continue,
        { s with breakpoints, printer := s.printer.told [(.bold, text)] }) := by
  rw [bind_apply, changeBreakpoints_eq, hchange]
  dsimp only
  rw [bind_apply, tell, say_of_isOpen (s := { s with breakpoints }) h]
  rfl

/-! ### Calm actions -/

/-- Carried out from a session, an action leaves an open printer if it ends, and fails on account
of the machine at most. -/
def Calm (x : Action γ κ Failure α) (s : Session γ κ) : Prop :=
  ∀ r s', x s = some (r, s') →
    s'.printer.IsOpen ∧ ∀ e, r = .error e → ∃ cause, e = .machine cause

/-- Calm actions one after the other are calm together. -/
theorem Calm.bind {x : Action γ κ Failure α} {f : α → Action γ κ Failure β} (hx : Calm x s)
    (hf : ∀ a s', s'.printer.IsOpen → x s = some (.ok a, s') → Calm (f a) s') :
    Calm (x >>= f) s := by
  intro r s'' hr
  rw [bind_apply] at hr
  split at hr
  · cases hr
  · next a s' hxs => exact hf a s' (hx _ _ hxs).1 hxs r s'' hr
  · next e s' hxs =>
    cases hr
    obtain ⟨hopen, herror⟩ := hx _ _ hxs
    exact ⟨hopen, fun e' he' => herror e' (by cases he'; rfl)⟩

/-- What gives a value and leaves an open printer is calm. -/
theorem Calm.of_ok {x : Action γ κ Failure α} {a : α} {s' : Session γ κ}
    (h : x s = some (.ok a, s')) (hopen : s'.printer.IsOpen) : Calm x s := by
  intro r s'' hr
  rw [h] at hr
  cases hr
  exact ⟨hopen, fun e he => by cases he⟩

/-- What is told is calm. -/
theorem Tells.calm {x : Action γ κ Failure α} {a : α} (h : Tells x a s) : Calm x s := by
  obtain ⟨printer, hopen, hx⟩ := h
  exact .of_ok hx hopen

/-! ### Commands -/

variable [Core γ] [Keyboard κ]

/-- Letting the machine run is calm. -/
theorem calm_drive (h : s.printer.IsOpen) (fuel : Nat) (limit : Limit) :
    Calm (drive fuel limit) s := by
  intro r s' hr
  have hprinter : s.enterRaw.printer = s.printer := by
    unfold enterRaw
    split <;> rfl
  have hleave : ∀ s' : Session γ κ, s'.leaveRaw.collectConsole.printer.sink.policy =
      s'.printer.sink.policy := by
    intro s'
    unfold leaveRaw collectConsole
    split <;> rfl
  simp only [drive, ExceptT.mk] at hr
  split at hr
  · cases hr
  · next result machine breakpoints _ =>
    cases hr
    refine ⟨Sink.IsOpen.of_policy_eq (hprinter ▸ h) (hleave _), fun e he => ?_⟩
    · cases result with
      | ok reason => cases he
      | error cause => exact ⟨cause, by cases he; rfl⟩

/-- So is letting it run and telling why it stopped. -/
theorem calm_runLoop (h : s.printer.IsOpen) (fuel : Nat) (limit : Limit) :
    Calm (runLoop fuel limit) s := by
  have hposition : ∀ s' : Session γ κ, s'.printer.IsOpen →
      Tells (do
        tellAll (positionReport (← get).machine)
        return .continue : Action γ κ Failure Flow) .continue s' := fun s' hopen =>
    .get_bind ((tells_tellAll hopen _).bind fun _ hopen' => tells_pure hopen' _)
  refine (calm_drive h fuel limit).bind fun reason s' hopen _ => ?_
  have hsaid : ∀ style text, Tells (do
      say .output style text
      tellAll (positionReport (← get).machine)
      return .continue : Action γ κ Failure Flow) .continue s' := fun style text =>
    (tells_say hopen style text).bind fun printer hopen' => hposition { s' with printer } hopen'
  cases reason with
  | completed => exact (hposition s' hopen).calm
  | breakpoint address => exact (hsaid _ _).calm
  | halted => exact (hsaid _ _).calm
  | exit =>
      have hfarewell : Tells (do
          tell "Machine halted."
          tell "  Quitting. Goodbye."
          return .quit : Action γ κ Failure Flow) .quit s' :=
        (tells_say hopen _ _).bind fun _ hopen' =>
          (tells_say hopen' _ _).bind fun _ hopen'' => tells_pure hopen'' _
      exact hfarewell.calm
  | interrupted => exact (hsaid _ _).calm

/-- A command that only reports gives its flow, and has changed nothing but the printer. -/
theorem tells_perform (h : s.printer.IsOpen) {invocation : Invocation}
    (hreports : invocation.reports = true) (fuel : Nat) :
    Tells (perform fuel invocation) invocation.flow s := by
  cases invocation with
  | help => exact (tells_tellAll h _).bind fun _ hopen => tells_pure hopen _
  | registers | microState | allRegisters | breakList =>
      exact .get_bind ((tells_tellAll h _).bind fun _ hopen => tells_pure hopen _)
  | peek address | print => exact .get_bind ((tells_say h _ _).bind fun _ hopen => tells_pure hopen _)
  | dumpMemory start count => exact (tells_dump h _ _).bind fun _ hopen => tells_pure hopen _
  | quit => exact (tells_say h _ _).bind fun _ hopen => tells_pure hopen _
  | step count | stepInstruction count | «continue» | poke address value | interrupt request
  | breakRemove address | «break» address => cases hreports

/-- A command that breakpoints do not stand against is calm. -/
theorem calm_perform (h : s.printer.IsOpen) (fuel : Nat) (invocation : Invocation)
    (hset : ∀ address, invocation = .break address → address ∉ s.breakpoints)
    (hunset : ∀ address, invocation = .breakRemove address → address ∈ s.breakpoints) :
    Calm (perform fuel invocation) s := by
  cases invocation with
  | step count | stepInstruction count | «continue» => exact calm_runLoop h fuel _
  | help | registers | microState | allRegisters | peek address | dumpMemory start count | print
  | breakList | quit => exact (tells_perform h rfl fuel).calm
  | poke address value => exact .of_ok rfl h
  | interrupt request => exact (tells_say h _ _).calm.bind fun _ s' hopen _ => .of_ok rfl hopen
  | breakRemove address =>
      obtain ⟨rest, hrest, -⟩ := Breakpoints.erase_of_mem (hunset address rfl)
      exact .of_ok (changeBreakpoints_tell h hrest _) (Printer.isOpen_told h _)
  | «break» address =>
      obtain ⟨more, hmore, -⟩ := Breakpoints.insert_of_not_mem (hset address rfl)
      exact .of_ok (changeBreakpoints_tell h hmore _) (Printer.isOpen_told h _)

end Session

end ClockStep
