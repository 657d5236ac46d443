import ClockStep.Proofs.Halts
import ClockStep.Proofs.ObservedCore
import ClockStep.Proofs.SerialConsole
import ClockStep.Proofs.SessionTurns
import ClockStep.Proofs.Sinks

/-!
# When the Console Fails

A console may refuse a byte in any cycle of a run, in the middle of it: the receiver has had its
tick, and the keyboard, the interrupt lines and the core are still to come. This module says what
such a run comes to, by comparing it with the same run under a console that works.

The record of the run that works (`course`) has the machines from which its cycles start. Some of
these cycles complete a byte (`completes?`), and these bytes are all that the run says to its
console. So what another console makes of the run is found by sending it the bytes of the record, one
after the other (`follow`): if it takes them all the run stays the same, and if it refuses one the
run is broken off in the cycle that completes it. This goes through the layers of a run one by one
(`stepCycle_on`, `stepInstruction_on`, `runFrom_on`).

## Convention

A console **works** when it is open, that is when it takes every write and every flush. It is not
necessary for the comparison that there is such a console; any one may be thought of in place of the
machine's own.

## Main results

* `step_on`: a cycle under another console.
* `run_on`, `stepInstruction_on`: a run, or an instruction, under another console.
* `follow_eq_error_iff`: where and how a run is broken off.
* `console_failure_stops_run`: what it is broken off with, and what the session then does.
-/

namespace ClockStep

/-- Calls that are repeated inside something are repeated there. -/
theorem insist_lift {ω ω' α : Type} {call : ω → Except SystemError α × ω}
    {call' : ω' → Except SystemError α × ω'} (lift : ω → ω')
    (h : ∀ w, call' (lift w) = ((call w).1, lift (call w).2)) (n : Nat) (w : ω) :
    insist call' n (lift w) = ((insist call n w).1, lift (insist call n w).2) := by
  induction n generalizing w with
  | zero => exact h w
  | succ n ih =>
      rw [insist, insist, h]
      rcases call w with ⟨r, w'⟩
      split
      · next hinterrupted =>
          cases hinterrupted
          exact ih w'
      · next hother =>
          dsimp only
          split
          · next hinterrupted =>
              cases hinterrupted
              exact absurd rfl (hother _)
          · rfl

namespace Console

/-! ### A byte that is sent -/

/-- On a terminal a byte is one piece of output. -/
theorem writePieces_pieces_singleton (s : Sink) (b : Byte) :
    s.writePieces (pieces [b]) = Writer.writeAll s (terminalByte b) := by
  by_cases hb : b = newline
  · subst hb
    rw [show pieces [newline] = [[], terminalByte newline, []] from rfl]
    simp only [Sink.writePieces, Writer.writeAll_nil]
    rcases Writer.writeAll s (terminalByte newline) with ⟨cause | ⟨⟩, t⟩ <;> rfl
  · rw [terminalByte, if_neg hb, pieces, splitLines, if_neg hb]
    simp only [splitLines, List.intersperse_singleton, Sink.writePieces]
    rcases Writer.writeAll s [b] with ⟨cause | ⟨⟩, t⟩ <;> rfl

/-- To write a byte is to write all of it to the sink as it is passed on. -/
theorem writeAll_singleton (c : Console) (b : Byte) :
    Writer.writeAll c [b] = ((Writer.writeAll c.sink (c.passed b)).1,
      { c with sink := (Writer.writeAll c.sink (c.passed b)).2 }) := by
  by_cases hterminal : c.terminal = true
  · have hpassed : c.passed b = terminalByte b := if_pos hterminal
    have hwrite : c.write [b] = ((Writer.writeAll c.sink (c.passed b)).1.map fun () => 1,
        { c with sink := (Writer.writeAll c.sink (c.passed b)).2 }) := by
      rw [write, if_pos hterminal, writePieces_pieces_singleton, hpassed]
      rfl
    have hne := c.sink.writeAll_ne_interrupted (c.passed b)
    rcases hall : Writer.writeAll c.sink (c.passed b) with ⟨result, t⟩
    rw [hall] at hwrite hne
    have hanswer : Writer.answer c [b] = c.write [b] := by
      refine insist_of_ne ?_ _
      change (c.write [b]).1 ≠ _
      rw [hwrite]
      cases result with
      | error cause => exact fun h => hne (congrArg Except.error (Except.error.inj h))
      | ok =>
          intro h
          cases h
    rw [Writer.writeAll_cons, hanswer, hwrite]
    cases result <;> rfl
  · have hpassed : c.passed b = [b] := if_neg hterminal
    have hlift : ∀ sink : Sink, Console.write { c with sink } [b] =
        ((sink.write [b]).1, { c with sink := (sink.write [b]).2 }) :=
      fun sink => if_neg hterminal
    have hanswer : Writer.answer c [b] = ((Writer.answer c.sink [b]).1,
        { c with sink := (Writer.answer c.sink [b]).2 }) :=
      insist_lift (fun sink => ({ c with sink } : Console)) hlift _ c.sink
    rw [hpassed, Writer.writeAll_cons, Writer.writeAll_cons, hanswer]
    simp only [List.drop_nil, Writer.writeAll_nil]
    rcases Writer.answer c.sink [b] with ⟨cause | _ | n, t⟩ <;> rfl

/-- **A byte is sent by writing all of it to the sink, as it is passed on, and then flushing.** -/
theorem send_eq (c : Console) (b : Byte) :
    c.send b = (match Writer.writeAll c.sink (c.passed b) with
      | (.error cause, sink) => (.error cause, { c with sink })
      | (.ok (), sink) => (sink.flush, { c with sink })) := by
  rw [send, writeAll_singleton]
  rcases Writer.writeAll c.sink (c.passed b) with ⟨cause | ⟨⟩, t⟩ <;> rfl

/-- A byte is refused if it cannot be written, or if it was written and cannot be passed on. That a
write was interrupted is not a reason: it is made again. -/
theorem send_eq_error_iff {c c' : Console} {b : Byte} {cause : SystemError} :
    c.send b = (.error cause, c') ↔ c' = { c with sink := c'.sink } ∧
      (Writer.writeAll c.sink (c.passed b) = (.error cause, c'.sink) ∧ cause ≠ .interrupted ∨
        Writer.writeAll c.sink (c.passed b) = (.ok (), c'.sink) ∧
          c'.sink.flush = .error cause) := by
  have hne := c.sink.writeAll_ne_interrupted (c.passed b)
  rw [send_eq]
  rcases hall : Writer.writeAll c.sink (c.passed b) with ⟨reason | ⟨⟩, sink⟩
  · rw [hall] at hne
    constructor
    · intro h
      cases h
      exact ⟨rfl, .inl ⟨rfl, fun hcause => hne (congrArg Except.error hcause)⟩⟩
    · rintro ⟨hc', ⟨hwrite, -⟩ | ⟨hwrite, -⟩⟩
      · cases hwrite
        rw [hc']
      · cases hwrite
  · constructor
    · intro h
      obtain ⟨hflush, rfl⟩ := Prod.mk.inj h
      exact ⟨rfl, .inr ⟨rfl, hflush⟩⟩
    · rintro ⟨hc', ⟨hwrite, -⟩ | ⟨hwrite, hflush⟩⟩
      · cases hwrite
      · cases hwrite
        rw [hc']
        exact Prod.ext hflush rfl

/-! ### Bytes one after the other -/

/-- Sends bytes one after the other, up to the first that is refused. -/
def sendAll (c : Console) : List Byte → Except SystemError Unit × Console
  | [] => (.ok (), c)
  | b :: rest =>
    match c.send b with
    | (.ok (), c) => c.sendAll rest
    | (.error cause, c) => (.error cause, c)

/-- One byte is sent as one of a list. -/
theorem sendAll_singleton (c : Console) (b : Byte) : c.sendAll [b] = c.send b := by
  rw [sendAll]
  rcases c.send b with ⟨(cause | ⟨⟩), c'⟩ <;> rfl

/-- Bytes behind others are sent when those were taken. -/
theorem sendAll_append (c : Console) (bytes later : List Byte) :
    c.sendAll (bytes ++ later) = match c.sendAll bytes with
      | (.ok (), c) => c.sendAll later
      | (.error cause, c) => (.error cause, c) := by
  induction bytes generalizing c with
  | nil => rfl
  | cons b rest ih =>
      rw [List.cons_append, sendAll, sendAll]
      rcases c.send b with ⟨(cause | ⟨⟩), c'⟩
      · rfl
      · exact ih c'

/-- An open console takes all bytes and stays open. -/
theorem sendAll_of_isOpen {c : Console} (h : c.IsOpen) (bytes : List Byte) :
    ∃ c', c.sendAll bytes = (.ok (), c') ∧ c'.IsOpen := by
  induction bytes generalizing c with
  | nil => exact ⟨c, rfl, h⟩
  | cons b rest ih =>
      obtain ⟨sink, hsend, hpolicy, -⟩ := send_of_isOpen h b
      have hopen : ({ c with sink } : Console).IsOpen :=
        ⟨fun progress => hpolicy ▸ h.write progress, fun progress => hpolicy ▸ h.flush progress⟩
      obtain ⟨c', hrest, hopen'⟩ := ih hopen
      refine ⟨c', ?_, hopen'⟩
      rw [sendAll, hsend]
      exact hrest

end Console

namespace Uart.Receiver

/-- A receiver that completes a byte keeps nothing of it. -/
theorem tick_of_completes {pace : Pace} {level : Bool} {r : Receiver} {b : Byte}
    (h : (r.tick pace level).2 = some b) :
    (r.tick pace level).1 = { shift := 0, bitsRemaining := 0, countdown := pace.bitPeriod } := by
  rw [tick] at h ⊢
  cases htask : r.task level with
  | sample =>
      rw [htask] at h
      dsimp only [sample] at h ⊢
      split at h
      · next hlast => rw [if_pos hlast]
      · cases h
  | wait | arm | rest =>
      rw [htask] at h
      cases h

end Uart.Receiver

namespace Machine

variable {γ κ : Type}

/-- The machine with another console. -/
def on (c : Console) (m : Machine γ κ) : Machine γ κ := { m with console := c }

/-- A stride with another console. -/
def Stride.on (c : Console) (s : Stride γ κ) : Stride γ κ := (s.1, s.2.on c)

/-- The outcome of a run with another console. -/
def Outcome.on (c : Console) (o : Outcome γ κ) : Outcome γ κ := { o with machine := o.machine.on c }

variable [Core γ]

/-- The byte that the next cycle outside of reset completes, if it does. -/
def completes? (m : Machine γ κ) : Option Byte :=
  (m.receiver.tick .standard m.lines.transmit).2

/-- The machine in the middle of a cycle: the receiver has had its tick, and that is all. -/
def ticked (m : Machine γ κ) : Machine γ κ :=
  { m with receiver := (m.receiver.tick .standard m.lines.transmit).1 }

/-! ### A cycle -/

/-- The cycle's reception is its only business with the console, and the tick of the receiver stays
whether the byte was taken or not. -/
theorem listen_eq (m : Machine γ κ) :
    m.listen = match m.console.sendAll m.completes?.toList with
      | (.ok (), c) => (.ok (), m.ticked.on c)
      | (.error cause, c) => (.error (.console cause), m.ticked.on c) := by
  rw [listen, ticked, completes?]
  rcases m.receiver.tick .standard m.lines.transmit with ⟨receiver, _ | byte⟩
  · rfl
  · dsimp only [Option.toList_some, Console.sendAll]
    rcases m.console.send byte with ⟨(cause | ⟨⟩), console⟩ <;> rfl

/-- The rest of a cycle does not touch the console. -/
theorem clockPeriod_on (c : Console) (m : Machine γ κ) :
    (m.on c).clockPeriod = m.clockPeriod.on c := rfl

/-- The end of a cycle is the same at every console. -/
theorem finish_on (c : Console) (m : Machine γ κ) :
    (m.on c).finish = (m.finish.1, m.finish.2.on c) := by
  rw [finish, finish]
  change (if m.lines.halt then _ else _) = _
  split <;> rfl

variable [Keyboard κ]

omit [Core γ] in
/-- So is a poll of the keyboard. -/
theorem pollKeyboard_on (c : Console) (m : Machine γ κ) :
    (m.on c).pollKeyboard = m.pollKeyboard.on c := by
  rw [pollKeyboard, pollKeyboard, show (m.on c).keyboard = m.keyboard from rfl]
  rcases Keyboard.poll m.keyboard with ⟨⟨(cause | _ | character), cancels, notices⟩, keyboard⟩ <;>
    rfl

/-- Behind a reception that succeeded, nothing in the cycle fails. -/
theorem step_of_listen_ok {m m' : Machine γ κ} (h : m.listen = (.ok (), m')) :
    m.step = (.ok m'.pollKeyboard.clockPeriod.finish.1, m'.pollKeyboard.clockPeriod.finish.2) := by
  rw [step, h]
  dsimp only
  rw [finish]
  split <;> rfl

/-- A reception that fails is the end of the cycle. -/
theorem step_of_listen_error {m m' : Machine γ κ} {e : MachineError}
    (h : m.listen = (.error e, m')) : m.step = (.error e, m') := by
  rw [step, h]

/-- Under a console that works a cycle is completed, and the console goes on to work. -/
theorem step_of_isOpen {m : Machine γ κ} (h : m.console.IsOpen) :
    ∃ status, m.step.1 = .ok status ∧ m.step.2.console.IsOpen := by
  obtain ⟨c, hsent, hopen⟩ := Console.sendAll_of_isOpen h m.completes?.toList
  have hlisten := m.listen_eq
  rw [hsent] at hlisten
  have hconsole := (receiver_console_of_listen hlisten).2
  rw [step_of_listen_ok hlisten] at hconsole ⊢
  exact ⟨_, rfl, hconsole ▸ hopen⟩

/-- **A cycle under another console.** If that takes the byte of the cycle, nothing else is different;
if it refuses the byte, the receiver has had its tick and nothing else has happened. -/
theorem step_on {m : Machine γ κ} (h : m.console.IsOpen) (c : Console) :
    (m.on c).step = match c.sendAll m.completes?.toList with
      | (.ok (), c) => (m.step.1, m.step.2.on c)
      | (.error cause, c) => (.error (.console cause), m.ticked.on c) := by
  have hother := (m.on c).listen_eq
  change (m.on c).listen = (match c.sendAll m.completes?.toList with
    | (.ok (), c) => (.ok (), m.ticked.on c)
    | (.error cause, c) => (.error (.console cause), m.ticked.on c)) at hother
  rcases hs : c.sendAll m.completes?.toList with ⟨(cause | ⟨⟩), c'⟩ <;> rw [hs] at hother
  · exact step_of_listen_error hother
  · obtain ⟨working, hsent, -⟩ := Console.sendAll_of_isOpen h m.completes?.toList
    have hlisten := m.listen_eq
    rw [hsent] at hlisten
    rw [step_of_listen_ok hother, step_of_listen_ok hlisten, pollKeyboard_on, pollKeyboard_on,
      clockPeriod_on, clockPeriod_on, finish_on, finish_on]
    rfl

/-! ### The bytes of a record -/

/-- What becomes of a console that is sent the bytes of cycles, given the machines from which these
start: it takes them all, or the cycle whose byte it refuses is broken off there. -/
def follow (c : Console) : List (Machine γ κ) → Except (SystemError × Machine γ κ) Console
  | [] => .ok c
  | start :: rest =>
    match c.sendAll start.completes?.toList with
    | (.ok (), c) => follow c rest
    | (.error cause, c) => .error (cause, start.ticked.on c)

omit [Keyboard κ] in
/-- Cycles behind others are followed when the console took what those sent. -/
theorem follow_append (c : Console) (starts later : List (Machine γ κ)) :
    follow c (starts ++ later) = (follow c starts).bind fun c => follow c later := by
  induction starts generalizing c with
  | nil => rfl
  | cons start rest ih =>
      rw [List.cons_append, follow, follow]
      rcases c.sendAll start.completes?.toList with ⟨(cause | ⟨⟩), c'⟩
      · rfl
      · exact ih c'

/-- What a stride comes to under another console, by what becomes of the console. -/
def Stride.under (s : Stride γ κ) :
    Except (SystemError × Machine γ κ) Console → Stride γ κ
  | .ok c => s.on c
  | .error (cause, left) => (.error (.console cause), left)

/-- One cycle at any console is the cycle at the open one, followed. -/
theorem stepCycle_on {m : Machine γ κ} (h : m.console.IsOpen) (c : Console) :
    (m.on c).stepCycle = Stride.under m.cycleCourse.2 (follow c m.cycleCourse.1) := by
  rcases hc : m.cancelled with _ | _
  · rw [stepCycle_of_not_cancelled (m := m.on c) hc, cycleCourse_of_not_cancelled hc, follow,
      step_on h]
    rcases c.sendAll m.completes?.toList with ⟨(cause | ⟨⟩), c'⟩ <;> rfl
  · rw [stepCycle_of_cancelled (m := m.on c) hc, cycleCourse_of_cancelled hc]
    rfl

/-- An open console stays open. -/
theorem isOpen_step {m : Machine γ κ} (h : m.console.IsOpen) : m.step.2.console.IsOpen := by
  obtain ⟨status, -, hopen⟩ := step_of_isOpen h
  exact hopen

/-- An instruction under another console. -/
theorem stepInstruction_on {m : Machine γ κ} (h : m.console.IsOpen) (c : Console) (fuel : Nat) :
    (m.on c).stepInstruction fuel = match follow c (m.instructionCourse fuel).1 with
      | .ok c => (m.instructionCourse fuel).2.map (Stride.on c)
      | .error (cause, left) => some (.error (.console cause), left) := by
  induction fuel generalizing m c with
  | zero => rfl
  | succ fuel ih =>
      have hcycle := stepCycle_on h c
      rw [stepInstruction, hcycle]
      rcases m.instruction_cases with hc | ⟨hc, hover⟩ | ⟨hc, hs, hf⟩
      · rw [instructionCourse, cycleCourse_of_cancelled hc]
        rfl
      · rw [instructionCourse_of_over hc hover, cycleCourse_of_not_cancelled hc]
        rcases follow c [m] with ⟨cause, left⟩ | c'
        · rfl
        · rcases hs : m.step with ⟨(e | _ | _ | _), m'⟩ <;> rw [hs] at hover
          · rfl
          · exact if_pos (hover rfl)
          · rfl
          · rfl
      · have hfollow := follow_append c [m] (m.step.2.instructionCourse fuel).1
        rw [List.singleton_append] at hfollow
        rw [instructionCourse_of_running hc hs hf, cycleCourse_of_not_cancelled hc, hs]
        dsimp only
        rw [hfollow]
        rcases follow c [m] with ⟨cause, left⟩ | c'
        · rfl
        · have hrunning : ¬(m.step.2.on c').atFetch = true := fun hfetch =>
            Bool.false_ne_true (hf.symm.trans hfetch)
          exact (if_neg hrunning).trans (ih (isOpen_step h) c')

/-- The same for a stride of any kind. -/
theorem stride_on {m : Machine γ κ} (h : m.console.IsOpen) (c : Console) (limit : Limit)
    (fuel : Nat) :
    (m.on c).stride limit fuel = match follow c (m.strideCourse limit fuel).1 with
      | .ok c => (m.strideCourse limit fuel).2.map (Stride.on c)
      | .error (cause, left) => some (.error (.console cause), left) := by
  have hcycle : some (m.on c).stepCycle = match follow c m.cycleCourse.1 with
      | .ok c => (some m.cycleCourse.2).map (Stride.on c)
      | .error (cause, left) => some (.error (.console cause), left) := by
    rw [stepCycle_on h]
    rcases follow c m.cycleCourse.1 with ⟨cause, left⟩ | c' <;> rfl
  cases limit with
  | instructions n => exact stepInstruction_on h c fuel
  | cycles n => exact hcycle
  | unbounded => exact hcycle

/-- Under a console that works nothing breaks off a path, and the console goes on to work. -/
theorem Path.isOpen {m m' : Machine γ κ} {starts : List (Machine γ κ)} (h : Path m starts m')
    (hopen : m.console.IsOpen) :
    m'.console.IsOpen ∧ m'.cycles = m.cycles + starts.length := by
  induction h with
  | nil m => exact ⟨hopen, rfl⟩
  | @cons m m' starts _ ih =>
      obtain ⟨status, hok, hopen'⟩ := step_of_isOpen hopen
      obtain ⟨hend, hcycles⟩ := ih hopen'
      refine ⟨hend, ?_⟩
      rw [hcycles, cycles_of_step_ok (Prod.ext hok rfl), List.length_cons]
      omega

/-- **A run under another console**, at any fuel. -/
theorem runFrom_on {m : Machine γ κ} (h : m.console.IsOpen) (c : Console) (limit : Limit)
    (fuel : Nat) (remaining : Option Nat) (breakpoints : Breakpoints) :
    runFrom limit fuel remaining breakpoints (m.on c) =
      match follow c (courseFrom limit fuel remaining breakpoints m).1 with
      | .ok c => (courseFrom limit fuel remaining breakpoints m).2.map (Outcome.on c)
      | .error (cause, left) => some ⟨.error (.console cause), left, breakpoints⟩ := by
  induction fuel generalizing m c remaining with
  | zero => rfl
  | succ fuel ih =>
      have hstride := stride_on h c limit (fuel + 1)
      obtain ⟨m₁, hpath, hend⟩ := m.strideCourse_path limit (fuel + 1)
      rw [runFrom, courseFrom, show (m.on c).hit? breakpoints = m.hit? breakpoints from rfl, hstride]
      by_cases hr : remaining = some 0
      · rw [if_pos hr, if_pos hr]
        rfl
      rw [if_neg hr, if_neg hr]
      rcases m.hit? breakpoints with _ | ⟨address, rest⟩
      · generalize m.strideCourse limit (fuel + 1) = course at hpath hend ⊢
        rcases course with ⟨starts, _ | ⟨(e | _ | reason), m₂⟩⟩
        · dsimp only
          rcases follow c starts with ⟨cause, left⟩ | c' <;> rfl
        · dsimp only
          rcases follow c starts with ⟨cause, left⟩ | c' <;> rfl
        · obtain rfl : m₂ = m₁ := hend _ rfl
          dsimp only
          rw [follow_append]
          rcases follow c starts with ⟨cause, left⟩ | c'
          · rfl
          · exact ih (hpath.isOpen h).1 c' _
        · dsimp only
          rcases follow c starts with ⟨cause, left⟩ | c' <;> rfl
      · rfl

/-- A run at any console is the run at the open one as far as the console follows it. -/
theorem run_on {m : Machine γ κ} (h : m.console.IsOpen) (c : Console) (fuel : Nat) (limit : Limit)
    (breakpoints : Breakpoints) :
    (m.on c).run fuel limit breakpoints =
      match follow c (m.course fuel limit breakpoints).1 with
      | .ok c => (m.run fuel limit breakpoints).map (Outcome.on c)
      | .error (cause, left) => some ⟨.error (.console cause), left, breakpoints⟩ := by
  refine (runFrom_on h c limit fuel limit.strides breakpoints).trans ?_
  rw [courseFrom_snd]
  rfl

/-! ### Where a run is broken off -/

/-- `BrokenOff c before start cause left`: the console `c` takes the bytes of the cycles that start
from `before` and refuses that of the cycle that starts from `start`; and `left` is the machine
then. -/
structure BrokenOff (c : Console) (before : List (Machine γ κ)) (start : Machine γ κ)
    (cause : SystemError) (left : Machine γ κ) : Prop where
  refused : ∃ taken byte, c.sendAll (before.filterMap completes?) = (.ok (), taken) ∧
    start.completes? = some byte ∧ taken.send byte = (.error cause, left.console)
  /-- The receiver has had its tick, the console has refused the byte, and that is all. -/
  frame : left = { start with
    receiver := (start.receiver.tick .standard start.lines.transmit).1, console := left.console }

omit [Keyboard κ] in
/-- The bytes of a course are its first cycle's and then the others'. -/
theorem filterMap_completes?_cons (start : Machine γ κ) (rest : List (Machine γ κ)) :
    (start :: rest).filterMap completes? =
      start.completes?.toList ++ rest.filterMap completes? := by
  rw [List.filterMap_cons]
  cases start.completes? <;> rfl

omit [Keyboard κ] in
/-- Cycles are followed to the end exactly when the console takes all their bytes. -/
theorem follow_eq_ok_iff {c c' : Console} {starts : List (Machine γ κ)} :
    follow c starts = .ok c' ↔ c.sendAll (starts.filterMap completes?) = (.ok (), c') := by
  induction starts generalizing c with
  | nil =>
      rw [follow, List.filterMap_nil, Console.sendAll]
      simp
  | cons start rest ih =>
      rw [follow, filterMap_completes?_cons, Console.sendAll_append]
      rcases c.sendAll start.completes?.toList with ⟨(cause | ⟨⟩), c₁⟩
      · simp
      · exact ih

omit [Keyboard κ] in
/-- The byte of a cycle that is broken off was the first to be refused. -/
theorem follow_eq_error_iff {c : Console} {starts : List (Machine γ κ)} {cause : SystemError}
    {left : Machine γ κ} :
    follow c starts = .error (cause, left) ↔
      ∃ before start after, starts = before ++ start :: after ∧
        BrokenOff c before start cause left := by
  constructor
  · intro h
    induction starts generalizing c with
    | nil => cases h
    | cons start rest ih =>
        rw [follow] at h
        rcases hs : c.sendAll start.completes?.toList with ⟨(cause' | ⟨⟩), c₁⟩ <;> rw [hs] at h
        · obtain ⟨rfl, rfl⟩ := Prod.mk.inj (Except.error.inj h)
          obtain ⟨byte, hbyte⟩ : ∃ byte, start.completes? = some byte := by
            refine Option.ne_none_iff_exists'.1 fun hnone => ?_
            rw [hnone] at hs
            cases hs
          rw [hbyte, Option.toList_some, Console.sendAll_singleton] at hs
          exact ⟨[], start, rest, rfl, ⟨c, byte, rfl, hbyte, hs⟩, rfl⟩
        · obtain ⟨before, start', after, rfl, ⟨taken, byte, htaken, hbyte, hsend⟩, hframe⟩ := ih h
          refine ⟨start :: before, start', after, rfl, ⟨taken, byte, ?_, hbyte, hsend⟩, hframe⟩
          rw [filterMap_completes?_cons, Console.sendAll_append, hs]
          exact htaken
  · rintro ⟨before, start, after, rfl, ⟨taken, byte, htaken, hbyte, hsend⟩, hframe⟩
    have hbefore := follow_eq_ok_iff.2 htaken
    rw [follow_append, hbefore]
    change (match taken.sendAll start.completes?.toList with
      | (.ok (), c) => follow c after
      | (.error cause, c) => .error (cause, start.ticked.on c)) = _
    rw [hbyte, Option.toList_some, Console.sendAll_singleton, hsend, hframe]
    rfl

/-! ### Nothing else breaks off a run -/

variable {m : Machine γ κ} {fuel : Nat} {limit : Limit} {breakpoints : Breakpoints}

/-- At an open console, no cycle fails. -/
theorem stepCycle_ok (h : m.console.IsOpen) : ∃ reason?, m.stepCycle.1 = .ok reason? := by
  rcases hc : m.cancelled with _ | _
  · obtain ⟨status, hok, -⟩ := step_of_isOpen h
    rw [stepCycle_of_not_cancelled hc, hok]
    exact ⟨_, rfl⟩
  · rw [stepCycle_of_cancelled hc]
    exact ⟨_, rfl⟩

/-- At an open console, no instruction fails. -/
theorem stepInstruction_ok (h : m.console.IsOpen) {s : Stride γ κ}
    (hs : m.stepInstruction fuel = some s) : ∃ reason?, s.1 = .ok reason? := by
  rw [← instructionCourse_snd] at hs
  induction fuel generalizing m with
  | zero => cases hs
  | succ fuel ih =>
      obtain ⟨reason?, hcycle⟩ := stepCycle_ok h
      rcases m.instruction_cases with hc | ⟨hc, hover⟩ | ⟨hc, hrunning, hf⟩
      · rw [instructionCourse, cycleCourse_of_cancelled hc] at hs
        cases hs
        exact ⟨_, rfl⟩
      · rw [instructionCourse_of_over hc hover] at hs
        rw [stepCycle_of_not_cancelled hc] at hcycle
        exact ⟨reason?, Option.some.inj hs ▸ hcycle⟩
      · rw [instructionCourse_of_running hc hrunning hf] at hs
        exact ih (isOpen_step h) hs

/-- At an open console, no stride fails. -/
theorem stride_ok (h : m.console.IsOpen) {s : Stride γ κ} (hs : m.stride limit fuel = some s) :
    ∃ reason?, s.1 = .ok reason? := by
  cases limit with
  | instructions n => exact stepInstruction_ok h hs
  | cycles n => exact Option.some.inj hs ▸ stepCycle_ok h
  | unbounded => exact Option.some.inj hs ▸ stepCycle_ok h

/-- A run under a console that works is not broken off. -/
theorem runFrom_ok (h : m.console.IsOpen) {remaining : Option Nat} {o : Outcome γ κ}
    (ho : runFrom limit fuel remaining breakpoints m = some o) :
    ∃ reason, o.result = .ok reason := by
  induction fuel generalizing m remaining with
  | zero => cases ho
  | succ fuel ih =>
      rw [runFrom] at ho
      split at ho
      · cases ho
        exact ⟨_, rfl⟩
      split at ho
      · cases ho
        exact ⟨_, rfl⟩
      obtain ⟨m₁, hpath, hend⟩ := m.strideCourse_path limit (fuel + 1)
      rw [strideCourse_snd] at hend
      have hstride : ∀ s, m.stride limit (fuel + 1) = some s → ∃ reason?, s.1 = .ok reason? :=
        fun s => stride_ok h
      generalize m.stride limit (fuel + 1) = stride at ho hend hstride
      rcases stride with _ | ⟨(e | _ | reason), m₂⟩
      · cases ho
      · obtain ⟨reason?, hok⟩ := hstride _ rfl
        cases hok
      · obtain rfl : m₂ = m₁ := hend _ rfl
        exact ih (hpath.isOpen h).1 ho
      · cases ho
        exact ⟨reason, rfl⟩

/-! ### The machine that is left -/

/-- A path can be cut behind any of its machines. -/
theorem Path.of_append {m m' : Machine γ κ} {starts later : List (Machine γ κ)}
    (h : Path m (starts ++ later) m') : ∃ m₁, Path m starts m₁ ∧ Path m₁ later m' := by
  induction starts generalizing m with
  | nil => exact ⟨m, .nil m, h⟩
  | cons start starts ih =>
      cases h with
      | cons h =>
          obtain ⟨m₁, hstarts, hlater⟩ := ih h
          exact ⟨m₁, .cons hstarts, hlater⟩

/-- A machine **stands after** some cycles, given the machines they start from, when it is as they
left it but for a tick of the receiver, and another console. -/
structure StandsAfter (m : Machine γ κ) (before : List (Machine γ κ)) (left : Machine γ κ) :
    Prop where
  /-- What the cycles lead to. -/
  frame : ∃ reached : Machine γ κ, Path m before reached ∧
    left = { reached with receiver := left.receiver, console := left.console } ∧
    left.receiver = (reached.receiver.tick .standard reached.lines.transmit).1
  /-- All of the cycles are completed. -/
  cycles : left.cycles = m.cycles + before.length
  /-- The byte is not in the receiver any more, and the next cycle completes none. -/
  received : left.receiver = { shift := 0, bitsRemaining := 0, countdown := 433 }
  notRetried : left.completes? = none

/-- Where following breaks off, the machine stands as the cycle before left it. -/
theorem BrokenOff.standsAfter {m m' start left : Machine γ κ} {c : Console}
    {before after : List (Machine γ κ)} {cause : SystemError} (hopen : m.console.IsOpen)
    (hpath : Path m (before ++ start :: after) m') (h : BrokenOff c before start cause left) :
    StandsAfter m before left := by
  obtain ⟨reached, hbefore, hrest⟩ := hpath.of_append
  obtain rfl : reached = start := by
    cases hrest with
    | cons => rfl
  obtain ⟨taken, byte, -, hbyte, -⟩ := h.refused
  have hreceiver : left.receiver = { shift := 0, bitsRemaining := 0, countdown := 433 } := by
    rw [h.frame]
    exact Uart.Receiver.tick_of_completes hbyte
  refine ⟨⟨reached, hbefore, ?_, ?_⟩, ?_, hreceiver, ?_⟩
  · rw [h.frame]
  · rw [h.frame]
  · rw [h.frame]
    exact (hbefore.isOpen hopen).2
  · rw [completes?, hreceiver]
    rfl

/-! ### Whole runs, and sessions -/

variable {working : Console} {before after : List (Machine γ κ)} {start left : Machine γ κ}
  {cause : SystemError}

/-- A run whose console refuses a byte is broken off there. -/
theorem run_of_brokenOff (hworking : working.IsOpen)
    (hstarts : ((m.on working).course fuel limit breakpoints).1 = before ++ start :: after)
    (h : BrokenOff m.console before start cause left) :
    m.run fuel limit breakpoints = some ⟨.error (.console cause), left, breakpoints⟩ ∧
      StandsAfter (m.on working) before left := by
  obtain ⟨m', hpath, -⟩ := courseFrom_path limit fuel limit.strides breakpoints (m.on working)
  rw [course] at hstarts
  rw [hstarts] at hpath
  refine ⟨?_, h.standsAfter hworking hpath⟩
  have hrun := run_on (m := m.on working) hworking m.console fuel limit breakpoints
  rw [course, hstarts, follow_eq_error_iff.2 ⟨before, start, after, rfl, h⟩] at hrun
  exact hrun

/-- So is an instruction. -/
theorem stepInstruction_of_brokenOff (hworking : working.IsOpen)
    (hstarts : ((m.on working).instructionCourse fuel).1 = before ++ start :: after)
    (h : BrokenOff m.console before start cause left) :
    m.stepInstruction fuel = some (.error (.console cause), left) ∧
      StandsAfter (m.on working) before left := by
  obtain ⟨m', hpath, -⟩ := instructionCourse_path fuel (m.on working)
  rw [hstarts] at hpath
  refine ⟨?_, h.standsAfter hworking hpath⟩
  have hstep := stepInstruction_on (m := m.on working) hworking m.console fuel
  rw [hstarts, follow_eq_error_iff.2 ⟨before, start, after, rfl, h⟩] at hstep
  exact hstep

/-- There is no other way for a run to end in an error. -/
theorem exists_brokenOff_of_run (hworking : working.IsOpen) {o : Outcome γ κ}
    (ho : m.run fuel limit breakpoints = some o) {e : MachineError} (he : o.result = .error e) :
    ∃ before start after cause,
      ((m.on working).course fuel limit breakpoints).1 = before ++ start :: after ∧
      BrokenOff m.console before start cause o.machine ∧ e = .console cause := by
  have hrun := run_on (m := m.on working) hworking m.console fuel limit breakpoints
  change m.run fuel limit breakpoints = _ at hrun
  rw [ho] at hrun
  rcases hfollow : follow m.console ((m.on working).course fuel limit breakpoints).1 with
    ⟨cause, left⟩ | c'
  · rw [hfollow] at hrun
    obtain ⟨before, start, after, hstarts, hbroken⟩ := follow_eq_error_iff.1 hfollow
    cases hrun
    exact ⟨before, start, after, cause, hstarts, hbroken, (Except.error.inj he).symm⟩
  · -- the console takes all bytes, and the run is the one under the console that works
    rw [hfollow] at hrun
    obtain ⟨o', ho', rfl⟩ := Option.map_eq_some_iff.1 hrun.symm
    obtain ⟨reason, hreason⟩ := runFrom_ok (m := m.on working) hworking ho'
    rw [show (o'.on c').result = o'.result from rfl, hreason] at he
    cases he

end Machine

namespace Session

open Machine (BrokenOff StandsAfter)

variable {γ κ : Type} [Core γ] [Keyboard κ]

/-- **A run that is broken off ends the session**, with the error of the machine. The operator is
told nothing about it; all that the output gets is what the console took, if that goes the same
way. -/
theorem session_of_run_error {fuel : Nat} {interactive : Bool}
    {events : List (Event (Machine γ κ))} {s : Session γ κ} {earlier later : List (Turn γ κ)}
    {t : Turn γ κ} {limit : Limit} {o : Machine.Outcome γ κ} {e : MachineError}
    (hturns : turns fuel (occasions interactive events) [] s = earlier ++ t :: later)
    (hlimit : t.occasion.limit? = some limit)
    (ho : t.session.readied.machine.run fuel limit t.session.breakpoints = some o)
    (he : o.result = .error e) :
    later = [] ∧ ∃ ending, run fuel interactive events s = some ending ∧
      ending.result = .error (.machine e) ∧ ending.session.breakpoints = o.breakpoints ∧
      (∃ console, ending.session.machine = { o.machine with console }) ∧
      ending.session.printer.sink.received.toList = t.session.printer.sink.received.toList ++
        if t.session.shared then o.machine.console.sink.received.toList else [] := by
  have hanswer : t.answer fuel = some (.error (.machine e), t.session.settled o) := by
    rw [Turn.answer, answer_of_limit? hlimit, breakpoints_readied, ho, Option.map_some, concluded,
      he]
  have horder := turns_inOrder fuel (occasions interactive events) [] s
  rw [hturns] at horder
  obtain rfl := horder.eq_nil_of_answer fun s' hs' => by
    rw [hanswer] at hs'
    cases hs'
  obtain ⟨ending, hrun, -, hsession, hresult, -⟩ := exists_ending_of_last hturns hanswer
  obtain ⟨terminal, journal, hreadied⟩ := t.session.readied_eq
  refine ⟨rfl, ending, hrun, hresult, ?_, ?_, ?_⟩ <;>
    rw [hsession, settled, hreadied, collectConsole]
  · split <;> rfl
  · split <;> exact ⟨_, rfl⟩
  · cases t.session.shared with
    | false => simp [leaveRaw]
    | true => simp [leaveRaw]

/-- **A console failure stops a run between cycles.** A console refuses a byte if the byte cannot be
written, or was written and cannot be passed on; a write that is interrupted is not refused, it is made
again. Take any machine, and think of a console that
works in place of its own. If its own console is the first to refuse a byte in some cycle of that
run, or of that instruction, the run is broken off there, with the error of the console and with no
breakpoint used up. The machine is then as the cycles before left it: none of them is half done, and
in the one that failed the receiver has had its tick and nothing else has happened, neither to the
core, which may be an observed one, nor to the keyboard; and the byte is gone. No run ends in an error
in another way; and in a session such an error is passed on as the machine's, on whatever occasion the
machine ran, and ends the session without a word to the operator. -/
theorem console_failure_stops_run (fuel : Nat) :
    (∀ (c c' : Console) (b : Byte) (cause : SystemError),
      c.send b = (.error cause, c') ↔ c' = { c with sink := c'.sink } ∧
        (Writer.writeAll c.sink (c.passed b) = (.error cause, c'.sink) ∧ cause ≠ .interrupted ∨
          Writer.writeAll c.sink (c.passed b) = (.ok (), c'.sink) ∧
            c'.sink.flush = .error cause)) ∧
    (∀ (m : Machine γ κ) (working : Console), working.IsOpen →
      (∀ limit breakpoints before start after cause left,
        ((m.on working).course fuel limit breakpoints).1 = before ++ start :: after →
        BrokenOff m.console before start cause left →
        m.run fuel limit breakpoints = some ⟨.error (.console cause), left, breakpoints⟩ ∧
          StandsAfter (m.on working) before left) ∧
      (∀ before start after cause left,
        ((m.on working).instructionCourse fuel).1 = before ++ start :: after →
        BrokenOff m.console before start cause left →
        m.stepInstruction fuel = some (.error (.console cause), left) ∧
          StandsAfter (m.on working) before left) ∧
      ∀ limit breakpoints o e, m.run fuel limit breakpoints = some o → o.result = .error e →
        ∃ before start after cause,
          ((m.on working).course fuel limit breakpoints).1 = before ++ start :: after ∧
          BrokenOff m.console before start cause o.machine ∧ e = .console cause) ∧
    ∀ (interactive : Bool) (events : List (Event (Machine γ κ))) (s : Session γ κ)
      (earlier later : List (Turn γ κ)) (t : Turn γ κ) (limit : Limit) (o : Machine.Outcome γ κ)
      (e : MachineError),
      turns fuel (occasions interactive events) [] s = earlier ++ t :: later →
      t.occasion.limit? = some limit →
      t.session.readied.machine.run fuel limit t.session.breakpoints = some o →
      o.result = .error e →
      later = [] ∧ ∃ ending, run fuel interactive events s = some ending ∧
        ending.result = .error (.machine e) ∧ ending.session.breakpoints = o.breakpoints ∧
        (∃ console, ending.session.machine = { o.machine with console }) ∧
        ending.session.printer.sink.received.toList = t.session.printer.sink.received.toList ++
          if t.session.shared then o.machine.console.sink.received.toList else [] := by
  refine ⟨fun _ _ _ _ => Console.send_eq_error_iff,
    fun m working hworking => ⟨?_, ?_, ?_⟩, ?_⟩
  · intro limit breakpoints before start after cause left hstarts h
    exact Machine.run_of_brokenOff hworking hstarts h
  · intro before start after cause left hstarts h
    exact Machine.stepInstruction_of_brokenOff hworking hstarts h
  · intro limit breakpoints o e ho he
    exact Machine.exists_brokenOff_of_run hworking ho he
  · intro interactive events s earlier later t limit o e hturns hlimit ho he
    exact session_of_run_error hturns hlimit ho he

/-- A console that interrupts the first write, takes the second one, and passes nothing on. -/
def refusingConsole : Console :=
  { sink := { policy := .faltering fun _ => some (.other "console flush failed") } }

/-- An observed machine with this console, whose receiver completes a byte in the second cycle. -/
def refusingMachine : Machine (Observed BenchCore) BenchKeyboard where
  core := { core := { lines := { microPc := fetchState } } }
  memory := Machine.benchAtFetch.memory
  keyboard := {}
  receiver := { bitsRemaining := 1, countdown := 1 }
  console := refusingConsole

/-- A session with this machine, whose console's bytes go to the operator's output. -/
def refusingSession : Session (Observed BenchCore) BenchKeyboard :=
  { machine := refusingMachine, shared := true }

/-- The run is broken off in its second cycle: the byte was offered twice, one cycle is counted, the
core was evaluated twice and the keyboard asked once. The session ends with that, and the line behind
it is not read. -/
theorem console_failure_stops_run_flush :
    ∃ left, refusingMachine.run 3 (.cycles 3) ∅ =
        some ⟨.error (.console (.other "console flush failed")), left, ∅⟩ ∧
      left.console.sink.progress.offered = [[0x80], [0x80]] ∧
      left.cycles = 1 ∧ left.core.log.length = 2 ∧ left.keyboard.polls = 1 ∧
      ∃ ending, run 3 true [.line "step 3", .line "step"] refusingSession = some ending ∧
        ending.result = .error (.machine (.console (.other "console flush failed"))) ∧
        ending.session.printer.sink.received.toList = [0x80] := by
  obtain ⟨-, hmachine, hsession⟩ :=
    @console_failure_stops_run (Observed BenchCore) BenchKeyboard _ _ 3
  obtain ⟨hruns, -, -⟩ := hmachine refusingMachine {} ⟨fun _ _ => rfl, fun _ => rfl⟩
  have hstarts : ((refusingMachine.on {}).course 3 (.cycles 3) ∅).1 =
      [refusingMachine.on {}] ++ (refusingMachine.on {}).step.2 ::
        [(refusingMachine.on {}).step.2.step.2] := rfl
  have hbroken : BrokenOff refusingMachine.console [refusingMachine.on {}]
      (refusingMachine.on {}).step.2 (.other "console flush failed")
      ((refusingMachine.on {}).step.2.ticked.on
        (refusingMachine.console.send 0x80).2) :=
    ⟨⟨refusingMachine.console, 0x80, rfl, rfl, rfl⟩, rfl⟩
  obtain ⟨hrun, hstands⟩ := hruns _ _ _ _ _ _ _ hstarts hbroken
  obtain ⟨-, ending, hending, hresult, -, -, hreceived⟩ := hsession true
    [.line "step 3", .line "step"] refusingSession [] _ _ _ _ _ rfl (by decide +kernel) hrun rfl
  exact ⟨_, hrun, rfl, hstands.cycles, rfl, rfl, ending, hending, hresult, hreceived⟩

end Session

end ClockStep
