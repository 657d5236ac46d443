import ClockStep.Proofs.BenchCycle
import ClockStep.Proofs.Halts

/-!
# Instructions Come to an End

The loop that steps an instruction has no counter: it goes on until the machine is at a fetch again,
or something stops it. On the bench core it ends, from whatever micro-state it starts. The measure
is the number of cycles from a micro-state to the next fetch (`cyclesToFetch`), which is five at the
fetch itself and one in every state off the walk; a completed cycle that leaves the machine running
takes one from it, or comes to the fetch (`Struck.walks`).

Changes laid out for the core may hit any of its lines in between, but the program counter, the
micro-state and the halt line: a change of these could keep an instruction from ending for as long
as changes are laid out.

## Convention

How long a run takes is said twice. The record of a run has a machine for each cycle that was
started, and the cycle counter counts those that were completed. Exact counts need the reset line
low, as it is outside of a reset; with the line high every cycle comes to the fetch.

## Main results

* `nextMicroState_cases`: the measure goes down by one.
* `exists_instructed`: an instruction ends within the cycles that are left of it.
* `instructions_end`: stepping an instruction, and running a number of them.
-/

namespace ClockStep

/-! ### The walk through an instruction -/

/-- The cycles from a micro-state to the next fetch. -/
def cyclesToFetch (state : Byte) : Nat :=
  if state = 18 then 5 else if state = 33 then 4 else if state = 28 then 3
  else if state = 30 then 2 else 1

/-- From everywhere, the next fetch is at least one cycle away. -/
theorem cyclesToFetch_pos (state : Byte) : 0 < cyclesToFetch state := by
  unfold cyclesToFetch
  repeat' split
  all_goals decide

/-- From everywhere, the next fetch is at most five cycles away. -/
theorem cyclesToFetch_le (state : Byte) : cyclesToFetch state ≤ 5 := by
  unfold cyclesToFetch
  repeat' split
  all_goals decide

/-- Each step of the walk either is the last one or leaves one cycle less to go. -/
theorem nextMicroState_cases (state : Byte) :
    (nextMicroState state = fetchState ∧ cyclesToFetch state = 1) ∨
    (nextMicroState state ≠ fetchState ∧
      cyclesToFetch state = cyclesToFetch (nextMicroState state) + 1) := by
  unfold nextMicroState cyclesToFetch
  by_cases h18 : state = 18
  · exact .inr (by rw [if_pos h18, if_pos h18]; decide)
  by_cases h33 : state = 33
  · exact .inr (by rw [if_neg h18, if_neg h18, if_pos h33, if_pos h33]; decide)
  by_cases h28 : state = 28
  · exact .inr (by simp only [if_neg h18, if_neg h33, if_pos h28]; decide)
  by_cases h30 : state = 30
  · exact .inr (by simp only [if_neg h18, if_neg h33, if_neg h28, if_pos h30]; decide)
  · exact .inl (by simp only [if_neg h18, if_neg h33, if_neg h28, if_neg h30]; decide)

/-! ### The lines that tell the walk -/

/-- Whether a change hits the program counter, the micro-state or the halt line. -/
def LineChange.steers : LineChange → Bool
  | .pc _ | .microPc _ | .halt _ => true
  | _ => false

/-- The lines by which the walk is followed. -/
def OutputLines.steering (lines : OutputLines) : Word × Byte × Bool :=
  (lines.pc, lines.microPc, lines.halt)

/-- A change that does not steer leaves the lines that do. -/
theorem OutputLines.steering_change {change : LineChange} (h : change.steers = false)
    (lines : OutputLines) : (lines.change change).steering = lines.steering := by
  cases change with
  | pc | microPc | halt => cases h
  | _ => rfl

namespace BenchCore

/-- None of the changes laid out for a core hits a line by which the walk is followed. -/
def Unsteered (c : BenchCore) : Prop :=
  ∀ event ∈ c.events, ∀ change ∈ event.changes, change.steers = false

/-- Where nothing steers, what is laid out leaves the lines that do. -/
theorem Unsteered.steering_strike {c : BenchCore} (h : c.Unsteered) :
    c.strike.lines.steering = c.lines.steering :=
  strike_keeps OutputLines.steering fun event hevent change hchange =>
    OutputLines.steering_change (h event hevent change hchange)

end BenchCore

namespace Machine

variable {κ : Type}

/-- The program counter once the instruction in progress is fetched. -/
def pcFetched (m : Machine BenchCore κ) : Word :=
  if m.atFetch then m.lines.pc + 1 else m.lines.pc

/-- The cycles that the instruction in progress takes, from now on. -/
def cyclesLeft (m : Machine BenchCore κ) : Nat := cyclesToFetch m.lines.microPc

/-- At a fetch, a whole instruction is left. -/
theorem cyclesLeft_of_atFetch {m : Machine BenchCore κ} (h : m.atFetch = true) :
    m.cyclesLeft = 5 := by
  rw [cyclesLeft, atFetch_iff.1 h]
  rfl

/-! ### One cycle -/

/-- After a completed cycle that leaves the machine running there is one cycle less to go, or the
next instruction is about to start; only a reset comes to that early. -/
theorem Struck.walks {m m' : Machine BenchCore κ} {before after : OutputLines}
    (h : m.Struck m' before after) (hunsteered : m.core.Unsteered)
    (hrunning : m'.lines.halt = false) :
    (m'.atFetch = true ∧
      (m.inputs.reset = false → m.cyclesLeft = 1 ∧ m'.lines.pc = m.pcFetched)) ∨
    (m'.atFetch = false ∧ m.inputs.reset = false ∧
      m.cyclesLeft = m'.cyclesLeft + 1 ∧ m'.pcFetched = m.pcFetched) := by
  have hsteering : m'.lines.steering = after.steering := by
    have hunsteered' : BenchCore.Unsteered { m'.core with lines := after } := by
      rw [BenchCore.Unsteered, h.events]
      exact hunsteered
    rw [h.lines]
    exact hunsteered'.steering_strike
  obtain ⟨hpc, hstate, hhalt⟩ : m'.lines.pc = after.pc ∧ m'.lines.microPc = after.microPc ∧
      m'.lines.halt = after.halt := by
    simpa [OutputLines.steering] using hsteering
  rw [hhalt] at hrunning
  by_cases hreset : m.inputs.reset = true
  · refine .inl ⟨?_, fun hlow => ?_⟩
    · rw [atFetch_iff, hstate, h.restarts hreset]
    · rw [hreset] at hlow
      cases hlow
  rw [Bool.not_eq_true] at hreset
  obtain ⟨acknowledge, transmit, hbefore⟩ := h.before_eq
  have hrunning' : m.lines.halt = false := by
    refine Bool.eq_false_iff.2 fun hhalted => ?_
    rw [h.rests hreset hhalted, hbefore] at hrunning
    exact Bool.false_ne_true (hrunning.symm.trans hhalted)
  have hadvance : (advance id (BenchCore.execute m.core.store) before m.memory).1 = after :=
    congrArg Prod.fst (h.advances hreset hrunning')
  have hnext : m'.lines.microPc = nextMicroState m.lines.microPc := by
    rw [hstate, ← hadvance, advance_microPc, hbefore]
  have hpc' : m'.lines.pc = m.pcFetched := by
    rw [hpc, ← hadvance, BenchCore.advance_pc, hbefore]
    simp only [pcFetched, atFetch_iff]
    rfl
  rcases nextMicroState_cases m.lines.microPc with ⟨hfetch, hleft⟩ | ⟨hinside, hleft⟩
  · exact .inl ⟨atFetch_iff.2 (hnext.trans hfetch), fun _ => ⟨hleft, hpc'⟩⟩
  · rw [← hnext] at hinside hleft
    have hfetch : m'.atFetch = false :=
      Bool.eq_false_iff.2 fun hfetch => hinside (atFetch_iff.1 hfetch)
    refine .inr ⟨hfetch, hreset, hleft, ?_⟩
    rw [pcFetched, if_neg (by simp [hfetch]), hpc']

/-! ### The record of an instruction and of several -/

/-- What holds of the record of an instruction and of the stride that ends it. -/
structure Instructed (m : Machine BenchCore κ) (starts : List (Machine BenchCore κ))
    (stride : Stride BenchCore κ) : Prop where
  length : starts.length ≤ m.cyclesLeft
  unsteered : stride.2.core.Unsteered
  reset : stride.2.inputs.reset = m.inputs.reset
  completed : m.inputs.reset = false → stride.1 = .ok none →
    stride.2.atFetch = true ∧ stride.2.cycles = m.cycles + m.cyclesLeft ∧
      stride.2.lines.pc = m.pcFetched

/-- What holds of the record of a run that has a number of instructions left, and of its outcome. -/
structure Executed (m : Machine BenchCore κ) (count : Nat) (starts : List (Machine BenchCore κ))
    (o : Outcome BenchCore κ) : Prop where
  length : starts.length ≤ 5 * count
  none : count = 0 → o.machine = m
  /-- The instruction in progress is the first one. -/
  some : m.inputs.reset = false → o.result = .ok .completed → 0 < count →
    o.machine.atFetch = true ∧ o.machine.cycles = m.cycles + m.cyclesLeft + 5 * (count - 1) ∧
      o.machine.lines.pc = m.pcFetched + UInt16.ofNat (count - 1)

/-- A run that was stopped early has executed no more than it was to. -/
theorem Executed.of_not_completed {m : Machine BenchCore κ} {count : Nat}
    {starts : List (Machine BenchCore κ)} {o : Outcome BenchCore κ} (hcount : 0 < count)
    (hlength : starts.length ≤ 5) (hresult : o.result ≠ .ok .completed) :
    m.Executed count starts o where
  length := by omega
  none h := by omega
  some _ h := absurd h hresult

/-- A run that starts at a fetch counts whole instructions. -/
theorem Executed.completed {m : Machine BenchCore κ} {count : Nat}
    {starts : List (Machine BenchCore κ)} {o : Outcome BenchCore κ} (h : m.Executed count starts o)
    (hlow : m.inputs.reset = false) (hresult : o.result = .ok .completed)
    (hfetch : m.atFetch = true) :
    o.machine.atFetch = true ∧ o.machine.cycles = m.cycles + 5 * count ∧
      o.machine.lines.pc = m.lines.pc + UInt16.ofNat count := by
  rcases count with _ | count
  · rw [h.none rfl]
    exact ⟨hfetch, rfl, (UInt16.add_zero _).symm⟩
  · obtain ⟨hfetch', hcycles, hpc⟩ := h.some hlow hresult (Nat.succ_pos count)
    refine ⟨hfetch', ?_, ?_⟩
    · rw [hcycles, cyclesLeft_of_atFetch hfetch, Nat.add_sub_cancel]
      omega
    · rw [hpc, pcFetched, if_pos hfetch, Nat.add_sub_cancel, UInt16.ofNat_add, UInt16.add_assoc,
        UInt16.add_comm 1]
      rfl

/-- An instruction that is completed and a run from there are a run of one instruction more. -/
theorem Instructed.append {m m₁ : Machine BenchCore κ} {starts later : List (Machine BenchCore κ)}
    {count : Nat} {o : Outcome BenchCore κ} (h : m.Instructed starts (.ok none, m₁))
    (hlater : m₁.Executed count later o) : m.Executed (count + 1) (starts ++ later) o where
  length := by
    have hfirst := Nat.le_trans h.length (cyclesToFetch_le _)
    have hrest := hlater.length
    rw [List.length_append]
    omega
  none := fun h => nomatch h
  some hlow hresult _ := by
    obtain ⟨hfetch, hcycles, hpc⟩ := h.completed hlow rfl
    obtain ⟨hfetch', hcycles', hpc'⟩ := hlater.completed (h.reset.trans hlow) hresult hfetch
    refine ⟨hfetch', ?_, ?_⟩
    · rw [hcycles', hcycles, Nat.add_sub_cancel]
    · rw [hpc', hpc, Nat.add_sub_cancel]

/-! ### Cycles, instructions and runs -/

variable [Keyboard κ]

/-- What a cycle keeps, be it broken off or completed, and what a completed one does to the walk. -/
theorem step_walks {m : Machine BenchCore κ} (hunsteered : m.core.Unsteered) :
    m.step.2.core.Unsteered ∧ m.step.2.inputs.reset = m.inputs.reset ∧
    (m.step.1 = .ok .running →
      (m.step.2.atFetch = true ∧
        (m.inputs.reset = false → m.cyclesLeft = 1 ∧ m.step.2.lines.pc = m.pcFetched)) ∨
      (m.step.2.atFetch = false ∧ m.inputs.reset = false ∧
        m.cyclesLeft = m.step.2.cyclesLeft + 1 ∧ m.step.2.pcFetched = m.pcFetched)) := by
  rcases hs : m.step with ⟨e | status, m'⟩
  · obtain ⟨receiver, console, rfl⟩ := eq_of_step_error hs
    exact ⟨hunsteered, rfl, fun h => nomatch h⟩
  · obtain ⟨before, after, hstruck⟩ := exists_struck hs
    refine ⟨?_, hstruck.reset, fun hrunning => hstruck.walks hunsteered ?_⟩
    · rw [BenchCore.Unsteered, hstruck.events]
      exact hunsteered
    · have hhalt := halt_of_running (m := m) (by rw [hs]; exact hrunning)
      rwa [hs] at hhalt

/-- **An instruction ends within the cycles that the walk has left.** -/
theorem exists_instructed {left : Nat} {m : Machine BenchCore κ} (hunsteered : m.core.Unsteered)
    (hleft : m.cyclesLeft ≤ left) :
    ∃ stride, (m.instructionCourse left).2 = some stride ∧
      m.Instructed (m.instructionCourse left).1 stride := by
  induction left generalizing m with
  | zero => exact absurd (cyclesToFetch_pos m.lines.microPc) (Nat.not_lt.2 hleft)
  | succ left ih =>
      obtain ⟨hkept, hreset, hwalk⟩ := step_walks hunsteered
      rcases m.instruction_cases with hc | ⟨hc, hover⟩ | ⟨hc, hs, hf⟩
      · rw [instructionCourse, cycleCourse_of_cancelled hc]
        refine ⟨_, rfl, Nat.zero_le _, hunsteered, rfl, ?_⟩
        rintro - ⟨⟩
      · rw [instructionCourse_of_over hc hover]
        refine ⟨_, rfl, cyclesToFetch_pos _, hkept, hreset, fun hlow hcompleted => ?_⟩
        have hs : m.step.1 = .ok .running := by
          rcases hs : m.step.1 with e | _ | _ | _ <;> rw [hs] at hcompleted <;> cases hcompleted
        rcases hwalk hs with ⟨hfetch, hlast⟩ | ⟨hf, -⟩
        · obtain ⟨hone, hpc⟩ := hlast hlow
          refine ⟨hfetch, ?_, hpc⟩
          rw [hone]
          exact cycles_of_step_ok (Prod.ext hs rfl)
        · rw [hover hs] at hf
          cases hf
      · rw [instructionCourse_of_running hc hs hf]
        rcases hwalk hs with ⟨hfetch, -⟩ | ⟨-, hlow, hcount, hpc⟩
        · rw [hf] at hfetch
          cases hfetch
        obtain ⟨stride, hstride, hinstructed⟩ := ih hkept (by omega)
        refine ⟨stride, hstride, ?_, hinstructed.unsteered, hinstructed.reset.trans hreset, ?_⟩
        · rw [List.length_cons, hcount]
          exact Nat.succ_le_succ hinstructed.length
        · intro _ hcompleted
          obtain ⟨hfetch, hcycles, hpc'⟩ :=
            hinstructed.completed (hreset.trans hlow) hcompleted
          refine ⟨hfetch, ?_, hpc'.trans hpc⟩
          rw [hcycles, cycles_of_step_ok (Prod.ext hs rfl), hcount, Nat.add_assoc, Nat.add_comm 1]

/-- **A run of a number of instructions ends within five cycles for each.** -/
theorem exists_executed {n fuel count : Nat} {breakpoints : Breakpoints}
    {m : Machine BenchCore κ} (hunsteered : m.core.Unsteered) (hfuel : count + 5 ≤ fuel) :
    ∃ o, (courseFrom (.instructions n) fuel (some count) breakpoints m).2 = some o ∧
      m.Executed count (courseFrom (.instructions n) fuel (some count) breakpoints m).1 o := by
  induction count generalizing fuel m with
  | zero =>
      obtain ⟨fuel, rfl⟩ : ∃ f, fuel = f + 1 := ⟨fuel - 1, by omega⟩
      rw [courseFrom, if_pos rfl]
      exact ⟨_, rfl, Nat.zero_le _, fun _ => rfl, fun _ _ h => absurd h (Nat.lt_irrefl 0)⟩
  | succ count ih =>
      obtain ⟨fuel, rfl⟩ : ∃ f, fuel = f + 1 := ⟨fuel - 1, by omega⟩
      rcases hhit : m.hit? breakpoints with _ | ⟨address, rest⟩
      · have hleft : m.cyclesLeft ≤ fuel + 1 := Nat.le_trans (cyclesToFetch_le _) (by omega)
        obtain ⟨⟨result, m₁⟩, hend, hinstructed⟩ := exists_instructed hunsteered hleft
        have hlength := Nat.le_trans hinstructed.length (cyclesToFetch_le _)
        have hstride : m.strideCourse (.instructions n) (fuel + 1) =
            ((m.instructionCourse (fuel + 1)).1, some (result, m₁)) := Prod.ext rfl hend
        rcases result with e | _ | reason
        · rw [courseFrom, if_neg (by simp), hhit]
          dsimp only
          rw [hstride]
          exact ⟨_, rfl, .of_not_completed (Nat.succ_pos _) hlength (by simp)⟩
        · rw [courseFrom_of_completed (by simp) hhit hstride]
          obtain ⟨o, ho, hexecuted⟩ := ih hinstructed.unsteered (show count + 5 ≤ fuel by omega)
          exact ⟨o, ho, hinstructed.append hexecuted⟩
        · rw [courseFrom, if_neg (by simp), hhit]
          dsimp only
          rw [hstride]
          refine ⟨_, rfl, .of_not_completed (Nat.succ_pos _) hlength ?_⟩
          rintro ⟨⟩
          have hreason := stepInstruction_reason ((instructionCourse_snd _ _).symm.trans hend)
          rcases hreason with h | h | h <;> cases h
      · rw [courseFrom, if_neg (by simp), hhit]
        exact ⟨_, rfl, .of_not_completed (Nat.succ_pos _) (Nat.zero_le _) (by simp)⟩

/-- A path counts no more cycles than it has. -/
theorem Path.cycles_le {m m' : Machine BenchCore κ} {starts : List (Machine BenchCore κ)}
    (h : Path m starts m') : m'.cycles ≤ m.cycles + starts.length := by
  rw [h.cycles]
  exact Nat.add_le_add_left List.countP_le_length _

/-- **Instructions come to an end.** Stepping one takes five cycles at most, from any micro-state;
running `n` of them takes `5 * n` at most, whatever stops the run. If nothing stops it, it has taken
exactly so many from a fetch, and is at a fetch again with the program counter `n` further; from
inside an instruction, what is left of this one counts as the first. -/
theorem instructions_end {m : Machine BenchCore κ} (hunsteered : m.core.Unsteered) :
    (∃ stride, (∀ fuel, 5 ≤ fuel → m.stepInstruction fuel = some stride ∧
        (m.instructionCourse fuel).1.length ≤ 5) ∧
      stride.2.cycles ≤ m.cycles + 5) ∧
    ∀ n breakpoints, ∃ o, (∀ fuel, n + 5 ≤ fuel →
        m.run fuel (.instructions n) breakpoints = some o ∧
        (m.course fuel (.instructions n) breakpoints).1.length ≤ 5 * n) ∧
      o.machine.cycles ≤ m.cycles + 5 * n ∧
      (m.inputs.reset = false → o.result = .ok .completed →
        (m.atFetch = true → o.machine.atFetch = true ∧ o.machine.cycles = m.cycles + 5 * n ∧
          o.machine.lines.pc = m.lines.pc + UInt16.ofNat n) ∧
        (m.atFetch = false → 0 < n → o.machine.atFetch = true ∧
          o.machine.cycles = m.cycles + m.cyclesLeft + 5 * (n - 1) ∧
          o.machine.lines.pc = m.lines.pc + UInt16.ofNat (n - 1))) := by
  constructor
  · obtain ⟨stride, hstride, hinstructed⟩ := exists_instructed hunsteered (cyclesToFetch_le _)
    have hlength := Nat.le_trans hinstructed.length (cyclesToFetch_le _)
    obtain ⟨m', hpath, hend⟩ := instructionCourse_path 5 m
    obtain rfl := hend stride hstride
    refine ⟨stride, fun fuel hfuel => ?_, Nat.le_trans hpath.cycles_le (by omega)⟩
    rw [← instructionCourse_snd, instructionCourse_mono hfuel hstride]
    exact ⟨hstride, hlength⟩
  · intro n breakpoints
    have hrun : ∀ fuel, n + 5 ≤ fuel → ∃ o,
        m.run fuel (.instructions n) breakpoints = some o ∧
          m.Executed n (m.course fuel (.instructions n) breakpoints).1 o := by
      intro fuel hfuel
      obtain ⟨o, ho, hexecuted⟩ := exists_executed hunsteered hfuel
      exact ⟨o, (course_snd fuel _ breakpoints m).symm.trans ho, hexecuted⟩
    obtain ⟨o, ho, hexecuted⟩ := hrun (n + 5) (Nat.le_refl _)
    refine ⟨o, fun fuel hfuel => ?_, ?_, fun hlow hresult =>
      ⟨fun hfetch => ?_, fun hfetch hn => ?_⟩⟩
    · obtain ⟨o', ho', hexecuted'⟩ := hrun fuel hfuel
      obtain rfl : o' = o := Option.some.inj (ho'.symm.trans (runFrom_mono hfuel ho))
      exact ⟨ho', hexecuted'.length⟩
    · exact Nat.le_trans (course_path ho).cycles_le (Nat.add_le_add_left hexecuted.length _)
    · exact hexecuted.completed hlow hresult hfetch
    · obtain ⟨hfetch', hcycles, hpc⟩ := hexecuted.some hlow hresult hn
      refine ⟨hfetch', hcycles, ?_⟩
      rw [hpc, pcFetched, if_neg (by simp [hfetch])]

/-- A bench machine inside an instruction; its instruction register is forced later on. -/
def benchInside : Machine BenchCore BenchKeyboard where
  core := { lines := { microPc := 28, pc := 7 }, events := [⟨3, [.ir 0x1021]⟩] }
  memory := { cells := Vector.replicate memorySize 0, entry := 0 }
  keyboard := {}

/-- Three instructions from there take three cycles for the rest of the first one and five for each
of the others. -/
theorem instructions_end_bench : benchInside.core.Unsteered ∧ benchInside.inputs.reset = false ∧
    benchInside.atFetch = false ∧
    ∃ o, benchInside.run 8 (.instructions 3) ∅ = some o ∧ o.result = .ok .completed ∧
      o.machine.cycles = 13 ∧ o.machine.lines.pc = 9 := by
  have hunsteered : benchInside.core.Unsteered := by
    intro event hevent change hchange
    obtain rfl := List.mem_singleton.1 hevent
    obtain rfl := List.mem_singleton.1 hchange
    rfl
  obtain ⟨-, hrun⟩ := instructions_end hunsteered
  obtain ⟨o, ho, -, hcompleted⟩ := hrun 3 ∅
  have hresult : o.result = .ok .completed := by
    have hmap : (benchInside.run 8 (.instructions 3) ∅).map (·.result) =
        some (.ok .completed) := rfl
    rw [(ho 8 (by decide)).1] at hmap
    exact Option.some.inj hmap
  obtain ⟨-, hinside⟩ := hcompleted rfl hresult
  obtain ⟨-, hcycles, hpc⟩ := hinside rfl (by decide)
  exact ⟨hunsteered, rfl, rfl, o, (ho 8 (by decide)).1, hresult, hcycles, hpc⟩

end Machine

end ClockStep
