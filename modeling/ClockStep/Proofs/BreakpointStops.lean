import ClockStep.Proofs.Course

/-!
# Stops at Breakpoints

A run looks at its breakpoints before each stride, and a stride may be a whole instruction. This
module says what the operator can rely on in spite of that: no cycle of a run starts with a fetch at
a breakpoint, a run that reports a breakpoint stands there with nothing of the instruction done, and
it has cleared this breakpoint and no other; a run that ends in any other way has cleared none.

Two facts carry the argument. A cycle inside an instruction does not start at a fetch
(`instructionCourse_starts`), so the one look before the instruction is enough; and a stride never
reports a breakpoint itself (`Stride.reason`), so only the look does.

## Main results

* `courseFrom_starts`: where the cycles of a run start, whether or not the run ends.
* `runFrom_outcome`: what a run has done to the breakpoints, by how it ended.
* `breakpoints_stop_and_clear`: the two together, for whole runs.
-/

namespace ClockStep

/-- Only a breakpoint that is set can be cleared. -/
theorem Breakpoints.mem_of_erase {breakpoints rest : Breakpoints} {address : Word}
    (h : breakpoints.erase address = .ok rest) : address ∈ breakpoints := by
  by_cases hmem : address ∈ breakpoints
  · exact hmem
  · rw [erase_eq_error_iff.2 ⟨hmem, rfl⟩] at h
    cases h

namespace Machine

variable {γ κ : Type} [Core γ]

/-! ### Standing at a breakpoint -/

/-- The machine is at a fetch when its micro-state is that of the fetch. -/
theorem atFetch_iff {m : Machine γ κ} : m.atFetch = true ↔ m.lines.microPc = fetchState := by
  rw [atFetch, OutputLines.atFetch, beq_iff_eq]

/-- A machine stands at a breakpoint when it is at a fetch from an address of the set. -/
theorem hit?_eq_some_iff {breakpoints rest : Breakpoints} {m : Machine γ κ} {address : Word} :
    m.hit? breakpoints = some (address, rest) ↔
      m.lines.microPc = fetchState ∧ m.lines.pc = address ∧
        breakpoints.erase address = .ok rest := by
  rw [hit?, ← atFetch_iff]
  by_cases hf : m.atFetch = true
  · rw [if_pos hf]
    rcases he : breakpoints.erase m.lines.pc with e | rest'
    · constructor
      · intro h
        cases h
      · rintro ⟨-, rfl, h⟩
        rw [he] at h
        cases h
    · constructor
      · intro h
        obtain ⟨rfl, rfl⟩ := Prod.mk.inj (Option.some.inj h)
        exact ⟨hf, rfl, he⟩
      · rintro ⟨-, rfl, h⟩
        rw [he] at h
        cases h
        rfl
  · rw [if_neg hf]
    exact ⟨fun h => (nomatch h), fun h => absurd h.1 hf⟩

/-- Nothing is hit unless the machine is at a fetch from an address in the set. -/
theorem hit?_eq_none_iff {breakpoints : Breakpoints} {m : Machine γ κ} :
    m.hit? breakpoints = none ↔ ¬(m.lines.microPc = fetchState ∧ m.lines.pc ∈ breakpoints) := by
  rw [Option.eq_none_iff_forall_ne_some]
  constructor
  · rintro h ⟨hf, hmem⟩
    rcases he : breakpoints.erase m.lines.pc with e | rest
    · exact (Breakpoints.erase_eq_error_iff.1 he).1 hmem
    · exact h (m.lines.pc, rest) (hit?_eq_some_iff.2 ⟨hf, rfl, he⟩)
  · rintro h ⟨address, rest⟩ hh
    obtain ⟨hf, rfl, he⟩ := hit?_eq_some_iff.1 hh
    exact h ⟨hf, Breakpoints.mem_of_erase he⟩

/-! ### Why a stride stops a run -/

variable [Keyboard κ]

/-- A cycle stops a run on the operator's request or by a halt. -/
theorem stepCycle_reason {m m' : Machine γ κ} {reason : StopReason}
    (h : m.stepCycle = (.ok (some reason), m')) :
    reason = .interrupted ∨ reason = .halted ∨ reason = .exit := by
  rcases m.stepCycle_cases with hs | ⟨e, m₁, hs, -⟩ | ⟨status, m₁, hs, -⟩ <;> rw [hs] at h
  · cases h
    exact Or.inl rfl
  · cases h
  · cases status <;> cases h
    · exact Or.inr (Or.inl rfl)
    · exact Or.inr (Or.inr rfl)

/-- An instruction by itself stops for a request or a halt. -/
theorem stepInstruction_reason {fuel : Nat} {m m' : Machine γ κ} {reason : StopReason}
    (h : m.stepInstruction fuel = some (.ok (some reason), m')) :
    reason = .interrupted ∨ reason = .halted ∨ reason = .exit := by
  induction fuel generalizing m with
  | zero => cases h
  | succ fuel ih =>
      rw [stepInstruction] at h
      rcases hs : m.stepCycle with ⟨(e | _ | reason₁), m₁⟩ <;> rw [hs] at h
      · cases h
      · dsimp only at h
        split at h
        · cases h
        · exact ih h
      · cases h
        exact stepCycle_reason hs

/-- A stride stops a run for no other reasons: it looks neither at the breakpoints nor at what is
left of the limit. -/
theorem Stride.reason {limit : Limit} {fuel : Nat} {m m' : Machine γ κ} {reason : StopReason}
    (h : m.stride limit fuel = some (.ok (some reason), m')) :
    reason = .interrupted ∨ reason = .halted ∨ reason = .exit := by
  cases limit with
  | instructions n => exact stepInstruction_reason h
  | cycles n => exact stepCycle_reason (Option.some.inj h)
  | unbounded => exact stepCycle_reason (Option.some.inj h)

/-! ### Runs -/

/-- The cycles of a stride from a machine that stands at no breakpoint do not start with a fetch at
a breakpoint. -/
theorem strideCourse_starts {limit : Limit} {fuel : Nat} {breakpoints : Breakpoints}
    {m start : Machine γ κ} (hm : m.hit? breakpoints = none)
    (h : start ∈ (m.strideCourse limit fuel).1) : start.hit? breakpoints = none := by
  have hcycle : ∀ s ∈ m.cycleCourse.1, s.hit? breakpoints = none := by
    intro s hs
    rw [cycleCourse_starts hs]
    exact hm
  cases limit with
  | instructions n =>
      rcases instructionCourse_starts h with rfl | hf
      · exact hm
      · rw [hit?, if_neg (by simp [hf])]
  | cycles n => exact hcycle start h
  | unbounded => exact hcycle start h

/-- No cycle of a run starts with a fetch at a breakpoint, whether or not the run ends. -/
theorem courseFrom_starts {limit : Limit} {fuel : Nat} {remaining : Option Nat}
    {breakpoints : Breakpoints} {m start : Machine γ κ}
    (h : start ∈ (courseFrom limit fuel remaining breakpoints m).1) :
    start.hit? breakpoints = none := by
  induction fuel generalizing remaining m with
  | zero => cases h
  | succ fuel ih =>
      rw [courseFrom] at h
      by_cases hr : remaining = some 0
      · rw [if_pos hr] at h
        cases h
      rw [if_neg hr] at h
      rcases hh : m.hit? breakpoints with _ | ⟨address, rest⟩ <;> rw [hh] at h
      · have hstride : ∀ s ∈ (m.strideCourse limit (fuel + 1)).1, s.hit? breakpoints = none :=
          fun s hs => strideCourse_starts hh hs
        generalize m.strideCourse limit (fuel + 1) = c at h hstride
        rcases c with ⟨starts, _ | ⟨(e | _ | reason), m₁⟩⟩
        · exact hstride start h
        · exact hstride start h
        · rcases List.mem_append.1 h with h | h
          · exact hstride start h
          · exact ih h
        · exact hstride start h
      · cases h

/-- A run ends at a breakpoint at which the machine stands, and has cleared it; or it ends for
another reason, and has cleared none. -/
theorem runFrom_outcome {limit : Limit} {fuel : Nat} {remaining : Option Nat}
    {breakpoints : Breakpoints} {m : Machine γ κ} {o : Outcome γ κ}
    (h : runFrom limit fuel remaining breakpoints m = some o) :
    (∃ address, o.result = .ok (.breakpoint address) ∧
      o.machine.hit? breakpoints = some (address, o.breakpoints)) ∨
    ((∀ address, o.result ≠ .ok (.breakpoint address)) ∧ o.breakpoints = breakpoints) := by
  induction fuel generalizing remaining m with
  | zero => cases h
  | succ fuel ih =>
      rw [runFrom] at h
      by_cases hr : remaining = some 0
      · rw [if_pos hr] at h
        cases h
        refine Or.inr ⟨?_, rfl⟩
        rintro address ⟨⟩
      rw [if_neg hr] at h
      rcases hh : m.hit? breakpoints with _ | ⟨address, rest⟩ <;> rw [hh] at h
      · rcases hs : m.stride limit (fuel + 1) with _ | ⟨(e | _ | reason), m₁⟩ <;> rw [hs] at h
        · cases h
        · cases h
          refine Or.inr ⟨?_, rfl⟩
          rintro address ⟨⟩
        · exact ih h
        · cases h
          refine Or.inr ⟨fun address hreason => ?_, rfl⟩
          rcases Stride.reason hs with rfl | rfl | rfl <;> cases hreason
      · cases h
        exact Or.inl ⟨address, rfl, hh⟩

/-- **A run stops at a breakpoint before the instruction there, and clears this breakpoint only.**
No cycle of a run starts with a fetch at a breakpoint, be the run finished or not. A run that
reports a breakpoint leaves the machine where its last cycle did, about to fetch from the address
that it reports, which was set and is the only one that it has cleared. Any other end, an error
included, leaves the breakpoints as they were. -/
theorem breakpoints_stop_and_clear (fuel : Nat) (limit : Limit) (breakpoints : Breakpoints)
    (m : Machine γ κ) :
    (m.course fuel limit breakpoints).2 = m.run fuel limit breakpoints ∧
    (∀ start ∈ (m.course fuel limit breakpoints).1,
      ¬(start.lines.microPc = 18 ∧ start.lines.pc ∈ breakpoints)) ∧
    ∀ o, m.run fuel limit breakpoints = some o →
      Path m (m.course fuel limit breakpoints).1 o.machine ∧
      (∀ address, o.result = .ok (.breakpoint address) →
        address ∈ breakpoints ∧ o.machine.lines.microPc = 18 ∧ o.machine.lines.pc = address ∧
          ∀ a, a ∈ o.breakpoints ↔ a ∈ breakpoints ∧ a ≠ address) ∧
      ((∀ address, o.result ≠ .ok (.breakpoint address)) → o.breakpoints = breakpoints) := by
  refine ⟨course_snd fuel limit breakpoints m, ?_, ?_⟩
  · intro start hstart
    exact hit?_eq_none_iff.1 (courseFrom_starts hstart)
  · intro o ho
    refine ⟨course_path ho, ?_, ?_⟩
    · intro address hresult
      rcases runFrom_outcome ho with ⟨address', hresult', hhit⟩ | ⟨hne, -⟩
      · rw [hresult'] at hresult
        cases hresult
        obtain ⟨hf, hpc, herase⟩ := hit?_eq_some_iff.1 hhit
        refine ⟨Breakpoints.mem_of_erase herase, hf, hpc, fun a => ?_⟩
        rw [Breakpoints.mem_erase herase, and_comm]
      · exact absurd hresult (hne address)
    · intro hne
      rcases runFrom_outcome ho with ⟨address', hresult', -⟩ | ⟨-, hkept⟩
      · exact absurd hresult' (hne address')
      · exact hkept

/-- Two addresses that a machine on its way through an empty memory comes to. -/
def benchStops : Breakpoints where
  pages := (∅ : Breakpoints).pages.set 0 (some #v[0b10000100, 0, 0, 0])
  count := 2

/-- The bench machine, told to go for five instructions, stops at the third one and has cleared the
first of its two breakpoints; ten cycles were started. -/
theorem breakpoints_stop_and_clear_bench :
    ∃ o, benchAtFetch.run 20 (.instructions 5) benchStops = some o ∧
      o.result = .ok (.breakpoint 2) ∧
      (benchAtFetch.course 20 (.instructions 5) benchStops).1.length = 10 ∧
      o.machine.lines.pc = 2 ∧ (2 : Word) ∉ o.breakpoints ∧ (7 : Word) ∈ o.breakpoints := by
  obtain ⟨-, -, h⟩ := breakpoints_stop_and_clear 20 (.instructions 5) benchStops benchAtFetch
  obtain ⟨o, ho⟩ : ∃ o, benchAtFetch.run 20 (.instructions 5) benchStops = some o :=
    Option.isSome_iff_exists.1 rfl
  have hresult : o.result = .ok (.breakpoint 2) := by
    have hmap : (benchAtFetch.run 20 (.instructions 5) benchStops).map (·.result) =
        some (.ok (.breakpoint 2)) := rfl
    rw [ho] at hmap
    exact Option.some.inj hmap
  obtain ⟨-, hhit, -⟩ := h o ho
  obtain ⟨-, -, hpc, hmem⟩ := hhit 2 hresult
  refine ⟨o, ho, hresult, rfl, hpc, fun h₂ => ((hmem 2).1 h₂).2 rfl, (hmem 7).2 ⟨?_, ?_⟩⟩
  · decide
  · decide

end Machine

end ClockStep
