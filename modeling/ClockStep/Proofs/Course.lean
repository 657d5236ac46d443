import ClockStep.Proofs.Cycle

/-!
# The Course of a Run

`courseFrom` is `runFrom` with a record: clause for clause the same loop, and beside the outcome the
machines from which the cycles of the run started, in order. The record is also kept for a run that
finds no end within its fuel, so that it speaks of runs that never end as well: more fuel only shows
more of it.

The record is not a second account of what happens. `courseFrom_snd` says that the outcome is that
of `runFrom`, and `courseFrom_path` that the machines of the record are joined by cycles, from the
machine that the run starts with to the one that it leaves.

## Main results

* `course_snd`: forgetting the record gives the run.
* `course_path`: the cycles of the record, one after the other, are all that the run does with the
  machine.
* `instructionCourse_starts`: inside an instruction no cycle starts at a fetch.
-/

namespace ClockStep

namespace Machine

variable {γ κ : Type} [Core γ] [Keyboard κ]

/-! ### Recording -/

/-- A cycle of a run, with the machine it starts from, if it does start. -/
def cycleCourse (m : Machine γ κ) : List (Machine γ κ) × Stride γ κ :=
  if m.cancelled then ([], (.ok (some .interrupted), m))
  else ([m], match m.step with
    | (.ok status, m) => (.ok status.stopReason, m)
    | (.error e, m) => (.error e, m))

/-- The cycles of an instruction, with the machines they start from. -/
def instructionCourse : Nat → Machine γ κ → List (Machine γ κ) × Option (Stride γ κ)
  | 0, _ => ([], none)
  | fuel + 1, m =>
    match m.cycleCourse with
    | (starts, (.ok none, m)) =>
      if m.atFetch then (starts, some (.ok none, m))
      else
        let (later, stride?) := instructionCourse fuel m
        (starts ++ later, stride?)
    | (starts, stride) => (starts, some stride)

/-- A stride of a run, with the machines its cycles start from. -/
def strideCourse (limit : Limit) (fuel : Nat) (m : Machine γ κ) :
    List (Machine γ κ) × Option (Stride γ κ) :=
  match limit with
  | .instructions _ => m.instructionCourse fuel
  | .cycles _ | .unbounded => (m.cycleCourse.1, some m.cycleCourse.2)

/-- A run that has a number of strides left, or any number, with the machines its cycles start
from. -/
def courseFrom (limit : Limit) :
    Nat → Option Nat → Breakpoints → Machine γ κ → List (Machine γ κ) × Option (Outcome γ κ)
  | 0, _, _, _ => ([], none)
  | fuel + 1, remaining, breakpoints, m =>
    if remaining = some 0 then ([], some ⟨.ok .completed, m, breakpoints⟩)
    else match m.hit? breakpoints with
      | some (address, rest) => ([], some ⟨.ok (.breakpoint address), m, rest⟩)
      | none =>
        match m.strideCourse limit (fuel + 1) with
        | (starts, none) => (starts, none)
        | (starts, some (.ok none, m)) =>
          let (later, outcome?) := courseFrom limit fuel (remaining.map (· - 1)) breakpoints m
          (starts ++ later, outcome?)
        | (starts, some (.ok (some reason), m)) => (starts, some ⟨.ok reason, m, breakpoints⟩)
        | (starts, some (.error e, m)) => (starts, some ⟨.error e, m, breakpoints⟩)

/-- The **course** of a run: the machines from which its cycles start, in order, and its outcome,
if there is one within the fuel. -/
def course (fuel : Nat) (limit : Limit) (breakpoints : Breakpoints) (m : Machine γ κ) :
    List (Machine γ κ) × Option (Outcome γ κ) :=
  courseFrom limit fuel limit.strides breakpoints m

/-! ### Forgetting the record -/

/-- The course of a cycle ends as the cycle does. -/
theorem cycleCourse_snd (m : Machine γ κ) : m.cycleCourse.2 = m.stepCycle := by
  rw [cycleCourse, stepCycle]
  split <;> rfl

/-- The course of an instruction ends as the instruction does. -/
theorem instructionCourse_snd (fuel : Nat) (m : Machine γ κ) :
    (m.instructionCourse fuel).2 = m.stepInstruction fuel := by
  induction fuel generalizing m with
  | zero => rfl
  | succ fuel ih =>
      rw [instructionCourse, stepInstruction, ← cycleCourse_snd]
      rcases m.cycleCourse with ⟨starts, ⟨(e | _ | reason), m'⟩⟩
      · rfl
      · dsimp only
        split
        · rfl
        · exact ih m'
      · rfl

/-- The course of a stride ends as the stride does. -/
theorem strideCourse_snd (limit : Limit) (fuel : Nat) (m : Machine γ κ) :
    (m.strideCourse limit fuel).2 = m.stride limit fuel := by
  cases limit with
  | instructions n => exact instructionCourse_snd fuel m
  | cycles n => exact congrArg some m.cycleCourse_snd
  | unbounded => exact congrArg some m.cycleCourse_snd

/-- The course of a run ends as the run does. -/
theorem courseFrom_snd (limit : Limit) (fuel : Nat) (remaining : Option Nat)
    (breakpoints : Breakpoints) (m : Machine γ κ) :
    (courseFrom limit fuel remaining breakpoints m).2 =
      runFrom limit fuel remaining breakpoints m := by
  induction fuel generalizing remaining m with
  | zero => rfl
  | succ fuel ih =>
      rw [courseFrom, runFrom, ← strideCourse_snd]
      by_cases hr : remaining = some 0
      · rw [if_pos hr, if_pos hr]
      rw [if_neg hr, if_neg hr]
      rcases m.hit? breakpoints with _ | ⟨address, rest⟩
      · rcases m.strideCourse limit (fuel + 1) with ⟨starts, _ | ⟨(e | _ | reason), m'⟩⟩
        · rfl
        · rfl
        · exact ih _ m'
        · rfl
      · rfl

/-- **Forgetting the record gives the run.** -/
theorem course_snd (fuel : Nat) (limit : Limit) (breakpoints : Breakpoints) (m : Machine γ κ) :
    (m.course fuel limit breakpoints).2 = m.run fuel limit breakpoints :=
  courseFrom_snd limit fuel limit.strides breakpoints m

/-! ### The record is a path of cycles -/

/-- `Path m starts m'`: cycles that start from the machines in `starts`, one after the other, lead
from `m` to `m'`. -/
inductive Path : Machine γ κ → List (Machine γ κ) → Machine γ κ → Prop
  | nil (m : Machine γ κ) : Path m [] m
  | cons {m m' : Machine γ κ} {starts : List (Machine γ κ)} :
      Path m.step.2 starts m' → Path m (m :: starts) m'

/-- Of two paths, the second goes on where the first ends. -/
theorem Path.append {m₁ m₂ m₃ : Machine γ κ} {starts later : List (Machine γ κ)}
    (h₁ : Path m₁ starts m₂) (h₂ : Path m₂ later m₃) : Path m₁ (starts ++ later) m₃ := by
  induction h₁ with
  | nil m => exact h₂
  | cons _ ih => exact .cons (ih h₂)

/-- The course of a cycle is a path. -/
theorem cycleCourse_path (m : Machine γ κ) : Path m m.cycleCourse.1 m.cycleCourse.2.2 := by
  rw [cycleCourse]
  split
  · exact .nil m
  · refine .cons ?_
    rcases m.step with ⟨(e | s), m'⟩ <;> exact .nil m'

/-- The record of an instruction is a path; if the instruction ends, it ends there. -/
theorem instructionCourse_path (fuel : Nat) (m : Machine γ κ) :
    ∃ m', Path m (m.instructionCourse fuel).1 m' ∧
      ∀ s, (m.instructionCourse fuel).2 = some s → s.2 = m' := by
  induction fuel generalizing m with
  | zero => exact ⟨m, .nil m, fun s h => nomatch h⟩
  | succ fuel ih =>
      have hpath := m.cycleCourse_path
      rw [instructionCourse]
      generalize m.cycleCourse = c at hpath ⊢
      rcases c with ⟨starts, ⟨(e | _ | reason), m₁⟩⟩
      · exact ⟨m₁, hpath, fun s h => by cases h; rfl⟩
      · dsimp only
        split
        · exact ⟨m₁, hpath, fun s h => by cases h; rfl⟩
        · obtain ⟨m', hlater, hend⟩ := ih m₁
          exact ⟨m', hpath.append hlater, hend⟩
      · exact ⟨m₁, hpath, fun s h => by cases h; rfl⟩

/-- The course of a stride is a path to what the stride leaves. -/
theorem strideCourse_path (limit : Limit) (fuel : Nat) (m : Machine γ κ) :
    ∃ m', Path m (m.strideCourse limit fuel).1 m' ∧
      ∀ s, (m.strideCourse limit fuel).2 = some s → s.2 = m' := by
  have hcycle : ∃ m', Path m m.cycleCourse.1 m' ∧ ∀ s, some m.cycleCourse.2 = some s → s.2 = m' :=
    ⟨_, m.cycleCourse_path, fun s h => by cases h; rfl⟩
  cases limit with
  | instructions n => exact instructionCourse_path fuel m
  | cycles n => exact hcycle
  | unbounded => exact hcycle

/-- The course of a run is a path to what the run leaves, by induction on the fuel. -/
theorem courseFrom_path (limit : Limit) (fuel : Nat) (remaining : Option Nat)
    (breakpoints : Breakpoints) (m : Machine γ κ) :
    ∃ m', Path m (courseFrom limit fuel remaining breakpoints m).1 m' ∧
      ∀ o, (courseFrom limit fuel remaining breakpoints m).2 = some o → o.machine = m' := by
  induction fuel generalizing remaining m with
  | zero => exact ⟨m, .nil m, fun o h => nomatch h⟩
  | succ fuel ih =>
      obtain ⟨m₁, hpath, hend⟩ := m.strideCourse_path limit (fuel + 1)
      rw [courseFrom]
      by_cases hr : remaining = some 0
      · rw [if_pos hr]
        exact ⟨m, .nil m, fun o h => by cases h; rfl⟩
      rw [if_neg hr]
      rcases m.hit? breakpoints with _ | ⟨address, rest⟩
      · generalize m.strideCourse limit (fuel + 1) = c at hpath hend ⊢
        rcases c with ⟨starts, _ | ⟨(e | _ | reason), m₂⟩⟩
        · exact ⟨m₁, hpath, fun o h => nomatch h⟩
        · obtain rfl : m₂ = m₁ := hend _ rfl
          exact ⟨m₂, hpath, fun o h => by cases h; rfl⟩
        · obtain rfl : m₂ = m₁ := hend _ rfl
          obtain ⟨m', hlater, hend'⟩ := ih (remaining.map (· - 1)) m₂
          exact ⟨m', hpath.append hlater, hend'⟩
        · obtain rfl : m₂ = m₁ := hend _ rfl
          exact ⟨m₂, hpath, fun o h => by cases h; rfl⟩
      · exact ⟨m, .nil m, fun o h => by cases h; rfl⟩

/-- **The record is a path of cycles**, and the machine that a run leaves is the one at the end of
it. -/
theorem course_path {fuel : Nat} {limit : Limit} {breakpoints : Breakpoints} {m : Machine γ κ}
    {o : Outcome γ κ} (h : m.run fuel limit breakpoints = some o) :
    Path m (m.course fuel limit breakpoints).1 o.machine := by
  obtain ⟨m', hpath, hend⟩ := courseFrom_path limit fuel limit.strides breakpoints m
  rw [← course_snd, course] at h
  rw [course, hend o h]
  exact hpath

/-! ### Where cycles start -/

/-- The course of a cycle starts nowhere else. -/
theorem cycleCourse_starts {m start : Machine γ κ} (h : start ∈ m.cycleCourse.1) : start = m := by
  rw [cycleCourse] at h
  split at h
  · cases h
  · exact List.mem_singleton.1 h

/-- Inside an instruction no cycle starts at a fetch: only the first cycle may. -/
theorem instructionCourse_starts {fuel : Nat} {m start : Machine γ κ}
    (h : start ∈ (m.instructionCourse fuel).1) : start = m ∨ start.atFetch = false := by
  induction fuel generalizing m with
  | zero => cases h
  | succ fuel ih =>
      have hfirst : ∀ s ∈ m.cycleCourse.1, s = m := fun s hs => cycleCourse_starts hs
      rw [instructionCourse] at h
      generalize m.cycleCourse = c at hfirst h
      rcases c with ⟨starts, ⟨(e | _ | reason), m'⟩⟩
      · exact Or.inl (hfirst start h)
      · dsimp only at h
        split at h
        · exact Or.inl (hfirst start h)
        · next hf =>
          rcases List.mem_append.1 h with h | h
          · exact Or.inl (hfirst start h)
          · -- a later cycle starts at `m'`, which is not at a fetch, or further on
            rcases ih h with rfl | h
            · exact Or.inr (Bool.not_eq_true _ ▸ hf)
            · exact Or.inr h
      · exact Or.inl (hfirst start h)

end Machine

end ClockStep
