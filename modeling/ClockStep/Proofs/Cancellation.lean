import ClockStep.Proofs.BreakpointStops

/-!
# Stops on Request

The operator's request to stop is looked at before every cycle, in one place for strides that are
cycles and in another one for strides that are instructions; and it is not the only thing that may
stop the run just then. This module says what a run comes to that is cancelled before it starts, or
by the keyboard in one of its cycles: no cycle follows, and what is reported is the first that holds
of a halt, a limit that is used up, a breakpoint, and the request.

The record of a run (`course`) tells which cycles were started. A cycle of the record that is
cancelled is the last one of its stride (`strideCourse_of_cancel`); a stride that it completes
leaves a machine to the run from which no cycle starts (`courseFrom_of_cancelled`).

## Main results

* `courseFrom_of_cancelled`: a run that is cancelled before it starts.
* `courseFrom_of_cancel`: a run that is cancelled in one of its cycles.
* `request_stops_run`: the two together, for whole runs.
-/

namespace ClockStep

namespace Machine

variable {γ κ : Type} [Core γ] [Keyboard κ]
variable {limit : Limit} {fuel : Nat} {remaining : Option Nat} {breakpoints : Breakpoints}
  {m s : Machine γ κ} {before after : List (Machine γ κ)}

/-! ### What is reported -/

/-- The strides of a run that its cycles complete, given the machines that they start from: with a
limit of instructions, a cycle completes a stride when it ends at a fetch. -/
def progress (limit : Limit) (starts : List (Machine γ κ)) : Nat :=
  match limit with
  | .instructions _ => starts.countP fun s => s.step.2.atFetch
  | .cycles _ | .unbounded => starts.length

/-- What a run reports that is stopped after some cycles, on the operator's request if nothing else
was to stop it: `status` is that of the last cycle, if there was one, and `m` the machine that it
left. -/
def reported (limit : Limit) (remaining : Option Nat) (breakpoints : Breakpoints)
    (starts : List (Machine γ κ)) (status : Status) (m : Machine γ κ) : StopReason :=
  match status with
  | .halted => .halted
  | .exit => .exit
  | .running =>
    if remaining = some (progress limit starts) then .completed
    else if m.atFetch && breakpoints.isSet m.lines.pc then .breakpoint m.lines.pc
    else .interrupted

/-- Where no cycle starts, no progress is made. -/
theorem progress_nil (limit : Limit) : progress limit ([] : List (Machine γ κ)) = 0 := by
  cases limit <;> rfl

/-- The progress of two parts adds up. -/
theorem progress_append (limit : Limit) (starts later : List (Machine γ κ)) :
    progress limit (starts ++ later) = progress limit starts + progress limit later := by
  cases limit with
  | instructions n => exact List.countP_append
  | cycles n => exact List.length_append
  | unbounded => exact List.length_append

/-- A stride that is completed counts. -/
theorem reported_append {starts : List (Machine γ κ)} (hr : remaining ≠ some 0)
    (hone : progress limit starts = 1) (later : List (Machine γ κ)) (status : Status) :
    reported limit (remaining.map (· - 1)) breakpoints later status m =
      reported limit remaining breakpoints (starts ++ later) status m := by
  have hcount : remaining.map (· - 1) = some (progress limit later) ↔
      remaining = some (progress limit (starts ++ later)) := by
    rw [progress_append, hone]
    rcases remaining with _ | n
    · simp
    · have hpos : n ≠ 0 := fun h => hr (congrArg some h)
      simp only [Option.map_some, Option.some.injEq]
      omega
  cases status with
  | running => simp only [reported, hcount]
  | halted => rfl
  | exit => rfl

/-! ### Strides, by their first cycle -/

/-- After a request to stop, no further cycle starts. -/
theorem cycleCourse_of_cancelled (h : m.cancelled = true) :
    m.cycleCourse = ([], (.ok (some .interrupted), m)) := by
  rw [cycleCourse, if_pos h]

/-- Without a request to stop, one cycle starts. -/
theorem cycleCourse_of_not_cancelled (h : m.cancelled = false) :
    m.cycleCourse = ([m], (m.step.1.map Status.stopReason, m.step.2)) := by
  rw [cycleCourse, if_neg (by simp [h])]
  rcases m.step with ⟨(e | status), m'⟩ <;> rfl

/-- After a request to stop, no stride starts either. -/
theorem strideCourse_of_cancelled (h : m.cancelled = true) (limit : Limit) (fuel : Nat) :
    m.strideCourse limit (fuel + 1) = ([], some (.ok (some .interrupted), m)) := by
  have hcycle := cycleCourse_of_cancelled h
  cases limit with
  | instructions n => rw [strideCourse, instructionCourse, hcycle]
  | cycles n => rw [strideCourse, hcycle]
  | unbounded => rw [strideCourse, hcycle]

/-- An instruction is over with a cycle that leaves the machine at a fetch, or not running. -/
theorem instructionCourse_of_over (h : m.cancelled = false)
    (hover : m.step.1 = .ok .running → m.step.2.atFetch = true) (fuel : Nat) :
    m.instructionCourse (fuel + 1) = ([m], some (m.step.1.map Status.stopReason, m.step.2)) := by
  rw [instructionCourse, cycleCourse_of_not_cancelled h]
  rcases hs : m.step with ⟨(e | _ | _ | _), m'⟩ <;> rw [hs] at hover
  · rfl
  · dsimp only [Except.map, Status.stopReason]
    rw [if_pos (hover rfl)]
  · rfl
  · rfl

/-- Otherwise its next cycle follows. -/
theorem instructionCourse_of_running (h : m.cancelled = false) (hs : m.step.1 = .ok .running)
    (hf : m.step.2.atFetch = false) (fuel : Nat) :
    m.instructionCourse (fuel + 1) =
      (m :: (m.step.2.instructionCourse fuel).1, (m.step.2.instructionCourse fuel).2) := by
  rw [instructionCourse, cycleCourse_of_not_cancelled h, hs]
  dsimp only [Except.map, Status.stopReason]
  rw [if_neg (by simp [hf])]
  rfl

/-- An instruction is stopped before its first cycle, or over with it, or goes on. -/
theorem instruction_cases (m : Machine γ κ) :
    m.cancelled = true ∨
    m.cancelled = false ∧ (m.step.1 = .ok .running → m.step.2.atFetch = true) ∨
    m.cancelled = false ∧ m.step.1 = .ok .running ∧ m.step.2.atFetch = false := by
  rcases hc : m.cancelled with _ | _
  · by_cases hs : m.step.1 = .ok .running
    · rcases hf : m.step.2.atFetch with _ | _
      · exact Or.inr (Or.inr ⟨rfl, hs, rfl⟩)
      · exact Or.inr (Or.inl ⟨rfl, fun _ => rfl⟩)
    · exact Or.inr (Or.inl ⟨rfl, fun h => absurd h hs⟩)
  · exact Or.inl rfl

/-- An instruction that has ended is the same with more fuel. -/
theorem instructionCourse_mono {fuel' : Nat} (hle : fuel ≤ fuel') {stride : Stride γ κ}
    (h : (m.instructionCourse fuel).2 = some stride) :
    m.instructionCourse fuel' = m.instructionCourse fuel := by
  induction fuel generalizing m fuel' with
  | zero => cases h
  | succ fuel ih =>
      obtain ⟨fuel', rfl⟩ : ∃ f, fuel' = f + 1 := ⟨fuel' - 1, by omega⟩
      rcases m.instruction_cases with hc | ⟨hc, hover⟩ | ⟨hc, hs, hf⟩
      · rw [instructionCourse, instructionCourse, cycleCourse_of_cancelled hc]
      · rw [instructionCourse_of_over hc hover, instructionCourse_of_over hc hover]
      · rw [instructionCourse_of_running hc hs hf] at h ⊢
        rw [instructionCourse_of_running hc hs hf, ih (by omega) h]

/-- A stride that has ended is the same with more fuel. -/
theorem strideCourse_mono {fuel' : Nat} (hle : fuel ≤ fuel') {stride : Stride γ κ}
    (h : (m.strideCourse limit fuel).2 = some stride) :
    m.strideCourse limit fuel' = m.strideCourse limit fuel := by
  cases limit with
  | instructions n => exact instructionCourse_mono hle h
  | cycles n => rfl
  | unbounded => rfl

/-- The cycles of a stride that is completed count as one. -/
theorem progress_instructionCourse {n : Nat} {m' : Machine γ κ}
    (h : (m.instructionCourse fuel).2 = some (.ok none, m')) :
    progress (.instructions n) (m.instructionCourse fuel).1 = 1 := by
  induction fuel generalizing m with
  | zero => cases h
  | succ fuel ih =>
      rcases m.instruction_cases with hc | ⟨hc, hover⟩ | ⟨hc, hs, hf⟩
      · rw [instructionCourse, cycleCourse_of_cancelled hc] at h
        cases h
      · rw [instructionCourse_of_over hc hover] at h ⊢
        have hrunning : m.step.1 = .ok .running := by
          rcases hs : m.step.1 with e | status <;> rw [hs] at h
          · cases h
          · cases status <;> cases h
            rfl
        rw [progress, List.countP_singleton, if_pos (hover hrunning)]
      · rw [instructionCourse_of_running hc hs hf] at h ⊢
        have hlater := ih h
        rw [progress] at hlater ⊢
        rw [List.countP_cons_of_neg (by simp [hf]), hlater]

/-- A stride that goes on to the next is one of the limit's. -/
theorem progress_strideCourse {m' : Machine γ κ}
    (h : (m.strideCourse limit fuel).2 = some (.ok none, m')) :
    progress limit (m.strideCourse limit fuel).1 = 1 := by
  have hcycle : ∀ stride, m.cycleCourse.2 = (.ok none, stride) → m.cycleCourse.1.length = 1 := by
    intro stride hnone
    rcases hc : m.cancelled with _ | _
    · rw [cycleCourse_of_not_cancelled hc]
      rfl
    · rw [cycleCourse_of_cancelled hc] at hnone
      cases hnone
  cases limit with
  | instructions n => exact progress_instructionCourse h
  | cycles n => exact hcycle m' (Option.some.inj h)
  | unbounded => exact hcycle m' (Option.some.inj h)

/-! ### Cancelled before the run -/

/-- **A run that is cancelled before it starts** executes nothing. -/
theorem courseFrom_of_cancelled (h : m.cancelled = true) (limit : Limit) (fuel : Nat)
    (remaining : Option Nat) (breakpoints : Breakpoints) :
    ∃ o, courseFrom limit (fuel + 1) remaining breakpoints m = ([], some o) ∧ o.machine = m ∧
      o.result = .ok (reported limit remaining breakpoints [] .running m) := by
  rw [courseFrom, reported, progress_nil]
  by_cases hr : remaining = some 0
  · rw [if_pos hr, if_pos hr]
    exact ⟨_, rfl, rfl, rfl⟩
  rw [if_neg hr, if_neg hr]
  rcases hh : m.hit? breakpoints with _ | ⟨address, rest⟩
  · have hset : ¬(m.atFetch && breakpoints.isSet m.lines.pc) = true := by
      intro hset
      obtain ⟨hf, hmem⟩ := Bool.and_eq_true_iff.1 hset
      exact hit?_eq_none_iff.1 hh ⟨atFetch_iff.1 hf, hmem⟩
    rw [strideCourse_of_cancelled h, if_neg hset]
    exact ⟨_, rfl, rfl, rfl⟩
  · obtain ⟨hf, rfl, herase⟩ := hit?_eq_some_iff.1 hh
    have hset : (m.atFetch && breakpoints.isSet m.lines.pc) = true :=
      Bool.and_eq_true_iff.2 ⟨atFetch_iff.2 hf, Breakpoints.mem_of_erase herase⟩
    rw [if_pos hset]
    exact ⟨_, rfl, rfl, rfl⟩

/-- From a machine that is cancelled no cycle starts. -/
theorem courseFrom_fst_of_cancelled (h : m.cancelled = true) (limit : Limit) (fuel : Nat)
    (remaining : Option Nat) (breakpoints : Breakpoints) :
    (courseFrom limit fuel remaining breakpoints m).1 = [] := by
  cases fuel with
  | zero => rfl
  | succ fuel =>
      obtain ⟨o, ho, -⟩ := courseFrom_of_cancelled h limit fuel remaining breakpoints
      rw [ho]

/-! ### Cancelled in a cycle -/

/-- The request is set by the poll of a cycle that is completed. -/
theorem cancelled_of_step_ok {m' : Machine γ κ} {status : Status} (h : m.step = (.ok status, m')) :
    m'.cancelled = (m.cancelled || (Keyboard.poll m.keyboard).1.cancels) := by
  obtain ⟨receiver, console, hfinish⟩ := eq_of_step_ok h
  obtain ⟨journal, hpoll⟩ := { m with receiver, console }.pollKeyboard_eq
  rw [hpoll, finish] at hfinish
  split at hfinish <;> obtain ⟨-, rfl⟩ := Prod.mk.inj hfinish <;> rfl

/-- A cycle that is broken off has not asked the keyboard. -/
theorem cancelled_of_step_error {m' : Machine γ κ} {e : MachineError}
    (h : m.step = (.error e, m')) : m'.cancelled = m.cancelled := by
  obtain ⟨receiver, console, rfl⟩ := eq_of_step_error h
  rfl

/-- A cycle that is cancelled by its own poll is completed. -/
theorem step_of_cancel (hstart : m.cancelled = false) (h : m.step.2.cancelled = true) :
    (∃ status, m.step.1 = .ok status) ∧ (Keyboard.poll m.keyboard).1.cancels = true := by
  rcases hs : m.step with ⟨(e | status), m'⟩ <;> rw [hs] at h
  · have hsame := cancelled_of_step_error hs
    rw [h, hstart] at hsame
    cases hsame
  · have hpoll := cancelled_of_step_ok hs
    rw [h, hstart, Bool.false_or] at hpoll
    exact ⟨⟨status, rfl⟩, hpoll.symm⟩

/-- What a stride comes to when the request is set in one of its cycles: an instruction is broken
off unless the cycle was its last. -/
def cancelledStride (limit : Limit) (status : Status) (m : Machine γ κ) : Option StopReason :=
  match limit with
  | .instructions _ =>
    if status = .running ∧ m.atFetch = false then some .interrupted else status.stopReason
  | .cycles _ | .unbounded => status.stopReason

/-- A list of one element can only be cut around that one. -/
theorem eq_of_singleton_eq_append {α : Type} {x y : α} {before after : List α}
    (h : [x] = before ++ y :: after) : before = [] ∧ y = x ∧ after = [] := by
  rcases List.singleton_eq_append_iff.1 h with ⟨hbefore, hrest⟩ | ⟨-, hrest⟩
  · obtain ⟨hy, hafter⟩ := List.cons.inj hrest
    exact ⟨hbefore, hy, hafter⟩
  · cases hrest

/-- A cycle of an instruction in which the request is set is the last one that is started, and no
cycle before it ended the instruction. -/
theorem instructionCourse_of_cancel {n : Nat}
    (h : (m.instructionCourse fuel).1 = before ++ s :: after) (hc : s.step.2.cancelled = true) :
    after = [] ∧ s.cancelled = false ∧ progress (.instructions n) before = 0 ∧
      ∀ status, s.step.1 = .ok status → ∀ fuel' > fuel, m.instructionCourse fuel' =
        (before ++ [s],
          some (.ok (cancelledStride (.instructions n) status s.step.2), s.step.2)) := by
  induction fuel generalizing m before with
  | zero => simp [instructionCourse] at h
  | succ fuel ih =>
      rcases m.instruction_cases with hm | ⟨hm, hover⟩ | ⟨hm, hs, hf⟩
      · rw [instructionCourse, cycleCourse_of_cancelled hm] at h
        simp at h
      · rw [instructionCourse_of_over hm hover] at h
        obtain ⟨rfl, rfl, rfl⟩ := eq_of_singleton_eq_append h
        refine ⟨rfl, hm, rfl, fun status hstatus fuel' hfuel => ?_⟩
        obtain ⟨fuel', rfl⟩ : ∃ f, fuel' = f + 1 := ⟨fuel' - 1, by omega⟩
        have hdone : ¬(status = .running ∧ s.step.2.atFetch = false) := by
          rintro ⟨rfl, hf⟩
          rw [hover hstatus] at hf
          cases hf
        rw [instructionCourse_of_over hm hover, hstatus, cancelledStride, if_neg hdone]
        rfl
      · rw [instructionCourse_of_running hm hs hf] at h
        rcases before with _ | ⟨x, before⟩
        · -- the request is set in this cycle, and the next one is not started
          obtain ⟨rfl, hlater⟩ := List.cons.inj h
          have hnone : (m.step.2.instructionCourse fuel).1 = [] := by
            cases fuel with
            | zero => rfl
            | succ fuel => rw [instructionCourse, cycleCourse_of_cancelled hc]
          refine ⟨?_, hm, rfl, fun status hstatus fuel' hfuel => ?_⟩
          · rw [← hlater, hnone]
          · obtain ⟨fuel', rfl⟩ : ∃ f, fuel' = f + 1 + 1 := ⟨fuel' - 2, by omega⟩
            obtain rfl : Status.running = status := Except.ok.inj (hs.symm.trans hstatus)
            rw [instructionCourse_of_running hm hs hf, instructionCourse,
              cycleCourse_of_cancelled hc, cancelledStride, if_pos ⟨rfl, hf⟩]
            rfl
        · obtain ⟨rfl, hlater⟩ := List.cons.inj h
          obtain ⟨hafter, hstart, hcount, hrest⟩ := ih hlater
          refine ⟨hafter, hstart, ?_, fun status hstatus fuel' hfuel => ?_⟩
          · rw [progress] at hcount ⊢
            rw [List.countP_cons_of_neg (by simp [hf]), hcount]
          · obtain ⟨fuel', rfl⟩ : ∃ f, fuel' = f + 1 := ⟨fuel' - 1, by omega⟩
            rw [instructionCourse_of_running hm hs hf, hrest status hstatus fuel' (by omega)]
            rfl

/-- A cycle in the course of one cycle is the only one, and there was no request before it. -/
theorem cycleCourse_of_cancel (h : m.cycleCourse.1 = before ++ s :: after) :
    before = [] ∧ s = m ∧ after = [] ∧ m.cancelled = false := by
  rcases hm : m.cancelled with _ | _
  · rw [cycleCourse_of_not_cancelled hm] at h
    obtain ⟨hbefore, hs, hafter⟩ := eq_of_singleton_eq_append h
    exact ⟨hbefore, hs, hafter, rfl⟩
  · rw [cycleCourse_of_cancelled hm] at h
    simp at h

/-- A cycle of a stride in which the request is set is the last one that is started. -/
theorem strideCourse_of_cancel
    (h : (m.strideCourse limit fuel).1 = before ++ s :: after) (hc : s.step.2.cancelled = true) :
    after = [] ∧ s.cancelled = false ∧ progress limit before = 0 ∧
      ∀ status, s.step.1 = .ok status → ∀ fuel' > fuel, m.strideCourse limit fuel' =
        (before ++ [s], some (.ok (cancelledStride limit status s.step.2), s.step.2)) := by
  have hcycle (hl : ∀ fuel, m.strideCourse limit fuel = (m.cycleCourse.1, some m.cycleCourse.2))
      (hstop : ∀ status, cancelledStride limit status s.step.2 = status.stopReason) :
      after = [] ∧ s.cancelled = false ∧ progress limit before = 0 ∧
        ∀ status, s.step.1 = .ok status → ∀ fuel' > fuel, m.strideCourse limit fuel' =
          (before ++ [s], some (.ok (cancelledStride limit status s.step.2), s.step.2)) := by
    rw [hl] at h
    obtain ⟨rfl, rfl, hafter, hm⟩ := cycleCourse_of_cancel h
    refine ⟨hafter, hm, progress_nil limit, fun status hstatus fuel' _ => ?_⟩
    rw [hl, cycleCourse_of_not_cancelled hm, hstatus, hstop]
    rfl
  cases limit with
  | instructions n => exact instructionCourse_of_cancel h hc
  | cycles n => exact hcycle (fun _ => rfl) fun _ => rfl
  | unbounded => exact hcycle (fun _ => rfl) fun _ => rfl

omit [Keyboard κ] in
/-- A stride that is not stopped by the cancelled cycle was running. -/
theorem running_of_cancelledStride_eq_none {status : Status}
    (h : cancelledStride limit status m = none) : status = .running := by
  cases status with
  | running => rfl
  | halted => cases limit <;> simp [cancelledStride, Status.stopReason] at h
  | exit => cases limit <;> simp [cancelledStride, Status.stopReason] at h

/-- Why a stride is stopped in a cancelled cycle is what is reported of the run: it did not use up
the limit, and the machine is not at a fetch if it is still running. -/
theorem reported_of_cancelledStride {status : Status} {reason : StopReason}
    (h : cancelledStride limit status s.step.2 = some reason) (hr : remaining ≠ some 0)
    (hcount : progress limit before = 0) :
    reported limit remaining breakpoints (before ++ [s]) status s.step.2 = reason := by
  cases status with
  | running =>
      cases limit with
      | instructions n =>
          rcases hf : s.step.2.atFetch with _ | _
          · rw [cancelledStride, if_pos ⟨rfl, hf⟩] at h
            have hlast : progress (.instructions n) [s] = 0 := by
              rw [progress, List.countP_singleton, if_neg (by simp [hf])]
            rw [reported, progress_append, hcount, hlast, if_neg hr, hf, Bool.false_and,
              if_neg Bool.false_ne_true]
            exact Option.some.inj h
          · rw [cancelledStride, if_neg (by simp [hf])] at h
            cases h
      | cycles n => cases h
      | unbounded => cases h
  | halted => cases limit <;> exact Option.some.inj h
  | exit => cases limit <;> exact Option.some.inj h

/-- Where a list that is put together of two has an element: in the first one, or in the second. -/
theorem append_eq_append_cons {α : Type} {xs ys before after : List α} {x : α}
    (h : xs ++ ys = before ++ x :: after) :
    (∃ rest, xs = before ++ x :: rest ∧ after = rest ++ ys) ∨
    ∃ rest, before = xs ++ rest ∧ ys = rest ++ x :: after := by
  rcases List.append_eq_append_iff.1 h with ⟨rest, hbefore, hys⟩ | ⟨rest, hxs, hrest⟩
  · exact Or.inr ⟨rest, hbefore, hys⟩
  · rcases rest with _ | ⟨y, rest⟩
    · rw [List.append_nil] at hxs
      exact Or.inr ⟨[], by rw [hxs, List.append_nil], hrest.symm⟩
    · obtain ⟨rfl, hafter⟩ := List.cons.inj hrest
      exact Or.inl ⟨rest, hxs, hafter⟩

/-- A run goes on after a stride that is completed. -/
theorem courseFrom_of_completed {m' : Machine γ κ} {starts : List (Machine γ κ)}
    (hr : remaining ≠ some 0) (hh : m.hit? breakpoints = none)
    (hs : m.strideCourse limit (fuel + 1) = (starts, some (.ok none, m'))) :
    courseFrom limit (fuel + 1) remaining breakpoints m =
      (starts ++ (courseFrom limit fuel (remaining.map (· - 1)) breakpoints m').1,
        (courseFrom limit fuel (remaining.map (· - 1)) breakpoints m').2) := by
  rw [courseFrom, if_neg hr, hh]
  dsimp only
  rw [hs]

/-- A run whose next stride is the one in which the request is set. -/
theorem courseFrom_of_strideCourse {status : Status} (hr : remaining ≠ some 0)
    (hh : m.hit? breakpoints = none) (hc : s.step.2.cancelled = true)
    (hcount : progress limit before = 0)
    (hstride : m.strideCourse limit (fuel + 2) =
      (before ++ [s], some (.ok (cancelledStride limit status s.step.2), s.step.2))) :
    ∃ o, courseFrom limit (fuel + 2) remaining breakpoints m = (before ++ [s], some o) ∧
      o.machine = s.step.2 ∧
      o.result = .ok (reported limit remaining breakpoints (before ++ [s]) status s.step.2) := by
  rcases hend : cancelledStride limit status s.step.2 with _ | reason <;> rw [hend] at hstride
  · -- the stride is completed, and the run is stopped before the next one
    obtain rfl := running_of_cancelledStride_eq_none hend
    have hone : progress limit (m.strideCourse limit (fuel + 2)).1 = 1 :=
      progress_strideCourse (by rw [hstride])
    rw [hstride] at hone
    obtain ⟨o, ho, hmachine, hresult⟩ :=
      courseFrom_of_cancelled hc limit fuel (remaining.map (· - 1)) breakpoints
    refine ⟨o, ?_, hmachine, ?_⟩
    · rw [courseFrom_of_completed hr hh hstride, ho, List.append_nil]
    · rw [hresult, reported_append hr hone, List.append_nil]
  · rw [courseFrom, if_neg hr, hh]
    dsimp only
    rw [hstride, reported_of_cancelledStride hend hr hcount]
    exact ⟨_, rfl, rfl, rfl⟩

/-- The cycles of a run with strides left, if it has any, begin with those of its first stride; more
cycles follow if this is completed. -/
theorem courseFrom_eq_append_cons
    (h : (courseFrom limit (fuel + 1) remaining breakpoints m).1 = before ++ s :: after) :
    remaining ≠ some 0 ∧ m.hit? breakpoints = none ∧
      ((m.strideCourse limit (fuel + 1)).1 = before ++ s :: after ∨
        ∃ starts m', m.strideCourse limit (fuel + 1) = (starts, some (.ok none, m')) ∧
          starts ++ (courseFrom limit fuel (remaining.map (· - 1)) breakpoints m').1 =
            before ++ s :: after) := by
  rw [courseFrom] at h
  by_cases hr : remaining = some 0
  · rw [if_pos hr] at h
    simp at h
  rw [if_neg hr] at h
  rcases hh : m.hit? breakpoints with _ | ⟨address, rest⟩ <;> rw [hh] at h
  · refine ⟨hr, rfl, ?_⟩
    dsimp only at h
    rcases hs : m.strideCourse limit (fuel + 1) with ⟨starts, _ | ⟨(e | _ | reason), m'⟩⟩ <;>
      rw [hs] at h
    · exact Or.inl h
    · exact Or.inl h
    · exact Or.inr ⟨starts, m', rfl, h⟩
    · exact Or.inl h
  · simp at h

/-- The request is set in the first stride of a run. -/
theorem courseFrom_of_cancel_first (hr : remaining ≠ some 0) (hh : m.hit? breakpoints = none)
    (hc : s.step.2.cancelled = true)
    (h : (m.strideCourse limit (fuel + 1)).1 = before ++ s :: after) :
    after = [] ∧ s.cancelled = false ∧
      ∀ status, s.step.1 = .ok status → ∀ fuel' > fuel + 1, ∃ o,
        courseFrom limit fuel' remaining breakpoints m = (before ++ [s], some o) ∧
        o.machine = s.step.2 ∧
        o.result = .ok (reported limit remaining breakpoints (before ++ [s]) status s.step.2) := by
  obtain ⟨hafter, hstart, hcount, hstride⟩ := strideCourse_of_cancel h hc
  refine ⟨hafter, hstart, fun status hstatus fuel' hfuel => ?_⟩
  obtain ⟨fuel', rfl⟩ : ∃ f, fuel' = f + 2 := ⟨fuel' - 2, by omega⟩
  exact courseFrom_of_strideCourse hr hh hc hcount (hstride status hstatus _ hfuel)

/-- A stride ends with the cycle in which the request was set. -/
theorem eq_of_strideCourse_of_cancel {stride : Stride γ κ}
    (h : (m.strideCourse limit fuel).2 = some stride)
    (hs : (m.strideCourse limit fuel).1 = before ++ s :: after) (hc : s.step.2.cancelled = true) :
    stride.2 = s.step.2 := by
  obtain ⟨-, hstart, -, hstride⟩ := strideCourse_of_cancel hs hc
  obtain ⟨⟨status, hstatus⟩, -⟩ := step_of_cancel hstart hc
  have hmore := strideCourse_mono (Nat.le_succ fuel) h
  rw [hstride status hstatus _ (Nat.lt_succ_self fuel)] at hmore
  rw [← hmore] at h
  rw [← Option.some.inj h]

/-- A cycle of a run in which the request is set is the last one that is started. With more fuel
than it took to see the cycle the run ends there, if the cycle is completed. -/
theorem courseFrom_of_cancel
    (h : (courseFrom limit fuel remaining breakpoints m).1 = before ++ s :: after)
    (hc : s.step.2.cancelled = true) :
    after = [] ∧ s.cancelled = false ∧
      ∀ status, s.step.1 = .ok status → ∀ fuel' > fuel, ∃ o,
        courseFrom limit fuel' remaining breakpoints m = (before ++ [s], some o) ∧
        o.machine = s.step.2 ∧
        o.result = .ok (reported limit remaining breakpoints (before ++ [s]) status s.step.2) := by
  induction fuel generalizing remaining m before with
  | zero => simp [courseFrom] at h
  | succ fuel ih =>
      obtain ⟨hr, hh, hcycles⟩ := courseFrom_eq_append_cons h
      rcases hcycles with hstarts | ⟨starts, m', hs, hcycles⟩
      · exact courseFrom_of_cancel_first hr hh hc hstarts
      have hsnd : (m.strideCourse limit (fuel + 1)).2 = some (.ok none, m') := by rw [hs]
      rcases append_eq_append_cons hcycles with ⟨rest, hstarts, hafter⟩ | ⟨rest, rfl, hlater⟩
      · -- the request is set in the first stride; if this is completed, no cycle follows
        have hstarts' : (m.strideCourse limit (fuel + 1)).1 = before ++ s :: rest := by
          rw [hs, hstarts]
        obtain ⟨rfl, hstart, hend⟩ := courseFrom_of_cancel_first hr hh hc hstarts'
        have hm' : m' = s.step.2 := eq_of_strideCourse_of_cancel hsnd hstarts' hc
        refine ⟨?_, hstart, hend⟩
        rw [hafter, hm', courseFrom_fst_of_cancelled hc]
        rfl
      · -- the request is set in a later stride
        obtain ⟨hafter, hstart, hend⟩ := ih hlater
        refine ⟨hafter, hstart, fun status hstatus fuel' hfuel => ?_⟩
        obtain ⟨fuel', rfl⟩ : ∃ f, fuel' = f + 1 := ⟨fuel' - 1, by omega⟩
        obtain ⟨o, ho, hmachine, hresult⟩ := hend status hstatus fuel' (by omega)
        have hone := progress_strideCourse hsnd
        have hmore := strideCourse_mono (Nat.le_of_lt hfuel) hsnd
        rw [hs] at hone hmore
        refine ⟨o, ?_, hmachine, ?_⟩
        · rw [courseFrom_of_completed hr hh hmore, ho, List.append_assoc]
        · rw [hresult, reported_append hr hone, List.append_assoc]

/-! ### Whole runs -/

/-- **A request to stop ends every run at the next boundary of a cycle.** A run that is cancelled
before it starts executes no cycle. If the request is set by the poll of the cycle number `k` of a
run, counted from zero, then this cycle is completed and is the last one, also within an
instruction; the machine is left as this cycle left it. What is reported is, in this order: a halt
in the last cycle, the limit if it is used up, a breakpoint at which the machine stands, and the
request. -/
theorem request_stops_run (limit : Limit) (breakpoints : Breakpoints) (m : Machine γ κ) :
    (m.cancelled = true → ∀ fuel > 0, ∃ o, m.run fuel limit breakpoints = some o ∧
      (m.course fuel limit breakpoints).1 = [] ∧ o.machine = m ∧
      o.result = .ok (reported limit limit.strides breakpoints [] .running m)) ∧
    ∀ fuel k s, (m.course fuel limit breakpoints).1[k]? = some s → s.step.2.cancelled = true →
      s.cancelled = false ∧ (Keyboard.poll s.keyboard).1.cancels = true ∧
      ∃ before status, before.length = k ∧ s.step = (.ok status, s.step.2) ∧
        (m.course fuel limit breakpoints).1 = before ++ [s] ∧
        ∀ fuel' > fuel, ∃ o, m.run fuel' limit breakpoints = some o ∧
          (m.course fuel' limit breakpoints).1 = before ++ [s] ∧
          Path m (before ++ [s]) o.machine ∧ o.machine = s.step.2 ∧
          o.result =
            .ok (reported limit limit.strides breakpoints (before ++ [s]) status s.step.2) := by
  have hboth : ∀ {fuel starts o}, m.course fuel limit breakpoints = (starts, some o) →
      m.run fuel limit breakpoints = some o ∧ (m.course fuel limit breakpoints).1 = starts := by
    intro fuel starts o h
    rw [← course_snd, h]
    exact ⟨rfl, rfl⟩
  constructor
  · intro hcancelled fuel hfuel
    obtain ⟨fuel, rfl⟩ : ∃ f, fuel = f + 1 := ⟨fuel - 1, by omega⟩
    obtain ⟨o, ho, hmachine, hresult⟩ :=
      courseFrom_of_cancelled hcancelled limit fuel limit.strides breakpoints
    obtain ⟨hrun, hnone⟩ := hboth ho
    exact ⟨o, hrun, hnone, hmachine, hresult⟩
  · intro fuel k s hk hc
    obtain ⟨hlt, rfl⟩ := List.getElem?_eq_some_iff.1 hk
    generalize hs : (m.course fuel limit breakpoints).1[k] = s at hc ⊢
    have hstarts : (m.course fuel limit breakpoints).1 =
        (m.course fuel limit breakpoints).1.take k ++ s ::
          (m.course fuel limit breakpoints).1.drop (k + 1) := by
      rw [← hs, List.getElem_cons_drop, List.take_append_drop]
    obtain ⟨hnone, hstart, hend⟩ := courseFrom_of_cancel hstarts hc
    obtain ⟨⟨status, hstatus⟩, hpoll⟩ := step_of_cancel hstart hc
    refine ⟨hstart, hpoll, (m.course fuel limit breakpoints).1.take k, status, ?_, ?_, ?_, ?_⟩
    · exact List.length_take_of_le (Nat.le_of_lt hlt)
    · rw [← hstatus]
    · rw [hnone] at hstarts
      exact hstarts
    · intro fuel' hfuel
      obtain ⟨o, ho, hmachine, hresult⟩ := hend status hstatus fuel' hfuel
      obtain ⟨hrun, hall⟩ := hboth ho
      refine ⟨o, hrun, hall, ?_, hmachine, hresult⟩
      rw [← hall]
      exact course_path hrun

/-- A bench machine whose operator asks to stop at the seventh poll. -/
def benchStopped : Machine BenchCore BenchKeyboard :=
  { benchAtFetch with keyboard := { stops := [7] } }

/-- The seventh cycle is the second one of the second instruction: the run is stopped there, neither
at its limit of five instructions nor at a fetch. -/
theorem request_stops_run_bench :
    ∃ s o, (benchStopped.course 20 (.instructions 5) ∅).1[6]? = some s ∧
      (Keyboard.poll s.keyboard).1.cancels = true ∧
      benchStopped.run 21 (.instructions 5) ∅ = some o ∧
      (benchStopped.course 21 (.instructions 5) ∅).1.length = 7 ∧
      o.machine = s.step.2 ∧ o.machine.lines.microPc = 28 ∧ o.result = .ok .interrupted := by
  obtain ⟨s, hs⟩ : ∃ s, (benchStopped.course 20 (.instructions 5) ∅).1[6]? = some s :=
    Option.isSome_iff_exists.1 rfl
  have hlast : (benchStopped.course 20 (.instructions 5) ∅).1[6]?.map
      (fun s => (s.step.2.cancelled, s.step.2.lines.microPc)) = some (true, 28) := rfl
  rw [hs] at hlast
  obtain ⟨hc, hstate⟩ := Prod.mk.inj (Option.some.inj hlast)
  obtain ⟨-, h⟩ := request_stops_run (.instructions 5) ∅ benchStopped
  obtain ⟨-, hpoll, before, status, -, -, -, hend⟩ := h 20 6 s hs hc
  obtain ⟨o, ho, -, -, hmachine, -⟩ := hend 21 (by decide)
  have hresult : (benchStopped.run 21 (.instructions 5) ∅).map (·.result) =
      some (.ok .interrupted) := rfl
  rw [ho] at hresult
  refine ⟨s, o, hs, hpoll, ho, rfl, hmachine, ?_, Option.some.inj hresult⟩
  rw [hmachine]
  exact hstate

end Machine

end ClockStep
