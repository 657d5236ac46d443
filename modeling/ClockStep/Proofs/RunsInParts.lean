import ClockStep.Proofs.CycleByCycle

/-!
# Runs in Parts

Whether an operator lets the machine go for `a + b` cycles or first for `a` and then for `b` makes
no difference, and the same goes for instructions: what stops a run at the cut is found by the
second part if it was not reported by the first.

A run needs fuel, and how it is shared out over the parts is of no interest. `Ends` is the run
without fuel: it ends with an outcome if it does so for some amount of fuel, and then with no other
(`Ends.unique`). The two ways of going are compared by the outcomes that they end with, which covers
runs that never end as well.

The count of strides that are left is a natural number here, whose difference stops at zero.
`runCheckedFrom` is the run with a difference that faults instead; it never does.

## Main results

* `runFrom_add_of_stopped`, `runFrom_add_of_completed`, `exists_part_of_runFrom_add`: what a longer
  run makes of a shorter one.
* `runCheckedFrom_eq`: what is left of a limit is never counted down below zero.
* `run_in_parts`: a run that is bounded can be cut anywhere.
-/

namespace ClockStep

namespace Machine

variable {γ κ : Type} [Core γ] [Keyboard κ]
variable {limit : Limit} {fuel : Nat} {breakpoints : Breakpoints} {m : Machine γ κ}
  {o : Outcome γ κ}

/-! ### Turns -/

/-- A turn that has ended is the same with more fuel. -/
theorem turn_mono {fuel' : Nat} (hle : fuel ≤ fuel') {t : Except (Outcome γ κ) (Machine γ κ)}
    (h : m.turn limit fuel breakpoints = some t) :
    m.turn limit fuel' breakpoints = some t := by
  rcases hh : m.hit? breakpoints with _ | ⟨address, rest⟩
  · rw [turn_of_hit?_eq_none _ _ hh] at h ⊢
    obtain ⟨s, hs, rfl⟩ := Option.map_eq_some_iff.1 h
    rw [stride_mono hle hs]
    rfl
  · rw [turn_of_hit?_eq_some _ _ hh] at h ⊢
    exact h

/-- A turn never says that the limit is used up. -/
theorem turn_error_ne_completed (h : m.turn limit fuel breakpoints = some (.error o)) :
    o.result ≠ .ok .completed := by
  rcases hh : m.hit? breakpoints with _ | ⟨address, rest⟩
  · rw [turn_of_hit?_eq_none _ _ hh] at h
    obtain ⟨⟨(e | _ | reason), m₁⟩, hs, hset⟩ := Option.map_eq_some_iff.1 h
    · cases hset
      nofun
    · cases hset
    · cases hset
      rcases Stride.reason hs with rfl | rfl | rfl <;> nofun
  · rw [turn_of_hit?_eq_some _ _ hh] at h
    cases h
    nofun

/-- A run with strides left ends in its first turn or after it. -/
theorem runFrom_succ_eq_some_iff {n : Nat} :
    runFrom limit (fuel + 1) (some (n + 1)) breakpoints m = some o ↔
      m.turn limit (fuel + 1) breakpoints = some (.error o) ∨
        ∃ m', m.turn limit (fuel + 1) breakpoints = some (.ok m') ∧
          runFrom limit fuel (some n) breakpoints m' = some o := by
  rw [runFrom_succ_of_ne fuel (by simp)]
  rcases m.turn limit (fuel + 1) breakpoints with _ | (o₁ | m₁) <;> simp

/-- A run of no strides is completed at once. -/
theorem runFrom_zero (fuel : Nat) :
    runFrom limit (fuel + 1) (some 0) breakpoints m = some ⟨.ok .completed, m, breakpoints⟩ := by
  rw [runFrom, if_pos rfl]

/-! ### Shorter runs and longer ones -/

/-- What stops a run stops a longer one. -/
theorem runFrom_add_of_stopped {a : Nat} (b : Nat)
    (h : runFrom limit fuel (some a) breakpoints m = some o) (hne : o.result ≠ .ok .completed) :
    runFrom limit fuel (some (a + b)) breakpoints m = some o := by
  induction fuel generalizing a m with
  | zero => cases h
  | succ fuel ih =>
      cases a with
      | zero =>
          rw [runFrom_zero] at h
          cases h
          exact absurd rfl hne
      | succ a =>
          rw [Nat.succ_add, runFrom_succ_eq_some_iff]
          rcases runFrom_succ_eq_some_iff.1 h with ht | ⟨m', ht, h⟩
          · exact Or.inl ht
          · exact Or.inr ⟨m', ht, ih h⟩

/-- A run that used up its limit may go on for more. -/
theorem runFrom_add_of_completed {a b fuel' : Nat} {o' : Outcome γ κ}
    (h : runFrom limit fuel (some a) breakpoints m = some o)
    (hcompleted : o.result = .ok .completed)
    (h' : runFrom limit fuel' (some b) o.breakpoints o.machine = some o') :
    runFrom limit (fuel + fuel') (some (a + b)) breakpoints m = some o' := by
  induction fuel generalizing a m with
  | zero => cases h
  | succ fuel ih =>
      cases a with
      | zero =>
          rw [runFrom_zero] at h
          cases h
          rw [Nat.zero_add]
          exact runFrom_mono (Nat.le_add_left ..) h'
      | succ a =>
          rw [Nat.succ_add a, Nat.succ_add fuel, runFrom_succ_eq_some_iff]
          rcases runFrom_succ_eq_some_iff.1 h with ht | ⟨m', ht, h⟩
          · exact absurd hcompleted (turn_error_ne_completed ht)
          · exact Or.inr ⟨m', turn_mono (by omega) ht, ih h⟩

/-- A run has a first part, which ends: it is stopped, as the whole run is, or it uses up its limit
and the rest of the run follows. -/
theorem exists_part_of_runFrom_add {a b : Nat}
    (h : runFrom limit fuel (some (a + b)) breakpoints m = some o) :
    ∃ o₁, runFrom limit fuel (some a) breakpoints m = some o₁ ∧
      ((o₁.result = .ok .completed ∧
          runFrom limit fuel (some b) o₁.breakpoints o₁.machine = some o) ∨
        (o₁.result ≠ .ok .completed ∧ o = o₁)) := by
  induction fuel generalizing a m with
  | zero => cases h
  | succ fuel ih =>
      cases a with
      | zero =>
          rw [Nat.zero_add] at h
          exact ⟨⟨.ok .completed, m, breakpoints⟩, runFrom_zero fuel, Or.inl ⟨rfl, h⟩⟩
      | succ a =>
          rw [Nat.succ_add] at h
          rcases runFrom_succ_eq_some_iff.1 h with ht | ⟨m', ht, h⟩
          · exact ⟨o, runFrom_succ_eq_some_iff.2 (Or.inl ht),
              Or.inr ⟨turn_error_ne_completed ht, rfl⟩⟩
          · obtain ⟨o₁, h₁, hrest⟩ := ih h
            refine ⟨o₁, runFrom_succ_eq_some_iff.2 (Or.inr ⟨m', ht, h₁⟩), ?_⟩
            rcases hrest with ⟨hcompleted, hsecond⟩ | hstopped
            · exact Or.inl ⟨hcompleted, runFrom_succ hsecond⟩
            · exact Or.inr hstopped

/-! ### Counting down -/

/-- `runFrom` with a count of strides that faults rather than pass below zero. -/
def runCheckedFrom (limit : Limit) :
    Nat → Option Nat → Breakpoints → Machine γ κ → Option (Except Fault (Outcome γ κ))
  | 0, _, _, _ => none
  | fuel + 1, remaining, breakpoints, m =>
    if remaining = some 0 then some (.ok ⟨.ok .completed, m, breakpoints⟩)
    else match m.hit? breakpoints with
      | some (address, rest) => some (.ok ⟨.ok (.breakpoint address), m, rest⟩)
      | none =>
        match m.stride limit (fuel + 1) with
        | none => none
        | some (.ok none, m) =>
          match remaining.mapM fun n => Checked.sub n 1 with
          | .ok remaining => runCheckedFrom limit fuel remaining breakpoints m
          | .error fault => some (.error fault)
        | some (.ok (some reason), m) => some (.ok ⟨.ok reason, m, breakpoints⟩)
        | some (.error e, m) => some (.ok ⟨.error e, m, breakpoints⟩)

/-- A count that is not zero can be counted down. -/
theorem mapM_sub_one {remaining : Option Nat} (hr : remaining ≠ some 0) :
    (remaining.mapM fun n => Checked.sub n 1) = Except.ok (remaining.map (· - 1)) := by
  rcases remaining with _ | n
  · rfl
  · have hpos : 1 ≤ n := Nat.one_le_iff_ne_zero.2 fun h => hr (congrArg some h)
    have hsub : Checked.sub n 1 = .ok (n - 1) := if_pos hpos
    change some <$> Checked.sub n 1 = _
    rw [hsub]
    rfl

/-- **The count never passes below zero.** -/
theorem runCheckedFrom_eq (limit : Limit) (fuel : Nat) (remaining : Option Nat)
    (breakpoints : Breakpoints) (m : Machine γ κ) :
    runCheckedFrom limit fuel remaining breakpoints m =
      (runFrom limit fuel remaining breakpoints m).map .ok := by
  induction fuel generalizing remaining m with
  | zero => rfl
  | succ fuel ih =>
      rw [runCheckedFrom, runFrom]
      by_cases hr : remaining = some 0
      · rw [if_pos hr, if_pos hr]
        rfl
      rw [if_neg hr, if_neg hr]
      rcases m.hit? breakpoints with _ | ⟨address, rest⟩
      · rcases m.stride limit (fuel + 1) with _ | ⟨(e | _ | reason), m₁⟩
        · rfl
        · rfl
        · dsimp only
          rw [mapM_sub_one hr]
          exact ih _ m₁
        · rfl
      · rfl

/-! ### Cutting a run -/

/-- A run **ends** with an outcome when it does so for some amount of fuel. -/
def Ends (m : Machine γ κ) (limit : Limit) (breakpoints : Breakpoints) (o : Outcome γ κ) : Prop :=
  ∃ fuel, m.run fuel limit breakpoints = some o

/-- A run ends in one way only. -/
theorem Ends.unique {o' : Outcome γ κ} (h : m.Ends limit breakpoints o)
    (h' : m.Ends limit breakpoints o') : o = o' := by
  obtain ⟨fuel, hrun⟩ := h
  obtain ⟨fuel', hrun'⟩ := h'
  have hmore := runFrom_mono (Nat.le_add_right fuel fuel') hrun
  have hmore' := runFrom_mono (Nat.le_add_left fuel' fuel) hrun'
  exact Option.some.inj (hmore.symm.trans hmore')

/-- Only the kind of a limit matters to the strides of a run. -/
theorem runFrom_congr {limit' : Limit}
    (hl : ∀ (fuel : Nat) (m : Machine γ κ), m.stride limit fuel = m.stride limit' fuel) (fuel : Nat)
    (remaining : Option Nat) (breakpoints : Breakpoints) (m : Machine γ κ) :
    runFrom limit fuel remaining breakpoints m = runFrom limit' fuel remaining breakpoints m := by
  induction fuel generalizing remaining m with
  | zero => rfl
  | succ fuel ih =>
      simp only [runFrom, hl, ih]

/-- **A run can be cut anywhere.** A run by `a + b` cycles, or by `a + b` instructions, ends with an
outcome if and only if a run by `a` of them ends with this outcome or, having used up its limit, is
followed by a run by `b` of them that does; and a run ends in one way only. Counting down what is
left of the limit never passes below zero. -/
theorem run_in_parts {limit : Nat → Limit} (hlimit : limit = .cycles ∨ limit = .instructions)
    (a b : Nat) (breakpoints : Breakpoints) (m : Machine γ κ) :
    (∀ o, m.Ends (limit (a + b)) breakpoints o ↔
      ∃ o₁, m.Ends (limit a) breakpoints o₁ ∧
        ((o₁.result = .ok .completed ∧ o₁.machine.Ends (limit b) o₁.breakpoints o) ∨
          (o₁.result ≠ .ok .completed ∧ o = o₁))) ∧
    (∀ n o o', m.Ends (limit n) breakpoints o → m.Ends (limit n) breakpoints o' → o = o') ∧
    ∀ n fuel, runCheckedFrom (limit n) fuel (limit n).strides breakpoints m =
      (m.run fuel (limit n) breakpoints).map .ok := by
  have hcount : ∀ n, (limit n).strides = some n := by
    rcases hlimit with rfl | rfl <;> exact fun _ => rfl
  have hkind : ∀ n fuel (m : Machine γ κ), m.stride (limit n) fuel = m.stride (limit 0) fuel := by
    rcases hlimit with rfl | rfl <;> exact fun _ _ _ => rfl
  have hrun : ∀ n fuel breakpoints (m : Machine γ κ),
      m.run fuel (limit n) breakpoints = runFrom (limit 0) fuel (some n) breakpoints m := by
    intro n fuel breakpoints m
    rw [run, hcount]
    exact runFrom_congr (hkind n) ..
  refine ⟨fun o => ⟨?_, ?_⟩, fun n o o' => Ends.unique, fun n fuel => runCheckedFrom_eq ..⟩
  · rintro ⟨fuel, h⟩
    rw [hrun] at h
    obtain ⟨o₁, hfirst, hrest⟩ := exists_part_of_runFrom_add h
    refine ⟨o₁, ⟨fuel, by rw [hrun, hfirst]⟩, ?_⟩
    rcases hrest with ⟨hcompleted, hsecond⟩ | hstopped
    · exact Or.inl ⟨hcompleted, fuel, by rw [hrun, hsecond]⟩
    · exact Or.inr hstopped
  · rintro ⟨o₁, ⟨fuel, hfirst⟩, ⟨hcompleted, fuel', hsecond⟩ | ⟨hstopped, rfl⟩⟩
    · rw [hrun] at hfirst hsecond
      refine ⟨fuel + fuel', ?_⟩
      rw [hrun]
      exact runFrom_add_of_completed hfirst hcompleted hsecond
    · rw [hrun] at hfirst
      refine ⟨fuel, ?_⟩
      rw [hrun]
      exact runFrom_add_of_stopped b hfirst hstopped

/-- Five instructions of the bench machine, cut after the second one, where a breakpoint is: the
first part uses up its limit and the second part reports the breakpoint, as the whole run does. -/
theorem run_in_parts_bench :
    ∃ o₁ o, benchAtFetch.run 20 (.instructions 2) benchStops = some o₁ ∧
      o₁.result = .ok .completed ∧
      o₁.machine.run 20 (.instructions 3) o₁.breakpoints = some o ∧
      o.result = .ok (.breakpoint 2) ∧ benchAtFetch.Ends (.instructions (2 + 3)) benchStops o := by
  obtain ⟨o₁, hfirst⟩ : ∃ o, benchAtFetch.run 20 (.instructions 2) benchStops = some o :=
    Option.isSome_iff_exists.1 rfl
  have hpart : (benchAtFetch.run 20 (.instructions 2) benchStops).map
      (fun o => (o.result, (o.machine.run 20 (.instructions 3) o.breakpoints).map (·.result))) =
      some (.ok .completed, some (.ok (.breakpoint 2))) := rfl
  rw [hfirst] at hpart
  obtain ⟨hcompleted, hrest⟩ := Prod.mk.inj (Option.some.inj hpart)
  obtain ⟨o, hsecond, hresult⟩ := Option.map_eq_some_iff.1 hrest
  obtain ⟨hcut, -⟩ := run_in_parts (Or.inr rfl) 2 3 benchStops benchAtFetch
  refine ⟨o₁, o, hfirst, hcompleted, hsecond, hresult, (hcut o).2 ?_⟩
  exact ⟨o₁, ⟨20, hfirst⟩, Or.inl ⟨hcompleted, 20, hsecond⟩⟩

end Machine

end ClockStep
