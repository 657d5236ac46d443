import ClockStep.Machine.Basic
import Mathlib.Data.List.Induction

/-!
# What the Interrupt Lines Say

The controller keeps five values between two calls, and no caller sees them except when the lines
are driven. This module says what the lines show at any drive, in terms of the calls before it and
of nothing else: the latest raise, whether it was acknowledged since, and whether an acknowledge is
still to be answered.

The two conditions are of one kind. A call of some sort is to be found, and behind it none of some
other sort (`Since`); appending a call changes this in one way (`since_concat`). `Follows` puts the
controller beside the calls that led to it, one call keeps this (`Follows.run`), and the rest is
reading it off at a drive.

## Convention

A drive is given the inputs onto which the lines are driven, whatever they are; the inputs that an
earlier drive left are a special case.

## Main results

* `follows_replay`: the controller is determined by the calls before.
* `pulses_shown`: drive by drive, the answers to acknowledges are the groups of calls between the
  drives that have an acknowledge in them.
* `lines_follow_calls`: the two together, for the lines that the drives show.
-/

namespace ClockStep

namespace InterruptController

/-! ### Calls -/

/-- A call of an interrupt controller. -/
inductive Call where
  | raise (request : Interrupt)
  /-- The keyboard raises a character. -/
  | raiseKey (character : Byte)
  | acknowledge
  /-- The lines are driven onto inputs. -/
  | drive (inputs : InputLines)
deriving Repr, DecidableEq

namespace Call

/-- The request that a call raises. -/
def request? : Call → Option Interrupt
  | .raise request => some request
  | .raiseKey character => some (.ofKey character)
  | .acknowledge | .drive _ => none

/-- The inputs onto which a call drives the lines. -/
def inputs? : Call → Option InputLines
  | .drive inputs => some inputs
  | .raise _ | .raiseKey _ | .acknowledge => none

/-- The controller after a call. -/
def run (c : InterruptController) : Call → InterruptController
  | .raise request => c.raise request
  | .raiseKey character => c.raise (.ofKey character)
  | .acknowledge => c.acknowledge
  | .drive _ => c.afterDrive

/-- The inputs with the lines driven onto them, if a call does so. -/
def shown? (c : InterruptController) (call : Call) : Option InputLines :=
  call.inputs?.map c.driven

end Call

/-- The controller after some calls. -/
def replay (c : InterruptController) (calls : List Call) : InterruptController :=
  calls.foldl Call.run c

/-- The inputs that the drives among some calls leave, in order. -/
def shown (c : InterruptController) : List Call → List InputLines
  | [] => []
  | call :: calls => (call.shown? c).toList ++ (call.run c).shown calls

/-- What calls show, they show one after the other. -/
theorem shown_append (c : InterruptController) (calls later : List Call) :
    c.shown (calls ++ later) = c.shown calls ++ (c.replay calls).shown later := by
  induction calls generalizing c with
  | nil => rfl
  | cons call calls ih =>
      rw [List.cons_append, shown, shown, ih, List.append_assoc]
      rfl

/-! ### What the calls before a drive amount to -/

/-- The latest request among some calls; one of zeros only if there was none. -/
def latestOf (calls : List Call) : Interrupt :=
  (calls.filterMap Call.request?).getLast?.getD { vector := 0, priority := 0, data := 0 }

/-- Some call is a `p`, and behind it there is no `q`. -/
def Since (p q : Call → Prop) (calls : List Call) : Prop :=
  ∃ front call back, calls = front ++ call :: back ∧ p call ∧ ∀ later ∈ back, ¬ q later

/-- A request **waits** when there was a raise, and behind the latest one no acknowledge. -/
def Waits : List Call → Prop :=
  Since (fun call => call.request?.isSome) fun call => call.request?.isSome ∨ call = .acknowledge

/-- An acknowledge is **unanswered** when there was no drive behind it. -/
def Unanswered : List Call → Prop :=
  Since (fun call => call = .acknowledge) fun call => call.inputs?.isSome

/-- Before any call, nothing has happened since another. -/
theorem not_since_nil (p q : Call → Prop) : ¬ Since p q [] := by
  rintro ⟨front, call, back, h, -⟩
  exact List.append_ne_nil_of_right_ne_nil front (List.cons_ne_nil call back) h.symm

/-- One more call is what was to be found, or it leaves to be found what was there already. -/
theorem since_concat {p q : Call → Prop} {calls : List Call} {call : Call} :
    Since p q (calls ++ [call]) ↔ p call ∨ (Since p q calls ∧ ¬ q call) := by
  constructor
  · rintro ⟨front, found, back, h, hfound, hback⟩
    rcases List.eq_nil_or_concat back with rfl | ⟨back, last, rfl⟩
    · obtain ⟨-, rfl⟩ := List.append_singleton_inj.1 h
      exact .inl hfound
    · rw [List.concat_eq_append] at h hback
      rw [← List.cons_append, ← List.append_assoc] at h
      obtain ⟨rfl, rfl⟩ := List.append_singleton_inj.1 h
      refine .inr ⟨⟨front, found, back, rfl, hfound, fun later hlater => ?_⟩, ?_⟩
      · exact hback later (List.mem_append_left _ hlater)
      · exact hback call (List.mem_append_right _ (List.mem_singleton_self call))
  · rintro (hcall | ⟨⟨front, found, back, rfl, hfound, hback⟩, hcall⟩)
    · exact ⟨calls, call, [], rfl, hcall, List.forall_mem_nil _⟩
    · refine ⟨front, found, back ++ [call], by simp, hfound, fun later hlater => ?_⟩
      rcases List.mem_append.1 hlater with hlater | hlater
      · exact hback later hlater
      · obtain rfl := List.mem_singleton.1 hlater
        exact hcall

/-- A call that raises is the latest; any other leaves the one before. -/
theorem latestOf_concat (calls : List Call) (call : Call) :
    latestOf (calls ++ [call]) = call.request?.getD (latestOf calls) := by
  rw [latestOf, latestOf, List.filterMap_append]
  cases h : call.request? with
  | none => simp [h]
  | some request => simp [h]

/-- A raise waits, until it is acknowledged. -/
theorem waits_concat {calls : List Call} {call : Call} :
    Waits (calls ++ [call]) ↔
      call.request?.isSome ∨ (Waits calls ∧ call ≠ .acknowledge) := by
  rw [Waits, since_concat, not_or]
  constructor
  · rintro (h | ⟨h, -, hne⟩)
    · exact .inl h
    · exact .inr ⟨h, hne⟩
  · rintro (h | ⟨h, hne⟩)
    · exact .inl h
    · by_cases hraise : call.request?.isSome
      · exact .inl hraise
      · exact .inr ⟨h, hraise, hne⟩

/-! ### The controller beside its calls -/

/-- A controller **follows** calls when its values are what the calls amount to. -/
structure Follows (calls : List Call) (c : InterruptController) : Prop where
  latest : c.latest = latestOf calls
  pending : c.pending = true ↔ Waits calls
  acknowledged : c.acknowledged = true ↔ Unanswered calls

/-- Before any call, the controller is as it starts. -/
theorem follows_nil : Follows [] {} where
  latest := rfl
  pending := ⟨nofun, fun h => absurd h (not_since_nil _ _)⟩
  acknowledged := ⟨nofun, fun h => absurd h (not_since_nil _ _)⟩

/-- One call. -/
theorem Follows.run {calls : List Call} {c : InterruptController} (h : Follows calls c)
    (call : Call) : Follows (calls ++ [call]) (call.run c) := by
  obtain ⟨hlatest, hpending, hacknowledged⟩ := h
  constructor
  · rw [latestOf_concat, ← hlatest]
    cases call <;> rfl
  · rw [waits_concat, ← hpending]
    cases call <;>
      simp [Call.run, Call.request?, raise, InterruptController.acknowledge, afterDrive]
  · rw [Unanswered, since_concat, ← Unanswered, ← hacknowledged]
    cases call <;>
      simp [Call.run, Call.inputs?, raise, InterruptController.acknowledge, afterDrive]

/-- **The controller is determined by the calls before.** -/
theorem follows_replay (calls : List Call) :
    Follows calls (({} : InterruptController).replay calls) := by
  induction calls using List.reverseRecOn with
  | nil => exact follows_nil
  | append_singleton calls call ih =>
      rw [replay, List.foldl_append]
      exact ih.run call

/-! ### Pulses -/

/-- The groups of calls before the first drive, between the drives, and so on up to the last one. -/
def groups (calls : List Call) : List (List Call) :=
  (calls.splitOnP fun call => call.inputs?.isSome).dropLast

/-- Each drive begins a group. -/
theorem groups_cons_drive (inputs : InputLines) (calls : List Call) :
    groups (.drive inputs :: calls) = [] :: groups calls := by
  have hne := List.splitOnP_ne_nil (fun call : Call => call.inputs?.isSome) calls
  have hdrive : (Call.drive inputs).inputs?.isSome = true := rfl
  rw [groups, List.splitOnP_cons_eq_if_modifyHead, if_pos hdrive, List.dropLast_cons_of_ne_nil hne]
  rfl

/-- Any other call belongs to the group it stands in. -/
theorem groups_cons_other {call : Call} (h : call.inputs? = none) (calls : List Call) :
    groups (call :: calls) = (groups calls).modifyHead (call :: ·) := by
  rw [groups, groups, List.splitOnP_cons_eq_if_modifyHead, if_neg (by simp [h])]
  generalize calls.splitOnP (fun call => call.inputs?.isSome) = pieces
  rcases pieces with _ | ⟨first, _ | ⟨second, rest⟩⟩ <;> rfl

/-- **Each group with an acknowledge is answered by one pulse**, at the drive that ends it; an
acknowledge from before counts to the first group. -/
theorem pulses_shown (c : InterruptController) (calls : List Call) :
    (c.shown calls).map (·.acknowledgeClear) =
      ((groups calls).map fun group => decide (.acknowledge ∈ group)).modifyHead
        (c.acknowledged || ·) := by
  induction calls generalizing c with
  | nil => rfl
  | cons call calls ih =>
      cases hcall : call.inputs? with
      | some inputs =>
          obtain rfl : call = .drive inputs := by
            cases call <;> cases hcall
            rfl
          have hpulses : (c.shown (.drive inputs :: calls)).map (·.acknowledgeClear) =
              c.acknowledged :: (c.afterDrive.shown calls).map (·.acknowledgeClear) := rfl
          have hlater : ∀ pulses : List Bool,
              pulses.modifyHead (c.afterDrive.acknowledged || ·) = pulses := by
            intro pulses
            cases pulses <;> rfl
          rw [hpulses, ih, groups_cons_drive, hlater]
          simp
      | none =>
          have hpulses : c.shown (call :: calls) = (call.run c).shown calls := by
            rw [shown, Call.shown?, hcall]
            rfl
          have hheld : (call.run c).acknowledged =
              (decide (call = .acknowledge) || c.acknowledged) := by
            cases call with
            | drive inputs => cases hcall
            | raise request | raiseKey character | acknowledge => rfl
          rw [hpulses, ih, groups_cons_other hcall, hheld]
          cases groups calls with
          | nil => rfl
          | cons group rest => simp [Bool.or_assoc, Bool.or_left_comm, eq_comm]

/-! ### The lines at a drive -/

/-- **The lines follow the calls.** Take any calls of a new controller. At each drive among them,
vector, priority and data are those of the latest raise before, or zero; a device waits if and only
if there was a raise and no acknowledge behind the latest one; the acknowledge is answered if and
only if there was one behind the drive before; and what else the inputs say is left alone. So, drive
by drive, there is one pulse for each group of calls between two drives that has an acknowledge in
it, and none for the others. -/
theorem lines_follow_calls (calls : List Call) :
    (∀ before inputs after, calls = before ++ .drive inputs :: after →
      ∃ lines later,
        ({} : InterruptController).shown calls =
          ({} : InterruptController).shown before ++ lines :: later ∧
        lines.vector = (latestOf before).vector ∧
        lines.priority = (latestOf before).priority ∧
        lines.data = (latestOf before).data ∧
        (lines.deviceReady = true ↔ Waits before) ∧
        (lines.acknowledgeClear = true ↔ Unanswered before) ∧
        lines.clock = inputs.clock ∧ lines.reset = inputs.reset ∧
        lines.resetVector = inputs.resetVector) ∧
    (({} : InterruptController).shown calls).map (·.acknowledgeClear) =
      (groups calls).map fun group => decide (.acknowledge ∈ group) := by
  constructor
  · rintro before inputs after rfl
    obtain ⟨hlatest, hpending, hacknowledged⟩ := follows_replay before
    generalize hc : ({} : InterruptController).replay before = c at hlatest hpending hacknowledged
    refine ⟨c.driven inputs, c.afterDrive.shown after, ?_, ?_, ?_, ?_, hpending, hacknowledged,
      rfl, rfl, rfl⟩
    · rw [shown_append, hc]
      rfl
    · exact congrArg Interrupt.vector hlatest
    · exact congrArg Interrupt.priority hlatest
    · exact congrArg Interrupt.data hlatest
  · have hfirst : ∀ pulses : List Bool, pulses.modifyHead (false || ·) = pulses := by
      intro pulses
      cases pulses <;> rfl
    exact (pulses_shown {} calls).trans (hfirst _)

/-- Two acknowledges with nothing to be acknowledged, and then one with a key raised behind it. -/
def rearmed : List Call :=
  [.acknowledge, .acknowledge, .drive {}, .raise { vector := 0x81, priority := 2 }, .acknowledge,
    .raiseKey 0x71]

/-- The two acknowledges are answered by one pulse. The key has the lines to itself, and the answer
to the acknowledge before it comes all the same. -/
theorem lines_follow_calls_rearmed :
    ∃ first lines last,
      ({} : InterruptController).shown (rearmed ++ [.drive { clock := true }, .drive {}]) =
        [first, lines, last] ∧
      [first, lines, last].map (·.acknowledgeClear) = [true, true, false] ∧
      lines.vector = 0x80 ∧ lines.priority = 4 ∧ lines.data = 0x71 ∧ lines.deviceReady = true ∧
      lines.clock = true := by
  obtain ⟨hdrives, hpulses⟩ := lines_follow_calls (rearmed ++ [.drive { clock := true }, .drive {}])
  obtain ⟨lines, later, hshown, hvector, hpriority, hdata, hready, -, hclock, -, -⟩ :=
    hdrives rearmed { clock := true } [.drive {}] rfl
  obtain ⟨first, last, hall⟩ : ∃ first last,
      ({} : InterruptController).shown (rearmed ++ [.drive { clock := true }, .drive {}]) =
        [first, lines, last] := by
    obtain rfl : [_] = later := (List.cons.inj (List.cons.inj hshown).2).2
    exact ⟨_, _, hshown⟩
  have hwaits : Waits rearmed := ⟨rearmed.dropLast, .raiseKey 0x71, [], rfl, rfl, by simp⟩
  rw [hall] at hpulses
  exact ⟨first, lines, last, hall, hpulses, hvector, hpriority, hdata, hready.2 hwaits, hclock⟩

end InterruptController

end ClockStep
