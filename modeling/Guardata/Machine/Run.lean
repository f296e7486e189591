import Mathlib.Data.Nat.Notation
import Mathlib.Data.Option.Basic
import Mathlib.Tactic.ByContra

/-! # Finite runs of a partial labelled step function

`run?` plays a list of labels; a label that the step function refuses ends the run. `Along`
says that every step a run takes meets a condition on the state before it, its label and the
state after it. `run?_invariant` is the induction rule: what holds initially and survives every
step that meets the condition holds at the end of every such run.
-/

namespace Machine

variable {State Label : Type*}

/-- Play the labels from left to right. -/
def run? (step? : State → Label → Option State) : State → List Label → Option State
  | state, [] => some state
  | state, label :: rest => (step? state label).bind fun next => run? step? next rest

/-- Every step that the run takes meets the condition. -/
def Along (step? : State → Label → Option State) (cond : State → Label → State → Prop) :
    State → List Label → Prop
  | _, [] => True
  | state, label :: rest =>
      ∀ next, step? state label = some next → cond state label next ∧ Along step? cond next rest

variable {step? : State → Label → Option State} {cond : State → Label → State → Prop}

/-- A condition that can be checked can be checked along a run. -/
instance decidableAlong [∀ state label next, Decidable (cond state label next)] (source : State) (labels : List Label) :
    Decidable (Along step? cond source labels) :=
  match labels with
  | [] => isTrue trivial
  | label :: rest =>
      match step : step? source label with
      | none => isTrue fun _ taken => nomatch step.symm.trans taken
      | some next =>
          have := decidableAlong next rest
          decidable_of_iff (cond source label next ∧ Along step? cond next rest)
            ⟨fun both _ taken => by cases step.symm.trans taken; exact both, fun all => all next step⟩

theorem run?_append (source : State) (first second : List Label) :
    run? step? source (first ++ second) =
      (run? step? source first).bind fun middle => run? step? middle second := by
  induction first generalizing source with
  | nil => rfl
  | cons label rest ih =>
    rw [List.cons_append, run?, run?, Option.bind_assoc]
    congr 1
    funext next
    exact ih next

/-- What each conditioned step preserves, the whole run preserves. -/
theorem run?_invariant {inv : State → Prop}
    (preserved : ∀ state label next, step? state label = some next → cond state label next →
      inv state → inv next)
    {source target : State} {labels : List Label} (meets : Along step? cond source labels)
    (played : run? step? source labels = some target) (initial : inv source) : inv target := by
  induction labels generalizing source with
  | nil => cases played; exact initial
  | cons label rest ih =>
    obtain ⟨next, step, suffix⟩ := Option.bind_eq_some_iff.mp played
    have here := meets next step
    exact ih here.2 suffix (preserved _ _ _ step here.1 initial)

/-- The unconditioned induction rule. -/
theorem run?_preserves {inv : State → Prop}
    (preserved : ∀ state label next, step? state label = some next → inv state → inv next)
    {source target : State} {labels : List Label}
    (played : run? step? source labels = some target) (initial : inv source) : inv target := by
  have unconditioned : Along step? (fun _ _ _ => True) source labels := by
    clear played initial
    induction labels generalizing source with
    | nil => trivial
    | cons label rest ih => exact fun next _ => ⟨trivial, ih⟩
  exact run?_invariant (fun state label next step _ => preserved state label next step) unconditioned
    played initial

/-- A condition on the labels alone. -/
theorem along_of_forall_mem {allowed : Label → Prop} {labels : List Label}
    (all : ∀ label ∈ labels, allowed label) {source : State} :
    Along step? (fun _ label _ => allowed label) source labels := by
  induction labels generalizing source with
  | nil => trivial
  | cons label rest ih =>
    intro next _
    exact ⟨all label (List.mem_cons_self ..), ih fun other member => all other
      (List.mem_cons_of_mem _ member)⟩

theorem Along.and {other : State → Label → State → Prop} {source : State} {labels : List Label}
    (first : Along step? cond source labels) (second : Along step? other source labels) :
    Along step? (fun state label next => cond state label next ∧ other state label next) source
      labels := by
  induction labels generalizing source with
  | nil => trivial
  | cons label rest ih =>
    intro next step
    exact ⟨⟨(first next step).1, (second next step).1⟩, ih (first next step).2 (second next step).2⟩

/-- A condition that keeps an invariant and, with it, gives another condition, gives it along every
run. -/
theorem along_of_invariant (inv : State → Prop) {goal : State → Label → State → Prop}
    (gives : ∀ state label next, inv state → step? state label = some next →
      cond state label next → goal state label next)
    (preserved : ∀ state label next, inv state → step? state label = some next →
      cond state label next → inv next)
    {source : State} (initial : inv source) {labels : List Label}
    (meets : Along step? cond source labels) : Along step? goal source labels := by
  induction labels generalizing source with
  | nil => trivial
  | cons label rest ih =>
    intro next step
    obtain ⟨here, later⟩ := meets next step
    exact ⟨gives _ _ _ initial step here, ih (preserved _ _ _ initial step here) later⟩

/-- Two conditions that agree wherever an invariant holds hold along the same runs, if either of
them carries the invariant over a step. -/
theorem along_congr (inv : State → Prop) {first second : State → Label → State → Prop}
    (agree : ∀ state label next, inv state → step? state label = some next →
      (first state label next ↔ second state label next))
    (preserved : ∀ state label next, inv state → step? state label = some next →
      second state label next → inv next)
    {source : State} (initial : inv source) (labels : List Label) :
    Along step? first source labels ↔ Along step? second source labels := by
  induction labels generalizing source with
  | nil => exact Iff.rfl
  | cons label rest ih =>
    refine forall_congr' fun next => imp_congr_right fun step => ?_
    rw [agree source label next initial step]
    exact and_congr_right fun holds => ih (preserved source label next initial step holds)

end Machine
