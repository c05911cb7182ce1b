import Mathlib.Logic.Basic

namespace Memos
namespace Library

/-!
# Labelled machines

A machine takes a step for a label, or refuses the label.  A sequence of labels
runs it up to the first refusal.  What is asked of every step of a run can be
shown along an invariant, which may in its turn depend on what the steps before
have satisfied.
-/

variable {σ Label : Type}

/-- Every step satisfies the property, up to a label that is refused. -/
def Throughout (step : σ -> Label -> Option σ) (property : σ -> Label -> σ -> Prop) :
    σ -> List Label -> Prop
  | _, [] => True
  | state, label :: labels =>
      match step state label with
      | none => True
      | some next => property state label next ∧ Throughout step property next labels

section Throughout

variable {step : σ -> Label -> Option σ} {property condition : σ -> Label -> σ -> Prop}

theorem throughout_cons {state next : σ} {label : Label} {labels : List Label}
    (steps : step state label = some next) :
    Throughout step property state (label :: labels) ↔
      property state label next ∧ Throughout step property next labels := by
  rw [Throughout, steps]

/-- The last step of a run has the property. -/
theorem throughout_last {start state next : σ} {labels : List Label} {label : Label}
    (holds : Throughout step property start (labels ++ [label]))
    (reached : labels.foldlM step start = some state) (steps : step state label = some next) :
    property state label next := by
  induction labels generalizing start with
  | nil =>
      cases reached
      exact ((throughout_cons steps).mp holds).1
  | cons first labels ih =>
      rw [List.foldlM_cons] at reached
      rcases Option.bind_eq_some_iff.mp reached with ⟨middle, one, others⟩
      exact ih ((throughout_cons one).mp holds).2 others

/-- Two properties of the steps are the same along a run when they are the same
wherever an invariant holds, which they keep. -/
theorem throughout_iff {invariant : σ -> Prop}
    (same : ∀ state label next, invariant state -> step state label = some next ->
      (property state label next ↔ condition state label next))
    (kept : ∀ state label next, invariant state -> step state label = some next ->
      condition state label next -> invariant next)
    {start : σ} (holds : invariant start) (labels : List Label) :
    Throughout step property start labels ↔ Throughout step condition start labels := by
  induction labels generalizing start with
  | nil => exact Iff.rfl
  | cons label labels ih =>
      cases steps : step start label with
      | none => rw [Throughout, Throughout, steps]
      | some next =>
          rw [throughout_cons steps, throughout_cons steps, same start label next holds steps]
          exact and_congr_right fun given =>
            ih (kept start label next holds steps given)

/-- Steps that meet a condition keep an invariant, and with it what the invariant
says of every state that is reached. -/
theorem throughout_of_invariant {invariant : σ -> Prop}
    (kept : ∀ state label next, invariant state -> step state label = some next ->
      condition state label next -> invariant next)
    (gives : ∀ state label next, invariant next -> property state label next)
    {start : σ} (holds : invariant start) {labels : List Label}
    (meets : Throughout step condition start labels) : Throughout step property start labels := by
  induction labels generalizing start with
  | nil => exact trivial
  | cons label labels ih =>
      cases steps : step start label with
      | none =>
          rw [Throughout, steps]
          exact trivial
      | some next =>
          rw [throughout_cons steps] at meets ⊢
          have keeps := kept start label next holds steps meets.1
          exact ⟨gives start label next keeps, ih keeps meets.2⟩

theorem throughout_true (start : σ) (labels : List Label) : Throughout step (fun _ _ _ => True) start labels := by
  induction labels generalizing start with
  | nil => exact trivial
  | cons label labels ih =>
      rw [Throughout]
      cases step start label with
      | none => exact trivial
      | some next => exact ⟨trivial, ih next⟩

/-- What every step keeps, every state that is reached satisfies. -/
theorem throughout_of_kept {invariant : σ -> Prop}
    (kept : ∀ state label next, invariant state -> step state label = some next -> invariant next)
    (gives : ∀ state label next, invariant next -> property state label next)
    {start : σ} (holds : invariant start) (labels : List Label) : Throughout step property start labels :=
  throughout_of_invariant (fun state label next given steps _ => kept state label next given steps) gives holds
    (throughout_true start labels)

end Throughout

end Library
end Memos
