import Memos.Library.Except

namespace Memos
namespace Library

/-!
# Two runs of a computation that can fail

Two runs are related when both fail, or both succeed with related results.  A
property of one program on two inputs is proved along the program: the rules
below follow its sequences, and what is left are its basic steps.
-/

variable {ε δ α β α' β' : Type}

/-- Both runs fail, or their results are related. -/
def Related (relation : α -> β -> Prop) : Except ε α -> Except δ β -> Prop
  | .ok first, .ok second => relation first second
  | .error _, .error _ => True
  | _, _ => False

variable {relation : α -> β -> Prop}

theorem related_error {first : ε} {second : δ} :
    Related relation (.error first : Except ε α) (.error second : Except δ β) := trivial

/-- One computation is related to itself by a reflexive relation. -/
theorem related_self {relation : α -> α -> Prop} (reflexive : ∀ value, relation value value)
    (computation : Except ε α) : Related relation computation computation := by
  cases computation with
  | ok value => exact reflexive value
  | error cause => trivial

/-- Sequences are related when their first parts are and related results lead
to related rests. -/
theorem related_bind {next : α -> Except ε α'} {other : β -> Except δ β'}
    {after : α' -> β' -> Prop} {first : Except ε α} {second : Except δ β}
    (related : Related relation first second)
    (rests : ∀ left right, relation left right -> Related after (next left) (other right)) :
    Related after (first >>= next) (second >>= other) := by
  cases first with
  | ok left =>
      cases second with
      | ok right => exact rests left right related
      | error _ => exact related.elim
  | error _ =>
      cases second with
      | ok _ => exact related.elim
      | error _ => trivial

end Library
end Memos
