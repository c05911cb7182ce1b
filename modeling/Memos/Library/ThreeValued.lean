import Mathlib.Logic.Basic

namespace Memos
namespace Library

/-!
# Three-valued logic

Truth values of a query language with missing values.  The connectives are
those of strong Kleene logic: a missing operand matters only where the other
operand does not decide.
-/

/-- True, false, or unknown. -/
inductive Truth where
  | yes
  | no
  | unknown
deriving DecidableEq

namespace Truth

def ofBool (value : Bool) : Truth :=
  if value then yes else no

def not : Truth -> Truth
  | yes => no
  | no => yes
  | unknown => unknown

def and : Truth -> Truth -> Truth
  | no, _ => no
  | _, no => no
  | yes, yes => yes
  | _, _ => unknown

def or : Truth -> Truth -> Truth
  | yes, _ => yes
  | _, yes => yes
  | no, no => no
  | _, _ => unknown

theorem ofBool_eq_yes {value : Bool} : ofBool value = yes ↔ value = true := by
  cases value <;> decide

@[simp] theorem or_ofBool (first second : Bool) :
    (ofBool first).or (ofBool second) = ofBool (first || second) := by
  cases first <;> cases second <;> rfl

theorem and_eq_yes {first second : Truth} :
    first.and second = yes ↔ first = yes ∧ second = yes := by
  cases first <;> cases second <;> decide

end Truth

end Library
end Memos
