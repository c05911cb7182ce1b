import Mathlib.Data.List.Perm.Basic
import Mathlib.Order.Basic

namespace Memos
namespace Library

/-!
# Keeping the least elements of a stream

Elements come one after another, and only a limited number of them is kept.  A
further element takes the place of a greatest one that is kept, if it is less.
What is kept in the end are the least elements of all that have come.
-/

variable {α κ : Type} {rank : α -> κ} {limit : Nat}

/-- The visited elements fall into those that are kept and the others, which rank
no lower. -/
structure Selection [LE κ] (rank : α -> κ) (limit : Nat) (visited kept dropped : List α) : Prop where
  perm : visited.Perm (kept ++ dropped)
  bounded : kept.length ≤ limit
  full : dropped ≠ [] -> kept.length = limit
  least : ∀ first, first ∈ kept -> ∀ other, other ∈ dropped -> rank first ≤ rank other

theorem selection_nil [LE κ] : Selection rank limit [] [] [] where
  perm := .nil
  bounded := Nat.zero_le _
  full impossible := absurd rfl impossible
  least _ member := absurd member List.not_mem_nil

section Order

variable [PartialOrder κ] {visited kept dropped : List α} {next : α}

/-- As many are kept as the limit allows. -/
theorem Selection.length_eq (selection : Selection rank limit visited kept dropped) :
    kept.length = min limit visited.length := by
  have counted := selection.perm.length_eq
  rw [List.length_append] at counted
  have bounded := selection.bounded
  cases dropped with
  | nil =>
      rw [List.length_nil, Nat.add_zero] at counted
      omega
  | cons other others =>
      have full := selection.full (List.cons_ne_nil other others)
      omega

theorem perm_append_snoc (perm : visited.Perm (kept ++ dropped)) :
    (visited ++ [next]).Perm (next :: (kept ++ dropped)) :=
  (List.perm_append_singleton next visited).trans (perm.cons next)

/-- Below the limit, the next element is kept. -/
theorem Selection.keep (selection : Selection rank limit visited kept dropped) (below : kept.length < limit) :
    Selection rank limit (visited ++ [next]) (kept ++ [next]) dropped := by
  have none : dropped = [] := by
    by_contra some
    exact absurd (selection.full some) (Nat.ne_of_lt below)
  subst none
  constructor
  case perm =>
    have perm := selection.perm
    rw [List.append_nil] at perm ⊢
    exact perm.append_right [next]
  case bounded =>
    rw [List.length_append]
    exact below
  case full =>
    intro impossible
    exact absurd rfl impossible
  case least =>
    intro first _ other member
    cases member

/-- At the limit, an element that is not less than those that are kept is left
out. -/
theorem Selection.leave (selection : Selection rank limit visited kept dropped) (full : kept.length = limit)
    (greater : ∀ first, first ∈ kept -> rank first ≤ rank next) :
    Selection rank limit (visited ++ [next]) kept (dropped ++ [next]) where
  perm := by
    rw [← List.append_assoc]
    exact selection.perm.append_right [next]
  bounded := selection.bounded
  full _ := full
  least first member other left := by
    rcases List.mem_append.mp left with old | isNew
    · exact selection.least first member other old
    · rw [List.mem_singleton.mp isNew]
      exact greater first member

/-- At the limit, a lesser element takes the place of a greatest one. -/
theorem Selection.replace (selection : Selection rank limit visited kept dropped) (full : kept.length = limit)
    {position : Nat} {greatest : α} (there : kept[position]? = some greatest)
    (greater : ∀ first, first ∈ kept -> rank first ≤ rank greatest) (less : rank next ≤ rank greatest) :
    Selection rank limit (visited ++ [next]) (kept.set position next) (dropped ++ [greatest]) := by
  rcases List.getElem?_eq_some_iff.mp there with ⟨bound, isGreatest⟩
  have split : kept = kept.take position ++ greatest :: kept.drop (position + 1) := by
    rw [← isGreatest, List.getElem_cons_drop, List.take_append_drop]
  have swapped : kept.set position next = kept.take position ++ next :: kept.drop (position + 1) :=
    List.set_eq_take_append_cons_drop.trans (if_pos bound)
  have exchange : (kept.set position next ++ [greatest]).Perm (kept ++ [next]) := by
    have left : (kept.set position next ++ [greatest]).Perm
        (greatest :: next :: (kept.take position ++ kept.drop (position + 1))) := by
      rw [swapped]
      refine (List.perm_append_singleton greatest _).trans (List.Perm.cons greatest ?_)
      exact List.perm_middle
    have right : (kept ++ [next]).Perm
        (next :: greatest :: (kept.take position ++ kept.drop (position + 1))) := by
      refine (List.perm_append_singleton next _).trans (List.Perm.cons next ?_)
      conv_lhs => rw [split]
      exact List.perm_middle
    exact (left.trans (List.Perm.swap _ _ _)).trans right.symm
  constructor
  case perm =>
    have moved : (kept ++ [next] ++ dropped).Perm (kept.set position next ++ [greatest] ++ dropped) :=
      exchange.symm.append_right dropped
    have ordered : (kept.set position next ++ [greatest] ++ dropped).Perm
        (kept.set position next ++ (dropped ++ [greatest])) := by
      rw [List.append_assoc]
      exact (List.perm_append_comm).append_left _
    have start : (visited ++ [next]).Perm (kept ++ [next] ++ dropped) := by
      refine (perm_append_snoc selection.perm).trans ?_
      rw [List.append_assoc]
      exact List.perm_middle.symm
    exact (start.trans moved).trans ordered
  case bounded =>
    rw [List.length_set]
    exact selection.bounded
  case full =>
    intro _
    rw [List.length_set]
    exact full
  case least =>
    intro first member other left
    have below : rank first ≤ rank greatest := by
      rcases List.mem_or_eq_of_mem_set member with old | rfl
      · exact greater first old
      · exact less
    rcases List.mem_append.mp left with old | isNew
    · have above : rank greatest ≤ rank other := selection.least greatest (List.mem_of_getElem? there) other old
      exact below.trans above
    · rw [List.mem_singleton.mp isNew]
      exact below

end Order

end Library
end Memos
