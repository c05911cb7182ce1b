import Mathlib.Algebra.Order.BigOperators.Group.List
import Mathlib.Algebra.BigOperators.Group.Multiset.Defs
import Mathlib.Algebra.Order.Group.Multiset
import Mathlib.Algebra.Order.Group.Nat
import Mathlib.Data.List.Nodup
import Mathlib.Data.List.Pairwise

namespace Memos
namespace Library

/-!
# Transfers

Items are sent and arrive with a value, or do not arrive.  If nothing shrinks on
the way and the values that arrive are, in some order, those that were sent, then
every item arrives and none has grown.
-/

section Transfers

variable {ι α κ : Type} {items : List ι} {sent : ι -> α} {arrived : ι -> Option α}

/-- Of a list of which nothing may be missing nothing is. -/
theorem all_arrive (same : (items.map sent).Perm (items.filterMap arrived)) {item : ι} (member : item ∈ items) :
    Exists fun value => arrived item = some value := by
  have length := same.length_eq
  rw [List.length_map] at length
  have all := List.filterMap_length_eq_length.mp length.symm
  exact Option.isSome_iff_exists.mp (all item member)

theorem filterMap_eq_map (all : ∀ item, item ∈ items -> arrived item = some (sent item)) :
    items.filterMap arrived = items.map sent := by
  induction items with
  | nil => rfl
  | cons item items ih =>
      rw [List.filterMap_cons_some (all item List.mem_cons_self), List.map_cons,
        ih fun other member => all other (List.mem_cons_of_mem _ member)]

/-- What cannot shrink has kept its size. -/
theorem sizes_kept (size : α -> Nat) (same : (items.map sent).Perm (items.filterMap arrived))
    (grown : ∀ item, item ∈ items -> ∀ value, arrived item = some value -> size (sent item) ≤ size value)
    {item : ι} (member : item ∈ items) {value : α} (here : arrived item = some value) :
    size value = size (sent item) := by
  have all : items.filterMap arrived = items.map fun item => (arrived item).getD (sent item) := by
    apply filterMap_eq_map
    intro other inItems
    rcases all_arrive same inItems with ⟨found, arrives⟩
    rw [arrives, Option.getD_some]
  have total := (same.map size).sum_eq
  rw [all, List.map_map, List.map_map] at total
  have larger : ∀ other, other ∈ items ->
      (size ∘ sent) other ≤ (size ∘ fun item => (arrived item).getD (sent item)) other := by
    intro other inItems
    rcases all_arrive same inItems with ⟨found, arrives⟩
    rw [Function.comp_apply, Function.comp_apply, arrives, Option.getD_some]
    exact grown other inItems found arrives
  by_contra different
  have strict : Exists fun other => other ∈ items ∧
      (size ∘ sent) other < (size ∘ fun item => (arrived item).getD (sent item)) other := by
    refine ⟨item, member, ?_⟩
    rw [Function.comp_apply, Function.comp_apply, here, Option.getD_some]
    exact Nat.lt_of_le_of_ne (grown item member value here) (Ne.symm different)
  have less := List.sum_lt_sum _ _ larger strict
  omega

/-- With keys that differ and are kept, every item arrives as it was sent. -/
theorem arrive_as_sent (key : α -> κ) (different : (items.map fun item => key (sent item)).Nodup)
    (same : (items.map sent).Perm (items.filterMap arrived))
    (kept : ∀ item, item ∈ items -> ∀ value, arrived item = some value -> key value = key (sent item))
    {item : ι} (member : item ∈ items) : arrived item = some (sent item) := by
  rcases all_arrive same member with ⟨value, here⟩
  have arrives : value ∈ items.filterMap arrived := List.mem_filterMap.mpr ⟨item, member, here⟩
  rcases List.mem_map.mp (same.mem_iff.mpr arrives) with ⟨other, inItems, rfl⟩
  have sameItem := List.inj_on_of_nodup_map different member inItems (kept item member _ here).symm
  rw [here, sameItem]

/-- The labels of what arrives are among the labels of what is sent. -/
theorem labels_sublist {label : α -> κ} {sentLabel : ι -> κ}
    (labelled : ∀ item, item ∈ items -> ∀ value, arrived item = some value -> label value = sentLabel item) :
    ((items.filterMap arrived).map label).Sublist (items.map sentLabel) := by
  induction items with
  | nil => exact List.Sublist.slnil
  | cons item items ih =>
      have rest := ih fun other member => labelled other (List.mem_cons_of_mem _ member)
      cases here : arrived item with
      | none =>
          rw [List.filterMap_cons_none here, List.map_cons]
          exact rest.cons _
      | some value =>
          rw [List.filterMap_cons_some here, List.map_cons, List.map_cons,
            labelled item List.mem_cons_self value here]
          exact rest.cons_cons _

end Transfers

theorem forall₂_mapM {α β : Type} {f : α -> Option β} {list : List α} {results : List β}
    (success : list.mapM f = some results) : List.Forall₂ (fun value result => f value = some result) list results := by
  induction list generalizing results with
  | nil =>
      cases success
      exact List.Forall₂.nil
  | cons value list ih =>
      rw [List.mapM_cons] at success
      rcases Option.bind_eq_some_iff.mp success with ⟨result, here, rest⟩
      rcases Option.bind_eq_some_iff.mp rest with ⟨others, later, finished⟩
      cases finished
      exact List.Forall₂.cons here (ih later)

/-- When nothing is there twice, a thing is in one box. -/
theorem box_of_nodup {β γ : Type} {boxes : List β} {content : β -> List γ} (different : (boxes.flatMap content).Nodup)
    {first second : β} (firstBox : first ∈ boxes) (secondBox : second ∈ boxes) {thing : γ}
    (inFirst : thing ∈ content first) (inSecond : thing ∈ content second) : first = second := by
  by_contra apart
  have symmetric : Std.Symm (Function.onFun List.Disjoint content) := ⟨fun _ _ disjoint => disjoint.symm⟩
  have disjoint := (List.nodup_flatMap.mp different).2.forall firstBox secondBox apart
  exact disjoint inFirst inSecond

/-- Whatever stands on the right of a relation between lists has something on its
left. -/
theorem exists_of_mem_right {β γ : Type} {related : β -> γ -> Prop} {left : List β} {right : List γ}
    (all : List.Forall₂ related left right) {second : γ} (member : second ∈ right) :
    Exists fun first => first ∈ left ∧ related first second := by
  induction all with
  | nil => exact absurd member List.not_mem_nil
  | cons here _ ih =>
      rcases List.mem_cons.mp member with rfl | later
      · exact ⟨_, List.mem_cons_self, here⟩
      · rcases ih later with ⟨first, inLeft, holds⟩
        exact ⟨first, List.mem_cons_of_mem _ inLeft, holds⟩

theorem forall_iff_of_forall₂ {β γ : Type} {related : β -> γ -> Prop} {left : List β} {right : List γ}
    (all : List.Forall₂ related left right) {first : β -> Prop} {second : γ -> Prop}
    (same : ∀ x y, x ∈ left -> related x y -> (first x ↔ second y)) :
    (∀ x, x ∈ left -> first x) ↔ ∀ y, y ∈ right -> second y := by
  induction all with
  | nil => exact ⟨fun _ y member => absurd member List.not_mem_nil, fun _ x member => absurd member List.not_mem_nil⟩
  | cons here _ ih =>
      rw [List.forall_mem_cons, List.forall_mem_cons, same _ _ List.mem_cons_self here,
        ih fun x y member => same x y (List.mem_cons_of_mem _ member)]

theorem forall₂_trans {β γ δ : Type} {first : β -> γ -> Prop} {second : γ -> δ -> Prop} {third : β -> δ -> Prop}
    {left : List β} {middle : List γ} {right : List δ} (one : List.Forall₂ first left middle)
    (two : List.Forall₂ second middle right)
    (both : ∀ x y z, first x y -> second y z -> third x z) : List.Forall₂ third left right := by
  induction one generalizing right with
  | nil =>
      cases two
      exact List.Forall₂.nil
  | cons here _ ih =>
      cases two with
      | cons there rest => exact List.Forall₂.cons (both _ _ _ here there) (ih rest)

/-- With keys that differ a list of pairs is looked up by membership. -/
theorem lookup_eq_some_iff_mem {κ υ : Type} [BEq κ] [LawfulBEq κ] {pairs : List (κ × υ)}
    (different : (pairs.map Prod.fst).Nodup) {key : κ} {value : υ} :
    pairs.lookup key = some value ↔ (key, value) ∈ pairs := by
  induction pairs with
  | nil => simp
  | cons pair pairs ih =>
      rw [List.map_cons, List.nodup_cons] at different
      rw [List.lookup_cons, List.mem_cons]
      by_cases same : key = pair.1
      · rw [beq_iff_eq.mpr same]
        dsimp only
        rw [Option.some.injEq]
        constructor
        · exact fun found => Or.inl (Prod.ext same found.symm)
        · rintro (rfl | later)
          · rfl
          · exact absurd (List.mem_map.mpr ⟨(key, value), later, same⟩) different.1
      · rw [beq_false_of_ne same]
        dsimp only
        rw [ih different.2]
        constructor
        · exact Or.inr
        · rintro (rfl | later)
          · exact absurd rfl same
          · exact later

/-- The sum of the contents of some boxes is what all of them hold. -/
theorem sum_coe_flatMap {β γ : Type} (boxes : List β) (content : β -> List γ) :
    (boxes.map fun box => (content box : Multiset γ)).sum = (boxes.flatMap content : Multiset γ) := by
  induction boxes with
  | nil => rfl
  | cons box boxes ih =>
      rw [List.map_cons, List.sum_cons, ih, List.flatMap_cons, ← Multiset.coe_add]

end Library
end Memos
