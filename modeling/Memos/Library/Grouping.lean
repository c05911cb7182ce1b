import Mathlib.Data.List.Sort

namespace Memos
namespace Library

/-!
# Batches and groups

A query for many keys at once returns the rows of all of them in one order.
Grouping the result by key gives for each key what a query for this key alone
returns, since a stable sort treats the rows of one key as if the others were
not there.
-/

variable {α κ : Type} [DecidableEq κ] {before : α -> α -> Bool}

/-- The rows of one key. -/
def group (key : α -> κ) (value : κ) (rows : List α) : List α :=
  rows.filter fun row => key row = value

theorem mem_group {key : α -> κ} {value : κ} {rows : List α} {row : α} :
    row ∈ group key value rows ↔ row ∈ rows ∧ key row = value := by
  rw [group, List.mem_filter, decide_eq_true_iff]

/-- Keys that differ find their items. -/
theorem find_key {key : α -> κ} {items : List α} (distinct : (items.map key).Nodup) {item : α}
    (member : item ∈ items) : items.find? (fun other => key other = key item) = some item := by
  induction items with
  | nil => exact absurd member List.not_mem_nil
  | cons first items ih =>
      rw [List.map_cons, List.nodup_cons] at distinct
      rw [List.find?_cons]
      rcases List.mem_cons.mp member with rfl | later
      · rw [decide_eq_true rfl]
      · have other : key first ≠ key item := fun same =>
          distinct.1 (List.mem_map.mpr ⟨item, later, same.symm⟩)
        rw [decide_eq_false other]
        exact ih distinct.2 later

/-- Two ways to split a sorted list, before and after the place of one
element, are the same. -/
theorem split_unique {element : α} {first second third fourth : List α}
    (same : first ++ second = third ++ fourth) (early : ∀ row, row ∈ first -> before element row = false)
    (late : ∀ row, row ∈ second -> before element row = true)
    (earlier : ∀ row, row ∈ third -> before element row = false)
    (later : ∀ row, row ∈ fourth -> before element row = true) :
    first = third ∧ second = fourth := by
  induction first generalizing third with
  | nil =>
      cases third with
      | nil => exact ⟨rfl, same⟩
      | cons row rest =>
          have inSecond : row ∈ second := by
            rw [List.nil_append] at same
            rw [same]
            exact List.mem_cons_self
          have impossible := (late row inSecond).symm.trans (earlier row List.mem_cons_self)
          cases impossible
  | cons row rest ih =>
      cases third with
      | nil =>
          have inFourth : row ∈ fourth := by
            rw [List.nil_append] at same
            rw [← same]
            exact List.mem_cons_self
          have impossible := (later row inFourth).symm.trans (early row List.mem_cons_self)
          cases impossible
      | cons other others =>
          rw [List.cons_append, List.cons_append] at same
          rcases List.cons.inj same with ⟨sameRow, sameRest⟩
          rcases ih sameRest
            (fun row member => early row (List.mem_cons_of_mem _ member))
            (fun row member => earlier row (List.mem_cons_of_mem _ member)) with ⟨fronts, backs⟩
          rw [sameRow, fronts]
          exact ⟨rfl, backs⟩

/-- A stable sort and a selection commute. -/
theorem filter_mergeSort
    (transitive : ∀ first second third, before first second = true ->
      before second third = true -> before first third = true)
    (total : ∀ first second, (before first second || before second first) = true)
    (keep : α -> Bool) (rows : List α) :
    (rows.mergeSort before).filter keep = (rows.filter keep).mergeSort before := by
  induction rows with
  | nil => simp
  | cons row rest ih =>
      rcases List.mergeSort_cons transitive total row rest with
        ⟨front, back, placed, sorted, strictly⟩
      rw [sorted, List.filter_append] at ih
      have wholeSorted := List.pairwise_mergeSort transitive total (row :: rest)
      rw [placed] at wholeSorted
      have behind : ∀ other, other ∈ back -> before row other = true :=
        fun _ => List.rel_of_pairwise_cons (List.pairwise_append.mp wholeSorted).2.1
      rw [placed, List.filter_append]
      cases kept : keep row with
      | false =>
          rw [List.filter_cons_of_neg (by rw [kept]; exact Bool.false_ne_true),
            List.filter_cons_of_neg (by rw [kept]; exact Bool.false_ne_true)]
          exact ih
      | true =>
          rw [List.filter_cons_of_pos kept, List.filter_cons_of_pos kept]
          rcases List.mergeSort_cons transitive total row (rest.filter keep) with
            ⟨keptFront, keptBack, keptPlaced, keptSorted, keptStrictly⟩
          have keptWhole := List.pairwise_mergeSort transitive total (row :: rest.filter keep)
          rw [keptPlaced] at keptWhole
          -- Both lists put the row right behind what is strictly before it.
          have halves := split_unique (ih.trans keptSorted)
            (fun other member => by simpa using strictly other (List.mem_filter.mp member).1)
            (fun other member => behind other (List.mem_filter.mp member).1)
            (fun other member => by simpa using keptStrictly other member)
            (fun _ => List.rel_of_pairwise_cons (List.pairwise_append.mp keptWhole).2.1)
          rw [halves.1, halves.2, keptPlaced]

end Library
end Memos
