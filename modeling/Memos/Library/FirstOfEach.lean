import Mathlib.Data.List.Nodup
import Mathlib.Data.List.Perm.Basic

namespace Memos
namespace Library

/-!
# The first item of each key

A pass that keeps an item unless one of the same key came before.  The keys that
are left do not depend on the order of the items; the items do not either when a
key determines its item.
-/

variable {α κ : Type} [DecidableEq κ] {key : α -> κ} {seen : List κ} {items other : List α} {item : α}

def firstOfEach (key : α -> κ) : List κ -> List α -> List α
  | _, [] => []
  | seen, item :: items =>
      if key item ∈ seen then firstOfEach key seen items
      else item :: firstOfEach key (key item :: seen) items

theorem mem_of_mem_firstOfEach (member : item ∈ firstOfEach key seen items) :
    item ∈ items ∧ key item ∉ seen := by
  induction items generalizing seen with
  | nil => exact absurd member List.not_mem_nil
  | cons first items ih =>
      rw [firstOfEach] at member
      split at member
      · rcases ih member with ⟨inside, fresh⟩
        exact ⟨List.mem_cons_of_mem first inside, fresh⟩
      · rename_i unseen
        rcases List.mem_cons.mp member with rfl | later
        · exact ⟨List.mem_cons_self, unseen⟩
        · rcases ih later with ⟨inside, fresh⟩
          exact ⟨List.mem_cons_of_mem first inside, fun old => fresh (List.mem_cons_of_mem _ old)⟩

/-- Every key that is not seen yet is left. -/
theorem mem_keys_firstOfEach {value : κ} :
    value ∈ (firstOfEach key seen items).map key ↔ value ∈ items.map key ∧ value ∉ seen := by
  induction items generalizing seen with
  | nil => simp [firstOfEach]
  | cons first items ih =>
      rw [firstOfEach]
      split
      · rename_i isSeen
        rw [ih, List.map_cons, List.mem_cons]
        constructor
        · rintro ⟨inside, fresh⟩
          exact ⟨Or.inr inside, fresh⟩
        · rintro ⟨rfl | inside, fresh⟩
          · exact absurd isSeen fresh
          · exact ⟨inside, fresh⟩
      · rename_i unseen
        rw [List.map_cons, List.map_cons, List.mem_cons, List.mem_cons, ih]
        constructor
        · rintro (rfl | ⟨inside, fresh⟩)
          · exact ⟨Or.inl rfl, unseen⟩
          · exact ⟨Or.inr inside, fun old => fresh (List.mem_cons_of_mem _ old)⟩
        · rintro ⟨rfl | inside, fresh⟩
          · exact Or.inl rfl
          · by_cases same : value = key first
            · exact Or.inl same
            · exact Or.inr ⟨inside, fun old => (List.mem_cons.mp old).elim same fresh⟩

theorem nodup_firstOfEach : ((firstOfEach key seen items).map key).Nodup := by
  induction items generalizing seen with
  | nil => exact List.nodup_nil
  | cons first items ih =>
      rw [firstOfEach]
      split
      · exact ih
      · rw [List.map_cons, List.nodup_cons]
        refine ⟨fun again => ?_, ih⟩
        exact (mem_keys_firstOfEach.mp again).2 List.mem_cons_self

/-- Two items that are left and have one key are the same. -/
theorem firstOfEach_unique {another : α} (member : item ∈ firstOfEach key seen items)
    (again : another ∈ firstOfEach key seen items) (same : key item = key another) :
    item = another :=
  List.inj_on_of_nodup_map nodup_firstOfEach member again same

/-- An item is left when nothing of its key came before. -/
theorem mem_firstOfEach_of_first {before after : List α} (fresh : key item ∉ seen)
    (first : key item ∉ before.map key) : item ∈ firstOfEach key seen (before ++ item :: after) := by
  induction before generalizing seen with
  | nil =>
      rw [List.nil_append, firstOfEach, if_neg fresh]
      exact List.mem_cons_self
  | cons earlier before ih =>
      rw [List.map_cons, List.mem_cons, not_or] at first
      rw [List.cons_append, firstOfEach]
      split
      · exact ih fresh first.2
      · refine List.mem_cons_of_mem earlier (ih ?_ first.2)
        rw [List.mem_cons, not_or]
        exact ⟨first.1, fresh⟩

/-- Nothing is lost when a key determines its item. -/
theorem mem_firstOfEach_iff
    (determined : ∀ item another, item ∈ items -> another ∈ items ->
      key item = key another -> item = another) :
    item ∈ firstOfEach key [] items ↔ item ∈ items := by
  constructor
  · exact fun member => (mem_of_mem_firstOfEach member).1
  · intro member
    have left : key item ∈ (firstOfEach key [] items).map key :=
      mem_keys_firstOfEach.mpr ⟨List.mem_map_of_mem member, List.not_mem_nil⟩
    rcases List.mem_map.mp left with ⟨kept, keptMember, same⟩
    have equal := determined kept item (mem_of_mem_firstOfEach keptMember).1 member same
    exact equal ▸ keptMember

/-- The number of items that are left depends on the keys only. -/
theorem length_firstOfEach (same : ∀ value, value ∈ items.map key ↔ value ∈ other.map key) :
    (firstOfEach key [] items).length = (firstOfEach key [] other).length := by
  have perm : ((firstOfEach key [] items).map key).Perm ((firstOfEach key [] other).map key) := by
    refine (List.perm_ext_iff_of_nodup nodup_firstOfEach nodup_firstOfEach).mpr fun value => ?_
    rw [mem_keys_firstOfEach, mem_keys_firstOfEach, same]
  have equal := perm.length_eq
  rwa [List.length_map, List.length_map] at equal

end Library
end Memos
