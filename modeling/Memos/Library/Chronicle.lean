import Mathlib.Data.List.Basic

namespace Memos
namespace Library

/-!
# Records of what has happened

A record lists its entries in the order in which they were made.  It is
justified if each entry has a reason in the entries before it.
-/

variable {α : Type} {reason : List α -> α -> Prop}

/-- Every entry has its reason before it. -/
def Justified (reason : List α -> α -> Prop) (record : List α) : Prop :=
  ∀ before entry after, record = before ++ entry :: after -> reason before entry

theorem justified_nil : Justified reason [] := by
  intro before entry after same
  cases before <;> cases same

/-- A record grows by an entry that has its reason in the record. -/
theorem justified_append_singleton {record : List α} {entry : α} :
    Justified reason (record ++ [entry]) ↔ Justified reason record ∧ reason record entry := by
  constructor
  · intro justified
    refine ⟨?_, justified record entry [] rfl⟩
    intro before earlier after same
    apply justified before earlier (after ++ [entry])
    rw [same, List.append_assoc, List.cons_append]
  · rintro ⟨justified, last⟩ before earlier after same
    rcases after.eq_nil_or_concat with rfl | ⟨between, final, rfl⟩
    · rcases List.append_inj' same rfl with ⟨rfl, sameEntry⟩
      cases sameEntry
      exact last
    · apply justified before earlier between
      rw [List.concat_eq_append, ← List.cons_append, ← List.append_assoc] at same
      exact (List.append_inj' same rfl).1

end Library
end Memos
