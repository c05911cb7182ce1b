import Mathlib.Logic.Basic

namespace Memos
namespace Library

/-!
# Successful computations

A computation that may fail is peeled apart one bind at a time.  The lemmas
state what the success of a compound computation says about its parts.
-/

variable {ε α β : Type}

theorem ok_bind (value : α) (next : α -> Except ε β) : (.ok value >>= next) = next value := rfl

theorem error_bind (cause : ε) (next : α -> Except ε β) : (.error cause >>= next) = .error cause :=
  rfl

/-- A sequence succeeds when its first part succeeds and the rest does. -/
theorem bind_eq_ok {first : Except ε α} {next : α -> Except ε β} {result : β} :
    (first >>= next) = .ok result ↔
      Exists fun value => first = .ok value ∧ next value = .ok result := by
  cases first with
  | error cause =>
      constructor
      · intro impossible
        cases impossible
      · rintro ⟨value, impossible, _⟩
        cases impossible
  | ok value =>
      constructor
      · intro success
        exact ⟨value, rfl, success⟩
      · rintro ⟨other, same, success⟩
        cases same
        exact success

/-- A mapped computation succeeds when the computation does. -/
theorem map_eq_ok {action : Except ε α} {f : α -> β} {result : β} :
    (f <$> action) = .ok result ↔ Exists fun value => action = .ok value ∧ f value = result := by
  cases action with
  | error cause =>
      constructor
      · intro impossible
        cases impossible
      · rintro ⟨value, impossible, _⟩
        cases impossible
  | ok value =>
      constructor
      · intro success
        exact ⟨value, rfl, Except.ok.inj success⟩
      · rintro ⟨other, same, mapped⟩
        cases same
        exact congrArg Except.ok mapped

theorem pure_eq_ok {value result : α} :
    (pure value : Except ε α) = .ok result ↔ value = result :=
  ⟨Except.ok.inj, congrArg Except.ok⟩

/-- Every result of a successful traversal comes from some element. -/
theorem exists_of_mem_mapM {f : α -> Except ε β} {list : List α} {results : List β}
    (success : list.mapM f = .ok results) {result : β} (member : result ∈ results) :
    Exists fun element => element ∈ list ∧ f element = .ok result := by
  induction list generalizing results with
  | nil =>
      rw [List.mapM_nil] at success
      cases success
      cases member
  | cons head rest ih =>
      rw [List.mapM_cons] at success
      rcases bind_eq_ok.mp success with ⟨first, ofHead, continued⟩
      rcases bind_eq_ok.mp continued with ⟨others, ofRest, finished⟩
      cases finished
      rcases List.mem_cons.mp member with rfl | later
      · exact ⟨head, List.mem_cons_self, ofHead⟩
      · rcases ih ofRest later with ⟨element, inside, same⟩
        exact ⟨element, List.mem_cons_of_mem _ inside, same⟩

/-- A traversal whose steps succeed has a result for every element. -/
theorem exists_mapM {f : α -> Except ε β} {list : List α}
    (steps : ∀ element, element ∈ list -> Exists fun result => f element = .ok result) :
    Exists fun results => list.mapM f = .ok results ∧
      ∀ element, element ∈ list -> Exists fun result =>
        result ∈ results ∧ f element = .ok result := by
  induction list with
  | nil => exact ⟨[], rfl, nofun⟩
  | cons head rest ih =>
      rcases steps head List.mem_cons_self with ⟨first, ofHead⟩
      rcases ih fun element inside => steps element (List.mem_cons_of_mem _ inside)
        with ⟨others, ofRest, found⟩
      refine ⟨first :: others, ?_, ?_⟩
      · rw [List.mapM_cons, ofHead, ok_bind, ofRest]
        rfl
      · intro element member
        rcases List.mem_cons.mp member with rfl | later
        · exact ⟨first, List.mem_cons_self, ofHead⟩
        · rcases found element later with ⟨result, inside, same⟩
          exact ⟨result, List.mem_cons_of_mem _ inside, same⟩

end Library
end Memos
