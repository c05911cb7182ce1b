import Mathlib.Data.List.Basic
import Mathlib.Data.List.TakeWhile

namespace Memos
namespace Library

/-!
# Scanning for marked tokens

Tokens that start with a mark and do not contain it are found at the
occurrences of the mark.  A scanner that goes on behind every token it finds
and behind every mark where there is none finds what stands at each of them.
-/

variable {α τ : Type} [DecidableEq α] (mark : α)

/-- The occurrences of the mark: what stands before each and what follows. -/
def occurrences : Option α -> List α -> List (Option α × List α)
  | _, [] => []
  | before, symbol :: rest =>
      if symbol = mark then (before, rest) :: occurrences (some symbol) rest
      else occurrences (some symbol) rest

variable {mark}

theorem occurrences_mark (before : Option α) (rest : List α) :
    occurrences mark before (mark :: rest) = (before, rest) :: occurrences mark (some mark) rest := by
  simp [occurrences]

/-- No mark, no occurrence; the last symbol stands before what comes next. -/
theorem occurrences_append {front : List α} (unmarked : mark ∉ front) (before : Option α) (rest : List α) :
    occurrences mark before (front ++ rest) =
      occurrences mark (front.getLast?.or before) rest := by
  induction front generalizing before with
  | nil => rfl
  | cons symbol others ih =>
      rw [List.mem_cons, not_or] at unmarked
      rw [List.cons_append, occurrences, if_neg (Ne.symm unmarked.1), ih unmarked.2,
        List.getLast?_cons]
      cases others.getLast? <;> rfl

/-- What stands up to the next mark is none of its occurrences. -/
theorem occurrences_upTo (symbol : α) (rest : List α) (before : Option α) :
    occurrences mark before (symbol :: rest) =
      (if symbol = mark then [(before, rest)] else []) ++
        occurrences mark ((rest.takeWhile (· ≠ mark)).getLast?.or (some symbol))
          (rest.dropWhile (· ≠ mark)) := by
  have unmarked : mark ∉ rest.takeWhile (· ≠ mark) := by
    intro marked
    simpa using List.mem_takeWhile_imp marked
  have behind := occurrences_append unmarked (some symbol) (rest.dropWhile (· ≠ mark))
  rw [List.takeWhile_append_dropWhile] at behind
  rw [← behind, occurrences]
  split <;> rfl

variable (mark)

/-- Scan from left to right, with what stands before the rest.  At a mark the
recogniser may take a token from the front of what follows. -/
def scan (recognise : Option α -> List α -> Option (List α)) :
    Nat -> Option α -> List α -> List (List α)
  | 0, _, _ => []
  | _ + 1, _, [] => []
  | fuel + 1, before, symbol :: rest =>
      match if symbol = mark then recognise before rest else none with
      | none => scan recognise fuel (some symbol) rest
      | some token =>
          token :: scan recognise fuel (token.getLast?.or (some symbol)) (rest.drop token.length)

variable {mark}

/-- What a recogniser takes is a front of what follows, without a mark. -/
def Takes (mark : α) (recognise : Option α -> List α -> Option (List α)) : Prop :=
  ∀ before rest token, recognise before rest = some token -> token <+: rest ∧ mark ∉ token

theorem scan_eq {recognise : Option α -> List α -> Option (List α)} (takes : Takes mark recognise)
    {fuel : Nat} {before : Option α} {text : List α} (enough : text.length ≤ fuel) :
    scan mark recognise fuel before text =
      (occurrences mark before text).filterMap fun occurrence =>
        recognise occurrence.1 occurrence.2 := by
  induction fuel generalizing before text with
  | zero =>
      rw [List.eq_nil_of_length_eq_zero (Nat.le_zero.mp enough)]
      rfl
  | succ fuel ih =>
      cases text with
      | nil => rfl
      | cons symbol rest =>
          have shorter : rest.length ≤ fuel := Nat.le_of_succ_le_succ enough
          by_cases marked : symbol = mark
          · subst marked
            rw [scan, if_pos rfl, occurrences_mark, List.filterMap_cons]
            cases recognised : recognise before rest with
            | none => exact ih shorter
            | some token =>
                rcases takes before rest token recognised with ⟨⟨others, rfl⟩, unmarked⟩
                dsimp only
                rw [occurrences_append unmarked, List.drop_left]
                have left : others.length ≤ fuel := by
                  rw [List.length_append] at shorter
                  omega
                rw [ih left]
          · rw [scan, if_neg marked, occurrences, if_neg marked]
            exact ih shorter

section Dominated

variable {β γ : Type} {first second : β -> Option γ} {items : List β}

theorem length_filterMap_le
    (dominated : ∀ item, item ∈ items -> (second item).isSome -> (first item).isSome) :
    (items.filterMap second).length ≤ (items.filterMap first).length := by
  induction items with
  | nil => exact Nat.le_refl 0
  | cons item rest ih =>
      have shorter := ih fun other member =>
        dominated other (List.mem_cons_of_mem _ member)
      have here := dominated item List.mem_cons_self
      simp only [List.filterMap_cons]
      cases found : second item with
      | none => cases first item <;> simp <;> omega
      | some value =>
          rcases Option.isSome_iff_exists.mp (here (by simp [found])) with ⟨other, same⟩
          simpa [same] using shorter

/-- Of two recognisers of which the first takes something wherever the second
does, both find the same exactly if they agree everywhere. -/
theorem filterMap_eq_iff (dominated : ∀ item, item ∈ items -> (second item).isSome -> (first item).isSome) :
    items.filterMap first = items.filterMap second ↔
      ∀ item, item ∈ items -> first item = second item := by
  constructor
  · intro same
    induction items with
    | nil =>
        intro item member
        cases member
    | cons item rest ih =>
        have later := fun other member => dominated other (List.mem_cons_of_mem item member)
        have shorter := length_filterMap_le later
        have both : first item = second item ∧ rest.filterMap first = rest.filterMap second := by
          simp only [List.filterMap_cons] at same
          cases found : second item with
          | none =>
              cases taken : first item with
              | none => simpa [found, taken] using same
              | some value =>
                  have lengths := congrArg List.length same
                  simp only [found, taken, List.length_cons] at lengths
                  omega
          | some value =>
              rcases Option.isSome_iff_exists.mp
                (dominated item List.mem_cons_self (by simp [found])) with ⟨other, taken⟩
              simp only [found, taken, List.cons.injEq] at same
              exact ⟨by rw [taken, same.1], same.2⟩
        intro other member
        rcases List.mem_cons.mp member with rfl | after
        · exact both.1
        · exact ih later both.2 other after
  · exact fun same => List.filterMap_congr same

end Dominated

end Library
end Memos
