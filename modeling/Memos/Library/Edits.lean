import Mathlib.Data.List.Basic

namespace Memos
namespace Library

/-!
# Edits in place

An edit replaces a slice of a list.  Edits that replace one symbol each leave
the list as it is elsewhere, and it does not matter in which order they are
made.
-/

variable {α : Type}

/-- The lists differ at most at the positions. -/
structure DiffersAt (positions : Nat -> Prop) (before after : List α) : Prop where
  length_eq : after.length = before.length
  elsewhere : ∀ position, ¬ positions position -> after[position]? = before[position]?

variable {positions others : Nat -> Prop} {before after text : List α}

theorem DiffersAt.refl (text : List α) : DiffersAt positions text text :=
  ⟨rfl, fun _ _ => rfl⟩

theorem DiffersAt.mono (differs : DiffersAt positions before after)
    (less : ∀ position, positions position -> others position) :
    DiffersAt others before after :=
  ⟨differs.length_eq, fun position outside =>
    differs.elsewhere position fun inside => outside (less position inside)⟩

/-- The symbol is written at every position of the list. -/
def overwrite (symbol : α) (positions : List Nat) (text : List α) : List α :=
  positions.foldr (fun position text => text.set position symbol) text

variable {symbol : α} {places : List Nat}

@[simp] theorem overwrite_nil (symbol : α) (text : List α) : overwrite symbol [] text = text := rfl

@[simp] theorem length_overwrite (symbol : α) (places : List Nat) (text : List α) :
    (overwrite symbol places text).length = text.length := by
  induction places with
  | nil => rfl
  | cons place places ih =>
      change ((overwrite symbol places text).set place symbol).length = text.length
      rw [List.length_set, ih]

theorem getElem?_overwrite (symbol : α) (places : List Nat) (text : List α) (position : Nat) :
    (overwrite symbol places text)[position]? =
      if position ∈ places ∧ position < text.length then some symbol else text[position]? := by
  induction places with
  | nil =>
      rw [if_neg (fun inside => List.not_mem_nil inside.1)]
      rfl
  | cons place places ih =>
      change ((overwrite symbol places text).set place symbol)[position]? = _
      rw [List.getElem?_set, length_overwrite, ih]
      by_cases here : place = position
      · subst here
        by_cases inside : place < text.length
        · simp [inside]
        · simp [inside]
      · simp [here, Ne.symm here]

/-- Only the positions count, not their order. -/
theorem overwrite_congr {first second : List Nat}
    (same : ∀ place, place ∈ first ↔ place ∈ second) (symbol : α) (text : List α) :
    overwrite symbol first text = overwrite symbol second text := by
  apply List.ext_getElem?
  intro position
  rw [getElem?_overwrite, getElem?_overwrite]
  simp only [same]

theorem overwrite_differsAt (symbol : α) (places : List Nat) (text : List α) :
    DiffersAt (· ∈ places) text (overwrite symbol places text) := by
  refine ⟨length_overwrite symbol places text, ?_⟩
  intro position outside
  rw [getElem?_overwrite, if_neg (fun inside => outside inside.1)]

/-- To cut a list before and after a symbol and to put another one in between is
to set it. -/
theorem splice_eq_set {position : Nat} (inside : position < text.length) (symbol : α) :
    text.take position ++ [symbol] ++ text.drop (position + 1) = text.set position symbol := by
  rw [List.set_eq_take_append_cons_drop, if_pos inside, List.append_assoc]
  rfl

end Library
end Memos
