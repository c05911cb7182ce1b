import Mathlib.Data.List.Infix

namespace Memos
namespace Library

/-!
# The last occurrence of a word

A word occurs in a text at an index when it is a prefix of what stands from the
index on.  Occurrences of a word without a border never overlap, so that a text
searched from its end meets them one behind the other.
-/

variable {α : Type*} {word text : List α} {index other limit : Nat}

/-- No proper suffix of the word begins the word again. -/
def Unbordered (word : List α) : Prop :=
  ∀ shift, 0 < shift -> shift < word.length -> ¬ word.drop shift <+: word

theorem occurrence_bound (occurs : word <+: text.drop index) (nonempty : word ≠ []) :
    index + word.length ≤ text.length := by
  have short := occurs.length_le
  have long : 0 < word.length := List.length_pos_iff.mpr nonempty
  rw [List.length_drop] at short
  omega

/-- Where a word occurs in the front part of a text. -/
theorem occurrence_take_iff (nonempty : word ≠ []) :
    word <+: (text.take limit).drop index ↔
      word <+: text.drop index ∧ index + word.length ≤ limit := by
  have long : 0 < word.length := List.length_pos_iff.mpr nonempty
  rw [List.drop_take, List.prefix_take_iff]
  constructor
  · rintro ⟨occurs, fits⟩
    exact ⟨occurs, by omega⟩
  · rintro ⟨occurs, fits⟩
    exact ⟨occurs, by omega⟩

theorem Unbordered.apart (unbordered : Unbordered word)
    (first : word <+: text.drop index) (second : word <+: text.drop other)
    (before : index < other) : index + word.length ≤ other := by
  by_contra overlap
  have shifted : word.drop (other - index) <+: text.drop other := by
    have dropped := first.drop (other - index)
    rw [List.drop_drop] at dropped
    rwa [show index + (other - index) = other by omega] at dropped
  have shorter : (word.drop (other - index)).length ≤ word.length := by
    rw [List.length_drop]
    omega
  exact unbordered (other - index) (by omega) (by omega)
    (List.prefix_of_prefix_length_le shifted second shorter)

/-- The symbols of an occurrence. -/
theorem getElem?_of_occurrence (occurs : word <+: text.drop index) (place : Nat)
    (inside : place < word.length) : text[index + place]? = word[place]? := by
  rcases occurs with ⟨rest, rest_eq⟩
  have located := congrArg (fun part : List α => part[place]?) rest_eq
  simp only [List.getElem?_drop, List.getElem?_append_left inside] at located
  exact located.symm

section Searching

variable [DecidableEq α]

/-- The index of the last occurrence of a word. -/
def lastIndex (word : List α) : List α -> Option Nat
  | [] => if word = [] then some 0 else none
  | symbol :: rest =>
      match lastIndex word rest with
      | some index => some (index + 1)
      | none => if word.isPrefixOf (symbol :: rest) then some 0 else none

theorem lastIndex_none (missed : lastIndex word text = none) (index : Nat) :
    ¬ word <+: text.drop index := by
  induction text generalizing index with
  | nil =>
      rw [lastIndex] at missed
      split at missed
      · contradiction
      · rename_i nonempty
        rw [List.drop_nil, List.prefix_nil]
        exact nonempty
  | cons symbol rest ih =>
      rw [lastIndex] at missed
      split at missed
      · contradiction
      · rename_i restMissed
        split at missed
        · contradiction
        · rename_i notPrefix
          cases index with
          | zero => rwa [List.drop_zero, <- List.isPrefixOf_iff_prefix]
          | succ index => exact ih restMissed index

theorem lastIndex_some (found : lastIndex word text = some index) :
    word <+: text.drop index ∧
      ∀ later, index < later -> later ≤ text.length -> ¬ word <+: text.drop later := by
  induction text generalizing index with
  | nil =>
      rw [lastIndex] at found
      split at found
      · rename_i empty
        subst empty
        exact ⟨List.nil_prefix, fun later isLater within => by
          rw [List.length_nil] at within
          omega⟩
      · contradiction
  | cons symbol rest ih =>
      rw [lastIndex] at found
      split at found
      · rename_i restIndex restFound
        obtain rfl : restIndex + 1 = index := Option.some.inj found
        rcases ih restFound with ⟨occurs, isLast⟩
        refine ⟨occurs, fun later isLater within => ?_⟩
        cases later with
        | zero => omega
        | succ later =>
            rw [List.length_cons] at within
            exact isLast later (by omega) (by omega)
      · rename_i restMissed
        split at found
        · rename_i isPrefix
          obtain rfl : 0 = index := Option.some.inj found
          refine ⟨List.isPrefixOf_iff_prefix.mp isPrefix, fun later isLater within => ?_⟩
          cases later with
          | zero => omega
          | succ later => exact lastIndex_none restMissed later
        · contradiction

/-- The last occurrence of a nonempty word in the front part of a text. -/
theorem lastIndex_take_some (nonempty : word ≠ []) (found : lastIndex word (text.take limit) = some index) :
    word <+: text.drop index ∧ index + word.length ≤ limit ∧
      ∀ later, index < later -> word <+: text.drop later ->
        limit < later + word.length := by
  rcases lastIndex_some found with ⟨occurs, isLast⟩
  rcases (occurrence_take_iff nonempty).mp occurs with ⟨occurs, fits⟩
  refine ⟨occurs, fits, fun later isLater again => ?_⟩
  by_contra within
  have inFront : word <+: (text.take limit).drop later :=
    (occurrence_take_iff nonempty).mpr ⟨again, by omega⟩
  have bound := occurrence_bound inFront nonempty
  exact isLast later isLater (by omega) inFront

theorem lastIndex_take_none (nonempty : word ≠ [])
    (missed : lastIndex word (text.take limit) = none) (occurs : word <+: text.drop index) :
    limit < index + word.length := by
  by_contra within
  exact lastIndex_none missed index ((occurrence_take_iff nonempty).mpr ⟨occurs, by omega⟩)

end Searching

end Library
end Memos
