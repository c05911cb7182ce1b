import Mathlib

namespace Memos
namespace Library

/-!
# The lines of a text

A text is split at every mark and joined again.  A change inside one of the
lines is a change of the text at that place, and a text that has its marks at
the same places has lines of the same lengths.
-/

variable {α : Type} {mark : α}

/-- Two texts with their marks at the same places. -/
def SameMarks (mark : α) : List α -> List α -> Prop :=
  List.Forall₂ fun symbol other => symbol = mark ↔ other = mark

theorem sameMarks_of_getElem? {text other : List α} (long : other.length = text.length)
    (same : ∀ position : Nat, other[position]? = some mark ↔ text[position]? = some mark) :
    SameMarks mark text other := by
  rw [SameMarks, List.forall₂_iff_get]
  refine ⟨long.symm, ?_⟩
  intro position inside insideOther
  have here := same position
  rw [List.getElem?_eq_getElem inside, List.getElem?_eq_getElem insideOther, Option.some_inj,
    Option.some_inj] at here
  exact here.symm

theorem SameMarks.unmarked {line other : List α} (same : SameMarks mark line other)
    (unmarked : mark ∉ line) : mark ∉ other := by
  induction same with
  | nil => exact List.not_mem_nil
  | cons head _ ih =>
      rw [List.mem_cons, not_or] at unmarked ⊢
      exact ⟨fun marked => unmarked.1 (head.mpr marked.symm).symm, ih unmarked.2⟩

theorem SameMarks.split {line rest other : List α}
    (same : SameMarks mark (line ++ mark :: rest) other) (unmarked : mark ∉ line) :
    Exists fun left => Exists fun right =>
      other = left ++ mark :: right ∧ SameMarks mark line left ∧ SameMarks mark rest right := by
  induction line generalizing other with
  | nil =>
      cases same with
      | cons head tail =>
          have marked := head.mp rfl
          exact ⟨[], _, by rw [marked]; rfl, List.Forall₂.nil, tail⟩
  | cons symbol line ih =>
      rw [List.mem_cons, not_or] at unmarked
      cases same with
      | cons head tail =>
          rcases ih tail unmarked.2 with ⟨left, right, rfl, before, after⟩
          exact ⟨_, right, rfl, List.Forall₂.cons head before, after⟩

variable [DecidableEq α]

/-- Where the line starts. -/
def startOfLine (mark : α) (text : List α) (number : Nat) : Nat :=
  (((text.splitOn mark).take number).map fun line => line.length + 1).sum

/-- A text is one line, or a line, a mark and a text. -/
theorem lines_induction (mark : α) {motive : List α -> Prop} (last : ∀ line, mark ∉ line -> motive line)
    (more : ∀ line rest, mark ∉ line -> motive rest -> motive (line ++ mark :: rest))
    (text : List α) : motive text := by
  induction length : text.length using Nat.strongRecOn generalizing text with
  | _ size ih =>
      by_cases marked : mark ∈ text
      · obtain ⟨line, rest, same, unmarked⟩ := List.eq_append_cons_of_mem marked
        subst same
        refine more line rest unmarked (ih rest.length ?_ rest rfl)
        rw [← length, List.length_append, List.length_cons]
        omega
      · exact last text marked

section Line

variable {line rest : List α}

theorem splitOn_last (unmarked : mark ∉ line) : line.splitOn mark = [line] :=
  List.splitOn_eq_singleton unmarked

theorem splitOn_more (unmarked : mark ∉ line) :
    (line ++ mark :: rest).splitOn mark = line :: rest.splitOn mark :=
  List.splitOn_append_cons_self_of_not_mem unmarked rest

@[simp] theorem startOfLine_zero (text : List α) : startOfLine mark text 0 = 0 := rfl

theorem startOfLine_succ (unmarked : mark ∉ line) (number : Nat) :
    startOfLine mark (line ++ mark :: rest) (number + 1) =
      line.length + 1 + startOfLine mark rest number := by
  rw [startOfLine, splitOn_more unmarked, List.take_succ_cons, List.map_cons, List.sum_cons]
  rfl

end Line

/-- What stands in the line stands in the text. -/
theorem getElem?_of_line {text part : List α} {number offset : Nat}
    (found : (text.splitOn mark)[number]? = some part) (inside : offset < part.length) :
    text[startOfLine mark text number + offset]? = part[offset]? := by
  induction text using lines_induction mark generalizing number with
  | last only unmarked =>
      rw [splitOn_last unmarked] at found
      cases number with
      | zero =>
          have same : only = part := Option.some.inj found
          rw [same, startOfLine_zero, Nat.zero_add]
      | succ number => exact absurd found (by simp)
  | more first rest unmarked ih =>
      rw [splitOn_more unmarked] at found
      cases number with
      | zero =>
          have same : first = part := Option.some.inj found
          rw [startOfLine_zero, Nat.zero_add, same, List.getElem?_append_left inside]
      | succ number =>
          have later := ih found
          rw [startOfLine_succ unmarked, List.getElem?_append_right (by omega), ← later]
          have shift : first.length + 1 + startOfLine mark rest number + offset - first.length =
              startOfLine mark rest number + offset + 1 := by omega
          rw [shift, List.getElem?_cons_succ]

/-- A mark stands before every line but the first. -/
theorem getElem?_before_line {text line : List α} {number before : Nat}
    (found : (text.splitOn mark)[number]? = some line)
    (start : startOfLine mark text number = before + 1) : text[before]? = some mark := by
  induction text using lines_induction mark generalizing number before with
  | last only unmarked =>
      rw [splitOn_last unmarked] at found
      cases number with
      | zero => exact absurd start (by simp)
      | succ number => exact absurd found (by simp)
  | more first rest unmarked ih =>
      rw [splitOn_more unmarked] at found
      cases number with
      | zero => exact absurd start (by simp)
      | succ number =>
          rw [startOfLine_succ unmarked] at start
          rw [List.getElem?_append_right (by omega)]
          cases earlier : startOfLine mark rest number with
          | zero =>
              have here : before - first.length = 0 := by omega
              rw [here, List.getElem?_cons_zero]
          | succ previous =>
              have here : before - first.length = previous + 1 := by omega
              rw [here, List.getElem?_cons_succ]
              exact ih found earlier

/-- To change a symbol of a line and join the lines is to change that symbol of
the text. -/
theorem intercalate_set_line {text line : List α} {number offset : Nat} (symbol : α)
    (found : (text.splitOn mark)[number]? = some line) (inside : offset < line.length) :
    [mark].intercalate ((text.splitOn mark).set number (line.set offset symbol)) =
      text.set (startOfLine mark text number + offset) symbol := by
  induction text using lines_induction mark generalizing number with
  | last only unmarked =>
      rw [splitOn_last unmarked] at found ⊢
      cases number with
      | zero =>
          have same : only = line := Option.some.inj found
          rw [same, startOfLine_zero, Nat.zero_add, List.set_cons_zero,
            List.intercalate_singleton]
      | succ number => exact absurd found (by simp)
  | more first rest unmarked ih =>
      have others : rest.splitOn mark ≠ [] := List.splitOn_ne_nil mark rest
      rw [splitOn_more unmarked] at found ⊢
      cases number with
      | zero =>
          have same : first = line := Option.some.inj found
          rw [same, startOfLine_zero, Nat.zero_add, List.set_cons_zero,
            List.intercalate_cons_of_ne_nil others, List.intercalate_splitOn,
            List.set_append_left _ _ inside, List.append_assoc]
          rfl
      | succ number =>
          have changed : (rest.splitOn mark).set number (line.set offset symbol) ≠ [] := by
            intro none
            apply others
            rw [← List.length_eq_zero_iff, ← List.length_set, none]
            rfl
          rw [List.set_cons_succ, List.intercalate_cons_of_ne_nil changed,
            ih found, startOfLine_succ unmarked,
            List.set_append_right _ _ (by omega)]
          have shift : first.length + 1 + startOfLine mark rest number + offset - first.length =
              startOfLine mark rest number + offset + 1 := by omega
          rw [shift, List.set_cons_succ, List.append_assoc]
          rfl

/-- The lines of texts with their marks at the same places start at the same places and have the same lengths. -/
theorem SameMarks.line {text other line : List α} {number : Nat} (same : SameMarks mark text other)
    (found : (text.splitOn mark)[number]? = some line) :
    Exists fun otherLine =>
      (other.splitOn mark)[number]? = some otherLine ∧ otherLine.length = line.length ∧
        startOfLine mark other number = startOfLine mark text number := by
  induction text using lines_induction mark generalizing other number with
  | last only unmarked =>
      rw [splitOn_last unmarked] at found
      cases number with
      | zero =>
          have here : only = line := Option.some.inj found
          subst here
          refine ⟨other, ?_, (List.Forall₂.length_eq same).symm, rfl⟩
          rw [splitOn_last (same.unmarked unmarked)]
          rfl
      | succ number => exact absurd found (by simp)
  | more first rest unmarked ih =>
      rcases same.split unmarked with ⟨left, right, rfl, before, after⟩
      have clear := before.unmarked unmarked
      have long := List.Forall₂.length_eq before
      rw [splitOn_more unmarked] at found
      rw [splitOn_more clear]
      cases number with
      | zero =>
          have here : first = line := Option.some.inj found
          subst here
          exact ⟨left, rfl, long.symm, rfl⟩
      | succ number =>
          rcases ih after found with ⟨otherLine, foundOther, sameLength, start⟩
          refine ⟨otherLine, foundOther, sameLength, ?_⟩
          rw [startOfLine_succ clear, startOfLine_succ unmarked, start, long]

end Library
end Memos
