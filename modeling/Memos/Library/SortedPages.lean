import Mathlib

namespace Memos
namespace Library

/-!
# Pages that are sorted one by one

A list is cut into pages in one order, and each page is sorted in another.  The
pages together are the same list for all page sizes exactly when the list is in
the other order from the start.
-/

variable {α : Type} (before : α -> α -> Bool)

/-- Cut off a page, sort it and go on, with at most `fuel` pages. -/
def sortedPages (size : Nat) : Nat -> List α -> List (List α)
  | 0, _ => []
  | fuel + 1, rows =>
      (rows.take size).mergeSort before ::
        if size < rows.length then sortedPages size fuel (rows.drop size) else []

variable {before} {size fuel : Nat} {rows : List α}

theorem sortedPages_more (more : size < rows.length) :
    sortedPages before size (fuel + 1) rows =
      (rows.take size).mergeSort before :: sortedPages before size fuel (rows.drop size) := by
  rw [sortedPages, if_pos more]

theorem sortedPages_last (last : ¬ size < rows.length) :
    sortedPages before size (fuel + 1) rows = [rows.mergeSort before] := by
  rw [sortedPages, if_neg last, List.take_of_length_le (Nat.le_of_not_lt last)]

/-- A list in the order of the pages is cut into pages only. -/
theorem sortedPages_of_pairwise (positive : 0 < size) (enough : rows.length < fuel)
    (sorted : rows.Pairwise fun first second => before first second = true) :
    (sortedPages before size fuel rows).flatten = rows := by
  induction fuel generalizing rows with
  | zero => exact absurd enough (Nat.not_lt_zero _)
  | succ fuel ih =>
      by_cases more : size < rows.length
      · have rest := @ih (rows.drop size) (by rw [List.length_drop]; omega)
          (sorted.sublist (List.drop_sublist size rows))
        rw [sortedPages_more more, List.flatten_cons, rest,
          List.mergeSort_of_pairwise (sorted.sublist (List.take_sublist size rows)),
          List.take_append_drop]
      · rw [sortedPages_last more, List.flatten_singleton, List.mergeSort_of_pairwise sorted]

/-- Pages of one row leave the list as it is. -/
theorem sortedPages_one (enough : rows.length < fuel) :
    (sortedPages before 1 fuel rows).flatten = rows := by
  induction fuel generalizing rows with
  | zero => exact absurd enough (Nat.not_lt_zero _)
  | succ fuel ih =>
      rcases rows with _ | ⟨row, rows⟩
      · rw [sortedPages_last (Nat.not_lt_zero 1), List.mergeSort_nil]
        rfl
      · by_cases more : 1 < (row :: rows).length
        · have rest := @ih rows (by rw [List.length_cons] at enough; omega)
          rw [sortedPages_more more]
          change ([row].mergeSort before :: sortedPages before 1 fuel rows).flatten = _
          rw [List.flatten_cons, rest, List.mergeSort_singleton]
          rfl
        · have last : rows = [] := by
            rw [List.length_cons] at more
            exact List.length_eq_zero_iff.mp (by omega)
          rw [sortedPages_last more, last, List.mergeSort_singleton]
          rfl

section Order

variable (trans : ∀ first second third, before first second = true ->
    before second third = true -> before first third = true)
  (total : ∀ first second, (before first second || before second first) = true)

include trans total

/-- If the pages leave the list as it is, neighbours on the same page are in
the order of the pages. -/
theorem before_of_sortedPages (positive : 0 < size) (enough : rows.length < fuel)
    (same : (sortedPages before size fuel rows).flatten = rows) {place : Nat} {first second : α}
    (left : rows[place]? = some first) (right : rows[place + 1]? = some second)
    (together : ¬ size ∣ place + 1) : before first second = true := by
  induction fuel generalizing rows place with
  | zero => exact absurd enough (Nat.not_lt_zero _)
  | succ fuel ih =>
      have inside := (List.getElem?_eq_some_iff.mp right).1
      by_cases more : size < rows.length
      · rw [sortedPages_more more, List.flatten_cons] at same
        have cut := List.append_inj (same.trans (List.take_append_drop size rows).symm)
          (List.length_mergeSort _)
        rcases Nat.lt_trichotomy (place + 1) size with below | equal | above
        · have sorted := List.pairwise_mergeSort trans total (rows.take size)
          rw [cut.1] at sorted
          have leftBound : place < (rows.take size).length := by
            rw [List.length_take]
            omega
          have rightBound : place + 1 < (rows.take size).length := by
            rw [List.length_take]
            omega
          have ordered := List.pairwise_iff_getElem.mp sorted place (place + 1) leftBound rightBound
            (Nat.lt_succ_self place)
          rw [List.getElem_take, List.getElem_take] at ordered
          rw [← (List.getElem?_eq_some_iff.mp left).2, ← (List.getElem?_eq_some_iff.mp right).2]
          exact ordered
        · exact absurd ⟨1, equal.trans (Nat.mul_one size).symm⟩ together
        · have leftRest : (rows.drop size)[place - size]? = some first := by
            rw [List.getElem?_drop, Nat.add_sub_cancel' (Nat.le_of_lt_succ above)]
            exact left
          have rightRest : (rows.drop size)[place - size + 1]? = some second := by
            rw [List.getElem?_drop, ← Nat.add_assoc, Nat.add_sub_cancel' (Nat.le_of_lt_succ above)]
            exact right
          refine @ih (rows.drop size) (by rw [List.length_drop]; omega) cut.2 _ leftRest
            rightRest fun divides => together ?_
          have whole : place + 1 = place - size + 1 + size := by omega
          rw [whole]
          exact Nat.dvd_add_self_right.mpr divides
      · rw [sortedPages_last more, List.flatten_singleton] at same
        have sorted := List.pairwise_mergeSort trans total rows
        rw [same] at sorted
        rw [← (List.getElem?_eq_some_iff.mp left).2, ← (List.getElem?_eq_some_iff.mp right).2]
        exact List.pairwise_iff_getElem.mp sorted place (place + 1) _ _ (Nat.lt_succ_self place)

end Order

/-- Below `2 ^ 31`, no place is a multiple of all small sizes. -/
theorem exists_not_dvd {place : Nat} (positive : 0 < place) (bounded : place < 2 ^ 31) :
    Exists fun size => 0 < size ∧ size ≤ 27 ∧ ¬ size ∣ place := by
  by_contra none
  have divides : ∀ size, 0 < size -> size ≤ 27 -> size ∣ place := by
    intro size sizePositive small
    by_contra not
    exact none ⟨size, sizePositive, small, not⟩
  have byTwoThree := Nat.Coprime.mul_dvd_of_dvd_of_dvd (by decide : Nat.Coprime 16 27)
    (divides 16 (by decide) (by decide)) (divides 27 (by decide) (by decide))
  have byFive := Nat.Coprime.mul_dvd_of_dvd_of_dvd (by decide : Nat.Coprime (16 * 27) 25) byTwoThree
    (divides 25 (by decide) (by decide))
  have bySeven := Nat.Coprime.mul_dvd_of_dvd_of_dvd (by decide : Nat.Coprime (16 * 27 * 25) 7) byFive
    (divides 7 (by decide) (by decide))
  have byEleven := Nat.Coprime.mul_dvd_of_dvd_of_dvd (by decide : Nat.Coprime (16 * 27 * 25 * 7) 11)
    bySeven (divides 11 (by decide) (by decide))
  have byThirteen := Nat.Coprime.mul_dvd_of_dvd_of_dvd
    (by decide : Nat.Coprime (16 * 27 * 25 * 7 * 11) 13) byEleven (divides 13 (by decide) (by decide))
  have bySeventeen := Nat.Coprime.mul_dvd_of_dvd_of_dvd
    (by decide : Nat.Coprime (16 * 27 * 25 * 7 * 11 * 13) 17) byThirteen
    (divides 17 (by decide) (by decide))
  have byNineteen := Nat.Coprime.mul_dvd_of_dvd_of_dvd
    (by decide : Nat.Coprime (16 * 27 * 25 * 7 * 11 * 13 * 17) 19) bySeventeen
    (divides 19 (by decide) (by decide))
  have large := Nat.le_of_dvd positive byNineteen
  exact absurd (Nat.lt_of_le_of_lt large bounded) (by decide)

/-- The pages together are the same list for all sizes up to some maximum
exactly when the list is in the order of the pages. -/
theorem sortedPages_same_iff (trans : ∀ first second third, before first second = true ->
      before second third = true -> before first third = true)
    (total : ∀ first second, (before first second || before second first) = true)
    {maximum : Nat} (large : 27 ≤ maximum) (bounded : rows.length < 2 ^ 31)
    (enough : rows.length < fuel) :
    (Exists fun all => ∀ size, 0 < size -> size ≤ maximum ->
        (sortedPages before size fuel rows).flatten = all) ↔
      rows.Pairwise fun first second => before first second = true := by
  constructor
  · rintro ⟨all, same⟩
    have whole : all = rows := by
      rw [← same 1 Nat.one_pos (by omega)]
      exact sortedPages_one enough
    rw [whole] at same
    have transitive : IsTrans α fun first second => before first second = true := ⟨trans⟩
    rw [← List.isChain_iff_pairwise, List.isChain_iff_getElem]
    intro place inside
    rcases exists_not_dvd (Nat.succ_pos place) (Nat.lt_of_lt_of_le inside (Nat.le_of_lt bounded)) with
      ⟨size, positive, small, together⟩
    exact before_of_sortedPages trans total positive enough (same size positive (by omega))
      (List.getElem?_eq_getElem _) (List.getElem?_eq_getElem inside) together
  · intro sorted
    exact ⟨rows, fun size positive _ => sortedPages_of_pairwise positive enough sorted⟩

end Library
end Memos
