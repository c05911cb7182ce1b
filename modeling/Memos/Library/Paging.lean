import Mathlib.Data.List.Sort
import Mathlib.Order.Basic

namespace Memos
namespace Library

/-!
# Pages of a list with ties

A query sorts rows by a key and returns a page by its offset.  Rows with equal
keys may come in any order, and in another order in the next query.  Pages
from different queries still put the rows together, each of them once, as long
as no page boundary lies between two rows with equal keys.
-/

variable {α κ : Type} {key : α -> κ} {rows order other : List α}

/-- The rows of a page. -/
def pageRows (size offset : Nat) (order : List α) : List α := (order.drop offset).take size

/-- Two rows with equal keys stand on the two sides of a place. -/
def TieAt (key : α -> κ) (place : Nat) (order : List α) : Prop :=
  0 < place ∧ Exists fun first => Exists fun second =>
    order[place - 1]? = some first ∧ order[place]? = some second ∧ key first = key second

theorem tieAt_iff (place : Nat) : TieAt key place order ↔
    0 < place ∧ Exists fun value => (order.map key)[place - 1]? = some value ∧
      (order.map key)[place]? = some value := by
  simp only [List.getElem?_map, Option.map_eq_some_iff]
  constructor
  · rintro ⟨positive, first, second, left, right, same⟩
    exact ⟨positive, key first, ⟨first, left, rfl⟩, second, right, same.symm⟩
  · rintro ⟨positive, value, ⟨first, left, rfl⟩, second, right, same⟩
    exact ⟨positive, first, second, left, right, same.symm⟩

variable [LinearOrder κ]

/-- An order of the rows by descending key. -/
structure Descending (key : α -> κ) (rows order : List α) : Prop where
  perm : order.Perm rows
  sorted : order.Pairwise fun first second => key second ≤ key first

/-- The keys of the rows are in the same order in all orders. -/
theorem Descending.keys (first : Descending key rows order) (second : Descending key rows other) :
    order.map key = other.map key := by
  apply List.Perm.eq_of_pairwise
  · intro left right _ _ below above
    exact le_antisymm above below
  · exact List.pairwise_map.mpr first.sorted
  · exact List.pairwise_map.mpr second.sorted
  · exact (first.perm.trans second.perm.symm).map key

/-- Without equal keys there is one order only. -/
theorem Descending.eq_of_strict (descending : Descending key rows order) {target : List α}
    (perm : target.Perm rows)
    (strict : target.Pairwise fun first second => key second < key first) : order = target := by
  have sorted : target.Pairwise fun first second => key second ≤ key first :=
    strict.imp fun below => le_of_lt below
  have distinct : (target.map key).Nodup :=
    List.pairwise_map.mpr (strict.imp fun below => ne_of_gt below)
  apply List.Perm.eq_of_pairwise ?_ descending.sorted sorted (descending.perm.trans perm.symm)
  intro left right leftMember rightMember below above
  have inTarget := (descending.perm.trans perm.symm).mem_iff.mp leftMember
  exact List.inj_on_of_nodup_map distinct inTarget rightMember (le_antisymm above below)

/-- Whether there is a tie at a place does not depend on the order. -/
theorem Descending.tieAt (first : Descending key rows order) (second : Descending key rows other)
    (place : Nat) : TieAt key place order ↔ TieAt key place other := by
  rw [tieAt_iff, tieAt_iff, first.keys second]

/-- Without a tie at a place, the rows before it are those with the larger
keys. -/
theorem take_eq_filter (sorted : order.Pairwise fun first second => key second ≤ key first)
    {place : Nat} {last next : α} (before : order[place]? = some last)
    (after : order[place + 1]? = some next) (apart : key last ≠ key next) :
    order.take (place + 1) = order.filter fun row => key last ≤ key row := by
  rcases List.getElem?_eq_some_iff.mp before with ⟨_, rfl⟩
  rcases List.getElem?_eq_some_iff.mp after with ⟨nextBound, rfl⟩
  have pairs := List.pairwise_iff_getElem.mp sorted
  have early : (order.take (place + 1)).filter (fun row => key order[place] ≤ key row) =
      order.take (place + 1) := by
    apply List.filter_eq_self.mpr
    intro row member
    rcases List.mem_take_iff_getElem.mp member with ⟨index, bound, rfl⟩
    rcases Nat.lt_or_eq_of_le (Nat.le_of_lt_succ (Nat.lt_of_lt_of_le bound (Nat.min_le_left _ _)))
      with earlier | rfl
    · exact decide_eq_true (pairs index place _ _ earlier)
    · exact decide_eq_true (le_refl _)
  have late : (order.drop (place + 1)).filter (fun row => key order[place] ≤ key row) = [] := by
    apply List.filter_eq_nil_iff.mpr
    intro row member
    rcases List.mem_drop_iff_getElem.mp member with ⟨index, bound, rfl⟩
    have below : key order[place + 1 + index] ≤ key order[place + 1] := by
      rcases Nat.eq_zero_or_pos index with rfl | positive
      · exact le_refl _
      · exact pairs (place + 1) (place + 1 + index) _ _ (Nat.lt_add_of_pos_right positive)
    have strictly : key order[place + 1] < key order[place] :=
      lt_of_le_of_ne (pairs place (place + 1) _ _ (Nat.lt_succ_self place)) apart.symm
    simpa using lt_of_le_of_lt below strictly
  have whole := congrArg (List.filter fun row => key order[place] ≤ key row)
    (List.take_append_drop (place + 1) order)
  rw [List.filter_append, early, late, List.append_nil] at whole
  exact whole

/-- Without a tie at a place, all orders have the same rows before it. -/
theorem Descending.take_perm (first : Descending key rows order)
    (second : Descending key rows other) (place : Nat) (untied : ¬ TieAt key place order) :
    (order.take place).Perm (other.take place) := by
  have lengths : order.length = other.length :=
    first.perm.length_eq.trans second.perm.length_eq.symm
  have both := first.perm.trans second.perm.symm
  cases place with
  | zero => exact List.Perm.refl _
  | succ index =>
      by_cases inside : index + 1 < order.length
      · have keys := first.keys second
        have otherBound : index < other.length := by omega
        have lastKey : key order[index] = key other[index] := by
          have same := congrArg (fun list => list[index]?) keys
          simpa [List.getElem?_eq_getElem (show index < order.length by omega),
            List.getElem?_eq_getElem otherBound] using same
        have apart : key order[index] ≠ key order[index + 1] := fun same =>
          untied ⟨Nat.succ_pos _, _, _, List.getElem?_eq_getElem (by omega),
            List.getElem?_eq_getElem inside, same⟩
        have otherUntied := (not_congr (first.tieAt second (index + 1))).mp untied
        have otherApart : key other[index] ≠ key other[index + 1] :=
          fun same => otherUntied ⟨Nat.succ_pos _, _, _, List.getElem?_eq_getElem (by omega),
            List.getElem?_eq_getElem (by omega), same⟩
        rw [take_eq_filter first.sorted (List.getElem?_eq_getElem (by omega))
            (List.getElem?_eq_getElem inside) apart,
          take_eq_filter second.sorted (List.getElem?_eq_getElem (by omega))
            (List.getElem?_eq_getElem (by omega)) otherApart, lastKey]
        exact both.filter _
      · rw [List.take_of_length_le (by omega), List.take_of_length_le (by omega)]
        exact both

/-! ## Pages from several queries -/

/-- The first pages, each from the order of its own query. -/
def pagesOf (size : Nat) (orders : Nat -> List α) : Nat -> List α
  | 0 => []
  | count + 1 => pagesOf size orders count ++ pageRows size (count * size) (orders count)

omit [LinearOrder κ] in
theorem take_page (size count : Nat) (order : List α) :
    order.take (count * size) ++ pageRows size (count * size) order =
      order.take ((count + 1) * size) := by
  unfold pageRows
  rw [Nat.add_mul, Nat.one_mul, List.take_add]

/-- Without ties at the boundaries, the first pages are the first rows. -/
theorem pagesOf_perm {size : Nat} {orders : Nat -> List α}
    (descending : ∀ query, Descending key rows (orders query))
    (first : Descending key rows order) (count : Nat)
    (untied : ∀ page, page ≤ count -> ¬ TieAt key (page * size) order) :
    (pagesOf size orders count).Perm (order.take (count * size)) := by
  induction count with
  | zero => rw [Nat.zero_mul]; exact List.Perm.refl _
  | succ count ih =>
      have earlier := ih fun page below => untied page (Nat.le_succ_of_le below)
      have here := first.take_perm (descending count) (count * size)
        (untied count (Nat.le_succ count))
      have next := first.take_perm (descending count) ((count + 1) * size)
        (untied (count + 1) (Nat.le_refl _))
      have joined := (earlier.trans here).append_right (pageRows size (count * size) (orders count))
      rw [take_page] at joined
      exact joined.trans next.symm

/-! ## A tie at a boundary -/

omit [LinearOrder κ] in
theorem TieAt.split {place : Nat} (tied : TieAt key place order) :
    Exists fun front => Exists fun first => Exists fun second => Exists fun rest =>
      order = front ++ first :: second :: rest ∧ front.length + 1 = place ∧
        key first = key second := by
  rcases tied with ⟨positive, first, second, before, after, same⟩
  rcases List.getElem?_eq_some_iff.mp before with ⟨bound, rfl⟩
  rcases List.getElem?_eq_some_iff.mp after with ⟨nextBound, rfl⟩
  have next : place - 1 + 1 = place := Nat.sub_add_cancel positive
  have tail : order.drop (place - 1) =
      order[place - 1] :: order[place] :: order.drop (place + 1) := by
    rw [List.drop_eq_getElem_cons bound]
    simp only [next]
    rw [List.drop_eq_getElem_cons nextBound]
  refine ⟨order.take (place - 1), order[place - 1], order[place], order.drop (place + 1), ?_, ?_,
    same⟩
  · rw [← tail, List.take_append_drop]
  · rw [List.length_take]
    omega

/-- With a tie at a place, another order has the row before the place behind
it. -/
theorem Descending.exchange (descending : Descending key rows order) {place : Nat}
    (tied : TieAt key place order) : Exists fun other => Descending key rows other ∧
      Exists fun row => order[place - 1]? = some row ∧ other[place]? = some row := by
  rcases tied.split with ⟨front, first, second, rest, rfl, rfl, same⟩
  refine ⟨front ++ second :: first :: rest, ⟨?_, ?_⟩, first, ?_, ?_⟩
  · exact ((List.Perm.swap first second rest).append_left front).trans descending.perm
  · have sorted := descending.sorted
    simp only [List.pairwise_append, List.pairwise_cons, List.mem_cons] at sorted ⊢
    rcases sorted with ⟨fronts, ⟨behindFirst, behindSecond, rests⟩, crossing⟩
    refine ⟨fronts, ⟨?_, ?_, rests⟩, ?_⟩
    · rintro row (rfl | inRest)
      · exact le_of_eq same
      · exact behindSecond row inRest
    · exact fun row inRest => behindFirst row (.inr inRest)
    · rintro early inFront row (rfl | rfl | inRest)
      · exact crossing early inFront _ (.inr (.inl rfl))
      · exact crossing early inFront _ (.inl rfl)
      · exact crossing early inFront row (.inr (.inr inRest))
  · simp
  · rw [List.getElem?_append_right (Nat.le_succ _)]
    simp

omit [LinearOrder κ] in
theorem mem_pageRows {size offset place : Nat} {row : α} (found : order[place]? = some row)
    (after : offset ≤ place) (inside : place < offset + size) :
    row ∈ pageRows size offset order := by
  unfold pageRows
  apply List.mem_of_getElem? (i := place - offset)
  rw [List.getElem?_take_of_lt (by omega), List.getElem?_drop, Nat.add_sub_cancel' after]
  exact found

omit [LinearOrder κ] in
/-- Later pages come behind the earlier ones. -/
theorem pagesOf_prefix (size : Nat) (orders : Nat -> List α) {count total : Nat}
    (below : count ≤ total) : Exists fun rest =>
      pagesOf size orders total = pagesOf size orders count ++ rest := by
  induction total with
  | zero =>
      rw [Nat.le_zero.mp below]
      exact ⟨[], (List.append_nil _).symm⟩
  | succ total ih =>
      rcases Nat.lt_or_eq_of_le below with earlier | rfl
      · rcases ih (Nat.le_of_lt_succ earlier) with ⟨rest, same⟩
        exact ⟨rest ++ pageRows size (total * size) (orders total), by
          rw [pagesOf, same, List.append_assoc]⟩
      · exact ⟨[], (List.append_nil _).symm⟩

/-- With a tie at a boundary, orders of the queries exist with which a row is
on both sides of it. -/
theorem Descending.repeated (descending : Descending key rows order) {size page : Nat}
    (tied : TieAt key ((page + 1) * size) order) (positive : 0 < size) :
    Exists fun orders : Nat -> List α => (∀ query, Descending key rows (orders query)) ∧
      ∀ total, page + 2 ≤ total -> ¬ (pagesOf size orders total).Nodup := by
  rcases descending.exchange tied with ⟨other, otherDescending, row, early, late⟩
  refine ⟨fun query => if query ≤ page then order else other, ?_, ?_⟩
  · intro query
    dsimp only
    split
    · exact descending
    · exact otherDescending
  · intro total below distinct
    rcases pagesOf_prefix size (fun query => if query ≤ page then order else other) below with
      ⟨rest, whole⟩
    rw [whole] at distinct
    have firstTwo := (List.nodup_append.mp distinct).1
    have first : row ∈ pagesOf size (fun query => if query ≤ page then order else other)
        (page + 1) := by
      apply List.mem_append_right
      dsimp only
      rw [if_pos (Nat.le_refl page)]
      exact mem_pageRows early (by rw [Nat.add_mul]; omega) (by rw [Nat.add_mul]; omega)
    have second : row ∈ pageRows size ((page + 1) * size) other :=
      mem_pageRows late (Nat.le_refl _) (Nat.lt_add_of_pos_right positive)
    rw [pagesOf] at firstTwo
    have apart := (List.nodup_append.mp firstTwo).2.2
    refine apart row first row ?_ rfl
    rw [if_neg (Nat.not_succ_le_self page)]
    exact second

end Library
end Memos
