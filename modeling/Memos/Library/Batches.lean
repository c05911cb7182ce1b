import Mathlib.Data.List.Induction
import Mathlib.Data.List.Nodup
import Memos.Library.Except
import Memos.Library.Grouping
import Memos.Library.Paging

namespace Memos
namespace Library

/-!
# Reading in batches and counting by key

A loop reads a list batch by batch until a batch is empty, and works off the
rows of each.  Together that is one pass over the list.  What it counts, it
counts by key: then each key has what a pass over its own rows counts.
-/

variable {α κ σ ε : Type}

/-! ## Batches -/

/-- Read batches until one is empty, with at most `fuel` reads.  The result is
`none` when the last of them was not. -/
def readBatches (fetch : Nat -> Except ε (List α)) (size : Nat) (body : σ -> List α -> σ) :
    Nat -> Nat -> σ -> Except ε (Option σ)
  | 0, _, _ => .ok none
  | fuel + 1, offset, state => do
      let rows ← fetch offset
      if rows.isEmpty then return some state
      else readBatches fetch size body fuel (offset + size) (body state rows)

/-- The batches together are the rest of the list. -/
theorem readBatches_eq {fetch : Nat -> Except ε (List α)} {size : Nat} {body : σ -> List α -> σ}
    {order : List α} {step : σ -> α -> σ} (positive : 0 < size)
    (reads : ∀ offset, fetch offset = .ok (pageRows size offset order))
    (steps : ∀ state rows, body state rows = rows.foldl step state) (fuel offset : Nat)
    (state : σ) (enough : order.length - offset < fuel) :
    readBatches fetch size body fuel offset state = .ok (some ((order.drop offset).foldl step state)) := by
  induction fuel generalizing offset state with
  | zero => omega
  | succ fuel ih =>
      rw [readBatches, reads, ok_bind, pageRows]
      cases rest : order.drop offset with
      | nil => rw [List.take_nil]; rfl
      | cons row rows =>
          have some_left : offset < order.length := by
            by_contra none
            rw [List.drop_eq_nil_of_le (Nat.le_of_not_lt none)] at rest
            exact absurd rest (by simp)
          have notEmpty : ((row :: rows).take size).isEmpty = false := by
            obtain ⟨count, rfl⟩ := Nat.exists_eq_add_one_of_ne_zero (Nat.pos_iff_ne_zero.mp positive)
            rfl
          rw [notEmpty, steps]
          simp only [Bool.false_eq_true, if_false]
          rw [ih _ _ (by omega), ← List.drop_drop, rest, ← List.foldl_append,
            List.take_append_drop]

/-! ## Counting by key -/

variable [DecidableEq κ]

/-- Change the entry of a key, which may be a new one. -/
def touch (value : κ) (fresh : σ) (change : σ -> σ) : List (κ × σ) -> List (κ × σ)
  | [] => [(value, change fresh)]
  | (key, state) :: entries =>
      if key = value then (key, change state) :: entries
      else (key, state) :: touch value fresh change entries

variable {value : κ} {fresh : σ} {change : σ -> σ} {entries : List (κ × σ)}

theorem touch_keys :
    (touch value fresh change entries).map Prod.fst =
      if value ∈ entries.map Prod.fst then entries.map Prod.fst
      else entries.map Prod.fst ++ [value] := by
  induction entries with
  | nil => rfl
  | cons entry entries ih =>
      rcases entry with ⟨key, state⟩
      by_cases same : key = value
      · rw [touch, if_pos same, List.map_cons, List.map_cons, if_pos (by simp [same])]
      · rw [touch, if_neg same, List.map_cons, List.map_cons, ih]
        by_cases member : value ∈ entries.map Prod.fst
        · rw [if_pos member, if_pos (List.mem_cons_of_mem _ member)]
        · have absent : value ∉ key :: entries.map Prod.fst := by
            rw [List.mem_cons, not_or]
            exact ⟨Ne.symm same, member⟩
          rw [if_neg member, if_neg absent]
          rfl

theorem touch_nodup (nodup : (entries.map Prod.fst).Nodup) :
    ((touch value fresh change entries).map Prod.fst).Nodup := by
  rw [touch_keys]
  split
  next => exact nodup
  next absent =>
    rw [← List.concat_eq_append]
    exact nodup.concat absent

/-- The other entries stay. -/
theorem mem_touch_other {key : κ} {state : σ} (other : key ≠ value) :
    (key, state) ∈ touch value fresh change entries ↔ (key, state) ∈ entries := by
  induction entries with
  | nil => simp [touch, other]
  | cons entry entries ih =>
      rcases entry with ⟨first, old⟩
      by_cases same : first = value
      · rw [touch, if_pos same]
        have notFirst : key ≠ first := fun equal => other (equal.trans same)
        simp [notFirst]
      · rw [touch, if_neg same, List.mem_cons, List.mem_cons, ih]

theorem touch_of_mem {old : σ} (nodup : (entries.map Prod.fst).Nodup) (member : (value, old) ∈ entries) :
    (value, change old) ∈ touch value fresh change entries := by
  induction entries with
  | nil => exact absurd member List.not_mem_nil
  | cons entry entries ih =>
      rcases entry with ⟨first, state⟩
      rw [List.map_cons, List.nodup_cons] at nodup
      by_cases same : first = value
      · rw [touch, if_pos same]
        rcases List.mem_cons.mp member with here | later
        · rw [← same, (Prod.mk.inj here).2]
          exact List.mem_cons_self
        · exact absurd (List.mem_map_of_mem later) (by rw [← same]; exact nodup.1)
      · rw [touch, if_neg same]
        rcases List.mem_cons.mp member with here | later
        · exact absurd (Prod.mk.inj here).1.symm same
        · exact List.mem_cons_of_mem _ (ih nodup.2 later)

theorem touch_of_notMem (absent : value ∉ entries.map Prod.fst) :
    (value, change fresh) ∈ touch value fresh change entries := by
  induction entries with
  | nil => exact List.mem_singleton.mpr rfl
  | cons entry entries ih =>
      rcases entry with ⟨first, state⟩
      rw [List.map_cons, List.mem_cons, not_or] at absent
      rw [touch, if_neg (Ne.symm absent.1)]
      exact List.mem_cons_of_mem _ (ih absent.2)

/-- One pass over the rows. -/
def tally (key : α -> κ) (fresh : σ) (step : σ -> α -> σ) (rows : List α) : List (κ × σ) :=
  rows.foldl (fun entries row => touch (key row) fresh (fun state => step state row) entries) []

variable {key : α -> κ} {step : σ -> α -> σ}

theorem tally_snoc (rows : List α) (row : α) :
    tally key fresh step (rows ++ [row]) =
      touch (key row) fresh (fun state => step state row) (tally key fresh step rows) := by
  rw [tally, List.foldl_append]
  rfl

/-- The keys of the rows are those whose rows are some. -/
theorem mem_keys_iff {rows : List α} : value ∈ rows.map key ↔ group key value rows ≠ [] := by
  rw [Ne, group, List.filter_eq_nil_iff, List.mem_map]
  simp only [decide_eq_true_eq, not_forall, not_not]
  constructor
  · rintro ⟨row, member, same⟩
    exact ⟨row, member, same⟩
  · rintro ⟨row, member, same⟩
    exact ⟨row, member, same⟩

/-- Each key of a row has one entry: what a pass over the rows of the key counts. -/
theorem tally_spec (rows : List α) :
    ((tally key fresh step rows).map Prod.fst).Nodup ∧
      (∀ value, value ∈ (tally key fresh step rows).map Prod.fst ↔ value ∈ rows.map key) ∧
      ∀ value, value ∈ rows.map key ->
        (value, (group key value rows).foldl step fresh) ∈ tally key fresh step rows := by
  induction rows using List.reverseRecOn with
  | nil =>
      refine ⟨List.nodup_nil, fun value => Iff.rfl, ?_⟩
      exact fun value impossible => absurd impossible List.not_mem_nil
  | append_singleton rows row ih =>
      rcases ih with ⟨nodup, keys, holds⟩
      rw [tally_snoc]
      refine ⟨touch_nodup nodup, ?_, ?_⟩
      · intro value
        rw [touch_keys, List.map_append, List.mem_append, List.map_singleton, List.mem_singleton]
        by_cases known : key row ∈ (tally key fresh step rows).map Prod.fst
        · rw [if_pos known, keys]
          refine ⟨Or.inl, ?_⟩
          rintro (earlier | rfl)
          · exact earlier
          · exact (keys _).mp known
        · rw [if_neg known, List.mem_append, keys, List.mem_singleton]
      · intro value member
        have grouped : group key value (rows ++ [row]) =
            if key row = value then group key value rows ++ [row] else group key value rows := by
          rw [group, List.filter_append]
          by_cases same : key row = value
          · simp [same, group]
          · simp [same, group]
        rw [grouped]
        by_cases same : key row = value
        · rw [if_pos same, List.foldl_append, ← same]
          by_cases known : key row ∈ rows.map key
          · exact touch_of_mem nodup (holds _ known)
          · have empty : group key (key row) rows = [] := by
              rw [group, List.filter_eq_nil_iff]
              intro other inside equal
              exact known (of_decide_eq_true equal ▸ List.mem_map_of_mem inside)
            rw [empty]
            exact touch_of_notMem fun inside => known ((keys _).mp inside)
        · rw [if_neg same, mem_touch_other (Ne.symm same)]
          rw [List.map_append, List.mem_append, List.map_singleton, List.mem_singleton] at member
          exact holds value (member.resolve_right (Ne.symm same))

end Library
end Memos
