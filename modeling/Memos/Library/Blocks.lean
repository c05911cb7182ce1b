import Mathlib.Data.List.Basic
import Mathlib.Data.List.Pairwise
import Memos.Library.Grouping

namespace Memos
namespace Library

/-!
# Lists in blocks

A list is arranged in blocks when the elements of one unit stand together at
the place of the first of them.  Repetitions are left out, and so are the units
that are not kept.  Arranging a list twice is arranging it once.
-/

variable {α κ : Type} [DecidableEq α] [DecidableEq κ]

/-! ## The first of equal elements -/

theorem eraseDups_filter_cons {keeps : α -> Bool} {element : α} {rest : List α}
    (kept : keeps element = true) :
    ((element :: rest).filter keeps).eraseDups =
      element :: (rest.filter fun other => !(other == element) && keeps other).eraseDups := by
  rw [List.filter_cons_of_pos kept, List.eraseDups_cons, List.filter_filter]

/-- What is left stands in the order of the first occurrences. -/
theorem pairwise_eraseDups_filter (items : List α) (keeps : α -> Bool) :
    (items.filter keeps).eraseDups.Pairwise fun first second =>
      items.idxOf first < items.idxOf second := by
  induction items generalizing keeps with
  | nil => exact List.Pairwise.nil
  | cons element rest ih =>
      have later : ∀ (tests : α -> Bool),
          (∀ other, tests other = true -> other ≠ element) ->
          (rest.filter tests).eraseDups.Pairwise fun first second =>
            (element :: rest).idxOf first < (element :: rest).idxOf second := by
        intro tests different
        refine (ih tests).imp_of_mem ?_
        intro first second firstMember secondMember before
        have firstOther := different first (List.mem_filter.mp (List.mem_eraseDups.mp firstMember)).2
        have secondOther := different second
          (List.mem_filter.mp (List.mem_eraseDups.mp secondMember)).2
        rw [List.idxOf_cons_ne _ firstOther.symm, List.idxOf_cons_ne _ secondOther.symm]
        omega
      by_cases kept : keeps element = true
      · rw [eraseDups_filter_cons kept, List.pairwise_cons]
        have different : ∀ other, (!(other == element) && keeps other) = true ->
            other ≠ element := by
          intro other passes
          simp only [Bool.and_eq_true, Bool.not_eq_true', beq_eq_false_iff_ne] at passes
          exact passes.1
        refine ⟨?_, later _ different⟩
        intro second member
        have other := different second (List.mem_filter.mp (List.mem_eraseDups.mp member)).2
        rw [List.idxOf_cons_self, List.idxOf_cons_ne _ other.symm]
        omega
      · rw [List.filter_cons_of_neg kept]
        refine later keeps ?_
        rintro other passes rfl
        exact kept passes

theorem pairwise_eraseDups (items : List α) :
    items.eraseDups.Pairwise fun first second => items.idxOf first < items.idxOf second := by
  have filtered := pairwise_eraseDups_filter items fun _ => true
  rw [List.filter_true] at filtered
  exact filtered

theorem nodup_eraseDups (items : List α) : items.eraseDups.Nodup :=
  (pairwise_eraseDups items).imp fun before same => by
    rw [same] at before
    exact absurd before (Nat.lt_irrefl _)

theorem eraseDups_of_nodup {items : List α} (distinct : items.Nodup) : items.eraseDups = items := by
  induction items with
  | nil => rfl
  | cons element rest ih =>
      rcases List.nodup_cons.mp distinct with ⟨fresh, others⟩
      have whole : (rest.filter fun other => !(other == element)) = rest := by
        refine List.filter_eq_self.mpr fun other member => ?_
        rw [Bool.not_eq_true', beq_eq_false_iff_ne]
        rintro rfl
        exact fresh member
      rw [List.eraseDups_cons, whole, ih others]

/-- One more element. -/
theorem eraseDups_concat (items : List α) (element : α) :
    (items ++ [element]).eraseDups =
      if element ∈ items then items.eraseDups else items.eraseDups ++ [element] := by
  rw [List.eraseDups_append, List.cons_removeAll]
  by_cases known : element ∈ items
  · rw [if_pos known, if_neg (by simpa using known)]
    simp
  · rw [if_neg known, if_pos (by simpa using known)]
    simp [List.eraseDups_cons]

/-- A list of one element only. -/
theorem eraseDups_of_forall_eq {items : List α} {element : α} (member : element ∈ items)
    (same : ∀ other, other ∈ items -> other = element) : items.eraseDups = [element] := by
  cases items with
  | nil => cases member
  | cons first rest =>
      have head := same first List.mem_cons_self
      have none : (rest.filter fun other => !(other == first)) = [] := by
        refine List.filter_eq_nil_iff.mpr fun other inRest => ?_
        rw [same other (List.mem_cons_of_mem _ inRest), head]
        simp
      rw [List.eraseDups_cons, none, head]
      rfl

/-! ## Blocks -/

/-- The elements of one unit. -/
def block (unit : α -> κ) (items : List α) (value : κ) : List α := (group unit value items).eraseDups

/-- The kept units in the order of their first elements. -/
def units (unit : α -> κ) (kept : κ -> Bool) (items : List α) : List κ :=
  (items.map unit).eraseDups.filter kept

def arrange (unit : α -> κ) (kept : κ -> Bool) (items : List α) : List α :=
  (units unit kept items).flatMap (block unit items)

section Arrange

variable {unit : α -> κ} {kept : κ -> Bool} {items : List α}

theorem mem_block {value : κ} {element : α} :
    element ∈ block unit items value ↔ element ∈ items ∧ unit element = value := by
  rw [block, List.mem_eraseDups, mem_group]

omit [DecidableEq α] in
theorem mem_units {value : κ} :
    value ∈ units unit kept items ↔
      (Exists fun element => element ∈ items ∧ unit element = value) ∧ kept value = true := by
  rw [units, List.mem_filter, List.mem_eraseDups, List.mem_map]

omit [DecidableEq α] in
theorem nodup_units : (units unit kept items).Nodup := (nodup_eraseDups _).filter _

theorem mem_arrange {element : α} :
    element ∈ arrange unit kept items ↔ element ∈ items ∧ kept (unit element) = true := by
  rw [arrange, List.mem_flatMap]
  constructor
  · rintro ⟨value, inUnits, inBlock⟩
    rcases mem_block.mp inBlock with ⟨member, rfl⟩
    exact ⟨member, (mem_units.mp inUnits).2⟩
  · rintro ⟨member, keeps⟩
    exact ⟨unit element, mem_units.mpr ⟨⟨element, member, rfl⟩, keeps⟩, mem_block.mpr ⟨member, rfl⟩⟩

/-- The order of the blocks, and the order within them. -/
def Precedes (unit : α -> κ) (items : List α) (first second : α) : Prop :=
  (items.map unit).idxOf (unit first) < (items.map unit).idxOf (unit second) ∨
    (unit first = unit second ∧ items.idxOf first < items.idxOf second)

theorem pairwise_arrange : (arrange unit kept items).Pairwise (Precedes unit items) := by
  rw [arrange, List.pairwise_flatMap]
  constructor
  · intro value _
    refine (pairwise_eraseDups_filter items _).imp_of_mem ?_
    intro first second firstMember secondMember before
    have ofFirst := (mem_block.mp firstMember).2
    have ofSecond := (mem_block.mp secondMember).2
    exact .inr ⟨ofFirst.trans ofSecond.symm, before⟩
  · refine (List.Pairwise.filter kept (pairwise_eraseDups (items.map unit))).imp ?_
    intro value other before first firstMember second secondMember
    rw [← (mem_block.mp firstMember).2, ← (mem_block.mp secondMember).2] at before
    exact .inl before

theorem nodup_arrange : (arrange unit kept items).Nodup :=
  pairwise_arrange.imp fun before same => by
    rcases before with earlier | ⟨_, earlier⟩ <;> rw [same] at earlier <;>
      exact absurd earlier (Nat.lt_irrefl _)

/-- The elements of one unit stand together. -/
theorem arrange_contiguous (value : κ) :
    Exists fun before => Exists fun after =>
      arrange unit kept items = before ++ group unit value (arrange unit kept items) ++ after ∧
        ∀ element, element ∈ before ++ after -> unit element ≠ value := by
  have others : ∀ list : List κ, value ∉ list -> ∀ element,
      element ∈ list.flatMap (block unit items) -> unit element ≠ value := by
    intro list absent element member same
    rcases List.mem_flatMap.mp member with ⟨other, inList, inBlock⟩
    rw [(mem_block.mp inBlock).2.symm.trans same] at inList
    exact absent inList
  have without : ∀ list : List κ, value ∉ list ->
      group unit value (list.flatMap (block unit items)) = [] := by
    intro list absent
    refine List.filter_eq_nil_iff.mpr fun element member => ?_
    rw [decide_eq_true_eq]
    exact others list absent element member
  by_cases there : value ∈ units unit kept items
  · rcases List.append_of_mem there with ⟨first, last, split⟩
    have distinct : (first ++ value :: last).Nodup := split ▸ nodup_units
    rcases List.nodup_middle.mp distinct |> List.nodup_cons.mp with ⟨absent, _⟩
    have notFirst : value ∉ first := fun member => absent (List.mem_append_left _ member)
    have notLast : value ∉ last := fun member => absent (List.mem_append_right _ member)
    have whole : arrange unit kept items = first.flatMap (block unit items) ++
        block unit items value ++ last.flatMap (block unit items) := by
      rw [arrange, split, List.flatMap_append, List.flatMap_cons, List.append_assoc]
    have middle : group unit value (arrange unit kept items) = block unit items value := by
      have own : group unit value (block unit items value) = block unit items value := by
        refine List.filter_eq_self.mpr fun element member => ?_
        rw [decide_eq_true_eq]
        exact (mem_block.mp member).2
      have leading := without first notFirst
      have trailing := without last notLast
      unfold group at leading trailing own ⊢
      rw [whole, List.filter_append, List.filter_append, leading, trailing, own]
      simp
    refine ⟨first.flatMap (block unit items), last.flatMap (block unit items), ?_, ?_⟩
    · rw [middle]
      exact whole
    · intro element member
      rcases List.mem_append.mp member with early | late
      · exact others first notFirst element early
      · exact others last notLast element late
  · refine ⟨arrange unit kept items, [], ?_, ?_⟩
    · rw [arrange, without _ there, List.append_nil, List.append_nil]
    · rw [List.append_nil]
      exact others _ there

end Arrange

/-! ## Arranging once more -/

section Again

variable {unit : α -> κ} {kept : κ -> Bool} {items : List α}

/-- The blocks of a list of units that each have an element. -/
theorem units_flatMap_block {values : List κ} (distinct : values.Nodup)
    (there : ∀ value, value ∈ values -> Exists fun element =>
      element ∈ items ∧ unit element = value) :
    ((values.flatMap (block unit items)).map unit).eraseDups = values := by
  induction values with
  | nil => rfl
  | cons value rest ih =>
      rcases List.nodup_cons.mp distinct with ⟨fresh, others⟩
      have alone : ((block unit items value).map unit).eraseDups = [value] := by
        rcases there value List.mem_cons_self with ⟨element, member, same⟩
        refine eraseDups_of_forall_eq
          (List.mem_map.mpr ⟨element, mem_block.mpr ⟨member, same⟩, same⟩) ?_
        intro other inMap
        rcases List.mem_map.mp inMap with ⟨source, inBlock, rfl⟩
        exact (mem_block.mp inBlock).2
      have apart : ((rest.flatMap (block unit items)).map unit).removeAll
          ((block unit items value).map unit) = (rest.flatMap (block unit items)).map unit := by
        refine List.filter_eq_self.mpr fun other inMap => ?_
        rcases List.mem_map.mp inMap with ⟨element, member, rfl⟩
        rcases List.mem_flatMap.mp member with ⟨later, inRest, inBlock⟩
        rw [Bool.not_eq_true']
        refine Bool.eq_false_iff.mpr fun contained => ?_
        rcases List.mem_map.mp (List.contains_iff_mem.mp contained) with ⟨source, ofValue, same⟩
        rw [(mem_block.mp ofValue).2, (mem_block.mp inBlock).2] at same
        exact fresh (same ▸ inRest)
      rw [List.flatMap_cons, List.map_append, List.eraseDups_append, alone, apart,
        ih others fun other member => there other (List.mem_cons_of_mem _ member)]
      rfl

theorem block_arrange {value : κ} (keeps : kept value = true) :
    block unit (arrange unit kept items) value = block unit items value := by
  have distinct : (group unit value (arrange unit kept items)).Nodup := nodup_arrange.filter _
  rw [block, eraseDups_of_nodup distinct, arrange]
  unfold group
  rw [List.filter_flatMap]
  have single : ∀ other, other ∈ units unit kept items ->
      ((block unit items other).filter fun element => unit element = value) =
        if other = value then block unit items value else [] := by
    intro other _
    split
    · next same =>
        rw [same]
        refine List.filter_eq_self.mpr fun element member => ?_
        rw [decide_eq_true_eq]
        exact (mem_block.mp member).2
    · next different =>
        refine List.filter_eq_nil_iff.mpr fun element member => ?_
        rw [decide_eq_true_eq, (mem_block.mp member).2]
        exact different
  rw [List.flatMap_congr single]
  by_cases there : value ∈ units unit kept items
  · rcases List.append_of_mem there with ⟨first, last, split⟩
    have unique : (first ++ value :: last).Nodup := split ▸ nodup_units
    rcases List.nodup_middle.mp unique |> List.nodup_cons.mp with ⟨absent, _⟩
    have none : ∀ list : List κ, value ∉ list ->
        (list.flatMap fun other => if other = value then block unit items value else []) = [] := by
      intro list notThere
      refine List.flatMap_eq_nil_iff.mpr fun other member => if_neg ?_
      rintro rfl
      exact notThere member
    rw [split, List.flatMap_append, List.flatMap_cons, if_pos rfl,
      none first fun member => absent (List.mem_append_left _ member),
      none last fun member => absent (List.mem_append_right _ member)]
    simp
  · have empty : block unit items value = [] := by
      refine List.eq_nil_iff_forall_not_mem.mpr fun element member => ?_
      rcases mem_block.mp member with ⟨inItems, same⟩
      exact there (mem_units.mpr ⟨⟨element, inItems, same⟩, keeps⟩)
    rw [empty]
    refine List.flatMap_eq_nil_iff.mpr fun other _ => ?_
    split <;> rfl

/-- The arranged list in its turn, with other units kept as long as the units
in it are. -/
theorem arrange_arrange {again : κ -> Bool}
    (agrees : ∀ value, value ∈ units unit kept items -> again value = true) :
    arrange unit again (arrange unit kept items) = arrange unit kept items := by
  have same : units unit again (arrange unit kept items) = units unit kept items := by
    have there : ∀ value, value ∈ units unit kept items -> Exists fun element =>
        element ∈ items ∧ unit element = value := fun value member => (mem_units.mp member).1
    unfold units
    have erased := units_flatMap_block nodup_units there
    rw [← arrange] at erased
    rw [erased]
    exact List.filter_eq_self.mpr agrees
  have blocks : ∀ value, value ∈ units unit kept items ->
      block unit (arrange unit kept items) value = block unit items value :=
    fun value member => block_arrange (mem_units.mp member).2
  calc arrange unit again (arrange unit kept items)
      = (units unit kept items).flatMap (block unit (arrange unit kept items)) := by
        rw [← same]
        rfl
    _ = arrange unit kept items := List.flatMap_congr blocks

end Again

end Library
end Memos
