import Memos.Library.Splicing

namespace Memos
namespace Web
namespace TaskLists

open Library

/-!
# Mixed task lists

Before a memo is rendered, a list with task items and other items is replaced by
one list for each run of items of one kind.  The lists have the attributes of
the original one, its start number included: in an ordered list the numbers
begin again with each run.
-/

/-! ## Syntax trees -/

variable {α : Type}

mutual

/-- A node of the syntax tree: a list, or any other node with its children.  The
data are the attributes that nothing here looks at. -/
inductive Block (α : Type) where
  | list (data : α) (ordered : Bool) (start : Option Nat) (spread : Bool) (items : List (Item α))
  | other (data : α) (children : List (Block α))

/-- A list item; a task item is checked or not. -/
inductive Item (α : Type) where
  | item (data : α) (checked : Option Bool) (spread : Bool) (children : List (Block α))

end

namespace Item

def checked : Item α -> Option Bool
  | .item _ checked _ _ => checked

def spread : Item α -> Bool
  | .item _ _ spread _ => spread

def children : Item α -> List (Block α)
  | .item _ _ _ children => children

def withSpread (spread : Bool) : Item α -> Item α
  | .item data checked _ children => .item data checked spread children

def isTaskItem (item : Item α) : Bool := item.checked.isSome

def isSingleBlockItem (item : Item α) : Bool := item.children.length ≤ 1

def hasLooseBlockItem (item : Item α) : Bool := !item.isSingleBlockItem && item.spread

end Item

/-! ## Splitting -/

def normalizeSplitListItems (items : List (Item α)) : List (Item α) :=
  items.map fun item => if item.isSingleBlockItem then item.withSpread false else item

/-- `splitMixedList`, of a list with these attributes and items. -/
def splitMixedList (data : α) (ordered : Bool) (start : Option Nat) (spread : Bool)
    (items : List (Item α)) : List (Block α) :=
  if !items.any Item.isTaskItem || !items.any (fun item => !item.isTaskItem) then
    [.list data ordered start spread items]
  else
    (keyRuns Item.isTaskItem items).map fun group =>
      let children := normalizeSplitListItems group.2
      .list data ordered start (children.any Item.hasLooseBlockItem) children

mutual

/-- What stands in the place of a node after `splitMixedTaskListsInParent` of its
parent. -/
def splitBlock : Block α -> List (Block α)
  | .list data ordered start spread items =>
      splitMixedList data ordered start spread (splitItems items)
  | .other data children => [.other data (splitMixedTaskListsInParent children)]

def splitItem : Item α -> Item α
  | .item data checked spread children =>
      .item data checked spread (splitMixedTaskListsInParent children)

/-- `splitMixedTaskListsInParent` of a parent with these children. -/
def splitMixedTaskListsInParent : List (Block α) -> List (Block α)
  | [] => []
  | child :: children => splitBlock child ++ splitMixedTaskListsInParent children

def splitItems : List (Item α) -> List (Item α)
  | [] => []
  | item :: items => splitItem item :: splitItems items

end

theorem splitMixedTaskListsInParent_eq (children : List (Block α)) :
    splitMixedTaskListsInParent children = children.flatMap splitBlock := by
  induction children with
  | nil => rw [splitMixedTaskListsInParent, List.flatMap_nil]
  | cons child children ih =>
      rw [splitMixedTaskListsInParent, ih, List.flatMap_cons]

theorem splitItems_eq (items : List (Item α)) : splitItems items = items.map splitItem := by
  induction items with
  | nil => rw [splitItems, List.map_nil]
  | cons item items ih =>
      rw [splitItems, ih, List.map_cons]

/-- The loop of the source, which splices the lists into the children while it
visits them by index. -/
theorem splitMixedTaskListsInParent_loop (children : List (Block α)) :
    replaceFrom splitBlock 0 children = splitMixedTaskListsInParent children := by
  rw [splitMixedTaskListsInParent_eq]
  exact replaceFrom_eq splitBlock [] children

/-! ## The lists of a tree -/

mutual

/-- The lists of a node, at every depth. -/
def Block.lists : Block α -> List (Block α)
  | .list data ordered start spread items =>
      .list data ordered start spread items :: Item.listsAll items
  | .other _ children => Block.listsAll children

def Item.lists : Item α -> List (Block α)
  | .item _ _ _ children => Block.listsAll children

def Block.listsAll : List (Block α) -> List (Block α)
  | [] => []
  | child :: children => Block.lists child ++ Block.listsAll children

def Item.listsAll : List (Item α) -> List (Block α)
  | [] => []
  | item :: items => Item.lists item ++ Item.listsAll items

end

namespace Block

def items : Block α -> List (Item α)
  | .list _ _ _ _ items => items
  | .other _ _ => []

def isOrdered : Block α -> Bool
  | .list _ ordered _ _ _ => ordered
  | .other _ _ => false

/-- The numbers of the items. -/
def ordinals : Block α -> List Nat
  | .list _ _ start _ items => List.range' (start.getD 1) items.length
  | .other _ _ => []

/-- All items are task items, or none is. -/
def Homogeneous (block : Block α) : Prop :=
  (∀ item, item ∈ block.items -> item.isTaskItem = true) ∨
    ∀ item, item ∈ block.items -> item.isTaskItem = false

end Block

/-- An item of one block, whose spacing is never seen, without the spacing. -/
def Item.tightened (item : Item α) : Item α :=
  if item.isSingleBlockItem then item.withSpread false else item

/-- The lists that replace a list have its items, in order and up to the spacing
of items of one block, and are homogeneous at every depth; ordered ones number
the items as before; and splitting again changes nothing. -/
structure SplitsFaithfully (children : List (Block α)) : Prop where
  items : ∀ list, list ∈ Block.listsAll children ->
    ((splitBlock list).flatMap Block.items).map Item.tightened =
      list.items.map fun item => (splitItem item).tightened
  homogeneous : ∀ list, list ∈ Block.listsAll (splitMixedTaskListsInParent children) ->
    list.Homogeneous
  ordinals : ∀ list, list ∈ Block.listsAll children -> list.isOrdered = true ->
    (splitBlock list).flatMap Block.ordinals = list.ordinals
  again : splitMixedTaskListsInParent (splitMixedTaskListsInParent children) =
    splitMixedTaskListsInParent children

/-! ## Splitting one list -/

section Splitting

variable {data : α} {ordered : Bool} {start : Option Nat} {spread : Bool} {items : List (Item α)}

@[simp]
theorem Item.tightened_isTaskItem (item : Item α) : item.tightened.isTaskItem = item.isTaskItem := by
  cases item
  rw [tightened]
  split <;> rfl

@[simp]
theorem Item.tightened_lists (item : Item α) : item.tightened.lists = item.lists := by
  cases item
  rw [tightened]
  split <;> rfl

@[simp]
theorem Item.tightened_tightened (item : Item α) : item.tightened.tightened = item.tightened := by
  cases item with
  | item data checked spread children =>
      by_cases single : children.length ≤ 1 <;>
        simp [tightened, isSingleBlockItem, Item.children, withSpread, single]

/-- Normalizing changes nothing but the spacing. -/
theorem map_normalizeSplitListItems {β : Type} {reading : Item α -> β}
    (blind : ∀ item, reading item.tightened = reading item) :
    (normalizeSplitListItems items).map reading = items.map reading := by
  change (items.map Item.tightened).map reading = _
  rw [List.map_map]
  exact List.map_congr_left fun item _ => blind item

/-- A list of items of one kind is left alone; any other one is replaced by a
list for each run. -/
theorem splitMixedList_cases (data : α) (ordered : Bool) (start : Option Nat) (spread : Bool)
    (items : List (Item α)) :
    ((Block.list data ordered start spread items).Homogeneous ∧
      splitMixedList data ordered start spread items = [.list data ordered start spread items]) ∨
    (Exists fun first => Exists fun second => first ∈ items ∧ second ∈ items ∧
      first.isTaskItem ≠ second.isTaskItem) ∧
      Exists fun spreadOf : List (Item α) -> Bool =>
        splitMixedList data ordered start spread items =
          (keyRuns Item.isTaskItem items).map fun group =>
            .list data ordered start (spreadOf group.2) (normalizeSplitListItems group.2) := by
  rw [splitMixedList]
  split
  · rename_i single
    refine Or.inl ⟨?_, rfl⟩
    simp only [Bool.or_eq_true, Bool.not_eq_true', List.any_eq_false, Bool.not_eq_true] at single
    rcases single with noTask | noOther
    · exact Or.inr noTask
    · refine Or.inl fun item member => ?_
      have isTask := noOther item member
      rwa [Bool.not_eq_false] at isTask
  · rename_i mixed
    simp only [Bool.or_eq_true, Bool.not_eq_true', not_or, Bool.not_eq_false, List.any_eq_true] at mixed
    rcases mixed with ⟨⟨first, isFirst, firstTask⟩, second, isSecond, secondOther⟩
    refine Or.inr ⟨⟨first, second, isFirst, isSecond, ?_⟩,
      fun items => (normalizeSplitListItems items).any Item.hasLooseBlockItem, rfl⟩
    rw [firstTask, secondOther]
    decide

/-- Whatever is read of the items of a list is read of the lists that replace it. -/
theorem splitMixedList_items {β : Type} {reading : Item α -> β}
    (blind : ∀ item, reading item.tightened = reading item) :
    ((splitMixedList data ordered start spread items).flatMap Block.items).map reading =
      items.map reading := by
  rcases splitMixedList_cases data ordered start spread items with ⟨_, single⟩ | ⟨_, spreadOf, split⟩
  · rw [single, List.flatMap_singleton]
    rfl
  · have together := (keyRuns_spec Item.isTaskItem items).1
    rw [split, List.flatMap_map, List.map_flatMap]
    simp only [Block.items, map_normalizeSplitListItems blind]
    rw [<- List.map_flatMap, together]

theorem splitMixedList_homogeneous (block : Block α)
    (member : block ∈ splitMixedList data ordered start spread items) : block.Homogeneous := by
  rcases splitMixedList_cases data ordered start spread items with
    ⟨homogeneous, single⟩ | ⟨_, spreadOf, split⟩
  · rw [single, List.mem_singleton] at member
    exact member ▸ homogeneous
  · rw [split] at member
    rcases List.mem_map.mp member with ⟨group, isGroup, rfl⟩
    have alike := ((keyRuns_spec Item.isTaskItem items).2 group isGroup).2
    have normalized (item : Item α) (inGroup : item ∈ normalizeSplitListItems group.2) :
        item.isTaskItem = group.1 := by
      rcases List.mem_map.mp inGroup with ⟨original, isOriginal, rfl⟩
      rw [<- alike original isOriginal]
      exact original.tightened_isTaskItem
    cases kind : group.1 with
    | true => exact Or.inl fun item inGroup => (normalized item inGroup).trans kind
    | false => exact Or.inr fun item inGroup => (normalized item inGroup).trans kind

/-- The runs number their items from the same start. -/
theorem splitMixedList_ordinals
    (keeps : (splitMixedList data ordered start spread items).flatMap Block.ordinals =
      List.range' (start.getD 1) items.length) :
    (Block.list data ordered start spread items).Homogeneous := by
  rcases splitMixedList_cases data ordered start spread items with
    ⟨homogeneous, _⟩ | ⟨⟨first, second, isFirst, isSecond, different⟩, spreadOf, split⟩
  · exact homogeneous
  · rcases keyRuns_of_two isFirst isSecond different with ⟨run, next, runs, runs_eq⟩
    have spec := keyRuns_spec Item.isTaskItem items
    rw [runs_eq] at spec
    have runLong := List.length_pos_iff.mpr (spec.2 run List.mem_cons_self).1
    have nextLong := List.length_pos_iff.mpr
      (spec.2 next (List.mem_cons_of_mem run List.mem_cons_self)).1
    have total := congrArg List.length spec.1
    simp only [List.flatMap_cons, List.length_append] at total
    -- The first item of the second run has the number of the first one.
    have atNext := congrArg (fun numbers : List Nat => numbers[run.2.length]?) keeps
    simp only [split, runs_eq, List.map_cons, List.flatMap_cons, Block.ordinals,
      normalizeSplitListItems, List.length_map] at atNext
    rw [List.getElem?_append_right (Nat.le_of_eq List.length_range'), List.length_range', Nat.sub_self,
      List.getElem?_append_left (by rw [List.length_range']; exact nextLong),
      List.getElem?_range' (by omega), List.getElem?_range' (by omega)] at atNext
    have same := Option.some.inj atNext
    omega

end Splitting

/-! ## Every depth -/

theorem Item.listsAll_eq (items : List (Item α)) : Item.listsAll items = items.flatMap Item.lists := by
  induction items with
  | nil => rw [Item.listsAll, List.flatMap_nil]
  | cons item items ih => rw [Item.listsAll, ih, List.flatMap_cons]

theorem Block.listsAll_eq (children : List (Block α)) :
    Block.listsAll children = children.flatMap Block.lists := by
  induction children with
  | nil => rw [Block.listsAll, List.flatMap_nil]
  | cons child children ih =>
      rw [Block.listsAll, ih, List.flatMap_cons]

variable {data : α} {ordered : Bool} {start : Option Nat} {spread : Bool} {items : List (Item α)}

/-- The lists below the lists that replace a list are those below its items. -/
theorem lists_splitMixedList {list block : Block α} (isBlock : block ∈ splitMixedList data ordered start spread items)
    (member : list ∈ block.lists) :
    list = block ∨ list ∈ Item.listsAll items := by
  have below : list ∈ block.items.flatMap Item.lists -> list ∈ Item.listsAll items := by
    intro inItems
    rw [Item.listsAll_eq, List.flatMap_def,
      <- splitMixedList_items Item.tightened_lists, <- List.flatMap_def]
    rcases List.mem_flatMap.mp inItems with ⟨item, isItem, inItem⟩
    exact List.mem_flatMap.mpr ⟨item, List.mem_flatMap.mpr ⟨block, isBlock, isItem⟩, inItem⟩
  have isList : Exists fun someSpread => Exists fun someItems =>
      block = .list data ordered start someSpread someItems := by
    rcases splitMixedList_cases data ordered start spread items with ⟨_, single⟩ | ⟨_, spreadOf, split⟩
    · rw [single, List.mem_singleton] at isBlock
      exact ⟨_, _, isBlock⟩
    · rw [split] at isBlock
      rcases List.mem_map.mp isBlock with ⟨group, _, rfl⟩
      exact ⟨_, _, rfl⟩
  rcases isList with ⟨someSpread, someItems, rfl⟩
  rw [Block.lists, List.mem_cons, Item.listsAll_eq] at member
  rcases member with same | inItems
  · exact Or.inl same
  · exact Or.inr (below inItems)

mutual

theorem splitBlock_homogeneous (block : Block α) :
    ∀ list, list ∈ Block.listsAll (splitBlock block) -> list.Homogeneous := by
  intro list member
  match block with
  | .other data children =>
      rw [splitBlock, Block.listsAll, Block.lists, Block.listsAll, List.append_nil] at member
      exact splitMixedTaskListsInParent_homogeneous children list member
  | .list data ordered start spread items =>
      rw [splitBlock, Block.listsAll_eq] at member
      rcases List.mem_flatMap.mp member with ⟨replaced, isReplaced, inReplaced⟩
      rcases lists_splitMixedList isReplaced inReplaced with rfl | inItems
      · exact splitMixedList_homogeneous list isReplaced
      · exact splitItems_homogeneous items list inItems

theorem splitItem_homogeneous (item : Item α) :
    ∀ list, list ∈ (splitItem item).lists -> list.Homogeneous := by
  intro list member
  match item with
  | .item data checked spread children =>
      rw [splitItem, Item.lists] at member
      exact splitMixedTaskListsInParent_homogeneous children list member

theorem splitMixedTaskListsInParent_homogeneous (children : List (Block α)) :
    ∀ list, list ∈ Block.listsAll (splitMixedTaskListsInParent children) -> list.Homogeneous := by
  intro list member
  match children with
  | [] =>
      rw [splitMixedTaskListsInParent, Block.listsAll] at member
      exact absurd member List.not_mem_nil
  | child :: children =>
      rw [splitMixedTaskListsInParent, Block.listsAll_eq, List.flatMap_append, <- Block.listsAll_eq,
        <- Block.listsAll_eq] at member
      rcases List.mem_append.mp member with inFirst | inRest
      · exact splitBlock_homogeneous child list inFirst
      · exact splitMixedTaskListsInParent_homogeneous children list inRest

theorem splitItems_homogeneous (items : List (Item α)) :
    ∀ list, list ∈ Item.listsAll (splitItems items) -> list.Homogeneous := by
  intro list member
  match items with
  | [] =>
      rw [splitItems, Item.listsAll] at member
      exact absurd member List.not_mem_nil
  | item :: items =>
      rw [splitItems, Item.listsAll] at member
      rcases List.mem_append.mp member with inFirst | inRest
      · exact splitItem_homogeneous item list inFirst
      · exact splitItems_homogeneous items list inRest

end

/-- A homogeneous list is not split. -/
theorem splitMixedList_of_homogeneous (homogeneous : (Block.list data ordered start spread items).Homogeneous) :
    splitMixedList data ordered start spread items = [.list data ordered start spread items] := by
  rcases splitMixedList_cases data ordered start spread items with
    ⟨_, single⟩ | ⟨⟨first, second, isFirst, isSecond, different⟩, _⟩
  · exact single
  · rcases homogeneous with tasks | others
    · exact absurd ((tasks first isFirst).trans (tasks second isSecond).symm) different
    · exact absurd ((others first isFirst).trans (others second isSecond).symm) different

mutual

theorem splitBlock_of_homogeneous (block : Block α)
    (homogeneous : ∀ list, list ∈ block.lists -> list.Homogeneous) : splitBlock block = [block] := by
  match block with
  | .other data children =>
      rw [Block.lists] at homogeneous
      rw [splitBlock, splitMixedTaskListsInParent_of_homogeneous children homogeneous]
  | .list data ordered start spread items =>
      rw [Block.lists] at homogeneous
      rw [splitBlock, splitItems_of_homogeneous items fun list member =>
        homogeneous list (List.mem_cons_of_mem _ member)]
      exact splitMixedList_of_homogeneous (homogeneous _ List.mem_cons_self)

theorem splitItem_of_homogeneous (item : Item α)
    (homogeneous : ∀ list, list ∈ item.lists -> list.Homogeneous) : splitItem item = item := by
  match item with
  | .item data checked spread children =>
      rw [Item.lists] at homogeneous
      rw [splitItem, splitMixedTaskListsInParent_of_homogeneous children homogeneous]

theorem splitMixedTaskListsInParent_of_homogeneous (children : List (Block α))
    (homogeneous : ∀ list, list ∈ Block.listsAll children -> list.Homogeneous) :
    splitMixedTaskListsInParent children = children := by
  match children with
  | [] => rw [splitMixedTaskListsInParent]
  | child :: children =>
      rw [Block.listsAll] at homogeneous
      rw [splitMixedTaskListsInParent,
        splitBlock_of_homogeneous child fun list member =>
          homogeneous list (List.mem_append_left _ member),
        splitMixedTaskListsInParent_of_homogeneous children fun list member =>
          homogeneous list (List.mem_append_right _ member)]
      rfl

theorem splitItems_of_homogeneous (items : List (Item α))
    (homogeneous : ∀ list, list ∈ Item.listsAll items -> list.Homogeneous) :
    splitItems items = items := by
  match items with
  | [] => rw [splitItems]
  | item :: items =>
      rw [Item.listsAll] at homogeneous
      rw [splitItems,
        splitItem_of_homogeneous item fun list member =>
          homogeneous list (List.mem_append_left _ member),
        splitItems_of_homogeneous items fun list member =>
          homogeneous list (List.mem_append_right _ member)]

end

theorem isTaskItem_splitItem (item : Item α) : (splitItem item).isTaskItem = item.isTaskItem := by
  cases item
  rw [splitItem]
  rfl

/-- Splitting below the items of a list keeps their kinds. -/
theorem homogeneous_splitItems :
    (Block.list data ordered start spread (splitItems items)).Homogeneous ↔
      (Block.list data ordered start spread items).Homogeneous := by
  simp only [Block.Homogeneous, Block.items, splitItems_eq, List.forall_mem_map, isTaskItem_splitItem]

/-- Splitting is faithful unless an ordered list has items of both kinds. -/
theorem splitsFaithfully_iff (children : List (Block α)) :
    SplitsFaithfully children ↔
      ∀ list, list ∈ Block.listsAll children -> list.isOrdered = true -> list.Homogeneous := by
  constructor
  · intro faithful list member isOrdered
    have numbered := faithful.ordinals list member isOrdered
    cases list with
    | other data children => contradiction
    | list data ordered start spread items =>
        have length_eq : (splitItems items).length = items.length := by
          rw [splitItems_eq, List.length_map]
        rw [splitBlock, Block.ordinals, <- length_eq] at numbered
        exact homogeneous_splitItems.mp (splitMixedList_ordinals numbered)
  · intro single
    refine ⟨fun list member => ?_, splitMixedTaskListsInParent_homogeneous children,
      fun list member isOrdered => ?_, ?_⟩
    · cases list with
      | other data children =>
          rw [splitBlock]
          rfl
      | list data ordered start spread items =>
          rw [splitBlock, splitMixedList_items Item.tightened_tightened, splitItems_eq, List.map_map]
          rfl
    · have homogeneous := single list member isOrdered
      cases list with
      | other data children => contradiction
      | list data ordered start spread items =>
          rw [splitBlock, splitMixedList_of_homogeneous (homogeneous_splitItems.mpr homogeneous),
            List.flatMap_singleton, Block.ordinals, Block.ordinals, splitItems_eq, List.length_map]
    · exact splitMixedTaskListsInParent_of_homogeneous _
        (splitMixedTaskListsInParent_homogeneous children)

/-- `1. plain` and `2. [ ] task` -/
def mixedOrdered : List (Block Unit) :=
  [.list () true (some 1) false [.item () none false [], .item () (some false) false []]]

/-- Both items get the number 1. -/
theorem mixedOrdered_renumbered :
    (splitMixedTaskListsInParent mixedOrdered).flatMap Block.ordinals = [1, 1] ∧
      ¬ SplitsFaithfully mixedOrdered := by
  refine ⟨by decide, fun faithful => ?_⟩
  have numbered := faithful.ordinals _ List.mem_cons_self rfl
  revert numbered
  decide

end TaskLists
end Web
end Memos
