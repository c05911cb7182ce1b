import Memos.Service.Runs

namespace Memos
namespace Service

open Library Memos.Filter Store Handler

/-!
# Comments form a forest

The primary key of a relation has three columns, so the tables do not say
that a memo has one parent.  The operations do: a comment relation is only
ever inserted for a memo that has just been created, below an older one, and
what clients say about relations concerns references only.
-/

variable {db after : Database}

/-! ## The forest -/

/-- Every memo has at most one parent, which is older, and no relation leads
from a memo to itself. -/
structure Forest (db : Database) : Prop where
  single : forall child first second, db.CommentOf child first -> db.CommentOf child second ->
    first = second
  older : forall child parent, db.CommentOf child parent -> parent < child
  irreflexive : forall relation, relation ∈ db.relations -> relation.memoId ≠ relation.relatedMemoId

/-- Relations lead to other memos, and comments are inserted for memos that
are no comments yet. -/
def mayRelate (db : Database) : Guarded -> Prop
  | .insertRelation relation => relation.memoId ≠ relation.relatedMemoId ∧
      (relation.type = .comment -> relation.relatedMemoId < relation.memoId ∧
        forall parent, ¬ db.CommentOf relation.memoId parent)
  | _ => True

theorem liberal_mayRelate : Liberal mayRelate where
  reference := fun _ _ _ distinct => ⟨distinct, fun impossible => by cases impossible⟩
  update := fun _ _ _ => trivial

theorem Forest.of_subset (forest : Forest db) (relations : after.relations ⊆ db.relations) :
    Forest after where
  single := fun child first second left right =>
    forest.single child first second (relations left) (relations right)
  older := fun child parent comment => forest.older child parent (relations comment)
  irreflexive := fun relation member => forest.irreflexive relation (relations member)

theorem Forest.insertRelation {relation : MemoRelation} (forest : Forest db)
    (allowed : mayRelate db (.insertRelation relation)) :
    Forest { db with relations := db.relations ++ [relation] } := by
  have split : forall child parent,
      Database.CommentOf { db with relations := db.relations ++ [relation] } child parent ->
      db.CommentOf child parent ∨ relation = ⟨child, parent, .comment⟩ := by
    intro child parent comment
    rcases List.mem_append.mp comment with old | new
    · exact .inl old
    · exact .inr (List.mem_singleton.mp new).symm
  refine ⟨?_, ?_, ?_⟩
  · intro child first second left right
    rcases split child first left with oldFirst | newFirst
    · rcases split child second right with oldSecond | rfl
      · exact forest.single child first second oldFirst oldSecond
      · exact absurd oldFirst ((allowed.2 rfl).2 first)
    · subst newFirst
      rcases split child second right with oldSecond | same
      · exact absurd oldSecond ((allowed.2 rfl).2 second)
      · exact congrArg MemoRelation.relatedMemoId same
  · intro child parent comment
    rcases split child parent comment with old | rfl
    · exact forest.older child parent old
    · exact (allowed.2 rfl).1
  · intro other member
    rcases List.mem_append.mp member with old | new
    · exact forest.irreflexive other old
    · rw [List.mem_singleton.mp new]
      exact allowed.1

theorem Forest.write (forest : Forest db) (write : Write mayRelate db after) : Forest after := by
  cases write with
  | insertRelation relation allowed => exact forest.insertRelation allowed
  | deleteRelations => exact forest.of_subset List.filter_sublist.subset
  | deleteMemo => exact forest.of_subset List.filter_sublist.subset
  | deleteUser protojson userId after removed => exact forest.of_subset removed.relations.subset
  | insertMemo => exact forest.of_subset (List.Subset.refl _)
  | updateMemo => exact forest.of_subset (List.Subset.refl _)
  | insertAttachment => exact forest.of_subset (List.Subset.refl _)
  | updateAttachment => exact forest.of_subset (List.Subset.refl _)
  | deleteAttachments => exact forest.of_subset (List.Subset.refl _)
  | insertReaction => exact forest.of_subset (List.Subset.refl _)
  | deleteReactions => exact forest.of_subset (List.Subset.refl _)
  | insertShare => exact forest.of_subset (List.Subset.refl _)
  | deleteShares => exact forest.of_subset (List.Subset.refl _)
  | insertInbox => exact forest.of_subset (List.Subset.refl _)
  | deleteInboxes => exact forest.of_subset (List.Subset.refl _)
  | others => exact forest.of_subset (List.Subset.refl _)

/-- A memo that is no comment yet may become one, below an older memo. -/
theorem Orphan.mayRelate {related created : Memo} (orphan : Orphan related created db) :
    mayRelate db (.insertRelation ⟨created.id, related.id, .comment⟩) :=
  ⟨(Nat.ne_of_lt orphan.older).symm, fun _ => ⟨orphan.older, orphan.alone⟩⟩

theorem writes_mayRelate {operation : Operation} (sound : db.Sound) :
    operation.Writes mayRelate db := by
  intro backend userId
  cases operation with
  | createMemoComment name commentId input =>
      exact follows_anywhere (follows_effect (follows_createMemoComment liberal_mayRelate sound
        fun _ _ _ _ orphan => orphan.mayRelate))
  | updateMemo name mask input =>
      exact follows_updateMemo_request liberal_mayRelate sound fun _ _ _ _ _ _ _ => trivial
  | deleteMemo name =>
      refine follows_weaken (follows_deleteMemo_request ?_) (fun _ same => same) fun _ _ _ => trivial
      exact fun _ _ _ _ _ _ _ => trivial
  | _ => exact Operation.writes_of_unguarded liberal_mayRelate sound rfl backend userId

theorem empty_forest : Forest {} where
  single := fun _ _ _ impossible => absurd impossible List.not_mem_nil
  older := fun _ _ impossible => absurd impossible List.not_mem_nil
  irreflexive := fun _ impossible => absurd impossible List.not_mem_nil

/-- Every database that the operations reach is a forest. -/
theorem reaches_forest {permitted : Database -> Operation -> Prop}
    (reached : Reaches permitted {} db) : db.Sound ∧ Forest db :=
  reached.induction (fun _ _ sound _ _ => writes_mayRelate sound)
    (fun _ _ _ forest write => forest.write write) Database.empty_sound empty_forest

/-- Ancestors are older, so no memo is its own. -/
theorem Forest.ancestor_older (forest : Forest db) {descendant ancestor : Nat}
    (path : Relation.TransGen db.CommentOf descendant ancestor) : ancestor < descendant := by
  induction path with
  | single comment => exact forest.older _ _ comment
  | tail _ comment ih =>
      exact (forest.older _ _ comment).trans ih

/-! ## The joined rows -/

/-- Distinct elements that are all the same are at most one. -/
theorem length_le_one {α : Type} {list : List α} (distinct : list.Nodup)
    (same : forall first second, first ∈ list -> second ∈ list -> first = second) :
    list.length ≤ 1 := by
  cases list with
  | nil => exact Nat.zero_le 1
  | cons first rest =>
      cases rest with
      | nil => exact Nat.le_refl 1
      | cons second others =>
          have equal := same first second List.mem_cons_self
            (List.mem_cons_of_mem _ List.mem_cons_self)
          have apart := (List.nodup_cons.mp distinct).1
          rw [equal] at apart
          exact absurd List.mem_cons_self apart

/-- At most one row has a key. -/
theorem filter_key_length {α κ : Type} [DecidableEq κ] {key : α -> κ} {rows : List α}
    (unique : (rows.map key).Nodup) (value : κ) :
    (rows.filter fun row => key row = value).length ≤ 1 := by
  apply length_le_one ((List.Nodup.of_map key unique).filter _)
  intro first second left right
  rcases List.mem_filter.mp left with ⟨leftIn, leftKey⟩
  rcases List.mem_filter.mp right with ⟨rightIn, rightKey⟩
  exact eq_of_nodup_map unique leftIn rightIn
    ((of_decide_eq_true leftKey).trans (of_decide_eq_true rightKey).symm)

/-- A left join with at most one match gives one row. -/
theorem leftJoin_of_length_le_one {α : Type} {matching : List α} (few : matching.length ≤ 1) :
    leftJoin matching = [matching.head?] := by
  cases matching with
  | nil => rfl
  | cons first rest =>
      rw [List.length_cons] at few
      rw [List.length_eq_zero_iff.mp (Nat.le_zero.mp (Nat.le_of_succ_le_succ few))]
      rfl

/-- Each memo is the source of at most one comment relation. -/
theorem Forest.source_length (forest : Forest db) (sound : db.Sound) (id : Nat) :
    (db.relations.filter fun relation => relation.memoId = id ∧ relation.type = .comment).length ≤
      1 := by
  apply length_le_one (sound.relationKeys.filter _)
  rintro ⟨_, first, _⟩ ⟨_, second, _⟩ left right
  rcases List.mem_filter.mp left with ⟨leftIn, leftSource⟩
  rcases List.mem_filter.mp right with ⟨rightIn, rightSource⟩
  rcases of_decide_eq_true leftSource with ⟨rfl, rfl⟩
  rcases of_decide_eq_true rightSource with ⟨rfl, rfl⟩
  rw [forest.single _ first second leftIn rightIn]

theorem find?_sound {α : Type} {condition : α -> Prop} [DecidablePred condition] {list : List α}
    {found : α} (success : list.find? (fun element => condition element) = some found) :
    found ∈ list ∧ condition found := by
  have selected := List.find?_some success
  exact ⟨List.mem_of_find?_eq_some success, of_decide_eq_true selected⟩

/-- The parent of a memo. -/
def parentOf (db : Database) (memo : Memo) : Option Memo :=
  (db.relations.find? fun relation => relation.memoId = memo.id ∧ relation.type = .comment).bind
    fun relation => db.memos.find? fun parent => parent.id = relation.relatedMemoId

/-- The one joined row of a memo. -/
def joinedRow (db : Database) (memo : Memo) : JoinedMemo where
  memo := memo
  creator := db.users.find? fun user => user.id = memo.creatorId
  parentUid := (parentOf db memo).map Memo.uid

theorem Forest.joinMemo (forest : Forest db) (sound : db.Sound) (memo : Memo) :
    db.joinMemo memo = [joinedRow db memo] := by
  have creators := leftJoin_of_length_le_one (filter_key_length sound.userIds memo.creatorId)
  have comments := leftJoin_of_length_le_one (forest.source_length sound memo.id)
  have parents : forall relation : Option MemoRelation,
      leftJoin (db.memos.filter fun parent =>
        relation.map MemoRelation.relatedMemoId = some parent.id) =
      [relation.bind fun relation => db.memos.find? fun parent =>
        parent.id = relation.relatedMemoId] := by
    intro relation
    cases relation with
    | none => simp [leftJoin]
    | some relation =>
        have single := leftJoin_of_length_le_one
          (filter_key_length sound.memoIds relation.relatedMemoId)
        rw [List.head?_filter] at single
        simpa only [Option.map_some, Option.some.injEq, eq_comm, Option.bind_some] using single
  unfold Database.joinMemo
  dsimp only
  rw [creators, comments, List.head?_filter, List.head?_filter]
  simp only [List.flatMap_singleton, parents, List.map_singleton]
  rfl

/-- The join has one row for each memo. -/
theorem Forest.joinedMemos (forest : Forest db) (sound : db.Sound) :
    db.joinedMemos = db.memos.map (joinedRow db) := by
  unfold Database.joinedMemos
  rw [List.map_eq_flatMap]
  congr 1
  funext memo
  exact forest.joinMemo sound memo

theorem Forest.parentOf_eq_some (forest : Forest db) (sound : db.Sound) {memo parent : Memo} :
    parentOf db memo = some parent ↔
      parent ∈ db.memos ∧ db.CommentOf memo.id parent.id := by
  unfold parentOf
  constructor
  · intro found
    rcases Option.bind_eq_some_iff.mp found with ⟨relation, isSource, isTarget⟩
    rcases find?_sound isSource with ⟨member, source, isComment⟩
    rcases find?_sound isTarget with ⟨stored, target⟩
    refine ⟨stored, ?_⟩
    unfold Database.CommentOf
    rw [← source, target, ← isComment]
    exact member
  · rintro ⟨stored, comment⟩
    cases isSource : db.relations.find? fun relation =>
        relation.memoId = memo.id ∧ relation.type = .comment with
    | none =>
        have missing := List.find?_eq_none.mp isSource _ comment
        exact absurd (decide_eq_true ⟨rfl, rfl⟩) missing
    | some relation =>
        rcases find?_sound isSource with ⟨member, source, isComment⟩
        have commented : db.CommentOf memo.id relation.relatedMemoId := by
          unfold Database.CommentOf
          rw [← source, ← isComment]
          exact member
        have same := forest.single memo.id relation.relatedMemoId parent.id commented comment
        rw [Option.bind_some]
        cases isTarget : db.memos.find? fun parent => parent.id = relation.relatedMemoId with
        | none =>
            have missing := List.find?_eq_none.mp isTarget parent stored
            exact absurd (decide_eq_true same.symm) missing
        | some found =>
            rcases find?_sound isTarget with ⟨foundStored, target⟩
            rw [eq_of_nodup_map sound.memoIds foundStored stored (target.trans same)]

/-- A list query returns each memo at most once. -/
theorem Forest.listMemos_nodup (forest : Forest db) (sound : db.Sound) {engine : Engine}
    {rules : TextRules} {now : Int} {find : FindMemo} {result : List JoinedMemo}
    (success : Store.listMemos engine rules now db find = .ok result) :
    (result.map fun listed => listed.memo.id).Nodup := by
  rcases listMemos_eq_ok success with ⟨rows, selected, rfl⟩
  have ids : forall rows : List JoinedMemo, (rows.map fun joined =>
      if find.excludeContent then { joined with memo.content := "" } else joined).map
        (fun listed => listed.memo.id) = rows.map fun joined => joined.memo.id := by
    intro rows
    rw [List.map_map]
    apply List.map_congr_left
    intro joined _
    dsimp only [Function.comp_apply]
    split <;> rfl
  have whole : (db.joinedMemos.map fun joined => joined.memo.id).Nodup := by
    rw [forest.joinedMemos sound, List.map_map]
    exact sound.memoIds
  rw [ids]
  apply List.Nodup.sublist ((find.page_sublist _).map _)
  exact ((List.mergeSort_perm rows find.before).map _).nodup_iff.mpr
    (whole.sublist (selected.map _))

theorem Forest.listMemos_length (forest : Forest db) (sound : db.Sound) {engine : Engine}
    {rules : TextRules} {now : Int} {find : FindMemo} {result : List JoinedMemo}
    (success : Store.listMemos engine rules now db find = .ok result) :
    result.length ≤ db.memos.length := by
  rcases listMemos_eq_ok success with ⟨rows, selected, rfl⟩
  have sorted := (List.mergeSort_perm rows find.before).length_eq
  have paged := (find.page_sublist (rows.mergeSort find.before)).length_le
  have whole := selected.length_le
  rw [forest.joinedMemos sound, List.length_map] at whole
  rw [List.length_map]
  omega

/-! ## Requests about relations -/

/-- The comment relations are those before. -/
def SameComments (db after : Database) : Prop := after.comments = db.comments

theorem sameComments_of_steps (steps : Relation.ReflTransGen SameComments db after) :
    after.comments = db.comments := by
  induction steps with
  | refl => rfl
  | tail _ step ih => exact Eq.trans step ih

theorem permits_attachments_sameComments {start : Database} {id : Nat} :
    Permits SameComments start (fun _ => True) (AttachmentWrite id) := by
  intro before last _ write
  refine ⟨?_, trivial⟩
  unfold SameComments Database.comments
  rw [write.relations]

theorem permits_references_sameComments {start : Database} {source : MemoRef} :
    Permits SameComments start (fun _ => True) (ReferenceWrite source) :=
  fun _ _ _ write => ⟨write.comments, trivial⟩

theorem setMemoRelations_comments (backend : Backend) (userId : Nat) (name : String)
    (relations : List RelationInput) (world : World Database) :
    (setMemoRelations backend userId name relations world).2.state.comments =
      world.state.comments := by
  apply sameComments_of_steps
  have valid : Follows SameComments world.state (fun _ => True)
      (setMemoRelations backend userId name relations) (fun _ _ => True) := by
    refine follows_bind follows_authenticated fun user => follows_bind follows_memoByName
      fun joined => follows_bind follows_require fun _ => ?_
    refine follows_weaken (?_ : Follows _ _ (fun _ => True) _ _) (fun _ _ => trivial)
      fun _ _ known => known
    refine follows_bind (follows_setMemoRelationsInternal permits_references_sameComments)
      fun _ => ?_
    refine follows_bind (follows_execute (fun _ _ => rfl) fun _ _ => trivial) fun _ => ?_
    exact follows_respond
  exact valid.steps rfl trivial rfl

theorem updateMemo_comments (backend : Backend) (userId : Nat) (name : String)
    (mask : List String) (input : MemoInput) (world : World Database) :
    (updateMemo backend userId name mask input world).2.state.comments = world.state.comments := by
  apply sameComments_of_steps
  have valid : Follows SameComments world.state (fun db => db = world.state)
      (updateMemo backend userId name mask input) (fun _ _ => True) := by
    have here : (fun db : Database => db.memos = world.state.memos) world.state := rfl
    have keeps : forall {change : Database -> Database -> Prop},
        (forall db last, change db last -> last.memos = db.memos) ->
        Permits SameComments world.state (fun _ => True) change ->
        Permits SameComments world.state (fun db => db.memos = world.state.memos) change := by
      intro change kept permits before last along changed
      exact ⟨(permits before last ⟨along.1, trivial⟩ changed).1,
        (kept before last changed).trans along.2⟩
    apply follows_updateMemo_steps here fun _ same => same
    · exact fun _ ref _ => keeps (fun _ _ write => write.memos) permits_attachments_sameComments
    · exact fun _ ref _ => keeps (fun _ _ write => write.memos) permits_references_sameComments
    · exact fun _ _ _ _ _ _ _ => rfl
  exact valid.steps rfl rfl rfl

/-! ## The law of the forest -/

/-- In every state that operations reach, a memo has at most one parent and is
not among its own ancestors, so the join has one row for each memo, with the
uid of its parent.  Requests about relations leave comments alone. -/
theorem comments_forest (reached : Reaches (fun _ _ => True) {} db) :
    (forall id, (db.relations.filter fun relation =>
      relation.memoId = id ∧ relation.type = .comment).length ≤ 1) ∧
    (forall id, ¬ Relation.TransGen db.CommentOf id id) ∧
    (db.joinedMemos.map fun joined => joined.memo.id).Nodup ∧
    (forall joined, joined ∈ db.joinedMemos -> forall uid, joined.parentUid = some uid ↔
      Exists fun parent =>
        parent ∈ db.memos ∧ db.CommentOf joined.memo.id parent.id ∧ parent.uid = uid) ∧
    (forall engine rules now find result,
      Store.listMemos engine rules now db find = .ok result ->
        (result.map fun listed => listed.memo.id).Nodup) ∧
    (forall backend userId name relations world,
      (setMemoRelations backend userId name relations world).2.state.comments =
        world.state.comments) ∧
    (forall backend userId name mask input world,
      (updateMemo backend userId name mask input world).2.state.comments =
        world.state.comments) := by
  rcases reaches_forest reached with ⟨sound, forest⟩
  refine ⟨forest.source_length sound, ?_, ?_, ?_, ?_, setMemoRelations_comments,
    updateMemo_comments⟩
  · intro id cycle
    exact Nat.lt_irrefl id (forest.ancestor_older cycle)
  · rw [forest.joinedMemos sound, List.map_map]
    exact sound.memoIds
  · intro joined member uid
    rw [forest.joinedMemos sound] at member
    rcases List.mem_map.mp member with ⟨memo, _, rfl⟩
    change (parentOf db memo).map Memo.uid = some uid ↔ _
    simp only [Option.map_eq_some_iff, forest.parentOf_eq_some sound, and_assoc]
    rfl
  · intro engine rules now find result success
    exact forest.listMemos_nodup sound success

/-- A memo with a comment, which has a comment and a reference to the memo. -/
def nestedComments : List Operation :=
  [.changeAccounts [⟨1, .normal, "ada", .user⟩] [] [],
    .createMemo "a" { content := "", visibility := .isPublic },
    .createMemoComment "memos/a" "b" (some { content := "", visibility := .isPublic }),
    .createMemoComment "memos/b" "c" (some { content := "", visibility := .isPublic }),
    .setMemoRelations "memos/b" [⟨"memos/a", .reference⟩, ⟨"memos/c", .comment⟩]]

theorem comments_forest_nested :
    (forall id, ¬ Relation.TransGen (runFrom {} nestedComments).CommentOf id id) ∧
    (runFrom {} nestedComments).joinedMemos.map (fun joined => joined.parentUid) =
      [none, some "a", some "b"] ∧
    (runFrom {} nestedComments).relations =
      [⟨2, 1, .comment⟩, ⟨3, 2, .comment⟩, ⟨2, 1, .reference⟩] := by
  refine ⟨?_, by decide +kernel, by decide +kernel⟩
  exact (comments_forest (reaches_runFrom fun _ _ _ => trivial)).2.1

end Service
end Memos
