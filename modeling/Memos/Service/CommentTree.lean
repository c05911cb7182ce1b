import Memos.Service.Runs

namespace Memos
namespace Service

open Library Memos.Filter Store Handler

/-!
# Deleting comment trees

`DeleteMemo` deletes the direct comments of a memo and then the memo.  A
deletion is shallow when none of these comments has comments.  Shallow
deletions leave no descendant behind and no comment without its parent.
-/

variable {db after : Database}

/-- A comment under the memo, at any depth. -/
def Descends (db : Database) : Nat -> Nat -> Prop := Relation.TransGen db.CommentOf

/-- The direct comments of the memo have no comments. -/
def Shallow (db : Database) (memoId : Nat) : Prop :=
  forall child, db.CommentOf child memoId -> forall grandchild, ¬ db.CommentOf grandchild child

/-- The memo has no comments. -/
def Leaf (db : Database) (memoId : Nat) : Prop := forall child, ¬ db.CommentOf child memoId

/-- Operations that delete a memo delete a shallow one. -/
def ShallowDeletions (db : Database) : Operation -> Prop
  | .deleteMemo name => forall memo, memo ∈ db.memos ->
      extractMemoUIDFromName name = .ok memo.uid -> Shallow db memo.id
  | _ => True

/-! ## What a sequence of deletions leaves -/

theorem mem_commentIds {id memoId : Nat} :
    id ∈ commentIds db memoId ↔ db.CommentOf id memoId := by
  unfold commentIds
  rw [List.mem_map]
  constructor
  · rintro ⟨relation, member, rfl⟩
    rcases List.mem_filter.mp (List.mem_mergeSort.mp member) with ⟨stored, selected⟩
    rcases of_decide_eq_true selected with ⟨rfl, isComment⟩
    unfold Database.CommentOf
    rw [← isComment]
    exact stored
  · intro comment
    refine ⟨⟨id, memoId, .comment⟩, List.mem_mergeSort.mpr (List.mem_filter.mpr ⟨comment, ?_⟩), rfl⟩
    exact decide_eq_true ⟨rfl, rfl⟩

theorem commentOf_deletedMemo {deleted child parent : Nat} :
    (db.deletedMemo deleted).CommentOf child parent ↔
      db.CommentOf child parent ∧ child ≠ deleted ∧ parent ≠ deleted := by
  unfold Database.CommentOf Database.deletedMemo
  rw [List.mem_filter, decide_eq_true_eq]

theorem commentOf_deletedMemos {ids : List Nat} {child parent : Nat} :
    (db.deletedMemos ids).CommentOf child parent ↔
      db.CommentOf child parent ∧ child ∉ ids ∧ parent ∉ ids := by
  induction ids generalizing db with
  | nil => simp [Database.deletedMemos]
  | cons id ids ih =>
      rw [Database.deletedMemos_cons, ih, commentOf_deletedMemo]
      simp only [List.mem_cons, not_or]
      tauto

theorem hasMemo_deletedMemos {ids : List Nat} {id : Nat} :
    (db.deletedMemos ids).HasMemo id ↔ db.HasMemo id ∧ id ∉ ids := by
  induction ids generalizing db with
  | nil => simp [Database.deletedMemos]
  | cons first ids ih =>
      rw [Database.deletedMemos_cons, ih, hasMemo_deletedMemo]
      simp only [List.mem_cons, not_or]
      tauto

/-! ## Shallow deletions -/

/-- Under a shallow memo, descendants are direct comments. -/
theorem Shallow.direct {memoId id : Nat} (shallow : Shallow db memoId)
    (descends : Descends db id memoId) : db.CommentOf id memoId := by
  induction descends using Relation.TransGen.head_induction_on with
  | single comment => exact comment
  | head comment _ ih =>
      exact absurd comment (shallow _ ih _)

/-- When its turn comes, each memo of a shallow deletion has no comments. -/
theorem Shallow.leaf {memoId id : Nat} {earlier later : List Nat} (shallow : Shallow db memoId)
    (split : deletedIds db memoId = earlier ++ id :: later) :
    Leaf (db.deletedMemos earlier) id := by
  intro child comment
  rcases commentOf_deletedMemos.mp comment with ⟨stored, spared, _⟩
  rcases List.eq_nil_or_concat later with rfl | ⟨init, last, rfl⟩
  · rcases List.append_inj' split rfl with ⟨rfl, same⟩
    cases same
    exact spared (mem_commentIds.mpr stored)
  · have direct : commentIds db memoId = earlier ++ id :: init := by
      rw [List.concat_eq_append, ← List.cons_append, ← List.append_assoc] at split
      exact (List.append_inj' split rfl).1
    have isComment : db.CommentOf id memoId := by
      apply mem_commentIds.mp
      rw [direct]
      exact List.mem_append_right _ List.mem_cons_self
    exact shallow id isComment child stored

theorem ShallowDeletions.deletes {operation : Operation}
    (permitted : ShallowDeletions db operation) : operation.Deletes Leaf db := by
  cases operation with
  | deleteMemo name =>
      intro memo stored named earlier id later split
      exact Shallow.leaf (permitted memo stored named) split
  | _ => trivial

/-! ## Comments keep their parents -/

/-- As long as the memo is stored, it has a parent.  Its id is never given
again. -/
structure KeepsParent (id : Nat) (db : Database) : Prop where
  parent : db.HasMemo id -> HasParent db id
  bound : id ≤ db.sequences.memo

/-- Steps that add memos with new ids only and remove neither comments nor
memos keep parents. -/
theorem KeepsParent.of_grown {id : Nat} (holds : KeepsParent id db) (old : after.HasMemo id -> db.HasMemo id)
    (comments : forall parent, db.CommentOf id parent -> after.CommentOf id parent)
    (memos : forall other, db.HasMemo other -> after.HasMemo other)
    (bound : db.sequences.memo ≤ after.sequences.memo) : KeepsParent id after where
  parent := by
    intro stored
    rcases holds.parent (old stored) with ⟨parent, comment, parentStored⟩
    exact ⟨parent, comments parent comment, memos parent parentStored⟩
  bound := holds.bound.trans bound

theorem KeepsParent.write {id : Nat} (sound : db.Sound) (holds : KeepsParent id db)
    (write : Write (deleting Leaf) db after) : KeepsParent id after := by
  have same : forall {last : Database}, last.memos = db.memos -> last.relations = db.relations ->
      last.sequences.memo = db.sequences.memo -> KeepsParent id last := by
    intro last memos relations sequence
    have stored : forall other, last.HasMemo other ↔ db.HasMemo other := by
      intro other
      unfold Database.HasMemo
      rw [memos]
    refine holds.of_grown (stored id).mp ?_ (fun other => (stored other).mpr) (by rw [sequence])
    intro parent comment
    unfold Database.CommentOf
    rw [relations]
    exact comment
  cases write with
  | insertMemo memo fresh unused =>
      have bound := holds.bound
      refine holds.of_grown ?_ (fun _ comment => comment)
        (fun other stored => hasMemo_insertMemo.mpr (.inl stored)) ?_
      · intro stored
        rcases hasMemo_insertMemo.mp stored with old | new
        · exact old
        · omega
      · change db.sequences.memo ≤ memo.id
        omega
  | updateMemo update allowed =>
      exact holds.of_grown hasMemo_updateMemo.mp (fun _ comment => comment)
        (fun other => hasMemo_updateMemo.mpr) (Nat.le_refl _)
  | deleteMemo deleted leaf =>
      refine ⟨?_, holds.bound⟩
      intro stored
      rcases hasMemo_deletedMemo.mp stored with ⟨old, other⟩
      rcases holds.parent old with ⟨parent, comment, parentStored⟩
      have spared : parent ≠ deleted := by
        rintro rfl
        exact leaf id comment
      exact ⟨parent, commentOf_deletedMemo.mpr ⟨comment, other, spared⟩,
        hasMemo_deletedMemo.mpr ⟨parentStored, spared⟩⟩
  | insertRelation relation allowed unknown source target =>
      exact holds.of_grown (fun stored => stored) (fun _ => List.mem_append_left _)
        (fun _ stored => stored) (Nat.le_refl _)
  | deleteRelations keep comments =>
      refine holds.of_grown (fun stored => stored) ?_ (fun _ stored => stored) (Nat.le_refl _)
      intro parent comment
      exact List.mem_filter.mpr ⟨comment, comments _ rfl⟩
  | insertReaction reaction sequences sequence named =>
      exact same rfl rfl (by rw [sequence])
  | insertShare share sequences sequence linked =>
      exact same rfl rfl (by rw [sequence])
  | deleteUser protojson userId after removed =>
      refine ⟨?_, by rw [removed.sequences]; exact holds.bound⟩
      intro stored
      rcases (hasMemo_deleteUser sound.toKeyed removed).mp stored with ⟨old, spared⟩
      rcases holds.parent old with ⟨parent, comment, parentStored⟩
      rcases old with ⟨memo, member, rfl⟩
      have parentSpared : ¬ Exists fun other => Doomed db userId other ∧ other.id = parent := by
        rintro ⟨other, doomed, rfl⟩
        exact spared ⟨memo, .comment other memo _ doomed member comment rfl rfl rfl, rfl⟩
      refine ⟨parent, (removed.rows (.relation _)).mpr ⟨comment, ?_⟩,
        (hasMemo_deleteUser sound.toKeyed removed).mpr ⟨parentStored, parentSpared⟩⟩
      rintro ⟨other, doomed, isSource | isTarget⟩
      · exact spared ⟨other, doomed, isSource.symm⟩
      · exact parentSpared ⟨other, doomed, isTarget.symm⟩
  | insertAttachment => exact same rfl rfl rfl
  | updateAttachment => exact same rfl rfl rfl
  | deleteAttachments => exact same rfl rfl rfl
  | deleteReactions => exact same rfl rfl rfl
  | deleteShares => exact same rfl rfl rfl
  | insertInbox => exact same rfl rfl rfl
  | deleteInboxes => exact same rfl rfl rfl
  | others => exact same rfl rfl rfl

/-! ## Top-level memos -/

/-- A stored memo with a parent has a parent in each of its rows. -/
theorem HasParent.joined {joined : JoinedMemo} (sound : db.Sound) (row : joined ∈ db.joinedMemos)
    (hasParent : HasParent db joined.memo.id) : joined.parentUid ≠ none := by
  rcases List.mem_flatMap.mp row with ⟨memo, inTable, inJoin⟩
  rcases List.mem_flatMap.mp inJoin with ⟨creator, _, inComments⟩
  rcases List.mem_flatMap.mp inComments with ⟨relation, matched, inParents⟩
  rcases List.mem_map.mp inParents with ⟨parent, matchedParent, rfl⟩
  rcases hasParent with ⟨parentId, comment, _⟩
  have commented : (⟨memo.id, parentId, .comment⟩ : MemoRelation) ∈
      db.relations.filter fun relation => relation.memoId = memo.id ∧ relation.type = .comment :=
    List.mem_filter.mpr ⟨comment, decide_eq_true ⟨rfl, rfl⟩⟩
  rcases mem_leftJoin (List.ne_nil_of_mem commented) matched with ⟨found, foundIn, rfl⟩
  rcases sound.target found (List.mem_filter.mp foundIn).1 with ⟨above, stored, same⟩
  have candidate : above ∈ db.memos.filter fun parent =>
      (some found).map MemoRelation.relatedMemoId = some parent.id :=
    List.mem_filter.mpr ⟨stored, decide_eq_true (by rw [same]; rfl)⟩
  rcases mem_leftJoin (List.ne_nil_of_mem candidate) matchedParent with ⟨_, _, rfl⟩
  exact Option.some_ne_none _

/-- A memo that keeps its parent is never listed among the top-level memos. -/
theorem KeepsParent.not_topLevel {id : Nat} {engine : Engine} {rules : TextRules} {now : Int}
    {find : FindMemo} {result : List JoinedMemo} (holds : KeepsParent id db) (sound : db.Sound)
    (excludes : find.excludeComments = true)
    (success : Store.listMemos engine rules now db find = .ok result) {listed : JoinedMemo}
    (member : listed ∈ result) : listed.memo.id ≠ id := by
  rintro rfl
  rcases listMemos_topLevel excludes success member with ⟨joined, row, same, topLevel⟩
  have stored : db.HasMemo listed.memo.id := by
    rw [← same]
    exact Database.hasMemo_of_mem (Database.mem_joinedMemos row)
  have hasParent := holds.parent stored
  rw [← same] at hasParent
  exact hasParent.joined sound row topLevel

/-! ## The law of comment trees -/

theorem reaches_sound {start : Database} (reached : Reaches ShallowDeletions start db)
    (sound : start.Sound) : db.Sound :=
  (reached.induction (fun _ _ wellFormed _ permitted => permitted.deletes.writes wellFormed) (fun _ _ _ _ _ => trivial)
    sound (trivial : True)).1

/-- In a run whose deletions are shallow, a successful deletion leaves no
descendant of the memo and takes no survivor away from its parent, and a memo
that has been created as a comment never becomes a top-level memo. -/
theorem shallowDeletions_commentTree (reached : Reaches ShallowDeletions {} db) :
    (forall backend userId name plans last, ShallowDeletions db (.deleteMemo name) ->
      deleteMemo backend userId name ⟨db, plans⟩ = (.ok (), last) -> Exists fun memo =>
        memo ∈ db.memos ∧ extractMemoUIDFromName name = .ok memo.uid ∧
        (forall id, Descends db id memo.id -> ¬ last.state.HasMemo id) ∧
        (forall id parent, last.state.HasMemo id ->
          (last.state.CommentOf id parent ↔ db.CommentOf id parent) ∧
          (db.CommentOf id parent -> last.state.HasMemo parent))) ∧
    (forall backend userId name commentId input plans created last,
      createMemoComment backend userId name commentId input ⟨db, plans⟩ = (.ok created, last) ->
      forall later, Reaches ShallowDeletions last.state later ->
        forall engine rules now find result, find.excludeComments = true ->
          Store.listMemos engine rules now later find = .ok result ->
          forall listed, listed ∈ result -> listed.memo.id ≠ created.id) := by
  have sound := reaches_sound reached Database.empty_sound
  constructor
  · intro backend userId name plans last permitted success
    have allowed := permitted.deletes
    have valid : Follows (Write (deleting Leaf)) db (fun state => state = db)
        (deleteMemo backend userId name) _ := follows_deleteMemo_request allowed
    rcases valid.result rfl rfl success with
      ⟨memo, stored, named, deleted⟩
    have shallow := permitted memo stored named
    refine ⟨memo, stored, named, ?_, ?_⟩
    · intro id descends survives
      rw [deleted] at survives
      have gone := (hasMemo_deletedMemos.mp survives).2
      exact gone (List.mem_append_left _ (mem_commentIds.mpr (shallow.direct descends)))
    · intro id parent survives
      rw [deleted] at survives ⊢
      have spared := (hasMemo_deletedMemos.mp survives).2
      have parentSpared : db.CommentOf id parent -> parent ∉ deletedIds db memo.id := by
        intro comment inside
        rcases List.mem_append.mp inside with isComment | isMemo
        · exact shallow parent (mem_commentIds.mp isComment) id comment
        · rw [List.mem_singleton.mp isMemo] at comment
          exact spared (List.mem_append_left _ (mem_commentIds.mpr comment))
      refine ⟨?_, ?_⟩
      · rw [commentOf_deletedMemos]
        exact ⟨fun known => known.1, fun comment => ⟨comment, spared, parentSpared comment⟩⟩
      · intro comment
        exact hasMemo_deletedMemos.mpr ⟨sound.target _ comment, parentSpared comment⟩
  · intro backend userId name commentId input plans created last success later reachedLater
      engine rules now find result excludes listedAll listed member
    have valid : Follows (Write (deleting Leaf)) db (fun _ => True)
        (createMemoComment backend userId name commentId input)
        (fun created state => HasParent state created.id) :=
      follows_createMemoComment liberal_deleting sound fun _ _ _ _ _ => trivial
    have writes := valid.steps rfl trivial success
    have soundLast := sound_of_steps sound writes
    have hasParent := valid.result rfl trivial success
    have stored : last.state.HasMemo created.id := by
      rcases hasParent with ⟨parent, comment, _⟩
      exact soundLast.source _ comment
    have keeps : KeepsParent created.id last.state := by
      refine ⟨fun _ => hasParent, ?_⟩
      rcases stored with ⟨memo, member, same⟩
      rw [← same]
      exact soundLast.memoBound memo member
    rcases reachedLater.induction
      (fun _ _ wellFormed _ permitted => permitted.deletes.writes wellFormed)
      (fun _ _ wellFormed holds write => KeepsParent.write wellFormed holds write)
      soundLast keeps with ⟨soundLater, keepsLater⟩
    exact keepsLater.not_topLevel soundLater excludes listedAll member

/-- A memo with a comment. -/
def commentedMemo : List Operation :=
  [.changeAccounts [⟨1, .normal, "ada", .user⟩] [] [],
    .createMemo "a" { content := "", visibility := .isPublic },
    .createMemoComment "memos/a" "b" (some { content := "", visibility := .isPublic })]

/-- The comment has a comment as well. -/
def commentedComment : List Operation :=
  commentedMemo ++
    [.createMemoComment "memos/b" "c" (some { content := "", visibility := .isPublic })]

theorem shallowDeletions_commentTree_commented :
    (forall id, Descends (runFrom {} commentedMemo) id 1 ->
      ¬ (runFrom {} (commentedMemo ++ [.deleteMemo "memos/a"])).HasMemo id) ∧
    (runFrom {} commentedMemo).CommentOf 2 1 := by
  have reached : Reaches ShallowDeletions {} (runFrom {} commentedMemo) := by
    apply reaches_runFrom
    intro state operation member
    rcases List.mem_cons.mp member with rfl | later
    · trivial
    rcases List.mem_cons.mp later with rfl | last
    · trivial
    rcases List.mem_singleton.mp last with rfl
    trivial
  have relations : (runFrom {} commentedMemo).relations = [⟨2, 1, .comment⟩] := rfl
  have shallow : ShallowDeletions (runFrom {} commentedMemo) (.deleteMemo "memos/a") := by
    intro memo _ _ child comment grandchild other
    unfold Database.CommentOf at comment other
    rw [relations, List.mem_singleton] at comment other
    have isComment : child = 2 := congrArg MemoRelation.memoId comment
    have isMemo : child = 1 := congrArg MemoRelation.relatedMemoId other
    omega
  rcases (shallowDeletions_commentTree reached).1 quietBackend 1 "memos/a" [] _ shallow
    (Prod.ext (by decide +kernel) rfl) with ⟨memo, stored, named, gone, _⟩
  have only : memo.id = 1 := by
    have uid : "a" = memo.uid := Except.ok.inj named
    have all : forall other, other ∈ (runFrom {} commentedMemo).memos -> "a" = other.uid ->
      other.id = 1 := by decide +kernel
    exact all memo stored uid
  rw [only] at gone
  exact ⟨gone, by rw [Database.CommentOf, relations]; exact List.mem_singleton.mpr rfl⟩

/-- Deleting the memo leaves the comment of its comment, which is a top-level
memo from then on. -/
theorem deleteMemo_leaves_grandchild :
    Reaches (fun _ _ => True) {} (runFrom {} commentedComment) ∧
    (deleteMemo quietBackend 1 "memos/a" ⟨runFrom {} commentedComment, []⟩).1 = .ok () ∧
    Descends (runFrom {} commentedComment) 3 1 ∧
    (runFrom {} (commentedComment ++ [.deleteMemo "memos/a"])).HasMemo 3 ∧
    (forall engine rules, (Store.listMemos engine rules 0
        (runFrom {} (commentedComment ++ [.deleteMemo "memos/a"]))
        { excludeComments := true }).map (List.map fun listed => listed.memo.id) = .ok [3]) := by
  have relations : (runFrom {} commentedComment).relations =
      [⟨2, 1, .comment⟩, ⟨3, 2, .comment⟩] := rfl
  refine ⟨reaches_runFrom fun _ _ _ => trivial, by decide +kernel, ?_, ?_, ?_⟩
  · have second : (runFrom {} commentedComment).CommentOf 3 2 := by
      rw [Database.CommentOf, relations]
      exact List.mem_cons_of_mem _ (List.mem_singleton.mpr rfl)
    have first : (runFrom {} commentedComment).CommentOf 2 1 := by
      rw [Database.CommentOf, relations]
      exact List.mem_cons_self
    exact .tail (.single second) first
  · unfold Database.HasMemo
    decide +kernel
  · intro engine rules
    have joined : (runFrom {} (commentedComment ++ [.deleteMemo "memos/a"])).joinedMemos =
        [⟨⟨3, "c", .normal, 1, 1, 1, "", .isPublic, false, ⟨none, []⟩⟩,
          some ⟨1, .normal, "ada", .user⟩, none⟩] := by decide +kernel
    have selected : selectRows rules [.verum, .isNull (.column ⟨"", "parent_uid"⟩)]
        (runFrom {} (commentedComment ++ [.deleteMemo "memos/a"])).joinedMemos = .ok
          [⟨⟨3, "c", .normal, 1, 1, 1, "", .isPublic, false, ⟨none, []⟩⟩,
            some ⟨1, .normal, "ada", .user⟩, none⟩] := by
      rw [joined]
      rfl
    rw [listMemos_of_rows _ rfl rfl selected, List.mergeSort_singleton]
    rfl

end Service
end Memos
