import Memos.Service.Forest

namespace Memos
namespace Service

open Library Memos.Filter Store Handler

/-!
# The visibility of comments

A comment starts with the visibility of its parent, and an update of its
visibility takes that of the parent again.  An update of the parent does not
go down to its comments.  In runs in which no top-level memo with comments
gets another visibility, every comment is exactly as visible as its parent.
-/

variable {db after : Database}

/-- Every comment has the visibility of its parent. -/
def Inherits (db : Database) : Prop :=
  forall child parent, child ∈ db.memos -> parent ∈ db.memos ->
    db.CommentOf child.id parent.id -> child.visibility = parent.visibility

/-- An update of the visibility of a top-level memo with comments asks for the
visibility that the memo has. -/
def KeepsVisibility (db : Database) : Operation -> Prop
  | .updateMemo name mask input => "visibility" ∈ mask ->
      forall memo, memo ∈ db.memos -> extractMemoUIDFromName name = .ok memo.uid ->
        (Exists fun child => db.CommentOf child memo.id) ->
        (forall parent, ¬ db.CommentOf memo.id parent) -> input.visibility = memo.visibility
  | _ => True

/-! ## Writes that keep the visibility -/

/-- A memo that is updated gets the visibility of its neighbours in the
forest, and the ends of a new comment relation are equally visible. -/
def mayShow (db : Database) : Guarded -> Prop
  | .insertRelation relation => mayRelate db (.insertRelation relation) ∧
      (relation.type = .comment -> forall child parent, child ∈ db.memos -> parent ∈ db.memos ->
        child.id = relation.memoId -> parent.id = relation.relatedMemoId ->
        child.visibility = parent.visibility)
  | .updateMemo update => forall visibility, update.visibility = some visibility ->
      forall memo, memo ∈ db.memos ->
        db.CommentOf memo.id update.id ∨ db.CommentOf update.id memo.id ->
        memo.visibility = visibility
  | .deleteMemo _ => True

theorem liberal_mayShow : Liberal mayShow where
  reference := fun db source target distinct =>
    ⟨liberal_mayRelate.reference db source target distinct, fun impossible => by cases impossible⟩
  update := by
    intro db update unset visibility chosen
    rw [unset] at chosen
    cases chosen

theorem mayShow_mayRelate {guarded : Guarded} (allowed : mayShow db guarded) :
    mayRelate db guarded := by
  cases guarded with
  | insertRelation relation => exact allowed.1
  | updateMemo update => trivial
  | deleteMemo id => trivial

theorem Inherits.of_subset (inherits : Inherits db) (memos : after.memos ⊆ db.memos)
    (relations : after.relations ⊆ db.relations) : Inherits after :=
  fun child parent childStored parentStored comment =>
    inherits child parent (memos childStored) (memos parentStored) (relations comment)

/-- A new memo has no neighbours. -/
theorem Inherits.insertMemo {memo : Memo} (inherits : Inherits db) (sound : db.Sound)
    (fresh : memo.id = db.sequences.memo + 1) : Inherits (db.insertMemo memo) := by
  have unused : forall id, db.HasMemo id -> id ≠ memo.id := by
    rintro id ⟨other, stored, rfl⟩
    have atMost := sound.memoBound other stored
    omega
  have old : forall other, other ∈ (db.insertMemo memo).memos -> db.HasMemo other.id ->
      other ∈ db.memos := by
    intro other member stored
    rcases List.mem_append.mp member with before | new
    · exact before
    · rw [List.mem_singleton.mp new] at stored
      exact absurd rfl (unused memo.id stored)
  intro child parent childStored parentStored comment
  exact inherits child parent (old child childStored (sound.source _ comment))
    (old parent parentStored (sound.target _ comment)) comment

theorem UpdateMemo.apply_visibility_none {update : UpdateMemo} (unset : update.visibility = none)
    (memo : Memo) : (update.apply memo).visibility = memo.visibility := by
  unfold UpdateMemo.apply
  split
  · rw [unset]
    rfl
  · rfl

theorem UpdateMemo.apply_visibility_some {update : UpdateMemo} {visibility : Visibility}
    (set : update.visibility = some visibility) (memo : Memo) :
    (update.apply memo).visibility = if memo.id = update.id then visibility else memo.visibility := by
  unfold UpdateMemo.apply
  split
  · rw [set]
    rfl
  · rfl

theorem Inherits.updateMemo {update : UpdateMemo} (inherits : Inherits db)
    (allowed : mayShow db (.updateMemo update)) :
    Inherits { db with memos := db.memos.map update.apply } := by
  intro child parent childStored parentStored comment
  rcases List.mem_map.mp childStored with ⟨oldChild, childMember, rfl⟩
  rcases List.mem_map.mp parentStored with ⟨oldParent, parentMember, rfl⟩
  rw [UpdateMemo.apply_id, UpdateMemo.apply_id] at comment
  have same := inherits oldChild oldParent childMember parentMember comment
  cases chosen : update.visibility with
  | none =>
      rw [UpdateMemo.apply_visibility_none chosen, UpdateMemo.apply_visibility_none chosen]
      exact same
  | some visibility =>
      have neighbour := allowed visibility chosen
      rw [UpdateMemo.apply_visibility_some chosen, UpdateMemo.apply_visibility_some chosen]
      by_cases updatesChild : oldChild.id = update.id
      · rw [if_pos updatesChild]
        by_cases updatesParent : oldParent.id = update.id
        · rw [if_pos updatesParent]
        · rw [if_neg updatesParent]
          rw [updatesChild] at comment
          exact (neighbour oldParent parentMember (.inr comment)).symm
      · rw [if_neg updatesChild]
        by_cases updatesParent : oldParent.id = update.id
        · rw [if_pos updatesParent]
          rw [updatesParent] at comment
          exact neighbour oldChild childMember (.inl comment)
        · rw [if_neg updatesParent]
          exact same

theorem Inherits.write (inherits : Inherits db) (sound : db.Sound)
    (write : Write mayShow db after) : Inherits after := by
  have same : forall {last : Database}, last.memos = db.memos -> last.relations = db.relations ->
      Inherits last := by
    intro last memos relations
    exact inherits.of_subset (by rw [memos]; exact List.Subset.refl _)
      (by rw [relations]; exact List.Subset.refl _)
  cases write with
  | insertMemo memo fresh => exact inherits.insertMemo sound fresh
  | updateMemo update allowed => exact inherits.updateMemo allowed
  | deleteMemo =>
      exact inherits.of_subset List.filter_sublist.subset List.filter_sublist.subset
  | insertRelation relation allowed =>
      intro child parent childStored parentStored comment
      rcases List.mem_append.mp comment with old | new
      · exact inherits child parent childStored parentStored old
      · have created := List.mem_singleton.mp new
        exact allowed.2 (by rw [← created]) child parent childStored parentStored
          (by rw [← created]) (by rw [← created])
  | deleteRelations =>
      exact inherits.of_subset (List.Subset.refl _) List.filter_sublist.subset
  | deleteUser protojson userId after removed =>
      exact inherits.of_subset removed.memos.subset removed.relations.subset
  | insertAttachment => exact same rfl rfl
  | updateAttachment => exact same rfl rfl
  | deleteAttachments => exact same rfl rfl
  | insertReaction => exact same rfl rfl
  | deleteReactions => exact same rfl rfl
  | insertShare => exact same rfl rfl
  | deleteShares => exact same rfl rfl
  | insertInbox => exact same rfl rfl
  | deleteInboxes => exact same rfl rfl
  | others => exact same rfl rfl

/-! ## Operations that keep the visibility -/

/-- A comment is created with the visibility of its parent. -/
theorem Orphan.mayShow {related created : Memo} (orphan : Orphan related created db)
    (sound : db.Sound) : mayShow db (.insertRelation ⟨created.id, related.id, .comment⟩) := by
  refine ⟨orphan.mayRelate, ?_⟩
  intro _ child parent childStored parentStored isChild isParent
  rw [eq_of_nodup_map sound.memoIds childStored orphan.stored isChild,
    eq_of_nodup_map sound.memoIds parentStored orphan.parent isParent]
  exact orphan.visibility

/-- A memo that is updated agrees with its neighbours: a comment because it
takes the visibility of its parent, which it had before, and a top-level memo
because it keeps its own. -/
theorem mayShow_update {name : String} {mask : List String} {input : MemoInput}
    {joined : JoinedMemo} {state : Updating} (sound : db.Sound) (forest : Forest db)
    (inherits : Inherits db) (keeps : KeepsVisibility db (.updateMemo name mask input))
    (stored : joined ∈ db.joinedMemos) (named : extractMemoUIDFromName name = .ok joined.memo.uid)
    (same : SameMemos db after)
    (collected : UpdateFrom db joined.parentUid input mask joined.memo.ref state) :
    mayShow after (.updateMemo state.update) := by
  have memo := Database.mem_joinedMemos stored
  rw [forest.joinedMemos sound] at stored
  rcases List.mem_map.mp stored with ⟨row, _, sameRow⟩
  have parentUid : joined.parentUid = (parentOf db joined.memo).map Memo.uid := by
    rw [← sameRow]
    rfl
  intro visibility chosen neighbour neighbourStored related
  rcases collected.visibility visibility chosen with ⟨masked, source⟩
  have isMemo : state.update.id = joined.memo.id := collected.update
  rw [same.1] at neighbourStored
  rw [← mem_comments, ← mem_comments, same.2, mem_comments, mem_comments, isMemo] at related
  rw [parentUid] at source
  cases above : parentOf db joined.memo with
  | none =>
      rw [above] at source
      have noParent : forall parent, ¬ db.CommentOf joined.memo.id parent := by
        intro parent comment
        rcases sound.target _ comment with ⟨found, foundStored, isParent⟩
        dsimp only at isParent
        rw [← isParent] at comment
        have known := (forest.parentOf_eq_some sound).mpr ⟨foundStored, comment⟩
        rw [above] at known
        cases known
      rcases related with isChild | isParent
      · have kept := keeps masked joined.memo memo named ⟨neighbour.id, isChild⟩ noParent
        rw [inherits neighbour joined.memo neighbourStored memo isChild, ← kept]
        exact source.symm
      · exact absurd isParent (noParent neighbour.id)
  | some parent =>
      rw [above] at source
      rcases (forest.parentOf_eq_some sound).mp above with ⟨parentStored, comment⟩
      rcases source with ⟨found, foundStored, sameUid, rfl⟩
      rw [eq_of_nodup_map sound.memoUids foundStored parentStored sameUid]
      rcases related with isChild | isParent
      · rw [inherits neighbour joined.memo neighbourStored memo isChild]
        exact inherits joined.memo parent memo parentStored comment
      · have sameId := forest.single joined.memo.id neighbour.id parent.id isParent comment
        rw [eq_of_nodup_map sound.memoIds neighbourStored parentStored sameId]

theorem writes_mayShow {operation : Operation} (sound : db.Sound) (forest : Forest db)
    (inherits : Inherits db) (keeps : KeepsVisibility db operation) :
    operation.Writes mayShow db := by
  intro backend userId
  cases operation with
  | createMemoComment name commentId input =>
      exact follows_anywhere (follows_effect (follows_createMemoComment liberal_mayShow sound
        fun _ _ _ wellFormed orphan => orphan.mayShow wellFormed))
  | updateMemo name mask input =>
      exact follows_updateMemo_request liberal_mayShow sound
        fun joined stored named last state same collected =>
          mayShow_update sound forest inherits keeps stored named same collected
  | deleteMemo name =>
      refine follows_weaken (follows_deleteMemo_request ?_) (fun _ same => same) fun _ _ _ => trivial
      exact fun _ _ _ _ _ _ _ => trivial
  | _ => exact Operation.writes_of_unguarded liberal_mayShow sound rfl backend userId

/-- In a run whose updates keep the visibility of top-level memos with
comments, every comment is as visible as its parent. -/
theorem keepsVisibility_inherits (reached : Reaches KeepsVisibility {} db) : Inherits db := by
  have start : Forest {} ∧ Inherits {} :=
    ⟨empty_forest, fun _ _ impossible => absurd impossible List.not_mem_nil⟩
  have permits : forall before operation, before.Sound -> Forest before ∧ Inherits before ->
      KeepsVisibility before operation -> operation.Writes mayShow before :=
    fun _ _ sound known keeps => writes_mayShow sound known.1 known.2 keeps
  have kept : forall before last, before.Sound -> Forest before ∧ Inherits before ->
      Write mayShow before last -> Forest last ∧ Inherits last :=
    fun _ _ sound known write =>
      ⟨known.1.write (write.mono fun _ _ => mayShow_mayRelate), known.2.write sound write⟩
  exact (reached.induction permits kept Database.empty_sound start).2.2

/-- A memo with a comment. -/
def protectedMemo : List Operation :=
  [.changeAccounts [⟨1, .normal, "ada", .user⟩] [] [],
    .createMemo "a" { content := "", visibility := .isProtected },
    .createMemoComment "memos/a" "b" (some { content := "", visibility := .isPublic })]

/-- Publishing the comment alone has no effect. -/
theorem keepsVisibility_inherits_comment :
    Inherits (runFrom {} (protectedMemo ++
      [.updateMemo "memos/b" ["visibility"] { content := "", visibility := .isPublic }])) ∧
    (runFrom {} protectedMemo).CommentOf 2 1 := by
  have relations : (runFrom {} protectedMemo).relations = [⟨2, 1, .comment⟩] := by decide +kernel
  have created : Reaches KeepsVisibility {} (runFrom {} protectedMemo) := by
    apply reaches_runFrom
    intro state operation member
    rcases List.mem_cons.mp member with rfl | later
    · trivial
    rcases List.mem_cons.mp later with rfl | last
    · trivial
    rcases List.mem_singleton.mp last with rfl
    trivial
  have ofComment : forall memo, memo ∈ (runFrom {} protectedMemo).memos -> "b" = memo.uid ->
      memo.id = 2 := by decide +kernel
  have step : Step KeepsVisibility (runFrom {} protectedMemo) (runFrom {} (protectedMemo ++
      [.updateMemo "memos/b" ["visibility"] { content := "", visibility := .isPublic }])) := by
    apply step_runFrom
    rintro _ memo stored named ⟨child, comment⟩
    unfold Database.CommentOf at comment
    rw [ofComment memo stored (Except.ok.inj named), relations, List.mem_singleton] at comment
    cases comment
  refine ⟨keepsVisibility_inherits (created.tail step), ?_⟩
  rw [Database.CommentOf, relations]
  exact List.mem_singleton.mpr rfl

/-- The parent of a comment is hidden. -/
def hiddenParent : List Operation :=
  [.changeAccounts [⟨1, .normal, "ada", .user⟩] [] [],
    .createMemo "a" { content := "", visibility := .isPublic },
    .createMemoComment "memos/a" "b" (some { content := "", visibility := .isPublic }),
    .updateMemo "memos/a" ["visibility"] { content := "", visibility := .isPrivate }]

/-- The comment of a public memo stays public when the memo becomes private. -/
theorem updateMemo_leaves_comment :
    Reaches (fun _ _ => True) {} (runFrom {} hiddenParent) ∧
    ¬ Inherits (runFrom {} hiddenParent) := by
  refine ⟨reaches_runFrom fun _ _ _ => trivial, ?_⟩
  intro inherits
  have memos : (runFrom {} hiddenParent).memos =
      [⟨1, "a", .normal, 1, 1, 1, "", .isPrivate, false, ⟨none, []⟩⟩,
        ⟨2, "b", .normal, 1, 1, 1, "", .isPublic, false, ⟨none, []⟩⟩] := by decide +kernel
  have relations : (runFrom {} hiddenParent).relations = [⟨2, 1, .comment⟩] := by decide +kernel
  have same := inherits ⟨2, "b", .normal, 1, 1, 1, "", .isPublic, false, ⟨none, []⟩⟩
    ⟨1, "a", .normal, 1, 1, 1, "", .isPrivate, false, ⟨none, []⟩⟩
    (by rw [memos]; exact List.mem_cons_of_mem _ List.mem_cons_self)
    (by rw [memos]; exact List.mem_cons_self)
    (by rw [Database.CommentOf, relations]; exact List.mem_singleton.mpr rfl)
  cases same

end Service
end Memos
