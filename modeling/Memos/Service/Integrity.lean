import Memos.Service.Runs

namespace Memos
namespace Service

open Library Memos.Filter Store Handler

/-!
# References to memos

Foreign keys are off, so a row can name a memo that is not stored.  `DeleteMemo`
removes relations and the first page of attachments; reactions and shares stay.
A deletion is bare when the memos that it deletes have none of what stays.  In
runs of bare deletions every reference to a memo resolves, and a new memo
starts without rows that refer to it.
-/

variable {db after : Database}

/-- Reactions, shares and attachments refer to stored memos. -/
structure Resolves (db : Database) : Prop where
  reaction : forall row, row ∈ db.reactions ->
    Exists fun memo => memo ∈ db.memos ∧ row.contentId = "memos/" ++ memo.uid
  share : forall row, row ∈ db.shares -> db.HasMemo row.memoId
  attachment : forall row, row ∈ db.attachments -> forall id, row.memoId = some id -> db.HasMemo id

/-- All references to memos resolve. -/
structure Integrity (db : Database) : Prop extends Resolves db where
  source : forall relation, relation ∈ db.relations -> db.HasMemo relation.memoId
  target : forall relation, relation ∈ db.relations -> db.HasMemo relation.relatedMemoId

/-- No row refers to the memo. -/
structure Unreferenced (db : Database) (memo : Memo) : Prop where
  reaction : forall row, row ∈ db.reactions -> row.contentId ≠ "memos/" ++ memo.uid
  share : forall row, row ∈ db.shares -> row.memoId ≠ memo.id
  attachment : forall row, row ∈ db.attachments -> row.memoId ≠ some memo.id
  relation : forall row, row ∈ db.relations -> row.memoId ≠ memo.id ∧ row.relatedMemoId ≠ memo.id

/-- The memo has no reactions, no shares, and at most one page of attachments. -/
structure Bare (db : Database) (memoId : Nat) : Prop where
  reaction : forall memo, memo ∈ db.memos -> memo.id = memoId ->
    forall row, row ∈ db.reactions -> row.contentId ≠ "memos/" ++ memo.uid
  share : forall row, row ∈ db.shares -> row.memoId ≠ memoId
  attachment : (db.attachments.filter fun row => row.memoId = some memoId).length ≤
    defaultAttachmentLimit

/-- Operations that delete a memo delete a bare one with bare comments. -/
def BareDeletions (db : Database) : Operation -> Prop
  | .deleteMemo name => forall memo, memo ∈ db.memos ->
      extractMemoUIDFromName name = .ok memo.uid ->
      forall id, id ∈ deletedIds db memo.id -> Bare db id
  | _ => True

/-! ## Bare deletions -/

theorem Bare.deletedMemo {id other : Nat} (bare : Bare db id) : Bare (db.deletedMemo other) id where
  reaction := fun memo member => bare.reaction memo (List.mem_filter.mp member).1
  share := bare.share
  attachment := by
    have sublist : ((db.deletedMemo other).attachments.filter fun row => row.memoId = some id).Sublist
        (db.attachments.filter fun row => row.memoId = some id) :=
      List.filter_sublist.filter _
    exact sublist.length_le.trans bare.attachment

theorem Bare.deletedMemos {id : Nat} {ids : List Nat} (bare : Bare db id) :
    Bare (db.deletedMemos ids) id := by
  induction ids generalizing db with
  | nil => exact bare
  | cons first ids ih => exact ih bare.deletedMemo

theorem BareDeletions.deletes {operation : Operation} (permitted : BareDeletions db operation) :
    operation.Deletes Bare db := by
  cases operation with
  | deleteMemo name =>
      intro memo stored named earlier id later split
      have inside : id ∈ deletedIds db memo.id := by
        rw [split]
        exact List.mem_append_right _ List.mem_cons_self
      exact (permitted memo stored named id inside).deletedMemos
  | _ => trivial

/-- One page holds all attachments of a bare memo. -/
theorem Bare.listed {id : Nat} (bare : Bare db id) {row : Attachment}
    (member : row ∈ db.attachments) (linked : row.memoId = some id) :
    row.id ∈ (listAttachments db id).map Attachment.id := by
  unfold listAttachments byUpdatedTs
  rw [List.take_of_length_le (by rw [List.length_mergeSort]; exact bare.attachment)]
  exact List.mem_map_of_mem (List.mem_mergeSort.mpr
    (List.mem_filter.mpr ⟨member, decide_eq_true linked⟩))

/-! ## References keep resolving -/

/-- More memos resolve more references. -/
theorem Resolves.of_grown (resolves : Resolves db)
    (reactions : after.reactions = db.reactions) (shares : after.shares = db.shares)
    (attachments : after.attachments = db.attachments)
    (refs : forall ref, db.HasRef ref -> after.HasRef ref) : Resolves after where
  reaction := by
    intro row member
    rw [reactions] at member
    rcases resolves.reaction row member with ⟨memo, stored, named⟩
    rcases List.mem_map.mp (refs memo.ref (Database.hasRef_of_mem stored)) with
      ⟨same, storedLater, sameRef⟩
    have sameUid : same.uid = memo.uid := congrArg MemoRef.uid sameRef
    exact ⟨same, storedLater, by rw [sameUid]; exact named⟩
  share := by
    intro row member
    rw [shares] at member
    exact (resolves.share row member).of_refs refs
  attachment := by
    intro row member id linked
    rw [attachments] at member
    exact (resolves.attachment row member id linked).of_refs refs

/-- Fewer rows refer to fewer memos. -/
theorem Resolves.of_subset (resolves : Resolves db) (memos : after.memos = db.memos)
    (reactions : after.reactions ⊆ db.reactions) (shares : after.shares ⊆ db.shares)
    (attachments : after.attachments ⊆ db.attachments) : Resolves after where
  reaction := by
    intro row member
    rw [memos]
    exact resolves.reaction row (reactions member)
  share := by
    intro row member
    unfold Database.HasMemo
    rw [memos]
    exact resolves.share row (shares member)
  attachment := by
    intro row member id linked
    unfold Database.HasMemo
    rw [memos]
    exact resolves.attachment row (attachments member) id linked

/-- Deleting a bare memo leaves nothing that refers to it. -/
theorem Resolves.deletedMemo {id : Nat} (resolves : Resolves db) (bare : Bare db id) :
    Resolves (db.deletedMemo id) where
  reaction := by
    intro row member
    rcases resolves.reaction row member with ⟨memo, stored, named⟩
    have other : memo.id ≠ id := fun same => bare.reaction memo stored same row member named
    exact ⟨memo, List.mem_filter.mpr ⟨stored, decide_eq_true other⟩, named⟩
  share := fun row member =>
    hasMemo_deletedMemo.mpr ⟨resolves.share row member, bare.share row member⟩
  attachment := by
    intro row member linkedId linked
    rcases List.mem_filter.mp member with ⟨stored, kept⟩
    refine hasMemo_deletedMemo.mpr ⟨resolves.attachment row stored linkedId linked, ?_⟩
    rintro rfl
    exact of_decide_eq_true kept (bare.listed stored linked)

/-- Deleting a user removes the references to the memos that go. -/
theorem Resolves.deleteUser {protojson : Protojson} {userId : Nat} (sound : db.Sound)
    (resolves : Resolves db) (removed : Removes (RefersTo protojson db userId) db after) :
    Resolves after where
  reaction := by
    intro row member
    rcases (removed.rows (.reaction row)).mp member with ⟨stored, spared⟩
    rcases resolves.reaction row stored with ⟨memo, memoStored, named⟩
    refine ⟨memo, (removed.rows (.memo memo)).mpr ⟨memoStored, ?_⟩, named⟩
    intro doomed
    exact spared (.inr ⟨memo, doomed, named⟩)
  share := by
    intro row member
    rcases (removed.rows (.share row)).mp member with ⟨stored, spared⟩
    refine (hasMemo_deleteUser sound.toKeyed removed).mpr ⟨resolves.share row stored, ?_⟩
    rintro ⟨memo, doomed, same⟩
    exact spared (.inr ⟨memo, doomed, same.symm⟩)
  attachment := by
    intro row member id linked
    rcases (removed.rows (.attachment row)).mp member with ⟨stored, spared⟩
    refine (hasMemo_deleteUser sound.toKeyed removed).mpr
      ⟨resolves.attachment row stored id linked, ?_⟩
    rintro ⟨memo, doomed, rfl⟩
    exact spared (.inr ⟨memo, doomed, linked⟩)

theorem Resolves.write (sound : db.Sound) (resolves : Resolves db) (write : Write (deleting Bare) db after) :
    Resolves after := by
  cases write with
  | insertMemo memo fresh unused =>
      exact resolves.of_grown rfl rfl rfl fun _ => Database.hasRef_insertMemo
  | updateMemo update allowed =>
      exact resolves.of_grown rfl rfl rfl fun _ => Database.hasRef_updateMemo
  | deleteMemo id bare => exact resolves.deletedMemo bare
  | insertAttachment attachment fresh linked =>
      refine { resolves with attachment := ?_ }
      intro row member id same
      rcases List.mem_append.mp member with old | new
      · exact resolves.attachment row old id same
      · rw [List.mem_singleton.mp new] at same
        exact linked id same
  | updateAttachment update linked =>
      refine { resolves with attachment := ?_ }
      intro row member id same
      rcases List.mem_map.mp member with ⟨old, stored, rfl⟩
      have origin : update.memoId = some id ∨ old.memoId = some id := by
        unfold UpdateAttachment.apply at same
        split at same
        · cases chosen : update.memoId with
          | none =>
              rw [chosen] at same
              exact .inr same
          | some new =>
              rw [chosen] at same
              exact .inl same
        · exact .inr same
      rcases origin with new | kept
      · exact linked id new
      · exact resolves.attachment old stored id kept
  | insertReaction reaction sequences sequence named =>
      refine { resolves with reaction := ?_ }
      intro row member
      rcases List.mem_append.mp member with old | new
      · exact resolves.reaction row old
      · rw [List.mem_singleton.mp new]
        exact named
  | insertShare share sequences sequence linked =>
      refine { resolves with share := ?_ }
      intro row member
      rcases List.mem_append.mp member with old | new
      · exact resolves.share row old
      · rw [List.mem_singleton.mp new]
        exact linked
  | deleteAttachments ids =>
      exact resolves.of_subset rfl (fun _ member => member) (fun _ member => member)
        List.filter_sublist.subset
  | deleteReactions keep =>
      exact resolves.of_subset rfl List.filter_sublist.subset (fun _ member => member)
        (fun _ member => member)
  | deleteShares keep =>
      exact resolves.of_subset rfl (fun _ member => member) List.filter_sublist.subset
        (fun _ member => member)
  | deleteUser protojson userId after removed => exact resolves.deleteUser sound removed
  | insertRelation => exact { resolves with }
  | deleteRelations => exact { resolves with }
  | insertInbox => exact { resolves with }
  | deleteInboxes => exact { resolves with }
  | others => exact { resolves with }

/-! ## New memos -/

/-- Nothing refers to a memo that is yet to come. -/
theorem Integrity.unreferenced {memo : Memo} (integrity : Integrity db) (sound : db.Sound)
    (fresh : Fresh db memo) : Unreferenced db memo := by
  have unused : forall id, db.HasMemo id -> id ≠ memo.id := by
    rintro id ⟨other, stored, rfl⟩
    have atMost := sound.memoBound other stored
    have next := fresh.id
    omega
  constructor
  · intro row member named
    rcases integrity.reaction row member with ⟨other, stored, otherNamed⟩
    have sameUid : "memos/" ++ other.uid = "memos/" ++ memo.uid := otherNamed.symm.trans named
    exact fresh.uid other stored ((String.append_right_inj _).mp sameUid)
  · exact fun row member => unused _ (integrity.share row member)
  · exact fun row member linked => unused _ (integrity.attachment row member _ linked) rfl
  · exact fun row member =>
      ⟨unused _ (integrity.source row member), unused _ (integrity.target row member)⟩

/-- The request creates a memo with a new key.  Without attachments and
relations in the request, it does nothing else. -/
theorem follows_createMemo_fresh {backend : Backend} {userId : Nat} {memoId : String} {input : MemoInput} :
    Follows (fun _ _ => True) db (fun state => state = db) (createMemo backend userId memoId input)
      (fun created state => Fresh db created ∧
        (input.attachments = [] -> input.relations = [] -> state = db.insertMemo created)) := by
  apply follows_createMemo_request
  · rintro before memo ⟨_, rfl⟩ fresh _
    exact ⟨trivial, fresh, fun _ _ => rfl⟩
  · intro some memo before last along _
    exact ⟨trivial, along.2.1, fun none => absurd none some⟩
  · intro some memo before last along _
    exact ⟨trivial, along.2.1, fun _ none => absurd none some⟩

theorem follows_createMemoComment_fresh {backend : Backend} {userId : Nat}
    {name commentId : String} {input : Option MemoInput} :
    Follows (fun _ _ => True) db (fun state => state = db)
      (createMemoComment backend userId name commentId input) (fun created _ => Fresh db created) := by
  refine follows_bind follows_memoByName fun related => ?_
  refine follows_bind follows_authenticated fun user => follows_bind follows_require fun _ => ?_
  refine follows_bind follows_found fun comment => ?_
  refine follows_weaken (?_ : Follows _ _ (fun state => state = db) _ _)
    (fun state known => known.1.1.1) fun _ _ given => given
  refine follows_bind (follows_mapError follows_createMemo_fresh) fun created => ?_
  refine follows_weaken (?_ : Follows _ _ (fun _ => Fresh db created) _ _)
    (fun state known => known.1) fun _ _ given => given
  refine follows_bind follows_fixed fun row => follows_bind follows_fixed fun memo => ?_
  refine follows_bind follows_fixed fun _ => follows_bind follows_fixed fun owner => ?_
  refine follows_bind follows_fixed fun creator => follows_bind follows_fixed fun _ => ?_
  exact follows_pure fun _ known => known

/-! ## Referential integrity -/

theorem Resolves.integrity (resolves : Resolves db) (sound : db.Sound) : Integrity db where
  toResolves := resolves
  source := sound.source
  target := sound.target

theorem empty_resolves : Resolves {} where
  reaction := fun _ impossible => absurd impossible List.not_mem_nil
  share := fun _ impossible => absurd impossible List.not_mem_nil
  attachment := fun _ impossible => absurd impossible List.not_mem_nil

/-- More than a page of linked attachments leaves some of them. -/
theorem exists_unlisted {id : Nat} (unique : (db.attachments.map Attachment.id).Nodup)
    (many : defaultAttachmentLimit <
      (db.attachments.filter fun row => row.memoId = some id).length) :
    Exists fun row => row ∈ db.attachments ∧ row.memoId = some id ∧
      row.id ∉ (listAttachments db id).map Attachment.id := by
  by_contra all
  have inside : (db.attachments.filter fun row => row.memoId = some id).map Attachment.id ⊆
      (listAttachments db id).map Attachment.id := by
    intro rowId member
    rcases List.mem_map.mp member with ⟨row, rowMember, rfl⟩
    rcases List.mem_filter.mp rowMember with ⟨stored, linked⟩
    by_contra unlisted
    exact all ⟨row, stored, of_decide_eq_true linked, unlisted⟩
  have distinct : ((db.attachments.filter fun row => row.memoId = some id).map
      Attachment.id).Nodup := nodup_map_of_sublist unique List.filter_sublist
  have bounded := (List.subperm_of_subset distinct inside).length_le
  have page : (listAttachments db id).length ≤ defaultAttachmentLimit := List.length_take_le _ _
  rw [List.length_map, List.length_map] at bounded
  omega

/-- Bare memos are exactly those that can be deleted without harm. -/
theorem integrity_deletedMemo_iff {id : Nat} (sound : db.Sound) (integrity : Integrity db) :
    Integrity (db.deletedMemo id) ↔ Bare db id := by
  constructor
  · intro kept
    refine ⟨?_, ?_, ?_⟩
    · intro memo stored same row member named
      rcases kept.reaction row member with ⟨other, otherMember, otherNamed⟩
      rcases List.mem_filter.mp otherMember with ⟨otherStored, spared⟩
      have sameUid : other.uid = memo.uid :=
        (String.append_right_inj _).mp (otherNamed.symm.trans named)
      rw [eq_of_nodup_map sound.memoUids otherStored stored sameUid] at spared
      exact of_decide_eq_true spared same
    · intro row member same
      exact (hasMemo_deletedMemo.mp (kept.share row member)).2 same
    · by_contra many
      rcases exists_unlisted sound.attachmentIds (Nat.lt_of_not_le many) with
        ⟨row, stored, linked, unlisted⟩
      have remains : row ∈ (db.deletedMemo id).attachments :=
        List.mem_filter.mpr ⟨stored, decide_eq_true unlisted⟩
      exact (hasMemo_deletedMemo.mp (kept.attachment row remains id linked)).2 rfl
  · intro bare
    have write : Write (deleting Bare) db (db.deletedMemo id) := .deleteMemo id bare
    exact (integrity.toResolves.deletedMemo bare).integrity (write.sound sound)

/-- In a run whose deletions are bare, all references to memos resolve, and
nothing refers to a memo when it is created, whatever its uid. -/
theorem bareDeletions_integrity (reached : Reaches BareDeletions {} db) :
    Integrity db ∧
    (forall backend userId memoId input plans created last,
      createMemo backend userId memoId input ⟨db, plans⟩ = (.ok created, last) ->
        Unreferenced db created ∧
        (input.attachments = [] -> input.relations = [] -> Unreferenced last.state created)) ∧
    (forall backend userId name commentId input plans created last,
      createMemoComment backend userId name commentId input ⟨db, plans⟩ = (.ok created, last) ->
        Unreferenced db created) := by
  rcases reached.induction
    (fun _ _ wellFormed _ permitted => permitted.deletes.writes wellFormed)
    (fun _ _ wellFormed holds write => Resolves.write wellFormed holds write)
    Database.empty_sound empty_resolves with ⟨sound, resolves⟩
  have integrity := resolves.integrity sound
  refine ⟨integrity, ?_, ?_⟩
  · intro backend userId memoId input plans created last success
    rcases follows_createMemo_fresh.result rfl rfl success with ⟨fresh, only⟩
    have unreferenced := integrity.unreferenced sound fresh
    refine ⟨unreferenced, ?_⟩
    intro noAttachments noRelations
    rw [only noAttachments noRelations]
    exact ⟨unreferenced.reaction, unreferenced.share, unreferenced.attachment,
      unreferenced.relation⟩
  · intro backend userId name commentId input plans created last success
    exact integrity.unreferenced sound
      (follows_createMemoComment_fresh.result rfl rfl success)

/-- A memo with an attachment and a comment. -/
def bareMemo : List Operation :=
  [.changeAccounts [⟨1, .normal, "ada", .user⟩] [] [],
    .createMemo "a" { content := "", visibility := .isPublic },
    .createAttachment "file" (some "memos/a"),
    .createMemoComment "memos/a" "b" (some { content := "", visibility := .isPublic })]

/-- A memo with a reaction and a share. -/
def reactedMemo : List Operation :=
  [.changeAccounts [⟨1, .normal, "ada", .user⟩] [] [],
    .createMemo "a" { content := "", visibility := .isPublic },
    .upsertMemoReaction "memos/a" "thumb",
    .createMemoShare "memos/a" none]

theorem bareDeletions_integrity_bare :
    Integrity (runFrom {} (bareMemo ++ [.deleteMemo "memos/a"])) := by
  have reached : Reaches BareDeletions {} (runFrom {} bareMemo) := by
    apply reaches_runFrom
    intro state operation member
    cases operation with
    | deleteMemo name => simp [bareMemo] at member
    | _ => trivial
  have bare : forall id, Bare (runFrom {} bareMemo) id := by
    intro id
    have reactions : (runFrom {} bareMemo).reactions = [] := rfl
    have shares : (runFrom {} bareMemo).shares = [] := rfl
    have attachments : (runFrom {} bareMemo).attachments.length ≤ defaultAttachmentLimit := by
      decide +kernel
    constructor
    · intro memo _ _ row member
      rw [reactions] at member
      exact absurd member List.not_mem_nil
    · intro row member
      rw [shares] at member
      exact absurd member List.not_mem_nil
    · exact List.filter_sublist.length_le.trans attachments
  have step : Step BareDeletions (runFrom {} bareMemo)
      (runFrom {} (bareMemo ++ [.deleteMemo "memos/a"])) :=
    ⟨quietBackend, 1, .deleteMemo "memos/a", [], fun _ _ _ id _ => bare id, rfl⟩
  exact (bareDeletions_integrity (reached.tail step)).1

/-- Deleting the memo leaves its reaction and its share.  A new memo with the
uid of the old one has the reaction. -/
theorem deleteMemo_leaves_reaction :
    Reaches (fun _ _ => True) {} (runFrom {} (reactedMemo ++ [.deleteMemo "memos/a"])) ∧
    ¬ Integrity (runFrom {} (reactedMemo ++ [.deleteMemo "memos/a"])) ∧
    Exists fun created => Exists fun last =>
      createMemo quietBackend 1 "a" { content := "", visibility := .isPublic }
        ⟨runFrom {} (reactedMemo ++ [.deleteMemo "memos/a"]), []⟩ = (.ok created, last) ∧
      ¬ Unreferenced last.state created := by
  refine ⟨reaches_runFrom fun _ _ _ => trivial, ?_, ?_⟩
  · intro integrity
    have shares : (runFrom {} (reactedMemo ++ [.deleteMemo "memos/a"])).shares =
        [⟨1, "share", 1, 1, none⟩] := by decide +kernel
    have memos : (runFrom {} (reactedMemo ++ [.deleteMemo "memos/a"])).memos = [] := by
      decide +kernel
    rcases integrity.share ⟨1, "share", 1, 1, none⟩ (by rw [shares]; exact List.mem_singleton.mpr rfl)
      with ⟨memo, stored, _⟩
    rw [memos] at stored
    exact List.not_mem_nil stored
  · refine ⟨⟨2, "a", .normal, 1, 1, 1, "", .isPublic, false, ⟨none, []⟩⟩, _,
      Prod.ext (by decide +kernel) rfl, ?_⟩
    intro unreferenced
    have reactions : (createMemo quietBackend 1 "a" { content := "", visibility := .isPublic }
        ⟨runFrom {} (reactedMemo ++ [.deleteMemo "memos/a"]), []⟩).2.state.reactions =
        [⟨1, 1, "memos/a", "thumb"⟩] := by decide +kernel
    exact unreferenced.reaction ⟨1, 1, "memos/a", "thumb"⟩
      (by rw [reactions]; exact List.mem_singleton.mpr rfl) rfl

end Service
end Memos
