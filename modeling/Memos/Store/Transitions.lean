import Memos.Store.UserClosure
import Memos.Store.Writes

namespace Memos
namespace Store

open Library

/-!
# What the calls of the store can do

Every call of the store that writes makes one of the steps below.  Some of
them are allowed under a condition that is left open, so that each invariant
can ask for the one that it needs.
-/

namespace Database

/-- A memo with this id is stored. -/
def HasMemo (db : Database) (id : Nat) : Prop :=
  Exists fun memo => memo ∈ db.memos ∧ memo.id = id

theorem hasMemo_of_mem {db : Database} {memo : Memo} (stored : memo ∈ db.memos) :
    db.HasMemo memo.id :=
  ⟨memo, stored, rfl⟩

/-- A memo with this id and this uid is stored. -/
def HasRef (db : Database) (ref : MemoRef) : Prop := ref ∈ db.memos.map Memo.ref

theorem HasRef.hasMemo {db : Database} {ref : MemoRef} (stored : db.HasRef ref) :
    db.HasMemo ref.id := by
  rcases List.mem_map.mp stored with ⟨memo, member, rfl⟩
  exact hasMemo_of_mem member

theorem hasRef_of_mem {db : Database} {memo : Memo} (stored : memo ∈ db.memos) :
    db.HasRef memo.ref :=
  List.mem_map.mpr ⟨memo, stored, rfl⟩

theorem HasMemo.exists_ref {db : Database} {id : Nat} (stored : db.HasMemo id) :
    Exists fun ref => db.HasRef ref ∧ ref.id = id := by
  rcases stored with ⟨memo, member, rfl⟩
  exact ⟨memo.ref, hasRef_of_mem member, rfl⟩

theorem HasMemo.of_refs {db after : Database} {id : Nat} (stored : db.HasMemo id)
    (kept : ∀ ref, db.HasRef ref -> after.HasRef ref) : after.HasMemo id := by
  rcases stored.exists_ref with ⟨ref, found, rfl⟩
  exact (kept ref found).hasMemo

/-- The first memo is a direct comment of the second. -/
def CommentOf (db : Database) (child parent : Nat) : Prop :=
  ⟨child, parent, .comment⟩ ∈ db.relations

/-- The database after `DeleteMemo` of the store. -/
def deletedMemo (id : Nat) (db : Database) : Database :=
  { db with
    relations := db.relations.filter fun row => row.memoId ≠ id ∧ row.relatedMemoId ≠ id
    attachments := db.attachments.filter fun row =>
      row.id ∉ (listAttachments db id).map Attachment.id
    memos := db.memos.filter fun row => row.id ≠ id }

/-- The database after the memos have been deleted one by one. -/
def deletedMemos (ids : List Nat) (db : Database) : Database :=
  ids.foldl (fun db id => db.deletedMemo id) db

theorem deletedMemos_cons (id : Nat) (ids : List Nat) (db : Database) :
    db.deletedMemos (id :: ids) = (db.deletedMemo id).deletedMemos ids := rfl

theorem deletedMemos_append (first second : List Nat) (db : Database) :
    db.deletedMemos (first ++ second) = (db.deletedMemos first).deletedMemos second :=
  List.foldl_append

end Database

/-- The relations that make comments of memos. -/
def Database.comments (db : Database) : List MemoRelation :=
  db.relations.filter fun relation => relation.type = .comment

/-- The changes that an invariant can restrict. -/
inductive Guarded where
  | deleteMemo (id : Nat)
  | updateMemo (update : UpdateMemo)
  | insertRelation (relation : MemoRelation)

/-- Only deletions of memos are restricted. -/
def deleting (mayDelete : Database -> Nat -> Prop) (db : Database) : Guarded -> Prop
  | .deleteMemo id => mayDelete db id
  | _ => True

/-- References to other memos are always allowed, and so are the updates that
leave the visibility alone. -/
structure Liberal (may : Database -> Guarded -> Prop) : Prop where
  reference : ∀ db source target, source ≠ target ->
    may db (.insertRelation ⟨source, target, .reference⟩)
  update : ∀ db update, update.visibility = none -> may db (.updateMemo update)

theorem liberal_deleting {mayDelete : Database -> Nat -> Prop} : Liberal (deleting mayDelete) where
  reference := fun _ _ _ _ => trivial
  update := fun _ _ _ => trivial

/-- One step of the database. -/
inductive Write (may : Database -> Guarded -> Prop) (db : Database) : Database -> Prop where
  | insertMemo (memo : Memo) : memo.id = db.sequences.memo + 1 ->
      (∀ other, other ∈ db.memos -> other.uid ≠ memo.uid) ->
      Write may db (db.insertMemo memo)
  | updateMemo (update : UpdateMemo) : may db (.updateMemo update) ->
      Write may db { db with memos := db.memos.map update.apply }
  | deleteMemo (id : Nat) : may db (.deleteMemo id) -> Write may db (db.deletedMemo id)
  | insertRelation (relation : MemoRelation) : may db (.insertRelation relation) ->
      relation ∉ db.relations -> db.HasMemo relation.memoId ->
      db.HasMemo relation.relatedMemoId ->
      Write may db { db with relations := db.relations ++ [relation] }
  | deleteRelations (keep : MemoRelation -> Bool) :
      (∀ relation, relation.type = .comment -> keep relation = true) ->
      Write may db { db with relations := db.relations.filter keep }
  | insertAttachment (attachment : Attachment) :
      attachment.id = db.sequences.attachment + 1 ->
      (∀ id, attachment.memoId = some id -> db.HasMemo id) ->
      Write may db (db.insertAttachment attachment)
  | updateAttachment (update : UpdateAttachment) :
      (∀ id, update.memoId = some id -> db.HasMemo id) ->
      Write may db { db with attachments := db.attachments.map update.apply }
  | deleteAttachments (ids : List Nat) : Write may db (db.withoutAttachments ids)
  | insertReaction (reaction : Reaction) (sequences : Sequences) :
      sequences = { db.sequences with reaction := sequences.reaction } ->
      (Exists fun memo => memo ∈ db.memos ∧ reaction.contentId = "memos/" ++ memo.uid) ->
      Write may db { db with reactions := db.reactions ++ [reaction], sequences := sequences }
  | deleteReactions (keep : Reaction -> Bool) :
      Write may db { db with reactions := db.reactions.filter keep }
  | insertShare (share : MemoShare) (sequences : Sequences) :
      sequences = { db.sequences with share := sequences.share } -> db.HasMemo share.memoId ->
      Write may db { db with shares := db.shares ++ [share], sequences := sequences }
  | deleteShares (keep : MemoShare -> Bool) :
      Write may db { db with shares := db.shares.filter keep }
  | insertInbox (row : Inbox) : row.id = db.sequences.inbox + 1 ->
      Write may db { db with
        inbox := db.inbox ++ [row], sequences := { db.sequences with inbox := row.id } }
  | deleteInboxes (keep : Inbox -> Bool) :
      Write may db { db with inbox := db.inbox.filter keep }
  | deleteUser (protojson : Protojson) (userId : Nat) (after : Database) :
      Removes (RefersTo protojson db userId) db after -> Write may db after
  | others (users : List User) (identities : List UserIdentity) (settings : List UserSetting) :
      (users.map User.id).Nodup ->
      Write may db { db with users := users, identities := identities, settings := settings }

/-- A weaker permission allows the same step. -/
theorem Write.mono {may other : Database -> Guarded -> Prop} {db after : Database}
    (write : Write may db after) (weaker : ∀ state guarded, may state guarded -> other state guarded) :
    Write other db after := by
  cases write with
  | insertMemo memo fresh unused => exact .insertMemo memo fresh unused
  | updateMemo update allowed => exact .updateMemo update (weaker _ _ allowed)
  | deleteMemo id allowed => exact .deleteMemo id (weaker _ _ allowed)
  | insertRelation relation allowed unknown source target =>
      exact .insertRelation relation (weaker _ _ allowed) unknown source target
  | deleteRelations keep comments => exact .deleteRelations keep comments
  | insertAttachment attachment fresh linked => exact .insertAttachment attachment fresh linked
  | updateAttachment update linked => exact .updateAttachment update linked
  | deleteAttachments ids => exact .deleteAttachments ids
  | insertReaction reaction sequences same named =>
      exact .insertReaction reaction sequences same named
  | deleteReactions keep => exact .deleteReactions keep
  | insertShare share sequences same linked => exact .insertShare share sequences same linked
  | deleteShares keep => exact .deleteShares keep
  | insertInbox row fresh => exact .insertInbox row fresh
  | deleteInboxes keep => exact .deleteInboxes keep
  | deleteUser protojson userId after removed => exact .deleteUser protojson userId after removed
  | others users identities settings unique => exact .others users identities settings unique

/-- What setting the attachments of a memo can do. -/
inductive AttachmentWrite (memoId : Nat) (db : Database) : Database -> Prop where
  | link (update : UpdateAttachment) : update.memoId = some memoId ->
      AttachmentWrite memoId db { db with attachments := db.attachments.map update.apply }
  | delete (ids : List Nat) : AttachmentWrite memoId db (db.withoutAttachments ids)

/-- What setting the relations of a memo can do. -/
inductive ReferenceWrite (source : MemoRef) (db : Database) : Database -> Prop where
  | insert (target : MemoRef) : db.HasRef target -> target.uid ≠ source.uid ->
      ⟨source.id, target.id, .reference⟩ ∉ db.relations ->
      ReferenceWrite source db { db with
        relations := db.relations ++ [⟨source.id, target.id, .reference⟩] }
  | clear : ReferenceWrite source db { db with
      relations := db.relations.filter fun relation =>
        ¬ (relation.memoId = source.id ∧ relation.type = .reference) }

/-! ## Well-formed databases -/

/-- The keys are unique and have been given by the sequences, and the ends of
every relation are stored.  This much holds whatever is deleted. -/
structure Database.Sound (db : Database) : Prop extends db.PrimaryKeys where
  userIds : (db.users.map User.id).Nodup
  relationKeys : db.relations.Nodup
  memoBound : ∀ memo, memo ∈ db.memos -> memo.id ≤ db.sequences.memo
  attachmentBound : ∀ row, row ∈ db.attachments -> row.id ≤ db.sequences.attachment
  inboxBound : ∀ row, row ∈ db.inbox -> row.id ≤ db.sequences.inbox
  source : ∀ relation, relation ∈ db.relations -> db.HasMemo relation.memoId
  target : ∀ relation, relation ∈ db.relations -> db.HasMemo relation.relatedMemoId

theorem Database.empty_sound : Database.Sound {} where
  memoIds := List.nodup_nil
  memoUids := List.nodup_nil
  attachmentIds := List.nodup_nil
  inboxIds := List.nodup_nil
  userIds := List.nodup_nil
  relationKeys := List.nodup_nil
  memoBound := fun _ impossible => absurd impossible List.not_mem_nil
  attachmentBound := fun _ impossible => absurd impossible List.not_mem_nil
  inboxBound := fun _ impossible => absurd impossible List.not_mem_nil
  source := fun _ impossible => absurd impossible List.not_mem_nil
  target := fun _ impossible => absurd impossible List.not_mem_nil

@[simp] theorem UpdateMemo.apply_id (update : UpdateMemo) (memo : Memo) :
    (update.apply memo).id = memo.id := by
  unfold UpdateMemo.apply
  split <;> rfl

@[simp] theorem UpdateMemo.apply_uid (update : UpdateMemo) (memo : Memo) :
    (update.apply memo).uid = memo.uid := by
  unfold UpdateMemo.apply
  split <;> rfl

@[simp] theorem UpdateAttachment.apply_id (update : UpdateAttachment) (attachment : Attachment) :
    (update.apply attachment).id = attachment.id := by
  unfold UpdateAttachment.apply
  split <;> rfl

/-- A new key is not among the keys of the table. -/
theorem nodup_snoc {α : Type} {key : α -> Nat} {rows : List α} {bound : Nat}
    (unique : (rows.map key).Nodup) (bounded : ∀ row, row ∈ rows -> key row ≤ bound)
    {row : α} (fresh : key row = bound + 1) : ((rows ++ [row]).map key).Nodup := by
  rw [List.map_append, List.map_singleton, List.nodup_append]
  refine ⟨unique, List.nodup_singleton _, ?_⟩
  intro old oldMember new newMember same
  rcases List.mem_map.mp oldMember with ⟨other, member, rfl⟩
  have atMost := bounded other member
  rw [List.mem_singleton] at newMember
  omega

theorem bounded_snoc {α : Type} {key : α -> Nat} {rows : List α} {bound : Nat}
    (bounded : ∀ row, row ∈ rows -> key row ≤ bound) {row : α} (fresh : key row = bound + 1)
    (other : α) (member : other ∈ rows ++ [row]) : key other ≤ key row := by
  rcases List.mem_append.mp member with old | new
  · have atMost := bounded other old
    omega
  · rw [List.mem_singleton.mp new]

theorem nodup_map_of_sublist {α κ : Type} {key : α -> κ} {rows kept : List α}
    (unique : (rows.map key).Nodup) (sublist : kept.Sublist rows) : (kept.map key).Nodup :=
  unique.sublist (sublist.map key)

/-! ### Which memos are stored -/

section Memos

variable {db after : Database}

theorem hasMemo_updateMemo {update : UpdateMemo} {id : Nat} :
    Database.HasMemo { db with memos := db.memos.map update.apply } id ↔ db.HasMemo id := by
  unfold Database.HasMemo
  simp only [List.mem_map]
  constructor
  · rintro ⟨memo, ⟨old, member, rfl⟩, same⟩
    exact ⟨old, member, by rw [← same, UpdateMemo.apply_id]⟩
  · rintro ⟨memo, member, same⟩
    exact ⟨update.apply memo, ⟨memo, member, rfl⟩, by rw [UpdateMemo.apply_id, same]⟩

theorem hasMemo_insertMemo {memo : Memo} {id : Nat} :
    (db.insertMemo memo).HasMemo id ↔ db.HasMemo id ∨ memo.id = id := by
  unfold Database.HasMemo Database.insertMemo
  simp only [List.mem_append, List.mem_singleton, or_and_right, exists_or, exists_eq_left]

theorem Database.hasRef_insertMemo {memo : Memo} {ref : MemoRef} (stored : db.HasRef ref) :
    (db.insertMemo memo).HasRef ref := by
  unfold Database.HasRef Database.insertMemo
  rw [List.map_append]
  exact List.mem_append_left _ stored

theorem Database.hasRef_updateMemo {update : UpdateMemo} {ref : MemoRef} (stored : db.HasRef ref) :
    Database.HasRef { db with memos := db.memos.map update.apply } ref := by
  rcases List.mem_map.mp stored with ⟨memo, member, rfl⟩
  refine List.mem_map.mpr ⟨update.apply memo, List.mem_map.mpr ⟨memo, member, rfl⟩, ?_⟩
  simp [Memo.ref]

theorem hasMemo_deletedMemo {deleted id : Nat} :
    (db.deletedMemo deleted).HasMemo id ↔ db.HasMemo id ∧ id ≠ deleted := by
  unfold Database.HasMemo Database.deletedMemo
  simp only [List.mem_filter, decide_eq_true_eq]
  constructor
  · rintro ⟨memo, ⟨member, other⟩, rfl⟩
    exact ⟨⟨memo, member, rfl⟩, other⟩
  · rintro ⟨⟨memo, member, rfl⟩, other⟩
    exact ⟨memo, ⟨member, other⟩, rfl⟩

/-- Among stored ids, exactly those of doomed memos go with the user. -/
theorem hasMemo_deleteUser {protojson : Protojson} {userId : Nat} (keyed : db.Keyed)
    (removed : Removes (RefersTo protojson db userId) db after) {id : Nat} :
    after.HasMemo id ↔ db.HasMemo id ∧ ¬ Exists fun memo => Doomed db userId memo ∧ memo.id = id := by
  constructor
  · rintro ⟨memo, member, rfl⟩
    rcases (removed.rows (.memo memo)).mp member with ⟨stored, spared⟩
    refine ⟨⟨memo, stored, rfl⟩, ?_⟩
    rintro ⟨other, doomed, same⟩
    rw [eq_of_nodup_map keyed.memoIds doomed.stored stored same] at doomed
    exact spared doomed
  · rintro ⟨⟨memo, stored, rfl⟩, spared⟩
    refine ⟨memo, (removed.rows (.memo memo)).mpr ⟨stored, ?_⟩, rfl⟩
    intro doomed
    exact spared ⟨memo, doomed, rfl⟩

/-- Removing rows keeps the keys. -/
theorem Database.PrimaryKeys.of_shrinks (keys : db.PrimaryKeys) (shrinks : Shrinks db after) :
    after.PrimaryKeys where
  memoIds := nodup_map_of_sublist keys.memoIds shrinks.memos
  memoUids := nodup_map_of_sublist keys.memoUids shrinks.memos
  attachmentIds := nodup_map_of_sublist keys.attachmentIds shrinks.attachments
  inboxIds := nodup_map_of_sublist keys.inboxIds shrinks.inbox

/-- Removing rows keeps a database well-formed when the relations that remain
keep their ends. -/
theorem Database.Sound.of_shrinks (sound : db.Sound) (shrinks : Shrinks db after)
    (ends : ∀ relation, relation ∈ after.relations ->
      after.HasMemo relation.memoId ∧ after.HasMemo relation.relatedMemoId) : after.Sound where
  toPrimaryKeys := sound.toPrimaryKeys.of_shrinks shrinks
  userIds := nodup_map_of_sublist sound.userIds shrinks.users
  relationKeys := sound.relationKeys.sublist shrinks.relations
  memoBound := by
    intro memo member
    rw [shrinks.sequences]
    exact sound.memoBound memo (shrinks.memos.subset member)
  attachmentBound := by
    intro row member
    rw [shrinks.sequences]
    exact sound.attachmentBound row (shrinks.attachments.subset member)
  inboxBound := by
    intro row member
    rw [shrinks.sequences]
    exact sound.inboxBound row (shrinks.inbox.subset member)
  source := fun relation member => (ends relation member).1
  target := fun relation member => (ends relation member).2

/-- Every step keeps a database well-formed. -/
theorem Write.sound {may : Database -> Guarded -> Prop} (write : Write may db after)
    (sound : db.Sound) : after.Sound := by
  cases write with
  | insertMemo memo fresh unused =>
      have kept : ∀ id, db.HasMemo id -> (db.insertMemo memo).HasMemo id := fun id stored =>
        hasMemo_insertMemo.mpr (.inl stored)
      refine { sound with
        memoIds := nodup_snoc sound.memoIds sound.memoBound fresh
        memoUids := ?_
        memoBound := bounded_snoc sound.memoBound fresh
        source := fun relation member => kept _ (sound.source relation member)
        target := fun relation member => kept _ (sound.target relation member) }
      change ((db.memos ++ [memo]).map Memo.uid).Nodup
      rw [List.map_append, List.map_singleton, List.nodup_append]
      refine ⟨sound.memoUids, List.nodup_singleton _, ?_⟩
      intro old oldMember new newMember same
      rcases List.mem_map.mp oldMember with ⟨other, member, rfl⟩
      rw [List.mem_singleton] at newMember
      exact unused other member (same.trans newMember)
  | updateMemo update allowed =>
      have ids : (db.memos.map update.apply).map Memo.id = db.memos.map Memo.id := by simp
      have uids : (db.memos.map update.apply).map Memo.uid = db.memos.map Memo.uid := by simp
      refine { sound with
        memoIds := by rw [ids]; exact sound.memoIds
        memoUids := by rw [uids]; exact sound.memoUids
        memoBound := ?_
        source := fun relation member => hasMemo_updateMemo.mpr (sound.source relation member)
        target := fun relation member => hasMemo_updateMemo.mpr (sound.target relation member) }
      intro memo member
      rcases List.mem_map.mp member with ⟨old, oldMember, rfl⟩
      rw [UpdateMemo.apply_id]
      exact sound.memoBound old oldMember
  | deleteMemo id allowed =>
      refine sound.of_shrinks ⟨List.Sublist.refl _, List.filter_sublist, List.filter_sublist,
        List.filter_sublist, List.Sublist.refl _, rfl⟩ ?_
      intro relation member
      rcases List.mem_filter.mp member with ⟨stored, others⟩
      rcases of_decide_eq_true others with ⟨otherSource, otherTarget⟩
      exact ⟨hasMemo_deletedMemo.mpr ⟨sound.source relation stored, otherSource⟩,
        hasMemo_deletedMemo.mpr ⟨sound.target relation stored, otherTarget⟩⟩
  | insertRelation relation allowed unknown source target =>
      refine { sound with relationKeys := ?_, source := ?_, target := ?_ }
      · rw [List.nodup_append]
        refine ⟨sound.relationKeys, List.nodup_singleton _, ?_⟩
        rintro old oldMember new newMember rfl
        rw [List.mem_singleton.mp newMember] at oldMember
        exact unknown oldMember
      · intro other member
        rcases List.mem_append.mp member with old | new
        · exact sound.source other old
        · rw [List.mem_singleton.mp new]
          exact source
      · intro other member
        rcases List.mem_append.mp member with old | new
        · exact sound.target other old
        · rw [List.mem_singleton.mp new]
          exact target
  | deleteRelations keep comments =>
      exact { sound with
        relationKeys := sound.relationKeys.filter keep
        source := fun relation member => sound.source relation (List.mem_filter.mp member).1
        target := fun relation member => sound.target relation (List.mem_filter.mp member).1 }
  | insertAttachment attachment fresh linked =>
      exact { sound with
        attachmentIds := nodup_snoc sound.attachmentIds sound.attachmentBound fresh
        attachmentBound := bounded_snoc sound.attachmentBound fresh }
  | updateAttachment update linked =>
      have ids : (db.attachments.map update.apply).map Attachment.id =
          db.attachments.map Attachment.id := by simp
      refine { sound with
        attachmentIds := by rw [ids]; exact sound.attachmentIds
        attachmentBound := ?_ }
      intro row member
      rcases List.mem_map.mp member with ⟨old, oldMember, rfl⟩
      rw [UpdateAttachment.apply_id]
      exact sound.attachmentBound old oldMember
  | deleteAttachments ids =>
      exact sound.of_shrinks ⟨List.Sublist.refl _, List.Sublist.refl _, List.Sublist.refl _,
          List.filter_sublist, List.Sublist.refl _, rfl⟩
        fun relation member => ⟨sound.source relation member, sound.target relation member⟩
  | insertReaction reaction sequences same named =>
      rw [same]
      exact { sound with }
  | deleteReactions keep => exact { sound with }
  | insertShare share sequences same linked =>
      rw [same]
      exact { sound with }
  | deleteShares keep => exact { sound with }
  | insertInbox row fresh =>
      exact { sound with
        inboxIds := nodup_snoc sound.inboxIds sound.inboxBound fresh
        inboxBound := bounded_snoc sound.inboxBound fresh }
  | deleteInboxes keep =>
      exact sound.of_shrinks ⟨List.Sublist.refl _, List.Sublist.refl _, List.Sublist.refl _,
          List.Sublist.refl _, List.filter_sublist, rfl⟩
        fun relation member => ⟨sound.source relation member, sound.target relation member⟩
  | deleteUser protojson userId after removed =>
      refine sound.of_shrinks removed.toShrinks ?_
      intro relation member
      rcases (removed.rows (.relation relation)).mp member with ⟨stored, spared⟩
      constructor
      · apply (hasMemo_deleteUser sound.toKeyed removed).mpr
        refine ⟨sound.source relation stored, ?_⟩
        rintro ⟨memo, doomed, same⟩
        exact spared ⟨memo, doomed, .inl same.symm⟩
      · apply (hasMemo_deleteUser sound.toKeyed removed).mpr
        refine ⟨sound.target relation stored, ?_⟩
        rintro ⟨memo, doomed, same⟩
        exact spared ⟨memo, doomed, .inr same.symm⟩
  | others users identities settings unique => exact { sound with userIds := unique }

/-! ## Attachments and references of a memo -/

section MemoWrites

variable {may : Database -> Guarded -> Prop} {memoId : Nat} {source : MemoRef}

theorem AttachmentWrite.write (write : AttachmentWrite memoId db after)
    (stored : db.HasMemo memoId) : Write may db after := by
  cases write with
  | link update linked =>
      refine .updateAttachment update ?_
      intro id same
      rw [linked] at same
      cases same
      exact stored
  | delete ids => exact .deleteAttachments ids

theorem AttachmentWrite.memos (write : AttachmentWrite memoId db after) :
    after.memos = db.memos := by
  cases write <;> rfl

theorem AttachmentWrite.relations (write : AttachmentWrite memoId db after) :
    after.relations = db.relations := by
  cases write <;> rfl

/-- A reference to a memo with another uid is one to another memo. -/
theorem ReferenceWrite.write (write : ReferenceWrite source db after) (liberal : Liberal may)
    (sound : db.Sound) (stored : db.HasRef source) : Write may db after := by
  cases write with
  | insert target targetStored other unknown =>
      have distinct : source.id ≠ target.id := by
        intro sameId
        rcases List.mem_map.mp stored with ⟨first, firstStored, rfl⟩
        rcases List.mem_map.mp targetStored with ⟨second, secondStored, rfl⟩
        rw [eq_of_nodup_map sound.memoIds firstStored secondStored sameId] at other
        exact other rfl
      exact .insertRelation _ (liberal.reference db _ _ distinct) unknown stored.hasMemo
        targetStored.hasMemo
  | clear =>
      refine .deleteRelations _ ?_
      intro relation isComment
      simp [isComment]

theorem ReferenceWrite.memos (write : ReferenceWrite source db after) : after.memos = db.memos := by
  cases write <;> rfl

theorem ReferenceWrite.comments (write : ReferenceWrite source db after) :
    after.comments = db.comments := by
  cases write with
  | insert target stored other unknown =>
      unfold Database.comments
      rw [List.filter_append]
      simp
  | clear =>
      unfold Database.comments
      rw [List.filter_filter]
      apply List.filter_congr
      intro relation _
      simp only [← Bool.decide_and, decide_eq_decide]
      constructor
      · exact fun both => both.1
      · intro isComment
        refine ⟨isComment, ?_⟩
        rintro ⟨_, isReference⟩
        rw [isComment] at isReference
        cases isReference

end MemoWrites

end Memos

end Store
end Memos
