import Memos.Library.Exploration
import Memos.Library.Transaction
import Memos.Store.Tables

namespace Memos
namespace Store

open Library

/-!
# Deleting a user

One transaction collects what belongs to the user, the comments under the
memos of the user included, and then deletes it table by table.  Lists of keys
are split into batches.  SQLite collects the comments by a recursive query,
MySQL by a walk from frontier to frontier.
-/

/-! ## Inbox messages -/

/-- `InboxMessage_Type` -/
inductive InboxMessageType where
  | unspecified
  | memoComment
  | memoMention
deriving DecidableEq

/-- The memos of a comment or of a mention.  An id that is not set is zero. -/
structure InboxMemos where
  memoId : Nat
  relatedMemoId : Nat
deriving DecidableEq

/-- The one payload of a message. -/
inductive InboxPayload where
  | memoComment (memos : InboxMemos)
  | memoMention (memos : InboxMemos)
deriving DecidableEq

structure InboxMessage where
  type : InboxMessageType
  payload : Option InboxPayload
deriving DecidableEq

def InboxMessage.getMemoComment (message : InboxMessage) : Option InboxMemos :=
  match message.payload with
  | some (.memoComment memos) => some memos
  | _ => none

def InboxMessage.getMemoMention (message : InboxMessage) : Option InboxMemos :=
  match message.payload with
  | some (.memoMention memos) => some memos
  | _ => none

/-- The decoder of the JSON columns. -/
structure Protojson where
  inboxMessage : String -> Except String InboxMessage
  attachmentPayload : String -> Except String Unit

/-! ## Targets -/

/-- `deleteUserMemoRef` -/
structure MemoRef where
  id : Nat
  uid : String
deriving DecidableEq

def Memo.ref (memo : Memo) : MemoRef := ⟨memo.id, memo.uid⟩

/-- `UserSetting_Key` -/
inductive UserSettingKey where
  | unspecified
  | general
  | shortcuts
  | webhooks
  | refreshTokens
  | personalAccessTokens
deriving DecidableEq

/-- `UserSetting_Key_value`: a name without a value has the value zero. -/
def userSettingKeyValue (name : String) : UserSettingKey :=
  if name = "GENERAL" then .general
  else if name = "SHORTCUTS" then .shortcuts
  else if name = "WEBHOOKS" then .webhooks
  else if name = "REFRESH_TOKENS" then .refreshTokens
  else if name = "PERSONAL_ACCESS_TOKENS" then .personalAccessTokens
  else .unspecified

/-- `deleteUserTargetSet` -/
structure DeleteUserTargetSet where
  memos : List MemoRef
  attachments : List Attachment
  userSettingKeys : List UserSettingKey
  inboxIds : List Nat

structure DeleteUserResult where
  attachments : List Attachment
  userSettingKeys : List UserSettingKey

def memoIdsFromRefs (memos : List MemoRef) : List Nat := memos.map MemoRef.id

def memoContentIdsFromRefs (memos : List MemoRef) : List String :=
  memos.map fun memo => "memos/" ++ memo.uid

def attachmentIdsFromList (attachments : List Attachment) : List Nat :=
  attachments.map Attachment.id

def deleteUserBatchSize : Nat := 500

theorem batchSize_pos (size length : Nat) : 0 < if size = 0 then length + 1 else size := by
  split <;> omega

def deleteUserBatches {α : Type} (values : List α) (size : Nat) : List (List α) :=
  match values with
  | [] => []
  | first :: rest =>
      batchesFrom (first :: rest) (if size = 0 then (first :: rest).length else size)
        (batchSize_pos size rest.length) 0

/-! ## The comment tree -/

/-- A comment under another memo. -/
def CommentEdge (db : Database) (parent child : MemoRef) : Prop :=
  Exists fun memo => memo ∈ db.memos ∧ memo.ref = child ∧
    Exists fun relation => relation ∈ db.relations ∧ relation.memoId = child.id ∧
      relation.type = .comment ∧ relation.relatedMemoId = parent.id

/-- The recursive part of the query, for these rows of the tree. -/
def recursiveSelect (db : Database) (tree : List MemoRef) : List MemoRef :=
  db.memos.flatMap fun child =>
    (db.relations.filter fun relation =>
      relation.memoId = child.id ∧ relation.type = .comment).flatMap fun relation =>
        (tree.filter fun parent => relation.relatedMemoId = parent.id).map fun _ => child.ref

/-- The query of the walk, for one batch of parents. -/
def childrenOf (db : Database) (parents : List Nat) : List MemoRef :=
  db.memos.flatMap fun child =>
    (db.relations.filter fun relation =>
      relation.memoId = child.id ∧ relation.type = .comment ∧
        relation.relatedMemoId ∈ parents).map fun _ => child.ref

variable {db : Database} {child : MemoRef}

theorem CommentEdge.child_mem {parent child : MemoRef} (edge : CommentEdge db parent child) :
    child ∈ db.memos.map Memo.ref := by
  rcases edge with ⟨memo, stored, same, _⟩
  exact List.mem_map.mpr ⟨memo, stored, same⟩

theorem mem_recursiveSelect {tree : List MemoRef} :
    child ∈ recursiveSelect db tree ↔
      Exists fun parent => parent ∈ tree ∧ CommentEdge db parent child := by
  constructor
  · intro member
    rcases List.mem_flatMap.mp member with ⟨memo, stored, inJoin⟩
    rcases List.mem_flatMap.mp inJoin with ⟨relation, matching, inTree⟩
    rcases List.mem_map.mp inTree with ⟨parent, joined, rfl⟩
    rcases List.mem_filter.mp matching with ⟨related, onMemo⟩
    rcases List.mem_filter.mp joined with ⟨parentMember, onParent⟩
    rcases of_decide_eq_true onMemo with ⟨source, isComment⟩
    exact ⟨parent, parentMember, memo, stored, rfl, relation, related, source, isComment,
      of_decide_eq_true onParent⟩
  · rintro ⟨parent, parentMember, memo, stored, rfl, relation, related, source, isComment, target⟩
    refine List.mem_flatMap.mpr ⟨memo, stored, List.mem_flatMap.mpr ⟨relation, ?_, ?_⟩⟩
    · exact List.mem_filter.mpr ⟨related, decide_eq_true ⟨source, isComment⟩⟩
    · exact List.mem_map.mpr ⟨parent,
        List.mem_filter.mpr ⟨parentMember, decide_eq_true target⟩, rfl⟩

theorem mem_childrenOf {parents : List Nat} :
    child ∈ childrenOf db parents ↔
      Exists fun memo => memo ∈ db.memos ∧ memo.ref = child ∧
        Exists fun relation => relation ∈ db.relations ∧ relation.memoId = child.id ∧
          relation.type = .comment ∧ relation.relatedMemoId ∈ parents := by
  constructor
  · intro member
    rcases List.mem_flatMap.mp member with ⟨memo, stored, inJoin⟩
    rcases List.mem_map.mp inJoin with ⟨relation, matching, rfl⟩
    rcases List.mem_filter.mp matching with ⟨related, conditions⟩
    exact ⟨memo, stored, rfl, relation, related, of_decide_eq_true conditions⟩
  · rintro ⟨memo, stored, rfl, relation, related, conditions⟩
    exact List.mem_flatMap.mpr ⟨memo, stored, List.mem_map.mpr ⟨relation,
      List.mem_filter.mpr ⟨related, decide_eq_true conditions⟩, rfl⟩⟩

/-- Every value is in exactly one batch. -/
theorem flatten_deleteUserBatches {α : Type} (values : List α) (size : Nat) :
    (deleteUserBatches values size).flatten = values := by
  cases values with
  | nil => rfl
  | cons first rest =>
      unfold deleteUserBatches
      rw [flatten_batchesFrom, List.drop_zero]

theorem deleteUserBatches_bounds {α : Type} {values batch : List α} {size : Nat}
    (positive : 0 < size) (member : batch ∈ deleteUserBatches values size) :
    batch ≠ [] ∧ batch.length ≤ size := by
  cases values with
  | nil => cases member
  | cons first rest =>
      have bounds := batchesFrom_bounds member
      rw [if_neg (Nat.ne_of_gt positive)] at bounds
      exact bounds

/-- The comment tree as the recursive query sees it. -/
def recursiveGraph (db : Database) : Graph MemoRef where
  nodes := db.memos.map Memo.ref
  Edge := CommentEdge db
  expand := recursiveSelect db
  mem_expand := fun _ _ => mem_recursiveSelect
  edge_mem := fun _ _ edge => edge.child_mem

/-- The children of a frontier, batch by batch. -/
def frontierChildren (db : Database) (frontier : List MemoRef) : List MemoRef :=
  (deleteUserBatches (frontier.map MemoRef.id) deleteUserBatchSize).flatMap (childrenOf db)

theorem mem_frontierChildren {frontier : List MemoRef} :
    child ∈ frontierChildren db frontier ↔
      Exists fun parent => parent ∈ frontier ∧ CommentEdge db parent child := by
  constructor
  · intro member
    rcases List.mem_flatMap.mp member with ⟨batch, inBatches, inBatch⟩
    rcases mem_childrenOf.mp inBatch with
      ⟨memo, stored, same, relation, related, source, isComment, target⟩
    have inFrontier : relation.relatedMemoId ∈ frontier.map MemoRef.id := by
      rw [← flatten_deleteUserBatches (frontier.map MemoRef.id) deleteUserBatchSize]
      exact List.mem_flatten.mpr ⟨batch, inBatches, target⟩
    rcases List.mem_map.mp inFrontier with ⟨parent, parentMember, sameId⟩
    exact ⟨parent, parentMember, memo, stored, same, relation, related, source, isComment,
      sameId.symm⟩
  · rintro ⟨parent, parentMember, memo, stored, same, relation, related, source, isComment, target⟩
    have inFrontier : parent.id ∈ frontier.map MemoRef.id :=
      List.mem_map.mpr ⟨parent, parentMember, rfl⟩
    rw [← flatten_deleteUserBatches (frontier.map MemoRef.id) deleteUserBatchSize] at inFrontier
    rcases List.mem_flatten.mp inFrontier with ⟨batch, inBatches, inBatch⟩
    rw [← target] at inBatch
    exact List.mem_flatMap.mpr ⟨batch, inBatches, mem_childrenOf.mpr
      ⟨memo, stored, same, relation, related, source, isComment, inBatch⟩⟩

/-- The comment tree as the walk sees it. -/
def frontierGraph (db : Database) : Graph MemoRef where
  nodes := db.memos.map Memo.ref
  Edge := CommentEdge db
  expand := frontierChildren db
  mem_expand := fun _ _ => mem_frontierChildren
  edge_mem := fun _ _ edge => edge.child_mem

/-- The memos of the user. -/
def memoRoots (db : Database) (userId : Nat) : List MemoRef :=
  (db.memos.filter fun memo => memo.creatorId = userId).map Memo.ref

/-- `WITH RECURSIVE … UNION`: one row of the queue at a time, and a row that
the tree has already is not added again. -/
def listDeleteUserMemoTreeRecursive (db : Database) (userId : Nat) : List MemoRef :=
  exploreFrom (fun ref => ref) (recursiveGraph db) .single (memoRoots db userId)

/-- The walk of the MySQL driver, which remembers the ids that it has seen. -/
def listDeleteUserMemoTreeIterative (db : Database) (userId : Nat) : List MemoRef :=
  exploreFrom MemoRef.id (frontierGraph db) .frontier (memoRoots db userId)

/-! ## Collecting the targets -/

variable (protojson : Protojson) (userId : Nat)

/-- An empty payload is not decoded. -/
def checkAttachmentPayload (attachment : Attachment) : Except String Unit :=
  if attachment.payload = "" then .ok () else protojson.attachmentPayload attachment.payload

/-- Append the attachments of a query whose ids are not among the collected
ones. -/
def appendDeleteUserAttachments : List Attachment -> List Attachment ->
    Except String (List Attachment)
  | [], collected => .ok collected
  | attachment :: rest, collected =>
      if collected.any fun other => other.id = attachment.id then
        appendDeleteUserAttachments rest collected
      else do
        checkAttachmentPayload protojson attachment
        appendDeleteUserAttachments rest (collected ++ [attachment])

/-- The attachment belongs to one of the memos. -/
def Attachment.linkedTo (attachment : Attachment) (memoIds : List Nat) : Bool :=
  attachment.memoId.any fun id => id ∈ memoIds

/-- The queries for the attachments of the memos. -/
def listBatchAttachments : List (List Nat) -> List Attachment ->
    Transaction Database (List Attachment)
  | [], collected => pure collected
  | batch :: rest, collected => do
      let more ← Transaction.query fun db : Database => appendDeleteUserAttachments protojson
        (db.attachments.filter fun attachment => attachment.linkedTo batch) collected
      listBatchAttachments rest more

def listDeleteUserAttachments (memoIds : List Nat) : Transaction Database (List Attachment) := do
  let own ← Transaction.query fun db : Database => appendDeleteUserAttachments protojson
    (db.attachments.filter fun attachment => attachment.creatorId = userId) []
  listBatchAttachments protojson (deleteUserBatches memoIds deleteUserBatchSize) own

def listDeleteUserSettingKeys : Transaction Database (List UserSettingKey) :=
  Transaction.query fun db => .ok
    ((db.settings.filter fun setting => setting.userId = userId).map fun setting =>
      userSettingKeyValue setting.key)

/-- The user sent or received the message. -/
def Inbox.direct (row : Inbox) : Bool := row.senderId = userId || row.receiverId = userId

def listDeleteUserDirectInboxIds : Transaction Database (List Nat) :=
  Transaction.query fun db => .ok
    ((db.inbox.filter fun row => row.direct userId).map Inbox.id)

def memoIdInSet (id : Nat) (memoIds : List Nat) : Bool := id ≠ 0 && memoIds.contains id

def InboxMemos.touch (memos : InboxMemos) (memoIds : List Nat) : Bool :=
  memoIdInSet memos.memoId memoIds || memoIdInSet memos.relatedMemoId memoIds

def inboxMessageTouchesMemoSet (message : InboxMessage) (memoIds : List Nat) : Bool :=
  match message.type with
  | .memoComment => message.getMemoComment.any fun memos => memos.touch memoIds
  | .memoMention => message.getMemoMention.any fun memos => memos.touch memoIds
  | .unspecified => false

/-- The ids of the rows whose messages mention a memo.  An empty message is
skipped. -/
def touchingInboxIds (memoIds : List Nat) : List Inbox -> Except String (List Nat)
  | [] => .ok []
  | row :: rest =>
      if row.message = "" then touchingInboxIds memoIds rest
      else do
        let message ← protojson.inboxMessage row.message
        let others ← touchingInboxIds memoIds rest
        return if inboxMessageTouchesMemoSet message memoIds then row.id :: others else others

def listDeleteUserMemoReferencedInboxIds (memoIds : List Nat) :
    Transaction Database (List Nat) :=
  Transaction.query fun db =>
    touchingInboxIds protojson memoIds (db.inbox.filter fun row => !row.direct userId)

def listDeleteUserInboxIds (memoIds : List Nat) : Transaction Database (List Nat) := do
  let directIds ← listDeleteUserDirectInboxIds userId
  if memoIds.isEmpty then return directIds
  else
    let referencedIds ← listDeleteUserMemoReferencedInboxIds protojson userId memoIds
    return directIds ++ referencedIds

def collectDeleteUserTargets : Transaction Database DeleteUserTargetSet := do
  let memos ← Transaction.query fun db => .ok (listDeleteUserMemoTreeRecursive db userId)
  let attachments ← listDeleteUserAttachments protojson userId (memoIdsFromRefs memos)
  let userSettingKeys ← listDeleteUserSettingKeys userId
  let inboxIds ← listDeleteUserInboxIds protojson userId (memoIdsFromRefs memos)
  return ⟨memos, attachments, userSettingKeys, inboxIds⟩

/-! ## Deleting the targets -/

namespace Database

def withoutReactions (contentIds : List String) (db : Database) : Database :=
  { db with reactions := db.reactions.filter fun row => row.contentId ∉ contentIds }

def withoutAttachments (ids : List Nat) (db : Database) : Database :=
  { db with attachments := db.attachments.filter fun row => row.id ∉ ids }

def withoutShares (memoIds : List Nat) (db : Database) : Database :=
  { db with shares := db.shares.filter fun row => row.memoId ∉ memoIds }

def withoutInboxes (ids : List Nat) (db : Database) : Database :=
  { db with inbox := db.inbox.filter fun row => row.id ∉ ids }

def withoutRelations (memoIds : List Nat) (db : Database) : Database :=
  { db with relations := db.relations.filter fun row =>
      ¬ (row.memoId ∈ memoIds ∨ row.relatedMemoId ∈ memoIds) }

def withoutMemos (ids : List Nat) (db : Database) : Database :=
  { db with memos := db.memos.filter fun row => row.id ∉ ids }

end Database

/-- One deletion for every batch of the keys. -/
def deleteBatches {α : Type} (delete : List α -> Database -> Database) (keys : List α) :
    Transaction Database Unit :=
  executeBatches delete (deleteUserBatches keys deleteUserBatchSize)

def deleteReactionsByContentIdsTx (contentIds : List String) : Transaction Database Unit :=
  deleteBatches Database.withoutReactions contentIds

def deleteAttachmentsByIdsTx (attachmentIds : List Nat) : Transaction Database Unit :=
  deleteBatches Database.withoutAttachments attachmentIds

def deleteReactionsByCreatorTx : Transaction Database Unit :=
  Transaction.execute fun db =>
    { db with reactions := db.reactions.filter fun row => row.creatorId ≠ userId }

def deleteMemoSharesTx (memoIds : List Nat) : Transaction Database Unit := do
  Transaction.execute fun db : Database =>
    { db with shares := db.shares.filter fun row => row.creatorId ≠ userId }
  deleteBatches Database.withoutShares memoIds

def deleteInboxesByIdsTx (inboxIds : List Nat) : Transaction Database Unit :=
  deleteBatches Database.withoutInboxes inboxIds

def deleteUserIdentitiesTx : Transaction Database Unit :=
  Transaction.execute fun db =>
    { db with identities := db.identities.filter fun row => row.userId ≠ userId }

def deleteUserSettingsTx : Transaction Database Unit :=
  Transaction.execute fun db =>
    { db with settings := db.settings.filter fun row => row.userId ≠ userId }

def deleteMemoRelationsTx (memoIds : List Nat) : Transaction Database Unit :=
  deleteBatches Database.withoutRelations memoIds

def deleteMemosTx (memoIds : List Nat) : Transaction Database Unit :=
  deleteBatches Database.withoutMemos memoIds

def deleteUserRowTx : Transaction Database Unit :=
  Transaction.execute fun db =>
    { db with users := db.users.filter fun row => row.id ≠ userId }

def deleteUserTargetsTx (targets : DeleteUserTargetSet) : Transaction Database Unit := do
  deleteReactionsByContentIdsTx (memoContentIdsFromRefs targets.memos)
  deleteAttachmentsByIdsTx (attachmentIdsFromList targets.attachments)
  deleteReactionsByCreatorTx userId
  deleteMemoSharesTx userId (memoIdsFromRefs targets.memos)
  deleteInboxesByIdsTx targets.inboxIds
  deleteUserIdentitiesTx userId
  deleteUserSettingsTx userId
  deleteMemoRelationsTx (memoIdsFromRefs targets.memos)
  deleteMemosTx (memoIdsFromRefs targets.memos)
  deleteUserRowTx userId

/-- The statements of `DeleteUser`, the commit being the last one. -/
def deleteUserTransaction (failpoint : Bool) : Transaction Database DeleteUserResult := do
  let targets ← (collectDeleteUserTargets protojson userId).wrap
    "failed to collect delete user targets"
  (deleteUserTargetsTx userId targets).wrap "failed to delete user targets"
  Transaction.failIf failpoint "delete user failpoint before commit"
  (Transaction.execute fun db : Database => db).wrap "failed to commit delete user transaction"
  return ⟨targets.attachments, targets.userSettingKeys⟩

/-- `DeleteUser` -/
def deleteUser (failpoint : Bool) (faults : List (Option String)) (db : Database) :
    Except String DeleteUserResult × Database :=
  (deleteUserTransaction protojson userId failpoint).run db faults

end Store
end Memos
