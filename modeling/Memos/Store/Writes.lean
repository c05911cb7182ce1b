import Memos.Store.Relation
import Memos.Store.UserDelete

namespace Memos
namespace Store

open Library

/-!
# Writing memos and what belongs to them

The calls of the store that change memos, relations, attachments, reactions
and shares, as transactions of the SQLite driver.  Foreign keys are off, so
the database checks uniqueness only.
-/

/-- The characters of `[a-zA-Z0-9]`. -/
def isUidLetter (char : Char) : Bool :=
  ('a' ≤ char && char ≤ 'z') || ('A' ≤ char && char ≤ 'Z') || ('0' ≤ char && char ≤ '9')

/-- `UIDMatcher`: letters, digits and inner hyphens, at most 36 characters. -/
def uidMatches (uid : String) : Bool :=
  let chars := uid.toList
  chars.head?.any isUidLetter && chars.getLast?.any isUidLetter &&
    chars.all (fun char => isUidLetter char || char = '-') && chars.length ≤ 36

/-! ## Memos -/

/-- A memo to be created.  A time stamp of zero stands for now. -/
structure CreateMemo where
  uid : String
  creatorId : Nat
  createdTs : Int := 0
  updatedTs : Int := 0
  content : String
  visibility : Visibility
  payload : Filter.MemoPayload

/-- The row of a new memo. -/
def CreateMemo.row (create : CreateMemo) (now : Int) (id : Nat) : Memo where
  id := id
  uid := create.uid
  rowStatus := .normal
  creatorId := create.creatorId
  createdTs := if create.createdTs = 0 then now else create.createdTs
  updatedTs := if create.updatedTs = 0 then now else create.updatedTs
  content := create.content
  visibility := create.visibility
  pinned := false
  payload := create.payload

namespace Database

/-- `INSERT INTO memo` -/
def insertMemo (memo : Memo) (db : Database) : Database :=
  { db with
    memos := db.memos ++ [memo]
    sequences := { db.sequences with memo := memo.id } }

end Database

def createMemo (now : Int) (create : CreateMemo) : Transaction Database Memo :=
  Transaction.statement fun db =>
    if uidMatches create.uid then
      if db.memos.any fun memo => memo.uid = create.uid then
        .error "UNIQUE constraint failed: memo.uid"
      else
        let memo := create.row now (db.sequences.memo + 1)
        .ok (memo, db.insertMemo memo)
    else .error "invalid uid"

/-- `UpdateMemo` without a new uid, which no caller sets. -/
structure UpdateMemo where
  id : Nat
  createdTs : Option Int := none
  updatedTs : Option Int := none
  rowStatus : Option RowStatus := none
  content : Option String := none
  visibility : Option Visibility := none
  pinned : Option Bool := none
  payload : Option Filter.MemoPayload := none

/-- The row after the update. -/
def UpdateMemo.apply (update : UpdateMemo) (memo : Memo) : Memo :=
  if memo.id = update.id then
    { memo with
      createdTs := update.createdTs.getD memo.createdTs
      updatedTs := update.updatedTs.getD memo.updatedTs
      rowStatus := update.rowStatus.getD memo.rowStatus
      content := update.content.getD memo.content
      visibility := update.visibility.getD memo.visibility
      pinned := update.pinned.getD memo.pinned
      payload := update.payload.getD memo.payload }
  else memo

def updateMemo (update : UpdateMemo) : Transaction Database Unit :=
  Transaction.execute fun db => { db with memos := db.memos.map update.apply }

/-! ## Relations -/

/-- `INSERT … ON CONFLICT` -/
def upsertMemoRelation (relation : MemoRelation) : Transaction Database Unit :=
  Transaction.execute fun db =>
    if relation ∈ db.relations then db else { db with relations := db.relations ++ [relation] }

/-- `DeleteMemoRelation` -/
structure DeleteMemoRelation where
  memoId : Option Nat := none
  relatedMemoId : Option Nat := none
  type : Option MemoRelationType := none

def DeleteMemoRelation.selects (delete : DeleteMemoRelation) (relation : MemoRelation) : Bool :=
  delete.memoId.all (fun id => relation.memoId = id) &&
  delete.relatedMemoId.all (fun id => relation.relatedMemoId = id) &&
  delete.type.all (fun type => relation.type = type)

def deleteMemoRelation (delete : DeleteMemoRelation) : Transaction Database Unit :=
  Transaction.execute fun db =>
    { db with relations := db.relations.filter fun relation => !delete.selects relation }

/-! ## Attachments -/

namespace Database

/-- `INSERT INTO attachment` -/
def insertAttachment (attachment : Attachment) (db : Database) : Database :=
  { db with
    attachments := db.attachments ++ [attachment]
    sequences := { db.sequences with attachment := attachment.id } }

end Database

/-- The attachment gets the next id. -/
def createAttachment (attachment : Attachment) : Transaction Database Attachment :=
  Transaction.statement fun db =>
    if uidMatches attachment.uid then
      if db.attachments.any fun other => other.uid = attachment.uid then
        .error "UNIQUE constraint failed: attachment.uid"
      else
        let created := { attachment with id := db.sequences.attachment + 1 }
        .ok (created, db.insertAttachment created)
    else .error "invalid uid"

/-- The columns of `UpdateAttachment` that the model has. -/
structure UpdateAttachment where
  id : Nat
  updatedTs : Option Int := none
  memoId : Option Nat := none
  reference : Option String := none
  payload : Option String := none

def UpdateAttachment.apply (update : UpdateAttachment) (attachment : Attachment) : Attachment :=
  if attachment.id = update.id then
    { attachment with
      updatedTs := update.updatedTs.getD attachment.updatedTs
      memoId := update.memoId.orElse fun _ => attachment.memoId
      reference := update.reference.getD attachment.reference
      payload := update.payload.getD attachment.payload }
  else attachment

def updateAttachment (update : UpdateAttachment) : Transaction Database Unit :=
  Transaction.execute fun db => { db with attachments := db.attachments.map update.apply }

/-- Removing the file of an attachment.  Only a failure on a local file
matters. -/
def deleteAttachmentStorage (storageFault : Attachment -> Option String)
    (attachment : Attachment) : Except String Unit :=
  match storageFault attachment with
  | none => .ok ()
  | some cause =>
      if attachment.storageType = "LOCAL" then .error ("failed to delete local file: " ++ cause)
      else .ok ()

/-- `DeleteAttachment` of the store. -/
def deleteAttachment (storageFault : Attachment -> Option String) (id : Nat) :
    Transaction Database Unit := do
  let attachment ← Transaction.query fun db : Database =>
    match db.attachments.find? fun attachment => attachment.id = id with
    | some attachment => .ok attachment
    | none => .error "attachment not found"
  Transaction.query fun _ => deleteAttachmentStorage storageFault attachment
  Transaction.execute (Database.withoutAttachments [id])

def deleteAttachmentList (storageFault : Attachment -> Option String) :
    List Attachment -> Transaction Database Unit
  | [] => pure ()
  | attachment :: rest => do
      deleteAttachment storageFault attachment.id
      deleteAttachmentList storageFault rest

/-- `DeleteAttachments` of the driver, one transaction for all. -/
def deleteAttachments (attachments : List Attachment) : Transaction Database Unit :=
  Transaction.execute (Database.withoutAttachments (attachments.map Attachment.id))

/-! ## Deleting a memo -/

/-- `DeleteMemo` of the store: the relations in both directions, the
attachments that `ListAttachments` returns, and the memo. -/
def deleteMemo (storageFault : Attachment -> Option String) (id : Nat) :
    Transaction Database Unit := do
  deleteMemoRelation { memoId := some id }
  deleteMemoRelation { relatedMemoId := some id }
  let attachments ← Transaction.query fun db => .ok (listAttachments db id)
  deleteAttachmentList storageFault attachments
  Transaction.execute (Database.withoutMemos [id])

/-! ## Reactions and shares -/

def createReaction (creatorId : Nat) (contentId reactionType : String) :
    Transaction Database Reaction :=
  Transaction.statement fun db =>
    if db.reactions.any fun row => row.creatorId = creatorId ∧ row.contentId = contentId ∧
        row.reactionType = reactionType then
      .error "UNIQUE constraint failed: reaction.creator_id, reaction.content_id, reaction.reaction_type"
    else
      let reaction := ⟨db.sequences.reaction + 1, creatorId, contentId, reactionType⟩
      .ok (reaction, { db with
        reactions := db.reactions ++ [reaction]
        sequences := { db.sequences with reaction := reaction.id } })

def deleteReaction (id : Nat) : Transaction Database Unit :=
  Transaction.execute fun db =>
    { db with reactions := db.reactions.filter fun row => row.id ≠ id }

def createMemoShare (uid : String) (memoId creatorId : Nat) (expiresTs : Option Int) :
    Transaction Database MemoShare :=
  Transaction.statement fun db =>
    if db.shares.any fun row => row.uid = uid then
      .error "UNIQUE constraint failed: memo_share.uid"
    else
      let share := ⟨db.sequences.share + 1, uid, memoId, creatorId, expiresTs⟩
      .ok (share, { db with
        shares := db.shares ++ [share]
        sequences := { db.sequences with share := share.id } })

/-- `DeleteMemoShare` by uid. -/
def deleteMemoShare (uid : String) : Transaction Database Unit :=
  Transaction.execute fun db => { db with shares := db.shares.filter fun row => row.uid ≠ uid }

/-! ## The inbox -/

def createInbox (senderId receiverId : Nat) (message : String) : Transaction Database Unit :=
  Transaction.execute fun db =>
    let row := ⟨db.sequences.inbox + 1, senderId, receiverId, message⟩
    { db with
      inbox := db.inbox ++ [row]
      sequences := { db.sequences with inbox := row.id } }

def deleteInbox (id : Nat) : Transaction Database Unit :=
  Transaction.execute fun db => { db with inbox := db.inbox.filter fun row => row.id ≠ id }

end Store
end Memos
