import Memos.Library.Handler
import Memos.Service.Access
import Memos.Store.Transitions

namespace Memos
namespace Service

open Library Memos.Filter Store Handler

/-!
# Requests that write

The handlers that change memos and what belongs to them.  A handler looks the
caller up, checks the request and then calls the store several times; no
transaction spans its calls, so a failure keeps what came before it.
-/

/-- The request handlers of the service. -/
abbrev Request (α : Type) := Handler Database Status α

/-- What a request takes from outside the model: the clock, generated
identifiers, settings, the markdown parser, the files of attachments, the
checks on an uploaded file, and whether the response can be built. -/
structure Backend where
  now : Int
  generatedUid : String
  generatedShareUid : String
  contentLengthLimit : Except Status Nat
  rebuildMemoPayload : String -> Except String MemoPayload
  motionGroup : Attachment -> String
  storageFault : Attachment -> Option String
  checkUpload : Except Status Unit
  respond : Database -> Memo -> Except String Unit
  commentMessage : Nat -> Nat -> String
  protojson : Protojson
  deleteUserFailpoint : Bool

variable (backend : Backend) (userId : Nat)

/-! ## Lookups -/

/-- A call that only reads. -/
def read {α : Type} (select : Database -> α) (status : String -> Status) : Request α :=
  call (Transaction.query fun db => .ok (select db)) status

def internal (context : String) (cause : String) : Status := ⟨.internal, withCause context cause⟩

/-- The caller, who must be authenticated. -/
def authenticated (context : String) : Request User := do
  let viewer ← call (Transaction.query fun db => fetchCurrentUser db userId) (internal context)
  found viewer ⟨.unauthenticated, "user not authenticated"⟩

/-- The uid in the name of a memo. -/
def memoUidOf (name : String) : Request String :=
  lift (extractMemoUIDFromName name) fun cause =>
    ⟨.invalidArgument, "invalid memo name: " ++ cause⟩

/-- `GetMemo` by uid.  What a failing read and a missing row answer is the
handler's own. -/
def memoOfUid (uid : String) (failing : String -> Status) (missing : Status) : Request JoinedMemo := do
  let joined ← read (fun db => memoByUid db uid) failing
  found joined missing

def memoByName (name : String) (failing : String -> Status := internal "failed to get memo")
    (missing : Status := ⟨.notFound, "memo not found"⟩) : Request JoinedMemo := do
  let uid ← memoUidOf name
  memoOfUid uid failing missing

def permissionDenied : Status := ⟨.permissionDenied, "permission denied"⟩

/-- `canModifyMemo` -/
def canModifyMemo (user : User) (memo : Memo) : Bool :=
  memo.creatorId = user.id || isSuperUser user

/-- `ValidateAndGenerateUID` -/
def validateAndGenerateUID (provided : String) : Except Status String :=
  let uid := String.ofList
    ((provided.toList.dropWhile isSpace).reverse.dropWhile isSpace).reverse
  if uid = "" then .ok backend.generatedUid
  else if uidMatches uid then .ok uid
  else .error ⟨.invalidArgument, "invalid ID format: must be 1-36 characters, alphanumeric and hyphens only, cannot start or end with hyphen"⟩

/-! ## Attachments of a memo -/

/-- The requested attachments, which the caller must own. -/
def requestedAttachments (user : User) : List String -> Request (List Attachment)
  | [] => pure []
  | name :: names => do
      let uid ← lift (extractAttachmentUIDFromName name) fun cause =>
        ⟨.invalidArgument, "invalid attachment name: " ++ cause⟩
      let row ← read (fun db => db.attachments.find? fun attachment => attachment.uid = uid)
        (internal "failed to get attachment: ")
      let attachment ← found row ⟨.notFound, "attachment not found: " ++ uid⟩
      require (attachment.creatorId = user.id ∨ isSuperUser user)
        ⟨.permissionDenied, "cannot attach another user's attachment"⟩
      let others ← requestedAttachments user names
      return attachment :: others

/-- The motion group of the attachments has at least two members. -/
def isMultiMemberMotionGroup (group : List Attachment) : Bool :=
  2 ≤ group.length && group.all fun attachment => backend.motionGroup attachment ≠ ""

def allGroupMembersRequested (group requested : List Attachment) : Bool :=
  !group.isEmpty && group.all fun attachment =>
    requested.any fun other => other.uid = attachment.uid

/-- Append the attachments whose uids are not there yet. -/
def appendAttachments (normalized : List Attachment) : List Attachment -> List Attachment
  | [] => normalized
  | attachment :: rest =>
      if normalized.any fun other => other.uid = attachment.uid then
        appendAttachments normalized rest
      else appendAttachments (normalized ++ [attachment]) rest

/-- The loop over the requested attachments.  A motion group is appended as a
whole, or not at all when the request leaves out one of its current members. -/
def normalizeAttachments (current requested : List Attachment) :
    List Attachment -> List Attachment -> List String -> List Attachment
  | [], normalized, _ => normalized
  | attachment :: rest, normalized, groups =>
      let group := backend.motionGroup attachment
      let members (list : List Attachment) := list.filter fun other =>
        backend.motionGroup other = group
      if group = "" then
        normalizeAttachments current requested rest
          (appendAttachments normalized [attachment]) groups
      else if group ∈ groups then normalizeAttachments current requested rest normalized groups
      else if isMultiMemberMotionGroup backend (members current) ∧
          !allGroupMembersRequested (members current) (members requested) then
        normalizeAttachments current requested rest normalized (group :: groups)
      else
        normalizeAttachments current requested rest
          (appendAttachments normalized (members requested)) (group :: groups)

def normalizeMemoAttachmentRequest (user : User) (current : List Attachment)
    (names : List String) : Request (List Attachment) := do
  let requested ← requestedAttachments user names
  return normalizeAttachments backend current requested requested [] []

/-! The order that the database gives to attachments of the same second, and the
clock at each place of the walk, are parameters. -/

namespace MemoAttachments

/-- The attachments of a memo. -/
def linkedTo (db : Database) (memoId : Nat) : List Attachment :=
  db.attachments.filter fun attachment => attachment.memoId = some memoId

/-- `ListAttachments` by memo, in an order that the database chooses. -/
def listAttachments (order : List Attachment -> List Attachment) (db : Database) (memoId : Nat) :
    List Attachment :=
  (order (linkedTo db memoId)).take defaultAttachmentLimit

/-- Remove an attachment that is not requested. -/
def removeAttachment (user : User) (attachment : Attachment) : Request Unit := do
  require (attachment.creatorId = user.id ∨ isSuperUser user)
    ⟨.permissionDenied, "cannot remove another user's attachment"⟩
  call (Store.deleteAttachment backend.storageFault attachment.id) (internal "failed to delete attachment")

/-- Link the attachments, the last one first. -/
def linkAttachments (clock : Nat -> Int) (memoId : Nat) : List Attachment -> Nat -> Request Unit
  | [], _ => pure ()
  | attachment :: rest, index => do
      call (Store.updateAttachment
          { id := attachment.id, memoId := some memoId, updatedTs := some (clock index + index) })
        (internal "failed to update attachment: ")
      linkAttachments clock memoId rest (index + 1)

/-- The linked attachments that the request does not keep. -/
def droppedFrom (current normalized : List Attachment) : List Attachment :=
  current.filter fun attachment => !normalized.any fun other => other.id = attachment.id

def setMemoAttachmentsInternal (order : List Attachment -> List Attachment) (clock : Nat -> Int)
    (user : User) (memo : Memo) (names : List String) : Request Unit := do
  let current ← read (fun db => listAttachments order db memo.id)
    (internal "failed to list attachments")
  let normalized ← normalizeMemoAttachmentRequest backend user current names
  forEach (droppedFrom current normalized) (removeAttachment backend user)
  linkAttachments clock memo.id normalized.reverse 0

end MemoAttachments

def setMemoAttachmentsInternal (user : User) (memo : Memo) (names : List String) : Request Unit :=
  MemoAttachments.setMemoAttachmentsInternal backend byUpdatedTs (fun _ => backend.now) user memo names

/-! ## Relations of a memo -/

/-- `MemoRelation_Type` of the API. -/
inductive RelationType where
  | unspecified
  | reference
  | comment
deriving DecidableEq

/-- `convertMemoRelationTypeToStore` -/
def RelationType.toStore : RelationType -> MemoRelationType
  | .comment => .comment
  | .reference => .reference
  | .unspecified => .reference

/-- A relation in a request. -/
structure RelationInput where
  relatedName : String
  type : RelationType

/-- One relation of the request.  A related memo that does not exist makes the
handler fail on a nil memo. -/
def setMemoRelation (memo : Memo) (relation : RelationInput) : Request Unit :=
  if buildMemoName memo.uid = relation.relatedName then pure ()
  else if relation.type = .comment then pure ()
  else do
    let uid ← lift (extractMemoUIDFromName relation.relatedName) fun cause =>
      ⟨.invalidArgument, "invalid related memo name: " ++ cause⟩
    let joined ← read (fun db => memoByUid db uid) (internal "failed to get related memo")
    let related ← found joined ⟨.internal, "nil memo"⟩
    call (upsertMemoRelation ⟨memo.id, related.memo.id, relation.type.toStore⟩)
      (internal "failed to upsert memo relation")

def setMemoRelationsInternal (memo : Memo) (relations : List RelationInput) : Request Unit := do
  call (deleteMemoRelation { memoId := some memo.id, type := some .reference })
    (internal "failed to delete memo relation")
  forEach relations (setMemoRelation memo)

/-! ## Memos -/

/-- `MemoPayload_Location`, with the numbers as their bits. -/
structure Location where
  placeholder : String
  latitude : UInt64
  longitude : UInt64
deriving DecidableEq

/-- The memo of a request. -/
structure MemoInput where
  content : String
  visibility : Visibility
  pinned : Bool := false
  state : RowStatus := .normal
  createTime : Option Int := none
  updateTime : Option Int := none
  attachments : List String := []
  relations : List RelationInput := []
  location : Option Location := none

/-- The error of a violated uniqueness is told apart by its text. -/
def createMemoStatus (uid cause : String) : Status :=
  let texts := ["UNIQUE constraint failed", "duplicate key", "Duplicate entry"]
  if texts.any fun text => text.toList <:+: cause.toList then
    ⟨.alreadyExists, "memo with ID \"" ++ uid ++ "\" already exists"⟩
  else ⟨.unknown, cause⟩

/-- Nothing is set for an empty list. -/
def setGivenAttachments (user : User) (memo : Memo) (names : List String) : Request Unit :=
  if names.isEmpty then pure () else setMemoAttachmentsInternal backend user memo names

def setGivenRelations (memo : Memo) (relations : List RelationInput) : Request Unit :=
  if relations.isEmpty then pure () else setMemoRelationsInternal memo relations

/-- Building the response reads the database and may fail. -/
def respond (memo : Memo) (context : String) : Request Unit :=
  call (Transaction.query fun db => backend.respond db memo) (internal context)

def createMemo (memoId : String) (input : MemoInput) : Request Memo := do
  let user ← authenticated userId "failed to get user"
  let uid ← lift (validateAndGenerateUID backend memoId) id
  let limit ← lift backend.contentLengthLimit fun _ =>
    ⟨.internal, "failed to get content length limit"⟩
  require (input.content.utf8ByteSize ≤ limit)
    ⟨.invalidArgument, "content too long (max " ++ toString limit ++ " characters)"⟩
  let payload ← lift (backend.rebuildMemoPayload input.content)
    (internal "failed to rebuild memo payload: ")
  let memo ← call (Store.createMemo backend.now
      { uid := uid, creatorId := user.id, content := input.content
        visibility := input.visibility, payload := payload
        createdTs := input.createTime.getD 0, updatedTs := input.updateTime.getD 0 })
    (createMemoStatus uid)
  setGivenAttachments backend user memo input.attachments
  setGivenRelations memo input.relations
  respond backend memo "failed to convert memo"
  return memo

/-- The memo in the hands of the handler and the update that it builds up.  The
location is that of the payload of the memo; the payload of the update, if
there is one, is the same object. -/
structure Updating where
  update : UpdateMemo
  memo : Memo
  location : Option Location := none
  previousContent : String := ""
  contentUpdated : Bool := false

/-- The visibility of a comment is that of its parent. -/
def updatedVisibility (parentUid : Option String) (input : MemoInput) : Request Visibility :=
  match parentUid with
  | none => pure input.visibility
  | some uid => do
      let joined ← read (fun db => memoByUid db uid) (internal "failed to get parent memo")
      let parent ← found joined ⟨.notFound, "memo not found"⟩
      return parent.memo.visibility

def updateContent (input : MemoInput) (state : Updating) : Request Updating := do
  let limit ← lift backend.contentLengthLimit fun _ =>
    ⟨.internal, "failed to get content length limit"⟩
  require (input.content.utf8ByteSize ≤ limit)
    ⟨.invalidArgument, "content too long (max " ++ toString limit ++ " characters)"⟩
  let payload ← lift (backend.rebuildMemoPayload input.content)
    (internal "failed to rebuild memo payload: ")
  return { state with
    update := { state.update with content := some input.content, payload := some payload }
    memo := { state.memo with content := input.content, payload := payload }
    previousContent := state.memo.content
    contentUpdated := true }

/-- What the paths of one mask may find differently: the time, and the order and
the clock for setting the attachments. -/
structure Moment where
  now : Int
  order : List Attachment -> List Attachment
  clock : Nat -> Int

/-- One path of the update mask. -/
def updatePath (moment : Moment) (user : User) (parentUid : Option String) (input : MemoInput)
    (state : Updating) (path : String) : Request Updating :=
  if path = "content" then updateContent backend input state
  else if path = "visibility" then do
    let visibility ← updatedVisibility parentUid input
    return { state with update := { state.update with visibility := some visibility } }
  else if path = "pinned" then
    pure { state with update := { state.update with pinned := some input.pinned } }
  else if path = "state" then
    pure { state with update := { state.update with rowStatus := some input.state } }
  else if path = "create_time" then
    pure { state with update := { state.update with createdTs := some (input.createTime.getD 0) } }
  else if path = "update_time" then
    pure { state with
      update := { state.update with updatedTs := some (input.updateTime.getD moment.now) } }
  else if path = "display_time" then throw ⟨.invalidArgument, "display_time is not supported"⟩
  else if path = "location" then
    pure { state with
      update := { state.update with payload := some state.memo.payload }
      location := input.location }
  else if path = "attachments" then do
    MemoAttachments.setMemoAttachmentsInternal backend moment.order moment.clock user state.memo
      input.attachments
    return state
  else if path = "relations" then do
    setMemoRelationsInternal state.memo input.relations
    return state
  else pure state

/-- A request with one clock, over a database that sorts as the model does. -/
def Backend.moment : Moment := ⟨backend.now, byUpdatedTs, fun _ => backend.now⟩

def updatePaths (user : User) (parentUid : Option String) (input : MemoInput) :
    List String -> Updating -> Request Updating
  | [], state => pure state
  | path :: paths, state => do
      let next ← updatePath backend backend.moment user parentUid input state path
      updatePaths user parentUid input paths next

def updateMemo (name : String) (mask : List String) (input : MemoInput) : Request Unit := do
  let uid ← memoUidOf name
  require (mask ≠ []) ⟨.invalidArgument, "update mask is required"⟩
  let joined ← memoOfUid uid (internal "failed to get memo: ") ⟨.notFound, "memo not found"⟩
  let user ← authenticated userId "failed to get current user"
  require (canModifyMemo user joined.memo) permissionDenied
  let state ← updatePaths backend user joined.parentUid input mask
    { update := { id := joined.memo.id }, memo := joined.memo }
  call (Store.updateMemo state.update) (internal "failed to update memo")
  respond backend joined.memo "failed to build updated memo state"

def touchMemoUpdatedTimestamp (memoId : Nat) : Request Unit :=
  call (Store.updateMemo { id := memoId, updatedTs := some backend.now })
    (internal "failed to update memo timestamp")

def MemoAttachments.setMemoAttachments (order : List Attachment -> List Attachment) (clock : Nat -> Int)
    (userId : Nat) (name : String) (attachments : List String) : Request Unit := do
  let user ← authenticated userId "failed to get current user: "
  let joined ← memoByName name
  require (canModifyMemo user joined.memo) permissionDenied
  setMemoAttachmentsInternal backend order clock user joined.memo attachments
  touchMemoUpdatedTimestamp backend joined.memo.id
  respond backend joined.memo "failed to build updated memo state"

def setMemoAttachments (name : String) (attachments : List String) : Request Unit :=
  MemoAttachments.setMemoAttachments backend byUpdatedTs (fun _ => backend.now) userId name attachments

def setMemoRelations (name : String) (relations : List RelationInput) : Request Unit := do
  let user ← authenticated userId "failed to get current user: "
  let joined ← memoByName name
  require (canModifyMemo user joined.memo) permissionDenied
  setMemoRelationsInternal joined.memo relations
  touchMemoUpdatedTimestamp backend joined.memo.id
  respond backend joined.memo "failed to build updated memo state"

/-! ## Comments and deletion -/

/-- The parent's creator is told about a comment by somebody else. -/
def notifyCommented (comment parent : Memo) (creator : User) : Request Unit :=
  if comment.visibility ≠ .isPrivate ∧ creator.id ≠ parent.creatorId then
    call (createInbox creator.id parent.creatorId (backend.commentMessage comment.id parent.id))
      (internal "failed to create inbox")
  else pure ()

def createMemoComment (name commentId : String) (input : Option MemoInput) : Request Memo := do
  let related ← memoByName name
  let user ← authenticated userId "failed to get user"
  require (¬ (related.memo.visibility = .isPrivate ∧ refusedUnlessSuperUser related.memo user))
    permissionDenied
  let comment ← found input ⟨.invalidArgument, "comment is required"⟩
  let created ← mapError
    (createMemo backend userId commentId { comment with visibility := related.memo.visibility })
    fun _ => ⟨.internal, "failed to create memo"⟩
  let joined ← read (fun db => memoByUid db created.uid) (internal "failed to get memo")
  let memo ← found joined ⟨.internal, "nil memo"⟩
  call (upsertMemoRelation ⟨memo.memo.id, related.memo.id, .comment⟩)
    (internal "failed to create memo relation")
  let owner ← read (fun db => userById db created.creatorId) fun _ =>
    ⟨.invalidArgument, "invalid memo creator"⟩
  let creator ← found owner ⟨.notFound, "memo creator not found"⟩
  notifyCommented backend memo.memo related.memo creator
  return created

/-- The store deletes the memos one by one. -/
def deleteMemos (context : String) : List Nat -> Request Unit
  | [] => pure ()
  | id :: ids => do
      call (Store.deleteMemo backend.storageFault id) (internal context)
      deleteMemos context ids

/-- The direct comments of a memo. -/
def commentIds (db : Database) (memoId : Nat) : List Nat :=
  ((db.relations.filter fun relation =>
    relation.relatedMemoId = memoId ∧ relation.type = .comment).mergeSort
      fun first second => second.memoId ≤ first.memoId).map MemoRelation.memoId

/-- The comments of the memo are deleted first, one level deep. -/
def deleteMemo (name : String) : Request Unit := do
  let joined ← memoByName name fun cause => ⟨.unknown, cause⟩
  let user ← authenticated userId "failed to get current user"
  require (canModifyMemo user joined.memo) permissionDenied
  let _ ← read (fun db => listReactions db name) (internal "failed to list reactions")
  let _ ← read (fun db => listAttachments db joined.memo.id)
    (internal "failed to list attachments")
  let comments ← read (fun db => commentIds db joined.memo.id)
    (internal "failed to list memo comments")
  deleteMemos backend "failed to delete memo comment" comments
  deleteMemos backend "failed to delete memo" [joined.memo.id]

/-! ## Attachments -/

/-- The memo that an upload names. -/
def uploadMemo (user : User) (memoName : Option String) : Request (Option Nat) :=
  match memoName with
  | none => pure none
  | some name => do
      let joined ← memoByName name (internal "failed to find memo: ")
        ⟨.notFound, "memo not found: " ++ name⟩
      require (canModifyMemo user joined.memo) permissionDenied
      return some joined.memo.id

def createAttachment (attachmentId : String) (memoName : Option String) : Request Unit := do
  let user ← authenticated userId "failed to get current user: "
  lift backend.checkUpload id
  let uid ← lift (validateAndGenerateUID backend attachmentId) id
  let memoId ← uploadMemo user memoName
  let _ ← call (Store.createAttachment
      { id := 0, uid := uid, creatorId := user.id, updatedTs := backend.now, memoId := memoId })
    (internal "failed to create attachment: ")
  return ()

/-- The attachment that a name refers to. -/
def attachmentByName (name : String) (select : Attachment -> Bool) : Request Attachment := do
  let uid ← lift (extractAttachmentUIDFromName name) fun cause =>
    ⟨.invalidArgument, "invalid attachment id: " ++ cause⟩
  let row ← read (fun db => db.attachments.find? fun row => row.uid = uid && select row)
    (internal "failed to get attachment: ")
  found row ⟨.notFound, "attachment not found"⟩

/-- Only the file name can be updated, which the model does not have. -/
def updateAttachment (name : String) : Request Unit := do
  let user ← authenticated userId "failed to get current user: "
  let attachment ← attachmentByName name fun _ => true
  require (attachment.creatorId = user.id ∨ isSuperUser user) permissionDenied
  call (Store.updateAttachment { id := attachment.id, updatedTs := some backend.now })
    (internal "failed to update attachment: ")

def deleteAttachment (name : String) : Request Unit := do
  let user ← authenticated userId "failed to get current user: "
  let attachment ← attachmentByName name fun row => row.creatorId = user.id
  call (Store.deleteAttachment backend.storageFault attachment.id)
    (internal "failed to delete attachment: ")

/-- The named attachments, each name once. -/
def namedAttachments (user : User) : List String -> List String -> Request (List Attachment)
  | [], _ => pure []
  | name :: names, seen =>
      if name = "" then throw ⟨.invalidArgument, "attachment name is required"⟩
      else if name ∈ seen then namedAttachments user names seen
      else do
        let attachment ← attachmentByName name fun _ => true
        require (attachment.creatorId = user.id ∨ isSuperUser user) permissionDenied
        let others ← namedAttachments user names (name :: seen)
        return attachment :: others

def maxBatchDeleteAttachments : Nat := 100

/-- The rows are deleted in one transaction, the files after it. -/
def batchDeleteAttachments (names : List String) : Request Unit := do
  let user ← authenticated userId "failed to get current user: "
  require (names ≠ []) ⟨.invalidArgument, "attachment names are required"⟩
  require (names.length ≤ maxBatchDeleteAttachments)
    ⟨.invalidArgument, "too many attachment names; max " ++ toString maxBatchDeleteAttachments⟩
  let attachments ← namedAttachments user names []
  call (Store.deleteAttachments attachments) (internal "failed to delete attachments: ")
  forEach attachments fun attachment =>
    lift (deleteAttachmentStorage backend.storageFault attachment)
      (internal "failed to delete attachments: ")

/-! ## Reactions and shares -/

def upsertMemoReaction (contentId reactionType : String) : Request Unit := do
  let user ← authenticated userId "failed to get current user"
  let joined ← memoByName contentId (internal "failed to get memo: ")
  require (¬ (joined.memo.visibility = .isPrivate ∧ refusedUnlessSuperUser joined.memo user))
    permissionDenied
  let _ ← call (createReaction user.id contentId reactionType)
    (internal "failed to upsert reaction")
  respond backend joined.memo "failed to convert reaction"

def deleteMemoReaction (name : String) : Request Unit := do
  let user ← authenticated userId "failed to get current user: "
  let (_, reactionId) ← lift (extractMemoReactionIDFromName name) fun cause =>
    ⟨.invalidArgument, "invalid reaction name: " ++ cause⟩
  let row ← read (fun db => db.reactions.find? fun reaction => (reaction.id : Int) = reactionId)
    (internal "failed to get reaction")
  let reaction ← found row permissionDenied
  require (reaction.creatorId = user.id ∨ isSuperUser user) permissionDenied
  call (deleteReaction reaction.id) (internal "failed to delete reaction")

/-- The expiry, which must lie in the future. -/
def createMemoShare (parent : String) (expireTime : Option Int) : Request Unit := do
  let user ← authenticated userId "failed to get user"
  let joined ← memoByName parent
  require (canModifyMemo user joined.memo) permissionDenied
  require (expireTime.all fun time => backend.now < time)
    ⟨.invalidArgument, "expire_time must be in the future"⟩
  let _ ← call (Store.createMemoShare backend.generatedShareUid joined.memo.id user.id expireTime)
    (internal "failed to create memo share")
  return ()

def deleteMemoShare (memoUid shareToken : String) : Request Unit := do
  let user ← authenticated userId "failed to get user"
  let row ← read (fun db => memoByUid db memoUid) (internal "failed to get memo")
  let joined ← found row ⟨.notFound, "memo not found"⟩
  require (canModifyMemo user joined.memo) permissionDenied
  let share ← read (fun db => db.shares.find? fun share => share.uid = shareToken)
    (internal "failed to get memo share")
  require (share.any fun share => share.memoId = joined.memo.id)
    ⟨.notFound, "memo share not found"⟩
  call (Store.deleteMemoShare shareToken) (internal "failed to delete memo share")

/-! ## Users -/

/-- The files of the attachments are removed after the commit, which does not
change the tables. -/
def deleteUser (username : String) : Request Unit := do
  let row ← read (fun db => db.users.find? fun user => user.username = username) fun cause =>
    ⟨.invalidArgument, "invalid user name: " ++ cause⟩
  let user ← found row ⟨.notFound, "user not found"⟩
  let current ← authenticated userId "failed to get user: "
  require (current.id = user.id ∨ current.role = .admin) permissionDenied
  let result ← call
    (deleteUserTransaction backend.protojson user.id backend.deleteUserFailpoint)
    (internal "failed to delete user: ")
  forEach result.attachments fun attachment =>
    lift (deleteAttachmentStorage backend.storageFault attachment)
      (internal "user was deleted but attachment storage cleanup failed: ")

end Service
end Memos
