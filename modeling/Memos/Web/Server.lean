import Memos.Filter.Engine
import Memos.Service.Names
import Memos.Web.Dates
import Memos.Web.Zip

namespace Memos
namespace Web

open Library Service
open Filter (trimSpace)
open Store (RowStatus Visibility)

/-!
# The requests of the web client

The part of the server that an export and an import meet: the list of memos,
the upload of attachments and the requests that create a memo or set its
attachments.
-/

/-! ## Tables -/

structure AttachmentRow where
  uid : String
  creatorId : Nat
  filename : String
  type : String
  blob : Bytes
  createdTs : Int
  updatedTs : Int
  memoId : Option Nat := none
  /-- The group of a live photo or a motion photo. -/
  motionGroup : String := ""
  /-- The reference of a file that is kept outside. -/
  externalLink : String := ""
deriving DecidableEq

structure MemoRow where
  id : Nat
  uid : String
  creatorId : Nat
  content : String
  tags : List String
  visibility : Visibility
  pinned : Bool
  rowStatus : RowStatus
  createdTs : Int
  isComment : Bool := false
deriving DecidableEq

structure Tables where
  memos : List MemoRow
  attachments : List AttachmentRow
  /-- The last id of the memo table. -/
  sequence : Nat

structure Account where
  id : Nat
  isSuperUser : Bool

/-- What the server takes from its libraries, its system and its settings. -/
structure Server where
  typeByExtension : String -> String
  detectContentType : Bytes -> String
  parseMediaType : String -> Option String
  /-- Whether a picture has a video inside. -/
  isMotionPhoto : Bytes -> Bool
  stripImageExif : Bytes -> String -> Except String Bytes
  extractTags : String -> List String
  contentLengthLimit : Nat
  uploadSizeLimit : Nat

/-- What a request finds: the time, the uid that is generated, the reference of
a file that is kept outside, and what else goes wrong. -/
structure Moment where
  now : Int
  uid : String
  externalLink : String := ""
  fault : Option String := none
  present : 0 < now ∧ isValid now = true

/-! ## Listing -/

def attachmentNamePrefix : String := "attachments/"

structure AttachmentMessage where
  name : String
  filename : String
  type : String
  createTime : Option Int
  externalLink : String

structure MemoMessage where
  name : String
  /-- The id for the name of the creator. -/
  creator : Nat
  content : String
  visibility : Visibility
  tags : List String
  pinned : Bool
  createTime : Option Int
  attachments : List AttachmentMessage

/-- `convertAttachmentFromStore` -/
def convertAttachment (attachment : AttachmentRow) : AttachmentMessage where
  name := attachmentNamePrefix ++ attachment.uid
  filename := attachment.filename
  type := attachment.type
  createTime := some attachment.createdTs
  externalLink := attachment.externalLink

/-- `ListAttachments` of a memo, the last updated first. -/
def Tables.attachmentsOf (tables : Tables) (memoId : Nat) : List AttachmentRow :=
  (tables.attachments.filter fun attachment => attachment.memoId = some memoId).mergeSort
    fun first second => second.updatedTs ≤ first.updatedTs

/-- `convertMemoFromStore` -/
def Tables.convertMemo (tables : Tables) (memo : MemoRow) : MemoMessage where
  name := buildMemoName memo.uid
  creator := memo.creatorId
  content := memo.content
  visibility := memo.visibility
  tags := memo.tags
  pinned := memo.pinned
  createTime := some memo.createdTs
  attachments := (tables.attachmentsOf memo.id).map convertAttachment

def maxPageSize : Nat := 1000

def listedBefore (first second : MemoRow) : Bool :=
  second.createdTs < first.createdTs || (first.createdTs = second.createdTs && second.id ≤ first.id)

/-- `ListMemos` with a page size of 1000: what is not archived, the newest first. -/
def Tables.listMemos (tables : Tables) (user : Account) : List MemoRow :=
  ((tables.memos.filter fun memo => memo.rowStatus = .normal && !memo.isComment &&
    (memo.creatorId = user.id || memo.visibility ≠ .isPrivate)).mergeSort listedBefore).take maxPageSize

/-! ## Uploading -/

/-- The part of a file name from its last dot on, and what stands before it. -/
def splitExtension (filename : String) : String × String :=
  let reversed := filename.toList.reverse
  if '.' ∈ reversed then
    let ext := (reversed.takeWhile fun c => c ≠ '.').reverse
    (String.ofList (reversed.drop (ext.length + 1)).reverse, String.ofList ('.' :: ext))
  else (filename, "")

/-- `validateFilename`; a name without slashes is local unless it is `..`. -/
def validateFilename (filename : String) : Bool :=
  let chars := filename.toList
  !chars.isEmpty && !chars.any (fun c => c = '/' || c = '\\') &&
    chars.head? ≠ some ' ' && chars.getLast? ≠ some ' ' &&
    chars.head? ≠ some '.' && chars.getLast? ≠ some '.'

def Server.normalizeMimeType (server : Server) (mimeType : String) : Option String :=
  let mimeType := trimSpace mimeType
  if mimeType = "" ∨ 255 < mimeType.utf8ByteSize then none
  else (server.parseMediaType mimeType).filter fun mediaType => mediaType ≠ "" ∧ mediaType.utf8ByteSize ≤ 255

/-- The type of an upload that does not name one. -/
def Server.deriveType (server : Server) (filename : String) (content : Bytes) : Option String :=
  let byExtension := server.typeByExtension (splitExtension filename).2
  let mimeType := if byExtension = "" then server.detectContentType content else byExtension
  let normalized := (server.normalizeMimeType mimeType).getD ""
  server.normalizeMimeType (if normalized = "" then "application/octet-stream" else normalized)

def exifCapableImageTypes : List String :=
  ["image/jpeg", "image/jpg", "image/tiff", "image/webp", "image/heic", "image/heif"]

/-- Whether `detectAndroidMotionMedia` finds a video. -/
def Server.isMotionMedia (server : Server) (type : String) (content : Bytes) : Bool :=
  (type = "image/jpeg" || type = "image/jpg") && server.isMotionPhoto content

/-- What is kept of an upload: pictures lose their metadata. -/
def Server.storedBlob (server : Server) (type : String) (content : Bytes) : Bytes :=
  if type ∈ exifCapableImageTypes ∧ server.isMotionMedia type content = false then
    match server.stripImageExif content type with
    | .ok stripped => stripped
    | .error _ => content
  else content

def insertAttachment (attachment : AttachmentRow) (tables : Tables) : Except String Tables :=
  if tables.attachments.any fun other => other.uid = attachment.uid then
    .error "failed to create attachment: UNIQUE constraint failed: attachment.uid"
  else .ok { tables with attachments := tables.attachments ++ [attachment] }

/-- `CreateAttachment`, which returns the name of the attachment. -/
def createAttachment (server : Server) (moment : Moment) (user : Account) (filename : String)
    (content : Bytes) (createTime : Option Int) (tables : Tables) : Except String (String × Tables) := do
  if let some cause := moment.fault then .error cause
  if filename = "" then .error "filename is required"
  if validateFilename filename = false then .error "filename contains invalid characters or format"
  match server.deriveType filename content with
  | none => .error "invalid MIME type format"
  | some type => do
      if server.uploadSizeLimit < content.length then .error "file size exceeds the limit"
      let createdTs := createTime.getD 0
      let tables ← insertAttachment
        { uid := moment.uid, creatorId := user.id, filename, type, blob := server.storedBlob type content
          createdTs := if 0 < createdTs then createdTs else moment.now, updatedTs := moment.now
          motionGroup := if server.isMotionMedia type content then moment.uid else ""
          externalLink := moment.externalLink } tables
      return (attachmentNamePrefix ++ moment.uid, tables)

/-! ## The attachments of a memo -/

/-- The requested attachments, which the user must own. -/
def requestedAttachments (user : Account) (tables : Tables) : List String -> Except String (List AttachmentRow)
  | [] => .ok []
  | name :: names => do
      let uid ← extractAttachmentUIDFromName name
      match tables.attachments.find? fun attachment => attachment.uid = uid with
      | none => .error ("attachment not found: " ++ uid)
      | some attachment =>
          if attachment.creatorId = user.id ∨ user.isSuperUser then do
            let others ← requestedAttachments user tables names
            return attachment :: others
          else .error "cannot attach another user's attachment"

def isMultiMemberMotionGroup (group : List AttachmentRow) : Bool := 2 ≤ group.length

def allGroupMembersRequested (group requested : List AttachmentRow) : Bool :=
  group.all fun attachment => requested.any fun other => other.uid = attachment.uid

def inGroup (group : String) (attachments : List AttachmentRow) : List AttachmentRow :=
  attachments.filter fun attachment => attachment.motionGroup = group

/-- Append the attachments whose uids are not there yet. -/
def appendAttachments (normalized : List AttachmentRow) : List AttachmentRow -> List AttachmentRow
  | [] => normalized
  | attachment :: rest =>
      if normalized.any fun other => other.uid = attachment.uid then appendAttachments normalized rest
      else appendAttachments (normalized ++ [attachment]) rest

/-- The loop over the requested attachments.  A motion group is appended as a
whole, or not at all when the request leaves out one of its current members. -/
def normalizeAttachments (current requested : List AttachmentRow) :
    List AttachmentRow -> List AttachmentRow -> List String -> List AttachmentRow
  | [], normalized, _ => normalized
  | attachment :: rest, normalized, groups =>
      let group := attachment.motionGroup
      if group = "" then
        normalizeAttachments current requested rest (appendAttachments normalized [attachment]) groups
      else if group ∈ groups then normalizeAttachments current requested rest normalized groups
      else if isMultiMemberMotionGroup (inGroup group current) ∧
          allGroupMembersRequested (inGroup group current) (inGroup group requested) = false then
        normalizeAttachments current requested rest normalized (group :: groups)
      else
        normalizeAttachments current requested rest
          (appendAttachments normalized (inGroup group requested)) (group :: groups)

/-- Delete the attachments that are not requested any more. -/
def deleteAttachments (user : Account) : List AttachmentRow -> Tables -> Except String Unit × Tables
  | [], tables => (.ok (), tables)
  | attachment :: rest, tables =>
      if attachment.creatorId = user.id ∨ user.isSuperUser then
        deleteAttachments user rest
          { tables with attachments := tables.attachments.filter fun other => other.uid ≠ attachment.uid }
      else (.error "cannot remove another user's attachment", tables)

/-- Link the attachments, of which the last one counts as updated first. -/
def linkAttachments (now : Int) (memoId : Nat) (normalized : List AttachmentRow) (tables : Tables) : Tables :=
  { tables with
    attachments := tables.attachments.map fun attachment =>
      match (normalized.reverse.map AttachmentRow.uid).idxOf? attachment.uid with
      | some index => { attachment with memoId := some memoId, updatedTs := now + index }
      | none => attachment }

/-- The limit that `ListAttachments` sets when it is asked for one memo. -/
def defaultAttachmentLimit : Nat := 100

/-- The attachments that a memo is found to have. -/
def Tables.currentAttachments (tables : Tables) (memoId : Nat) : List AttachmentRow :=
  (tables.attachmentsOf memoId).take defaultAttachmentLimit

/-- `setMemoAttachmentsInternal` -/
def setMemoAttachments (moment : Moment) (user : Account) (memoId : Nat) (names : List String)
    (tables : Tables) : Except String Unit × Tables :=
  let current := tables.currentAttachments memoId
  match requestedAttachments user tables names with
  | .error cause => (.error cause, tables)
  | .ok requested =>
      let normalized := normalizeAttachments current requested requested [] []
      let dropped := current.filter fun attachment =>
        !normalized.any fun other => other.uid = attachment.uid
      match deleteAttachments user dropped tables with
      | (.error cause, tables) => (.error cause, tables)
      | (.ok (), tables) => (.ok (), linkAttachments moment.now memoId normalized tables)

/-! ## Memos -/

/-- `CreateMemo`: the pinned flag, the state, the tags and the creator of the
request are not looked at. -/
def createMemo (server : Server) (moment : Moment) (user : Account) (content : String) (visibility : Visibility)
    (createTime : Option Int) (attachments : List String) (tables : Tables) : Except String Unit × Tables :=
  match moment.fault with
  | some cause => (.error cause, tables)
  | none =>
      if server.contentLengthLimit < content.utf8ByteSize then
        (.error ("content too long (max " ++ toString server.contentLengthLimit ++ " characters)"), tables)
      else if tables.memos.any fun other => other.uid = moment.uid then
        (.error ("memo with ID \"" ++ moment.uid ++ "\" already exists"), tables)
      else
        let createdTs := (createTime.filter isValid).getD 0
        let memo : MemoRow :=
          { id := tables.sequence + 1, uid := moment.uid, creatorId := user.id, content
            tags := server.extractTags content, visibility, pinned := false, rowStatus := .normal
            createdTs := if createdTs ≠ 0 then createdTs else moment.now }
        let created := { tables with memos := tables.memos ++ [memo], sequence := tables.sequence + 1 }
        if attachments.isEmpty then (.ok (), created)
        else setMemoAttachments moment user memo.id attachments created

/-- `UpdateMemo` with the attachments alone. -/
def updateMemoAttachments (moment : Moment) (user : Account) (name : String) (attachments : List String)
    (tables : Tables) : Except String Unit × Tables :=
  match moment.fault with
  | some cause => (.error cause, tables)
  | none =>
      match extractMemoUIDFromName name with
      | .error cause => (.error ("invalid memo name: " ++ cause), tables)
      | .ok uid =>
          match tables.memos.find? fun memo => memo.uid = uid with
          | none => (.error "memo not found", tables)
          | some memo =>
              if memo.creatorId = user.id ∨ user.isSuperUser then
                setMemoAttachments moment user memo.id attachments tables
              else (.error "permission denied", tables)

end Web
end Memos
