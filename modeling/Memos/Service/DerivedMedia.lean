import Memos.Service.Runs

namespace Memos
namespace Service
namespace DerivedMedia

open Library Memos.Filter Store

/-!
# Thumbnails and motion clips

The file server derives thumbnails and motion clips from attachments and keeps
them as files named after the uid of the attachment.  Deleting an attachment
removes its derived files, but the thumbnail under another name than the one
the file server gave it.  What was derived from a deleted attachment is then
served for a later one with the same uid.
-/

/-! ## Attachments and derived files -/

abbrev Blob := List UInt8

inductive AttachmentStorageType where
  | unspecified
  | «local»
  | s3
deriving DecidableEq

/-- `MotionMedia` of the payload. -/
structure MotionMedia where
  family : String
  groupId : String
  hasEmbeddedVideo : Bool
deriving DecidableEq

structure MediaAttachment where
  id : Nat
  uid : String
  creatorId : Nat
  type : String
  storageType : AttachmentStorageType
  motionMedia : Option MotionMedia
  content : Blob
deriving DecidableEq

/-- A derived file, with the attachment it was derived from. -/
structure DerivedFile where
  blob : Blob
  source : MediaAttachment
deriving DecidableEq

structure MediaState where
  attachments : List MediaAttachment := []
  cache : String -> Option DerivedFile := fun _ => none
  /-- The last id of the attachment table. -/
  sequence : Nat := 0

/-- The image library, the probe for metadata and the extraction of videos. -/
structure MediaCodec where
  thumbnail : Blob -> Option Blob
  hasThumbnailSensitiveMetadata : String -> Blob -> Bool
  extractVideo : Blob -> Blob

def attachmentByUid (state : MediaState) (uid : String) : Option MediaAttachment :=
  state.attachments.find? fun attachment => attachment.uid = uid

/-! ## Serving -/

def thumbnailCacheFolder : String := ".thumbnail_cache"
def motionCacheFolder : String := ".motion_cache"

/-- `getThumbnailPath`, below the data directory. -/
def getThumbnailPath (uid : String) : String := thumbnailCacheFolder ++ "/" ++ uid ++ ".v2.jpeg"

/-- `getMotionPath` -/
def getMotionPath (uid : String) : String := motionCacheFolder ++ "/" ++ uid ++ ".mp4"

/-- What may go wrong while a file is served. -/
structure ServeFaults where
  unreadable : Bool := false
  busy : Bool := false
  unwritable : Bool := false
  /-- What has been written of a file when writing fails. -/
  truncated : Option Blob := none

def MediaState.store (state : MediaState) (path : String) (file : DerivedFile) : MediaState :=
  { state with cache := Function.update state.cache path (some file) }

/-- `shouldUseOriginalForThumbnail` -/
def shouldUseOriginalForThumbnail (codec : MediaCodec) (faults : ServeFaults)
    (attachment : MediaAttachment) : Except String Bool :=
  if attachment.type = "image/heic" ∨ attachment.type = "image/heif" then .ok true
  else if attachment.type ∉ ["image/jpeg", "image/jpg", "image/png", "image/webp"] then .ok false
  else if faults.unreadable then .error "failed to open image for metadata probe"
  else .ok (codec.hasThumbnailSensitiveMetadata attachment.type attachment.content)

/-- `generateThumbnail` -/
def generateThumbnail (codec : MediaCodec) (faults : ServeFaults) (state : MediaState)
    (attachment : MediaAttachment) (thumbnailPath : String) :
    Except String DerivedFile × MediaState :=
  if faults.unreadable then (.error "failed to get attachment reader", state)
  else
    match codec.thumbnail attachment.content with
    | none => (.error "failed to decode image", state)
    | some blob =>
        if faults.unwritable then (.error "failed to create thumbnail file", state)
        else
          match faults.truncated with
          | some part => (.error "failed to save thumbnail", state.store thumbnailPath ⟨part, attachment⟩)
          | none => (.ok ⟨blob, attachment⟩, state.store thumbnailPath ⟨blob, attachment⟩)

/-- `getOrGenerateThumbnail`: the cached thumbnail, if there is one. -/
def getOrGenerateThumbnail (codec : MediaCodec) (faults : ServeFaults) (state : MediaState)
    (attachment : MediaAttachment) : Except String DerivedFile × MediaState :=
  let thumbnailPath := getThumbnailPath attachment.uid
  match state.cache thumbnailPath with
  | some file => (.ok file, state)
  | none =>
      match shouldUseOriginalForThumbnail codec faults attachment with
      | .error cause => (.error cause, state)
      | .ok true => (.error "serve original image instead of metadata-stripping thumbnail", state)
      | .ok false =>
          if faults.busy then (.error "failed to acquire semaphore", state)
          else generateThumbnail codec faults state attachment thumbnailPath

/-- `getOrExtractMotionClip` -/
def getOrExtractMotionClip (codec : MediaCodec) (faults : ServeFaults) (state : MediaState)
    (attachment : MediaAttachment) : Except String DerivedFile × MediaState :=
  let motionPath := getMotionPath attachment.uid
  match state.cache motionPath with
  | some file => (.ok file, state)
  | none =>
      if faults.unreadable then (.error "failed to read file", state)
      else
        let videoBlob := codec.extractVideo attachment.content
        if videoBlob.isEmpty then (.error "motion video not found", state)
        else if faults.unwritable then (.error "failed to cache motion clip", state)
        else
          match faults.truncated with
          | some part => (.error "failed to cache motion clip", state.store motionPath ⟨part, attachment⟩)
          | none => (.ok ⟨videoBlob, attachment⟩, state.store motionPath ⟨videoBlob, attachment⟩)

inductive Served where
  | thumbnail (file : DerivedFile)
  | motion (file : DerivedFile)
  | original (attachment : MediaAttachment)
  | error (status : Nat) (message : String)
deriving DecidableEq

/-- `thumbnailSupportedTypes` -/
def thumbnailSupportedTypes : List String :=
  ["image/png", "image/jpeg", "image/jpg", "image/heic", "image/heif", "image/webp"]

def isMediaType (mimeType : String) : Bool :=
  "video/".toList.isPrefixOf mimeType.toList || "audio/".toList.isPrefixOf mimeType.toList

/-- The attachment itself. -/
def serveOriginal (faults : ServeFaults) (attachment : MediaAttachment) : Served :=
  if faults.unreadable then .error 500 "failed to resolve file path" else .original attachment

/-- `serveMotionClip` -/
def serveMotionClip (codec : MediaCodec) (faults : ServeFaults) (state : MediaState)
    (attachment : MediaAttachment) : Served × MediaState :=
  match attachment.motionMedia with
  | none => (.error 400 "attachment does not have motion clip", state)
  | some motionMedia =>
      if motionMedia.family ≠ "ANDROID_MOTION_PHOTO" ∨ motionMedia.hasEmbeddedVideo = false then
        (.error 400 "attachment does not have motion clip", state)
      else
        match getOrExtractMotionClip codec faults state attachment with
        | (.error _, after) => (.error 500 "failed to get motion clip", after)
        | (.ok file, after) => (.motion file, after)

/-- `serveStaticFile` -/
def serveStaticFile (codec : MediaCodec) (faults : ServeFaults) (state : MediaState)
    (attachment : MediaAttachment) (wantThumbnail : Bool) : Served × MediaState :=
  if wantThumbnail ∧ attachment.type ∈ thumbnailSupportedTypes then
    match getOrGenerateThumbnail codec faults state attachment with
    | (.error _, after) => (serveOriginal faults attachment, after)
    | (.ok file, after) => (.thumbnail file, after)
  else (serveOriginal faults attachment, state)

/-- A request to the file server, with the outcome of
`checkAttachmentPermission`. -/
structure ServeRequest where
  uid : String
  wantThumbnail : Bool := false
  wantMotion : Bool := false
  refused : Option (Nat × String) := none
  faults : ServeFaults := {}

/-- `serveAttachmentFile` -/
def serveAttachmentFile (codec : MediaCodec) (state : MediaState) (request : ServeRequest) :
    Served × MediaState :=
  match attachmentByUid state request.uid with
  | none => (.error 404 "attachment not found", state)
  | some attachment =>
      match request.refused with
      | some (status, message) => (.error status message, state)
      | none =>
          if request.wantMotion then serveMotionClip codec request.faults state attachment
          else if isMediaType attachment.type then
            (serveOriginal request.faults attachment, state)
          else serveStaticFile codec request.faults state attachment request.wantThumbnail

/-! ## Creating and deleting -/

/-- A request to create an attachment, with what the service takes from
outside: the generated uid and the checks on the upload. -/
structure CreateRequest where
  backend : Backend
  attachmentId : String := ""
  creatorId : Nat
  type : String
  storageType : AttachmentStorageType := .unspecified
  motionMedia : Option MotionMedia := none
  content : Blob
  /-- Whether the blob cannot be saved. -/
  unsaved : Bool := false

/-- The row of a new attachment. -/
def newAttachment (state : MediaState) (request : CreateRequest) (uid : String) : MediaAttachment where
  id := state.sequence + 1
  uid := uid
  creatorId := request.creatorId
  type := request.type
  storageType := request.storageType
  motionMedia := request.motionMedia
  content := request.content

/-- `CreateAttachment`: the uid must not be taken. -/
def createAttachment (state : MediaState) (request : CreateRequest) :
    Except Status MediaAttachment × MediaState :=
  match request.backend.checkUpload with
  | .error status => (.error status, state)
  | .ok () =>
      match validateAndGenerateUID request.backend request.attachmentId with
      | .error status => (.error status, state)
      | .ok uid =>
          if request.unsaved then (.error ⟨.internal, "failed to save attachment blob"⟩, state)
          else if !uidMatches uid || (attachmentByUid state uid).isSome then
            (.error ⟨.internal, "failed to create attachment"⟩, state)
          else
            let attachment := newAttachment state request uid
            (.ok attachment, { state with
              attachments := state.attachments ++ [attachment], sequence := attachment.id })

/-- What may go wrong while attachments are deleted. -/
structure DeleteFaults where
  /-- Whether the storage of an attachment cannot be deleted. -/
  storage : MediaAttachment -> Bool := fun _ => false
  /-- Whether a file cannot be removed. -/
  remove : String -> Bool := fun _ => false
  /-- Whether the rows cannot be deleted. -/
  rows : Bool := false

/-- The files that `deleteAttachmentDerivedCaches` removes. -/
def derivedCachePaths (uid : String) : List String :=
  [thumbnailCacheFolder ++ "/" ++ uid ++ ".jpeg", motionCacheFolder ++ "/" ++ uid ++ ".mp4"]

def deleteAttachmentDerivedCaches (faults : DeleteFaults) (state : MediaState)
    (attachment : MediaAttachment) : MediaState :=
  { state with cache := fun path =>
      if path ∈ derivedCachePaths attachment.uid ∧ faults.remove path = false then none
      else state.cache path }

/-- `deleteAttachmentStorageImpl`: the derived files stay when the storage
cannot be deleted. -/
def deleteAttachmentStorageImpl (faults : DeleteFaults) (state : MediaState)
    (attachment : MediaAttachment) : Except String Unit × MediaState :=
  if attachment.storageType ≠ .unspecified ∧ faults.storage attachment then
    (.error (if attachment.storageType = .local then "failed to delete local file"
      else "Failed to delete s3 object"), state)
  else (.ok (), deleteAttachmentDerivedCaches faults state attachment)

def MediaState.deleteRows (state : MediaState) (deleted : MediaAttachment -> Bool) : MediaState :=
  { state with attachments := state.attachments.filter fun attachment => !deleted attachment }

/-- `DeleteAttachment` of the store: first the storage, then the row.  Only
the failure to delete a local file stops it. -/
def deleteAttachment (faults : DeleteFaults) (state : MediaState) (id : Nat) :
    Except String Unit × MediaState :=
  match state.attachments.find? fun attachment => attachment.id = id with
  | none => (.error "attachment not found", state)
  | some attachment =>
      match deleteAttachmentStorageImpl faults state attachment with
      | (.error cause, after) =>
          if attachment.storageType = .local then (.error cause, after)
          else if faults.rows then (.error "failed to delete attachment", after)
          else (.ok (), after.deleteRows fun other => other.id = id)
      | (.ok (), after) =>
          if faults.rows then (.error "failed to delete attachment", after)
          else (.ok (), after.deleteRows fun other => other.id = id)

/-- The storages of deleted attachments; `stops` says whether the failure to
delete a local file ends the loop. -/
def deleteStorages (faults : DeleteFaults) (stops : Bool) :
    MediaState -> List MediaAttachment -> Except String Unit × MediaState
  | state, [] => (.ok (), state)
  | state, attachment :: rest =>
      match deleteAttachmentStorageImpl faults state attachment with
      | (.error cause, after) =>
          if stops ∧ attachment.storageType = .local then (.error cause, after)
          else deleteStorages faults stops after rest
      | (.ok (), after) => deleteStorages faults stops after rest

/-- `DeleteAttachments` of the store: first the rows, then the storages. -/
def deleteAttachments (faults : DeleteFaults) (state : MediaState) (ids : List Nat) :
    Except String Unit × MediaState :=
  if faults.rows then (.error "failed to delete attachments", state)
  else
    deleteStorages faults true (state.deleteRows fun attachment => attachment.id ∈ ids)
      (state.attachments.filter fun attachment => attachment.id ∈ ids)

/-- The part of `DeleteUser` that deletes the attachments of a user. -/
def deleteUserAttachments (faults : DeleteFaults) (state : MediaState) (userId : Nat) :
    Except String Unit × MediaState :=
  if faults.rows then (.error "failed to delete user", state)
  else
    deleteStorages faults false (state.deleteRows fun attachment => attachment.creatorId = userId)
      (state.attachments.filter fun attachment => attachment.creatorId = userId)

/-! ## Runs -/

inductive MediaOperation where
  | create (request : CreateRequest)
  | serve (request : ServeRequest)
  | delete (faults : DeleteFaults) (id : Nat)
  | deleteAll (faults : DeleteFaults) (ids : List Nat)
  | deleteUser (faults : DeleteFaults) (userId : Nat)

def perform (codec : MediaCodec) (state : MediaState) : MediaOperation -> MediaState
  | .create request => (createAttachment state request).2
  | .serve request => (serveAttachmentFile codec state request).2
  | .delete faults id => (deleteAttachment faults state id).2
  | .deleteAll faults ids => (deleteAttachments faults state ids).2
  | .deleteUser faults userId => (deleteUserAttachments faults state userId).2

/-- The state after a run of a new installation. -/
def runMedia (codec : MediaCodec) (operations : List MediaOperation) : MediaState :=
  operations.foldl (perform codec) {}

/-- Every derived file that the file server returns for a uid was derived from
the attachment that has it now. -/
def ServesOwn (codec : MediaCodec) (state : MediaState) : Prop :=
  forall request file,
    (serveAttachmentFile codec state request).1 = .thumbnail file ∨
      (serveAttachmentFile codec state request).1 = .motion file ->
    attachmentByUid state request.uid = some file.source

/-- The new attachment gets the uid. -/
structure Accepts (state : MediaState) (request : CreateRequest) (uid : String) : Prop where
  uploaded : request.backend.checkUpload = .ok ()
  named : validateAndGenerateUID request.backend request.attachmentId = .ok uid
  saved : request.unsaved = false
  wellFormed : uidMatches uid = true
  free : attachmentByUid state uid = none

def HasThumbnail (attachment : MediaAttachment) : Prop :=
  attachment.type ∈ thumbnailSupportedTypes

def HasMotionClip (attachment : MediaAttachment) : Prop :=
  Exists fun motionMedia => attachment.motionMedia = some motionMedia ∧
    motionMedia.family = "ANDROID_MOTION_PHOTO" ∧ motionMedia.hasEmbeddedVideo = true

/-- A new attachment finds no derived file under its uid that the file server
would serve for it. -/
def FindsNothing (state : MediaState) : MediaOperation -> Prop
  | .create request => forall uid, Accepts state request uid ->
      (HasThumbnail (newAttachment state request uid) ->
        state.cache (getThumbnailPath uid) = none) ∧
      (HasMotionClip (newAttachment state request uid) -> state.cache (getMotionPath uid) = none)
  | _ => True

/-- Every step of the run meets the condition. -/
def Tidy (codec : MediaCodec) : MediaState -> List MediaOperation -> Prop
  | _, [] => True
  | state, operation :: rest =>
      FindsNothing state operation ∧ Tidy codec (perform codec state operation) rest

/-! ## Paths -/

/-- How the derived files of an attachment are named. -/
def Names (naming : String -> String) (attachment : MediaAttachment) : Prop :=
  naming = getThumbnailPath ∧ HasThumbnail attachment ∨
    naming = getMotionPath ∧ HasMotionClip attachment

/-- Derived files of different uids have different names. -/
theorem Names.uid_eq {naming other : String -> String} {first second : MediaAttachment}
    (names : Names naming first) (otherNames : Names other second)
    (same : naming first.uid = other second.uid) : first.uid = second.uid := by
  have folders (first second : String) : getThumbnailPath first ≠ getMotionPath second := by
    intro same
    have letters := congrArg (fun path => path.toList[1]?) same
    simp [getThumbnailPath, getMotionPath, thumbnailCacheFolder, motionCacheFolder] at letters
  rcases names with ⟨rfl, -⟩ | ⟨rfl, -⟩
  · rcases otherNames with ⟨rfl, -⟩ | ⟨rfl, -⟩
    · simpa [getThumbnailPath] using same
    · exact absurd same (folders _ _)
  · rcases otherNames with ⟨rfl, -⟩ | ⟨rfl, -⟩
    · exact absurd same.symm (folders _ _)
    · simpa [getMotionPath] using same

variable {codec : MediaCodec} {state after : MediaState}

variable {uid : String} {attachment : MediaAttachment}

theorem attachmentByUid_eq_some (found : attachmentByUid state uid = some attachment) :
    attachment ∈ state.attachments ∧ attachment.uid = uid :=
  ⟨List.mem_of_find?_eq_some found, by simpa using List.find?_some found⟩

theorem attachmentByUid_eq_none (missing : attachmentByUid state uid = none) (member : attachment ∈ state.attachments) :
    attachment.uid ≠ uid := by
  intro same
  have different := List.find?_eq_none.mp missing attachment member
  exact different (by simpa using same)

/-! ## What a request can do -/

/-- A derived file is the one that was kept, or it is new and kept. -/
structure Gets (state : MediaState) (naming : String -> String) (attachment : MediaAttachment)
    (outcome : Except String DerivedFile × MediaState) : Prop where
  kept : outcome.2 = state ∨ Exists fun blob =>
    outcome.2 = state.store (naming attachment.uid) ⟨blob, attachment⟩
  file : forall file, outcome.1 = .ok file ->
    state.cache (naming attachment.uid) = some file ∨ file.source = attachment

section Gets
variable {faults : ServeFaults} {attachment : MediaAttachment} {naming : String -> String}

theorem Gets.failed (cause : String) : Gets state naming attachment (.error cause, state) :=
  ⟨.inl rfl, fun _ impossible => by cases impossible⟩

theorem Gets.cached {file : DerivedFile} (cached : state.cache (naming attachment.uid) = some file) :
    Gets state naming attachment (.ok file, state) := by
  refine ⟨.inl rfl, fun other same => .inl ?_⟩
  cases same
  exact cached

/-- Writing ends early, or the whole file is there. -/
theorem Gets.written (cause : String) (truncated : Option Blob) (blob : Blob) :
    Gets state naming attachment
      (match truncated with
      | some part => (.error cause, state.store (naming attachment.uid) ⟨part, attachment⟩)
      | none => (.ok ⟨blob, attachment⟩, state.store (naming attachment.uid) ⟨blob, attachment⟩)) := by
  cases truncated with
  | some part => exact ⟨.inr ⟨part, rfl⟩, fun _ impossible => by cases impossible⟩
  | none =>
      refine ⟨.inr ⟨blob, rfl⟩, fun other same => .inr ?_⟩
      cases same
      rfl

theorem getOrGenerateThumbnail_gets : Gets state getThumbnailPath attachment
    (getOrGenerateThumbnail codec faults state attachment) := by
  unfold getOrGenerateThumbnail
  dsimp only
  cases cached : state.cache (getThumbnailPath attachment.uid) with
  | some file => exact Gets.cached cached
  | none =>
      dsimp only
      split
      · exact Gets.failed _
      · exact Gets.failed _
      · split
        · exact Gets.failed _
        · unfold generateThumbnail
          split
          · exact Gets.failed _
          · split
            · exact Gets.failed _
            · split
              · exact Gets.failed _
              · exact Gets.written _ _ _

theorem getOrExtractMotionClip_gets : Gets state getMotionPath attachment
    (getOrExtractMotionClip codec faults state attachment) := by
  unfold getOrExtractMotionClip
  dsimp only
  cases cached : state.cache (getMotionPath attachment.uid) with
  | some file => exact Gets.cached cached
  | none =>
      dsimp only
      split
      · exact Gets.failed _
      · split
        · exact Gets.failed _
        · split
          · exact Gets.failed _
          · exact Gets.written _ _ _

end Gets

/-- A served file that is derived from an attachment. -/
def Served.IsDerived (served : Served) (file : DerivedFile) : Prop :=
  served = .thumbnail file ∨ served = .motion file

theorem Served.error_notDerived (status : Nat) (message : String) (file : DerivedFile) :
    ¬ (Served.error status message).IsDerived file := by
  rintro (impossible | impossible) <;> cases impossible

theorem serveOriginal_notDerived (faults : ServeFaults) (attachment : MediaAttachment)
    (file : DerivedFile) : ¬ (serveOriginal faults attachment).IsDerived file := by
  unfold serveOriginal
  split
  · exact Served.error_notDerived _ _ _
  · rintro (impossible | impossible) <;> cases impossible

/-- What serving an attachment can do: a derived file of it is kept, and what
is served was kept under one of its names or is derived from it. -/
structure Serves (state : MediaState) (attachment : MediaAttachment) (outcome : Served × MediaState) :
    Prop where
  kept : outcome.2 = state ∨ Exists fun naming => Names naming attachment ∧ Exists fun blob =>
    outcome.2 = state.store (naming attachment.uid) ⟨blob, attachment⟩
  derived : forall file, outcome.1.IsDerived file -> Exists fun naming =>
    Names naming attachment ∧
      (state.cache (naming attachment.uid) = some file ∨ file.source = attachment)

section Serves
variable {attachment : MediaAttachment} {naming : String -> String}

theorem Serves.underived {served : Served} (underived : forall file, ¬ served.IsDerived file) :
    Serves state attachment (served, state) :=
  ⟨.inl rfl, fun file derived => absurd derived (underived file)⟩

theorem Gets.serves {reply : Except String DerivedFile} (gets : Gets state naming attachment (reply, after))
    (names : Names naming attachment) {served : Served}
    (replies : forall file, served.IsDerived file -> reply = .ok file) :
    Serves state attachment (served, after) where
  kept := gets.kept.imp_right fun stored => ⟨naming, names, stored⟩
  derived := fun file derived => ⟨naming, names, gets.file file (replies file derived)⟩

theorem serveMotionClip_serves (faults : ServeFaults) :
    Serves state attachment (serveMotionClip codec faults state attachment) := by
  unfold serveMotionClip
  split
  · exact Serves.underived (Served.error_notDerived _ _)
  · rename_i motionMedia media
    split
    · exact Serves.underived (Served.error_notDerived _ _)
    · rename_i clip
      simp only [not_or, ne_eq, not_not, Bool.not_eq_false] at clip
      have names : Names getMotionPath attachment := .inr ⟨rfl, motionMedia, media, clip⟩
      have gets : Gets state getMotionPath attachment
          (getOrExtractMotionClip codec faults state attachment) := getOrExtractMotionClip_gets
      split
      · rename_i outcome
        rw [outcome] at gets
        exact gets.serves names fun file derived =>
          absurd derived (Served.error_notDerived _ _ file)
      · rename_i outcome
        rw [outcome] at gets
        refine gets.serves names ?_
        rintro other (impossible | same)
        · cases impossible
        · cases same
          rfl

theorem serveStaticFile_serves (faults : ServeFaults) (wantThumbnail : Bool) :
    Serves state attachment (serveStaticFile codec faults state attachment wantThumbnail) := by
  unfold serveStaticFile
  split
  · rename_i supported
    have names : Names getThumbnailPath attachment := .inl ⟨rfl, supported.2⟩
    have gets : Gets state getThumbnailPath attachment
        (getOrGenerateThumbnail codec faults state attachment) := getOrGenerateThumbnail_gets
    split
    · rename_i outcome
      rw [outcome] at gets
      exact gets.serves names fun file derived =>
        absurd derived (serveOriginal_notDerived _ _ file)
    · rename_i outcome
      rw [outcome] at gets
      refine gets.serves names ?_
      rintro other (same | impossible)
      · cases same
        rfl
      · cases impossible
  · exact Serves.underived (serveOriginal_notDerived _ _)

end Serves

theorem serveAttachmentFile_serves {request : ServeRequest}
    (found : attachmentByUid state request.uid = some attachment) :
    Serves state attachment (serveAttachmentFile codec state request) := by
  unfold serveAttachmentFile
  rw [found]
  dsimp only
  split
  · exact Serves.underived (Served.error_notDerived _ _)
  · split
    · exact serveMotionClip_serves _
    · split
      · exact Serves.underived (serveOriginal_notDerived _ _)
      · exact serveStaticFile_serves _ _

theorem serveAttachmentFile_missing {request : ServeRequest}
    (missing : attachmentByUid state request.uid = none) :
    serveAttachmentFile codec state request = (.error 404 "attachment not found", state) := by
  unfold serveAttachmentFile
  rw [missing]

/-- Creating an attachment fails, or the attachment gets the uid. -/
theorem createAttachment_cases (state : MediaState) (request : CreateRequest) :
    (createAttachment state request).2 = state ∨ Exists fun uid => Accepts state request uid ∧
      (createAttachment state request).2 = { state with
        attachments := state.attachments ++ [newAttachment state request uid]
        sequence := state.sequence + 1 } := by
  unfold createAttachment
  split
  · exact .inl rfl
  · rename_i uploaded
    split
    · exact .inl rfl
    · rename_i uid named
      split
      · exact .inl rfl
      · rename_i saved
        split
        · exact .inl rfl
        · rename_i free
          simp only [Bool.or_eq_true, not_or, Bool.not_eq_true, Bool.not_eq_true',
            Bool.not_eq_false, Option.isSome_eq_false_iff, Option.isNone_iff_eq_none] at free saved
          exact .inr ⟨uid, ⟨uploaded, named, saved, free.1, free.2⟩, rfl⟩

theorem createAttachment_accepted {request : CreateRequest} (accepts : Accepts state request uid) :
    (createAttachment state request).2 = { state with
      attachments := state.attachments ++ [newAttachment state request uid]
      sequence := state.sequence + 1 } := by
  unfold createAttachment
  rw [accepts.uploaded]
  dsimp only
  rw [accepts.named]
  dsimp only
  rw [if_neg (by rw [accepts.saved]; exact Bool.false_ne_true),
    if_neg (by rw [accepts.wellFormed, accepts.free]; exact Bool.false_ne_true)]
  rfl

/-- Attachments and files may be gone, but none is new. -/
structure Shrinks (state after : MediaState) : Prop where
  attachments : after.attachments.Sublist state.attachments
  cache : forall path file, after.cache path = some file -> state.cache path = some file
  sequence : after.sequence = state.sequence

theorem Shrinks.refl (state : MediaState) : Shrinks state state :=
  ⟨List.Sublist.refl _, fun _ _ cached => cached, rfl⟩

theorem Shrinks.trans {middle : MediaState} (first : Shrinks state middle)
    (second : Shrinks middle after) : Shrinks state after :=
  ⟨second.attachments.trans first.attachments,
    fun path file cached => first.cache path file (second.cache path file cached),
    second.sequence.trans first.sequence⟩

theorem deleteAttachmentStorageImpl_shrinks (faults : DeleteFaults) (state : MediaState)
    (attachment : MediaAttachment) :
    Shrinks state (deleteAttachmentStorageImpl faults state attachment).2 := by
  unfold deleteAttachmentStorageImpl
  split
  · exact Shrinks.refl state
  · refine ⟨List.Sublist.refl _, fun path file cached => ?_, rfl⟩
    change (if path ∈ derivedCachePaths attachment.uid ∧ faults.remove path = false then none
      else state.cache path) = some file at cached
    split at cached
    · cases cached
    · exact cached

theorem deleteRows_shrinks (state : MediaState) (deleted : MediaAttachment -> Bool) :
    Shrinks state (state.deleteRows deleted) :=
  ⟨List.filter_sublist, fun _ _ cached => cached, rfl⟩

theorem deleteAttachment_shrinks (faults : DeleteFaults) (state : MediaState) (id : Nat) :
    Shrinks state (deleteAttachment faults state id).2 := by
  unfold deleteAttachment
  split
  · exact Shrinks.refl state
  · rename_i attachment _
    have storage := deleteAttachmentStorageImpl_shrinks faults state attachment
    split
    · rename_i outcome
      rw [outcome] at storage
      split
      · exact storage
      · split
        · exact storage
        · exact storage.trans (deleteRows_shrinks _ _)
    · rename_i outcome
      rw [outcome] at storage
      split
      · exact storage
      · exact storage.trans (deleteRows_shrinks _ _)

theorem deleteStorages_shrinks (faults : DeleteFaults) (stops : Bool)
    (attachments : List MediaAttachment) (state : MediaState) :
    Shrinks state (deleteStorages faults stops state attachments).2 := by
  induction attachments generalizing state with
  | nil => exact Shrinks.refl state
  | cons attachment rest ih =>
      have storage := deleteAttachmentStorageImpl_shrinks faults state attachment
      unfold deleteStorages
      split
      · rename_i outcome
        rw [outcome] at storage
        split
        · exact storage
        · exact storage.trans (ih _)
      · rename_i outcome
        rw [outcome] at storage
        exact storage.trans (ih _)

theorem deleteAttachments_shrinks (faults : DeleteFaults) (state : MediaState) (ids : List Nat) :
    Shrinks state (deleteAttachments faults state ids).2 := by
  unfold deleteAttachments
  split
  · exact Shrinks.refl state
  · exact (deleteRows_shrinks _ _).trans (deleteStorages_shrinks _ _ _ _)

theorem deleteUserAttachments_shrinks (faults : DeleteFaults) (state : MediaState) (userId : Nat) :
    Shrinks state (deleteUserAttachments faults state userId).2 := by
  unfold deleteUserAttachments
  split
  · exact Shrinks.refl state
  · exact (deleteRows_shrinks _ _).trans (deleteStorages_shrinks _ _ _ _)

/-- What one operation can do. -/
theorem perform_cases (codec : MediaCodec) (state : MediaState) (operation : MediaOperation) :
    Shrinks state (perform codec state operation) ∨
    (Exists fun attachment => attachment ∈ state.attachments ∧ Exists fun naming =>
      Names naming attachment ∧ Exists fun blob =>
        perform codec state operation = state.store (naming attachment.uid) ⟨blob, attachment⟩) ∨
    Exists fun request => operation = .create request ∧ Exists fun uid =>
      Accepts state request uid ∧ perform codec state operation = { state with
        attachments := state.attachments ++ [newAttachment state request uid]
        sequence := state.sequence + 1 } := by
  cases operation with
  | create request =>
      rcases createAttachment_cases state request with same | created
      · exact .inl (by rw [perform, same]; exact Shrinks.refl state)
      · exact .inr (.inr ⟨request, rfl, created⟩)
  | serve request =>
      cases found : attachmentByUid state request.uid with
      | none =>
          refine .inl ?_
          rw [perform, serveAttachmentFile_missing found]
          exact Shrinks.refl state
      | some attachment =>
          have serves : Serves state attachment (serveAttachmentFile codec state request) :=
            serveAttachmentFile_serves found
          rcases serves.kept with same | stored
          · exact .inl (by rw [perform, same]; exact Shrinks.refl state)
          · exact .inr (.inl ⟨attachment, (attachmentByUid_eq_some found).1, stored⟩)
  | delete faults id => exact .inl (deleteAttachment_shrinks _ _ _)
  | deleteAll faults ids => exact .inl (deleteAttachments_shrinks _ _ _)
  | deleteUser faults userId => exact .inl (deleteUserAttachments_shrinks _ _ _)

/-! ## Derived files of their own -/

/-- The derived files of the attachments are their own. -/
structure Own (state : MediaState) : Prop where
  distinct : (state.attachments.map MediaAttachment.uid).Nodup
  derived : forall naming attachment, attachment ∈ state.attachments -> Names naming attachment ->
    forall file, state.cache (naming attachment.uid) = some file -> file.source = attachment

theorem own_empty : Own {} where
  distinct := List.nodup_nil
  derived := fun _ _ impossible => by cases impossible

theorem Own.shrinks (own : Own state) (shrinks : Shrinks state after) : Own after where
  distinct := own.distinct.sublist (shrinks.attachments.map _)
  derived := fun naming attachment member names file cached =>
    own.derived naming attachment (shrinks.attachments.subset member) names file
      (shrinks.cache _ file cached)

/-- A file that is derived from an attachment under one of its names. -/
theorem Own.store (own : Own state) (member : attachment ∈ state.attachments) {naming : String -> String}
    (names : Names naming attachment) (blob : Blob) :
    Own (state.store (naming attachment.uid) ⟨blob, attachment⟩) where
  distinct := own.distinct
  derived := by
    intro other first inFirst otherNames file cached
    change Function.update state.cache (naming attachment.uid) (some ⟨blob, attachment⟩)
      (other first.uid) = some file at cached
    by_cases same : other first.uid = naming attachment.uid
    · have equal := List.inj_on_of_nodup_map own.distinct inFirst member
        (otherNames.uid_eq names same)
      rw [same, Function.update_self] at cached
      cases cached
      exact equal.symm
    · rw [Function.update_of_ne same] at cached
      exact own.derived other first inFirst otherNames file cached

/-- An attachment under a uid without derived files. -/
theorem Own.create (own : Own state) {request : CreateRequest} (accepts : Accepts state request uid)
    (nothing : FindsNothing state (.create request)) :
    Own { state with
      attachments := state.attachments ++ [newAttachment state request uid]
      sequence := state.sequence + 1 } where
  distinct := by
    rw [List.map_append, List.nodup_append]
    refine ⟨own.distinct, List.nodup_singleton _, ?_⟩
    intro first inFirst second inSecond same
    rcases List.mem_map.mp inFirst with ⟨attachment, member, rfl⟩
    rw [List.map_singleton, List.mem_singleton] at inSecond
    exact attachmentByUid_eq_none accepts.free member (same.trans inSecond)
  derived := by
    intro naming attachment member names file cached
    rcases List.mem_append.mp member with known | new
    · exact own.derived naming attachment known names file cached
    · rw [List.mem_singleton.mp new] at names cached
      rcases names with ⟨rfl, supported⟩ | ⟨rfl, clip⟩
      · have absent : state.cache (getThumbnailPath uid) = none := (nothing uid accepts).1 supported
        have present : state.cache (getThumbnailPath uid) = some file := cached
        rw [absent] at present
        cases present
      · have absent : state.cache (getMotionPath uid) = none := (nothing uid accepts).2 clip
        have present : state.cache (getMotionPath uid) = some file := cached
        rw [absent] at present
        cases present

theorem perform_own (own : Own state) {operation : MediaOperation}
    (nothing : FindsNothing state operation) : Own (perform codec state operation) := by
  rcases perform_cases codec state operation with shrinks | stored | created
  · exact own.shrinks shrinks
  · rcases stored with ⟨attachment, member, naming, names, blob, same⟩
    rw [same]
    exact own.store member names blob
  · rcases created with ⟨request, rfl, uid, accepts, same⟩
    rw [same]
    exact own.create accepts nothing

theorem Own.servesOwn (own : Own state) : ServesOwn codec state := by
  intro request file derived
  cases found : attachmentByUid state request.uid with
  | none =>
      rw [serveAttachmentFile_missing found] at derived
      exact absurd derived (Served.error_notDerived _ _ file)
  | some attachment =>
      have member := (attachmentByUid_eq_some found).1
      rcases (serveAttachmentFile_serves found).derived file derived with
        ⟨naming, names, cached | source⟩
      · rw [own.derived naming attachment member names file cached]
      · rw [source]

/-! ## Derived files that were left -/

/-- Nothing is newer than the last id. -/
structure Dated (state : MediaState) : Prop where
  attachments : forall attachment, attachment ∈ state.attachments -> attachment.id ≤ state.sequence
  cache : forall path file, state.cache path = some file -> file.source.id ≤ state.sequence

theorem dated_empty : Dated {} where
  attachments := fun _ impossible => by cases impossible
  cache := fun _ _ impossible => by cases impossible

theorem perform_dated (dated : Dated state) (operation : MediaOperation) :
    Dated (perform codec state operation) := by
  rcases perform_cases codec state operation with shrinks | stored | created
  · refine ⟨fun attachment member => ?_, fun path file cached => ?_⟩
    · rw [shrinks.sequence]
      exact dated.attachments attachment (shrinks.attachments.subset member)
    · rw [shrinks.sequence]
      exact dated.cache path file (shrinks.cache path file cached)
  · rcases stored with ⟨attachment, member, naming, -, blob, same⟩
    rw [same]
    refine ⟨dated.attachments, fun path file cached => ?_⟩
    change Function.update state.cache (naming attachment.uid) (some ⟨blob, attachment⟩) path =
      some file at cached
    by_cases named : path = naming attachment.uid
    · rw [named, Function.update_self] at cached
      cases cached
      exact dated.attachments attachment member
    · rw [Function.update_of_ne named] at cached
      exact dated.cache path file cached
  · rcases created with ⟨request, -, uid, -, same⟩
    rw [same]
    refine ⟨fun attachment member => ?_, fun path file cached => ?_⟩
    · rcases List.mem_append.mp member with known | new
      · exact Nat.le_succ_of_le (dated.attachments attachment known)
      · rw [List.mem_singleton.mp new]
        exact Nat.le_refl _
    · exact Nat.le_succ_of_le (dated.cache path file cached)

theorem thumbnailSupportedTypes_notMedia {type : String} (supported : type ∈ thumbnailSupportedTypes) :
    isMediaType type = false := by
  have checked : forall type, type ∈ thumbnailSupportedTypes -> isMediaType type = false := by
    decide +kernel
  exact checked type supported

/-- A derived file that is there is served to whoever may read the attachment. -/
theorem serve_cached (found : attachmentByUid state uid = some attachment) {naming : String -> String}
    (names : Names naming attachment) {file : DerivedFile} (cached : state.cache (naming attachment.uid) = some file) :
    Exists fun request : ServeRequest => request.uid = uid ∧
      (serveAttachmentFile codec state request).1.IsDerived file := by
  rcases names with ⟨rfl, supported⟩ | ⟨rfl, motionMedia, media, family, embedded⟩
  · refine ⟨{ uid, wantThumbnail := true }, rfl, .inl ?_⟩
    have notMedia := thumbnailSupportedTypes_notMedia supported
    simp [serveAttachmentFile, found, notMedia, serveStaticFile, getOrGenerateThumbnail, cached,
      show attachment.type ∈ thumbnailSupportedTypes from supported]
  · refine ⟨{ uid, wantMotion := true }, rfl, .inr ?_⟩
    simp [serveAttachmentFile, found, serveMotionClip, media, family, embedded,
      getOrExtractMotionClip, cached]

/-- A new attachment that finds a derived file under its uid is served it. -/
theorem left_served (dated : Dated state) {operation : MediaOperation}
    (serves : ServesOwn codec (perform codec state operation)) : FindsNothing state operation := by
  cases operation with
  | create request =>
      intro uid accepts
      have created : perform codec state (.create request) = { state with
          attachments := state.attachments ++ [newAttachment state request uid]
          sequence := state.sequence + 1 } := createAttachment_accepted accepts
      rw [created] at serves
      have none_left (naming : String -> String)
          (names : Names naming (newAttachment state request uid)) :
          state.cache (naming uid) = none := by
        cases left : state.cache (naming uid) with
        | none => rfl
        | some file =>
            have found : attachmentByUid { state with
                attachments := state.attachments ++ [newAttachment state request uid]
                sequence := state.sequence + 1 } uid = some (newAttachment state request uid) := by
              unfold attachmentByUid
              rw [List.find?_append, show state.attachments.find? _ = none from accepts.free]
              simp [newAttachment]
            rcases serve_cached found names left with ⟨serving, rfl, derived⟩
            have source := serves serving file derived
            rw [found] at source
            have older := dated.cache _ file left
            rw [← Option.some.inj source] at older
            exact absurd older (Nat.not_succ_le_self _)
      exact ⟨fun supported => none_left _ (.inl ⟨rfl, supported⟩),
        fun clip => none_left _ (.inr ⟨rfl, clip⟩)⟩
  | serve request => trivial
  | delete faults id => trivial
  | deleteAll faults ids => trivial
  | deleteUser faults userId => trivial

/-! ## Whole runs -/

theorem servesOwn_iff_tidy (own : Own state) (dated : Dated state) (operations : List MediaOperation) :
    (forall before, before <+: operations -> ServesOwn codec (before.foldl (perform codec) state)) ↔
      Tidy codec state operations := by
  induction operations generalizing state with
  | nil =>
      refine ⟨fun _ => trivial, fun _ before isBefore => ?_⟩
      rw [List.prefix_nil.mp isBefore]
      exact own.servesOwn
  | cons operation rest ih =>
      constructor
      · intro serves
        have nothing := left_served dated
          (serves [operation] (List.cons_prefix_cons.mpr ⟨rfl, List.nil_prefix⟩))
        refine ⟨nothing, (ih (perform_own own nothing)
          (perform_dated dated operation)).mp fun before isBefore => ?_⟩
        exact serves (operation :: before) (List.cons_prefix_cons.mpr ⟨rfl, isBefore⟩)
      · intro tidy before isBefore
        cases before with
        | nil => exact own.servesOwn
        | cons first others =>
            rcases List.cons_prefix_cons.mp isBefore with ⟨rfl, shorter⟩
            exact (ih (perform_own own tidy.1)
              (perform_dated dated first)).mpr tidy.2 others shorter

/-- A codec whose thumbnail of a picture is the picture. -/
def copying : MediaCodec where
  thumbnail := some
  hasThumbnailSensitiveMetadata := fun _ _ => false
  extractVideo := id

def catUpload (content : Blob) : CreateRequest where
  backend := quietBackend
  attachmentId := "cat"
  creatorId := 1
  type := "image/png"
  content := content

/-- A picture is looked at and deleted, and another one gets its uid. -/
def reusedUid : List MediaOperation := [
  .create (catUpload [1]),
  .serve { uid := "cat", wantThumbnail := true },
  .delete {} 1,
  .create (catUpload [2])]

theorem reusedUid_served :
    (serveAttachmentFile copying (runMedia copying reusedUid)
      { uid := "cat", wantThumbnail := true }).1 =
    .thumbnail ⟨[1], newAttachment {} (catUpload [1]) "cat"⟩ := by decide +kernel

end DerivedMedia
end Service
end Memos
