import Memos.Library.Disk
import Memos.Service.DerivedMedia

namespace Memos
namespace Service
namespace LocalFiles

open Library Library.FilePath Store
open DerivedMedia (Blob AttachmentStorageType thumbnailCacheFolder motionCacheFolder)

/-!
# Local attachment files

An attachment kept on the local disk is written to the path that a template of
the instance gives.  If the path is taken, the uid of the attachment is added to
its name, and the result is used whether or not it is taken as well.  The file
server resolves references below the data directory only.
-/

/-! ## Path templates -/

/-- What `time.Now` gives. -/
structure Moment where
  unix : Int
  year : Int
  month : Nat
  day : Nat
  hour : Nat
  minute : Nat
  second : Nat
deriving DecidableEq

/-- `%d` -/
def decimal : Int -> Text
  | .ofNat number => Nat.toDigits 10 number
  | .negSucc number => '-' :: Nat.toDigits 10 (number + 1)

/-- `%02d` -/
def twoDigits (number : Nat) : Text :=
  if number < 10 then '0' :: Nat.toDigits 10 number else Nat.toDigits 10 number

/-- What stands for a key of the template, given the uuid generated for it. -/
def fileKey (moment : Moment) (filename uuid key : Text) : Text :=
  if key = "filename".toList then filename
  else if key = "timestamp".toList then decimal moment.unix
  else if key = "year".toList then decimal moment.year
  else if key = "month".toList then twoDigits moment.month
  else if key = "day".toList then twoDigits moment.day
  else if key = "hour".toList then twoDigits moment.hour
  else if key = "minute".toList then twoDigits moment.minute
  else if key = "second".toList then twoDigits moment.second
  else if key = "uuid".toList then uuid
  else '\x7b' :: key ++ ['\x7d']

/-- Replace each match of `fileKeyPattern`, one to nine small letters in braces.
The second argument is what has been read of a match. -/
def replaceKeys (value : Nat -> Text -> Text) : Nat -> Option Text -> Text -> Text
  | _, none, [] => []
  | _, some key, [] => '\x7b' :: key
  | count, none, letter :: rest =>
      if letter = '\x7b' then replaceKeys value count (some []) rest
      else letter :: replaceKeys value count none rest
  | count, some key, letter :: rest =>
      if letter = '\x7d' ∧ key ≠ [] ∧ key.length ≤ 9 then
        value count key ++ replaceKeys value (count + 1) none rest
      else if 'a' ≤ letter ∧ letter ≤ 'z' then replaceKeys value count (some (key ++ [letter])) rest
      else if letter = '\x7b' then '\x7b' :: key ++ replaceKeys value count (some []) rest
      else '\x7b' :: key ++ letter :: replaceKeys value count none rest

/-- `replaceFilenameWithPathTemplate` -/
def replaceFilenameWithPathTemplate (moment : Moment) (uuid : Nat -> Text) (path filename : Text) : Text :=
  replaceKeys (fun count => fileKey moment filename (uuid count)) 0 none path

/-! ## Saving -/

/-- The data directory, which `checkDataDir` has made absolute. -/
structure DataDirectory where
  path : Text
  rooted : isAbs path = true

inductive StorageType where
  | database
  | «local»
  | s3
deriving DecidableEq

/-- `InstanceStorageSetting`, after its defaults have been filled in. -/
structure InstanceStorageSetting where
  storageType : StorageType := .local
  filepathTemplate : Text := "assets/{timestamp}_{uuid}_{filename}".toList
deriving DecidableEq

/-- What an upload takes from outside. -/
structure Surroundings where
  moment : Moment
  /-- The uuid generated for each key that is replaced. -/
  uuid : Nat -> Text := fun _ => []
  faults : DiskFaults Blob := {}
  /-- The presigned URL of the uploaded object. -/
  upload : Except String Text := .error "No activated external storage found"

/-- The local path of a file, before its uniqueness is looked after. -/
def expandedPath (data : DataDirectory) (setting : InstanceStorageSetting) (outside : Surroundings)
    (filename : Text) : Text :=
  let filepathTemplate :=
    if setting.filepathTemplate ≠ [] then setting.filepathTemplate
    else "assets/{timestamp}_{uuid}_{filename}".toList
  let internalPath :=
    if "{filename}".toList <:+: filepathTemplate then filepathTemplate
    else join [filepathTemplate, "{filename}".toList]
  let osPath := replaceFilenameWithPathTemplate outside.moment outside.uuid internalPath filename
  if isAbs osPath then osPath else join [data.path, osPath]

/-- The path with the uid added to the name. -/
def suffixedPath (path : Text) (uid : String) : Text :=
  trimSuffix path (ext path) ++ ('_' :: uid.toList ++ ext path)

/-- `ensureUniqueLocalAttachmentPath` -/
def ensureUniqueLocalAttachmentPath (disk : Disk Blob) (path : Text) (uid : String) : Text :=
  match disk.stat path with
  | .error _ => path
  | .ok _ => suffixedPath path uid

/-- The reference that is kept for a local path. -/
def localReference (data : DataDirectory) (osPath : Text) : Except String Text :=
  if isAbs osPath then .ok osPath
  else (rel data.path osPath).elim (.error "Failed to get relative path") .ok

/-- The fields of an attachment that saving its blob sets. -/
structure SavedBlob where
  reference : Text
  blob : Option Blob
  storageType : AttachmentStorageType
deriving DecidableEq

/-- `SaveAttachmentBlob` -/
def saveAttachmentBlob (data : DataDirectory) (setting : InstanceStorageSetting)
    (outside : Surroundings) (disk : Disk Blob) (filename : Text) (uid : String) (blob : Blob) :
    Except String SavedBlob × Disk Blob :=
  match setting.storageType with
  | .database => (.ok ⟨[], some blob, .unspecified⟩, disk)
  | .s3 =>
      match outside.upload with
      | .error cause => (.error cause, disk)
      | .ok presignURL => (.ok ⟨presignURL, none, .s3⟩, disk)
  | .local =>
      let osPath := ensureUniqueLocalAttachmentPath disk (expandedPath data setting outside filename) uid
      match localReference data osPath with
      | .error cause => (.error cause, disk)
      | .ok reference =>
          match disk.mkdirAll outside.faults (dir osPath) with
          | (.error _, made) => (.error "Failed to create directory", made)
          | (.ok (), made) =>
              match made.writeFile outside.faults osPath blob with
              | (.error _, written) => (.error "Failed to write file", written)
              | (.ok (), written) => (.ok ⟨reference, none, .local⟩, written)

/-- `resolveLocalPath` of the file server. -/
def resolveLocalPath (data : DataDirectory) (reference : Text) : Except String Text :=
  let basePath := clean data.path
  let filePath := clean (if isAbs reference then reference else join [basePath, reference])
  if ¬(basePath ++ ['/'] <+: filePath) ∧ filePath ≠ basePath then .error "path traversal detected"
  else .ok filePath

/-! ## Attachments -/

structure StoredAttachment where
  id : Nat
  uid : String
  creatorId : Nat
  filename : Text
  storageType : AttachmentStorageType
  reference : Text
  blob : Option Blob
deriving DecidableEq

structure FilesState where
  attachments : List StoredAttachment := []
  /-- The last id of the attachment table. -/
  sequence : Nat := 0
  disk : Disk Blob := {}
deriving DecidableEq

/-- An upload that has passed the checks of the service. -/
structure Upload where
  setting : InstanceStorageSetting := {}
  outside : Surroundings
  uid : String
  creatorId : Nat := 1
  filename : Text
  content : Blob
  /-- Whether the database refuses the row. -/
  refused : Bool := false

/-- The row of a new attachment. -/
def newAttachment (state : FilesState) (upload : Upload) (saved : SavedBlob) : StoredAttachment where
  id := state.sequence + 1
  uid := upload.uid
  creatorId := upload.creatorId
  filename := upload.filename
  storageType := saved.storageType
  reference := saved.reference
  blob := saved.blob

/-- The end of `CreateAttachment`: the blob is saved before its row. -/
def createAttachment (data : DataDirectory) (state : FilesState) (upload : Upload) :
    Except String StoredAttachment × FilesState :=
  match saveAttachmentBlob data upload.setting upload.outside state.disk upload.filename upload.uid
      upload.content with
  | (.error _, disk) => (.error "failed to save attachment blob", { state with disk := disk })
  | (.ok saved, disk) =>
      if !uidMatches upload.uid || state.attachments.any (fun other => other.uid = upload.uid) ||
          upload.refused then
        (.error "failed to create attachment", { state with disk := disk })
      else
        let attachment := newAttachment state upload saved
        (.ok attachment, ⟨state.attachments ++ [attachment], attachment.id, disk⟩)

/-- What may go wrong while attachments are deleted. -/
structure DeleteFaults where
  disk : DiskFaults Blob := {}
  s3 : StoredAttachment -> Bool := fun _ => false
  rows : Bool := false

/-- The files that `deleteAttachmentDerivedCaches` removes. -/
def derivedCachePaths (data : DataDirectory) (uid : String) : List Text :=
  [join [data.path, thumbnailCacheFolder.toList, uid.toList ++ ".jpeg".toList],
    join [data.path, motionCacheFolder.toList, uid.toList ++ ".mp4".toList]]

/-- `deleteAttachmentDerivedCaches` -/
def deleteAttachmentDerivedCaches (data : DataDirectory) (faults : DiskFaults Blob) (disk : Disk Blob)
    (attachment : StoredAttachment) : Disk Blob :=
  (derivedCachePaths data attachment.uid).foldl (fun disk path => (disk.remove faults path).2) disk

/-- The path that is removed for a reference. -/
def removedPath (data : DataDirectory) (reference : Text) : Text :=
  if isAbs reference then reference else join [data.path, reference]

/-- `deleteAttachmentStorageImpl` -/
def deleteAttachmentStorageImpl (data : DataDirectory) (faults : DeleteFaults) (disk : Disk Blob)
    (attachment : StoredAttachment) : Except String Unit × Disk Blob :=
  match attachment.storageType with
  | .local =>
      match disk.remove faults.disk (removedPath data attachment.reference) with
      | (.ok (), removed) | (.error .notExist, removed) =>
          (.ok (), deleteAttachmentDerivedCaches data faults.disk removed attachment)
      | (.error _, removed) => (.error "failed to delete local file", removed)
  | .s3 =>
      if faults.s3 attachment then (.error "Failed to delete s3 object", disk)
      else (.ok (), deleteAttachmentDerivedCaches data faults.disk disk attachment)
  | .unspecified => (.ok (), deleteAttachmentDerivedCaches data faults.disk disk attachment)

def FilesState.deleteRows (state : FilesState) (deleted : StoredAttachment -> Bool) : FilesState :=
  { state with attachments := state.attachments.filter fun attachment => !deleted attachment }

/-- `DeleteAttachment` of the store: first the storage, then the row.  Only
the failure to delete a local file stops it. -/
def deleteAttachment (data : DataDirectory) (faults : DeleteFaults) (state : FilesState) (id : Nat) :
    Except String Unit × FilesState :=
  match state.attachments.find? fun attachment => attachment.id = id with
  | none => (.error "attachment not found", state)
  | some attachment =>
      let (outcome, disk) := deleteAttachmentStorageImpl data faults state.disk attachment
      let after := { state with disk := disk }
      if attachment.storageType = .local ∧ outcome.isOk = false then
        (.error "failed to delete local file", after)
      else if faults.rows then (.error "failed to delete attachment", after)
      else (.ok (), after.deleteRows fun other => other.id = id)

/-- The storages of deleted attachments; `stops` says whether the failure to
delete a local file ends the loop. -/
def deleteStorages (data : DataDirectory) (faults : DeleteFaults) (stops : Bool) :
    Disk Blob -> List StoredAttachment -> Except String Unit × Disk Blob
  | disk, [] => (.ok (), disk)
  | disk, attachment :: rest =>
      let (outcome, after) := deleteAttachmentStorageImpl data faults disk attachment
      if stops ∧ attachment.storageType = .local ∧ outcome.isOk = false then
        (.error "failed to delete local file", after)
      else deleteStorages data faults stops after rest

/-- The rows that are deleted, then their storages. -/
def deleteTogether (data : DataDirectory) (faults : DeleteFaults) (stops : Bool) (state : FilesState)
    (attachments : List StoredAttachment) : Except String Unit × FilesState :=
  if faults.rows then (.error "failed to delete attachments", state)
  else
    let (outcome, disk) := deleteStorages data faults stops state.disk attachments
    (outcome, { state.deleteRows (fun other => other ∈ attachments) with disk := disk })

/-- `DeleteAttachments` of the store -/
def deleteAttachments (data : DataDirectory) (faults : DeleteFaults) (state : FilesState)
    (ids : List Nat) : Except String Unit × FilesState :=
  deleteTogether data faults true state
    (ids.filterMap fun id => state.attachments.find? fun attachment => attachment.id = id)

/-- The part of `DeleteUser` that deletes the attachments of a user. -/
def deleteUserAttachments (data : DataDirectory) (faults : DeleteFaults) (state : FilesState)
    (userId : Nat) : Except String Unit × FilesState :=
  deleteTogether data faults false state
    (state.attachments.filter fun attachment => attachment.creatorId = userId)

/-! ## Runs -/

inductive FilesCall where
  | create (upload : Upload)
  | delete (faults : DeleteFaults) (id : Nat)
  | deleteAll (faults : DeleteFaults) (ids : List Nat)
  | deleteUser (faults : DeleteFaults) (userId : Nat)

def FilesCall.apply (data : DataDirectory) (state : FilesState) : FilesCall -> FilesState
  | .create upload => (createAttachment data state upload).2
  | .delete faults id => (deleteAttachment data faults state id).2
  | .deleteAll faults ids => (deleteAttachments data faults state ids).2
  | .deleteUser faults userId => (deleteUserAttachments data faults state userId).2

/-- Whether a call is to delete an attachment. -/
def FilesCall.deletes (attachment : StoredAttachment) : FilesCall -> Bool
  | .create _ => false
  | .delete _ id => attachment.id = id
  | .deleteAll _ ids => attachment.id ∈ ids
  | .deleteUser _ userId => attachment.creatorId = userId

/-- What is saved by a call, with its content. -/
def FilesCall.saved (data : DataDirectory) (state : FilesState) :
    FilesCall -> List (StoredAttachment × Blob)
  | .create upload =>
      match (createAttachment data state upload).1 with
      | .ok attachment => if attachment.storageType = .local then [(attachment, upload.content)] else []
      | .error _ => []
  | _ => []

/-- A state, with the local attachments that no call was to delete yet. -/
structure History where
  state : FilesState
  kept : List (StoredAttachment × Blob) := []
deriving DecidableEq

def History.step (data : DataDirectory) (history : History) (call : FilesCall) : History where
  state := call.apply data history.state
  kept := (history.kept.filter fun item => !call.deletes item.1) ++ call.saved data history.state

def History.run (data : DataDirectory) (history : History) (calls : List FilesCall) : History :=
  calls.foldl (History.step data) history

end LocalFiles
end Service
end Memos
