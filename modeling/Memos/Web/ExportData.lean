import Memos.Web.Json
import Memos.Web.Zip

namespace Memos
namespace Web

open Library

/-!
# The data of an export

An export is a ZIP archive with the memos in `data.json` and the files of the
attachments beside it.  What an import reads from such an archive is what the
export has put in.
-/

structure AttachmentExport where
  path : String
  name : String
  createTime : Option String
deriving DecidableEq

/-- Fields that the import does without are optional. -/
structure MemoExport where
  content : String
  visibility : Option String
  tags : Option (List String)
  pinned : Option Bool
  createTime : Option String
  attachments : Option (List AttachmentExport)
deriving DecidableEq

structure ExportData where
  version : Nat
  exportedAt : Option String
  memos : List MemoExport
deriving DecidableEq

structure ParsedImport where
  data : ExportData
  /-- The entries of the map, the one that was set last first. -/
  attachmentFiles : List (String × Bytes)

/-! ## As JSON -/

/-- A member that is left out when it is undefined. -/
def member {α : Type} (key : String) (toJson : α -> Json) (value : Option α) : List (String × Json) :=
  match value with
  | some value => [(key, toJson value)]
  | none => []

def AttachmentExport.toJson (attachment : AttachmentExport) : Json :=
  .object ([("path", .string attachment.path)] ++ ([("name", .string attachment.name)] ++
    member "createTime" .string attachment.createTime))

def MemoExport.toJson (memo : MemoExport) : Json :=
  .object ([("content", .string memo.content)] ++
    (member "visibility" .string memo.visibility ++
    (member "tags" (fun tags => .array (tags.map Json.string)) memo.tags ++
    (member "pinned" .bool memo.pinned ++
    (member "createTime" .string memo.createTime ++
    member "attachments" (fun attachments => .array (attachments.map AttachmentExport.toJson))
      memo.attachments)))))

def ExportData.toJson (data : ExportData) : Json :=
  .object ([("version", .number data.version)] ++ (member "exportedAt" .string data.exportedAt ++
    [("memos", .array (data.memos.map MemoExport.toJson))]))

/-! ## Back from JSON -/

/-- The property of an object, of which the last one counts. -/
def Json.get (key : String) : Json -> Option Json
  | .object members => members.reverse.lookup key
  | _ => none

mutual
/-- `String` of a value. -/
def Json.asText : Json -> String
  | .null => "null"
  | .bool value => if value then "true" else "false"
  | .number value => toString value
  | .string value => value
  | .array elements => String.intercalate "," (elementTexts elements)
  | .object _ => "[object Object]"

def elementTexts : List Json -> List String
  | [] => []
  | .null :: elements => "" :: elementTexts elements
  | element :: elements => element.asText :: elementTexts elements
end

/-- The checks on the content of each memo. -/
def validateMemos : Nat -> List Json -> Except String Unit
  | _, [] => .ok ()
  | _, .null :: _ => .error "Cannot read properties of null (reading 'content')"
  | index, memo :: memos =>
      match memo.get "content" with
      | some (.string _) => validateMemos (index + 1) memos
      | _ => .error ("Memo #" ++ toString (index + 1) ++ ": 'content' field is missing or invalid.")

def validateVersion (version : Option Json) : Except String Unit :=
  match version with
  | some (.number 1) => .ok ()
  | version => .error ("Unsupported version: " ++ (version.map Json.asText).getD "undefined" ++
      ". Only version 1 is supported.")

def validateExportData (data : Json) : Except String Unit := do
  match data with
  | .array _ | .object _ => do
      validateVersion (data.get "version")
      match data.get "memos" with
      | some (.array memos) => validateMemos 0 memos
      | _ => .error "Format invalid: 'memos' must be an array."
  | _ => .error "Format invalid: root element must be an object."

/-- A property that may be missing. -/
def optional {α : Type} (read : Json -> Option α) (value : Option Json) : Option (Option α) :=
  match value with
  | none => some none
  | some value => (read value).map some

def Json.toText : Json -> Option String
  | .string value => some value
  | _ => none

def Json.toFlag : Json -> Option Bool
  | .bool value => some value
  | _ => none

def Json.toList {α : Type} (read : Json -> Option α) : Json -> Option (List α)
  | .array elements => elements.mapM read
  | _ => none

def AttachmentExport.ofJson (json : Json) : Option AttachmentExport := do
  let path ← (← json.get "path").toText
  let name ← (← json.get "name").toText
  let createTime ← optional Json.toText (json.get "createTime")
  return { path, name, createTime }

def MemoExport.ofJson (json : Json) : Option MemoExport := do
  let content ← (← json.get "content").toText
  let visibility ← optional Json.toText (json.get "visibility")
  let tags ← optional (Json.toList Json.toText) (json.get "tags")
  let pinned ← optional Json.toFlag (json.get "pinned")
  let createTime ← optional Json.toText (json.get "createTime")
  let attachments ← optional (Json.toList AttachmentExport.ofJson) (json.get "attachments")
  return { content, visibility, tags, pinned, createTime, attachments }

def ExportData.ofJson (json : Json) : Option ExportData := do
  let exportedAt ← optional Json.toText (json.get "exportedAt")
  let memos ← Json.toList MemoExport.ofJson (← json.get "memos")
  return { version := 1, exportedAt, memos }

/-- `JSON.parse` and `validateExportData`.  The code takes the fields that it does
not check at their declared types; a text with others is rejected here. -/
def parseExportData (text : String) : Except String ExportData :=
  match Json.parse text.toList with
  | none => .error "Unexpected token in JSON"
  | some json => do
      validateExportData json
      match ExportData.ofJson json with
      | none => .error "The export data is not of its declared type"
      | some data => .ok data

/-! ## The archive -/

def dataName : String := "data.json"
def attachmentsFolder : String := "attachments/"

/-- What has been read of an archive. -/
structure PartialImport where
  dataJson : Option ExportData := none
  attachmentFiles : List (String × Bytes) := []

def addEntry (decoder : TextDecoder) (read : PartialImport) (name : String) (data : Bytes) :
    Except String PartialImport :=
  if name = dataName then do
    let parsed ← parseExportData (decoder.decode data)
    return { read with dataJson := some parsed }
  else if attachmentsFolder.toList <+: name.toList then
    .ok { read with attachmentFiles := (name, data) :: read.attachmentFiles }
  else .ok read

def parseZipFile (decoder : TextDecoder) (buffer : Bytes) : Except String ParsedImport := do
  let read ← readZip decoder (addEntry decoder) {} buffer
  match read.dataJson with
  | none => .error "ZIP file does not contain data.json"
  | some data => .ok { data, attachmentFiles := read.attachmentFiles }

/-- `getAttachmentData` -/
def getAttachmentData (attachmentFiles : List (String × Bytes)) (path : String) : Option Bytes :=
  attachmentFiles.lookup path

/-- The entries of an archive: the memos and then the files. -/
def archiveEntries (data : ExportData) (files : List ZipEntry) : List ZipEntry :=
  ⟨dataName, textEncode (String.ofList (data.toJson.stringify 0))⟩ :: files

/-! ## What an export has put in -/

theorem get_member {α : Type} (key other : String) (toJson : α -> Json) (value : Option α) :
    Json.get other (.object (member key toJson value)) = if other = key then value.map toJson else none := by
  cases value with
  | none => simp [member, Json.get]
  | some value =>
      by_cases same : other = key
      · simp [member, Json.get, same]
      · have different : (other == key) = false := beq_false_of_ne same
        simp [member, Json.get, same, List.lookup_cons, different]

theorem get_append (key : String) (first second : List (String × Json)) :
    Json.get key (.object (first ++ second)) =
      (Json.get key (.object second)).or (Json.get key (.object first)) := by
  simp only [Json.get, List.reverse_append, List.lookup_append]

theorem get_cons (key other : String) (value : Json) (members : List (String × Json)) :
    Json.get other (.object ((key, value) :: members)) =
      (Json.get other (.object members)).or (if other = key then some value else none) := by
  have single := get_member key other id (some value)
  have append := get_append other [(key, value)] members
  rw [Option.map_some, id] at single
  rw [← single]
  exact append

theorem get_empty (key : String) : Json.get key (.object []) = none := rfl

theorem toList_map {α : Type} (read : Json -> Option α) (write : α -> Json)
    (readBack : ∀ value, read (write value) = some value) (values : List α) :
    Json.toList read (.array (values.map write)) = some values := by
  unfold Json.toList
  dsimp only
  induction values with
  | nil => rfl
  | cons value values ih =>
      rw [List.map_cons, List.mapM_cons, readBack, ih]
      rfl

theorem optional_map {α : Type} (read : Json -> Option α) (write : α -> Json)
    (readBack : ∀ value, read (write value) = some value) (value : Option α) :
    optional read (value.map write) = some value := by
  cases value with
  | none => rfl
  | some value =>
      rw [Option.map_some, optional, readBack]
      rfl

theorem toText_string (value : String) : Json.toText (.string value) = some value := rfl

theorem AttachmentExport.ofJson_toJson (attachment : AttachmentExport) :
    AttachmentExport.ofJson attachment.toJson = some attachment := by
  have path : attachment.toJson.get "path" = some (.string attachment.path) := by
    simp [toJson, get_cons, get_member]
  have name : attachment.toJson.get "name" = some (.string attachment.name) := by
    simp [toJson, get_cons, get_member]
  have createTime : attachment.toJson.get "createTime" = attachment.createTime.map Json.string := by
    simp [toJson, get_cons, get_member]
  unfold ofJson
  rw [path, name, createTime, optional_map Json.toText Json.string toText_string]
  rfl

theorem MemoExport.ofJson_toJson (memo : MemoExport) : MemoExport.ofJson memo.toJson = some memo := by
  have content : memo.toJson.get "content" = some (.string memo.content) := by
    simp [toJson, get_cons, get_append, get_member]
  have visibility : memo.toJson.get "visibility" = memo.visibility.map Json.string := by
    simp [toJson, get_cons, get_append, get_member]
  have tags : memo.toJson.get "tags" = memo.tags.map fun tags => .array (tags.map Json.string) := by
    simp [toJson, get_cons, get_append, get_member]
  have pinned : memo.toJson.get "pinned" = memo.pinned.map Json.bool := by
    simp [toJson, get_cons, get_append, get_member]
  have createTime : memo.toJson.get "createTime" = memo.createTime.map Json.string := by
    simp [toJson, get_cons, get_append, get_member]
  have attachments : memo.toJson.get "attachments" =
      memo.attachments.map fun attachments => .array (attachments.map AttachmentExport.toJson) := by
    simp [toJson, get_cons, get_append, get_member]
  unfold ofJson
  rw [content, visibility, tags, pinned, createTime, attachments,
    optional_map Json.toText Json.string toText_string,
    optional_map Json.toText Json.string toText_string,
    optional_map Json.toFlag Json.bool fun _ => rfl,
    optional_map _ _ (toList_map Json.toText Json.string toText_string),
    optional_map _ _ (toList_map AttachmentExport.ofJson AttachmentExport.toJson AttachmentExport.ofJson_toJson)]
  rfl

theorem content_toJson (memo : MemoExport) : memo.toJson.get "content" = some (.string memo.content) := by
  simp [MemoExport.toJson, get_cons, get_append, get_member]

theorem validateMemos_toJson (index : Nat) (memos : List MemoExport) :
    validateMemos index (memos.map MemoExport.toJson) = .ok () := by
  induction memos generalizing index with
  | nil => rfl
  | cons memo memos ih =>
      rw [List.map_cons, validateMemos, content_toJson]
      · exact ih (index + 1)
      · intro null
        cases null

/-- The text of an export is read as the data that was exported. -/
theorem parseExportData_stringify (data : ExportData) (current : data.version = 1) :
    parseExportData (String.ofList (data.toJson.stringify 0)) = .ok data := by
  have version : data.toJson.get "version" = some (.number 1) := by
    simp [ExportData.toJson, get_cons, get_append, get_member, get_empty, current]
  have exportedAt : data.toJson.get "exportedAt" = data.exportedAt.map Json.string := by
    simp [ExportData.toJson, get_cons, get_append, get_member, get_empty]
  have memos : data.toJson.get "memos" = some (.array (data.memos.map MemoExport.toJson)) := by
    simp [ExportData.toJson, get_cons, get_append, get_member, get_empty]
  have valid : validateExportData data.toJson = .ok () := by
    unfold validateExportData
    rw [version, memos]
    exact validateMemos_toJson 0 data.memos
  have read : ExportData.ofJson data.toJson = some data := by
    unfold ExportData.ofJson
    rw [exportedAt, memos, optional_map Json.toText Json.string toText_string]
    simp only [Option.bind_eq_bind, Option.bind_some,
      toList_map MemoExport.ofJson MemoExport.toJson MemoExport.ofJson_toJson]
    rw [← current]
    rfl
  unfold parseExportData
  rw [String.toList_ofList, parse_stringify]
  dsimp only
  rw [valid, ok_bind, read]

def ZipEntry.file (entry : ZipEntry) : String × Bytes := (entry.name, entry.data)

theorem dataName_not_file : ¬ attachmentsFolder.toList <+: dataName.toList := by decide

theorem addEntry_data (decoder : TextDecoder) (read : PartialImport) {data : ExportData}
    (current : data.version = 1) :
    addEntry decoder read dataName (textEncode (String.ofList (data.toJson.stringify 0))) =
      .ok { read with dataJson := some data } := by
  have begins : Exists fun rest => (String.ofList (data.toJson.stringify 0)).toList = '\x7b' :: rest := by
    rw [String.toList_ofList, ExportData.toJson, List.singleton_append, Json.stringify]
    exact ⟨_, rfl⟩
  rcases begins with ⟨rest, begins⟩
  unfold addEntry
  rw [if_pos rfl, decode_textEncode decoder begins (by decide), parseExportData_stringify data current]
  rfl

theorem addEntry_file (decoder : TextDecoder) (read : PartialImport) {file : ZipEntry}
    (inFolder : attachmentsFolder.toList <+: file.name.toList) :
    addEntry decoder read file.name file.data =
      .ok { read with attachmentFiles := file.file :: read.attachmentFiles } := by
  have notData : file.name ≠ dataName := fun same => dataName_not_file (same ▸ inFolder)
  unfold addEntry
  rw [if_neg notData, if_pos inFolder]
  rfl

theorem foldlM_files (decoder : TextDecoder) (read : PartialImport) (files : List ZipEntry)
    (inFolder : ∀ file, file ∈ files -> attachmentsFolder.toList <+: file.name.toList) :
    files.foldlM (fun read file => addEntry decoder read file.name file.data) read =
      .ok { read with attachmentFiles := (files.map ZipEntry.file).reverse ++ read.attachmentFiles } := by
  induction files generalizing read with
  | nil => rfl
  | cons file files ih =>
      rw [List.foldlM_cons, addEntry_file decoder read (inFolder file List.mem_cons_self), ok_bind,
        ih _ fun other member => inFolder other (List.mem_cons_of_mem _ member)]
      simp

/-- The names of an archive are ASCII at their beginning, so they can be read
back. -/
theorem fits_archive {now : ZipEntry -> LocalTime} {data : ExportData} {files : List ZipEntry}
    (addressable : (createZip now (archiveEntries data files)).length < 4294967296)
    (names : ∀ file, file ∈ files -> file.nameBytes.length < 65536)
    (inFolder : ∀ file, file ∈ files -> attachmentsFolder.toList <+: file.name.toList) :
    Fits now (archiveEntries data files) where
  addressable := addressable
  names := fun entry member => by
    rcases List.mem_cons.mp member with rfl | isFile
    · exact (by decide +kernel : (textEncode dataName).length < 65536)
    · exact names entry isFile
  readable := fun entry member decoder => by
    rcases List.mem_cons.mp member with rfl | isFile
    · exact @decode_textEncode decoder dataName 'd' "ata.json".toList (by decide) (by decide)
    · rcases inFolder entry isFile with ⟨rest, name⟩
      exact decode_textEncode decoder name.symm (by decide)

/-- What an import reads of an archive: the data, and as many files as the
number of entries says, which is kept in 16 bits. -/
theorem parseZipFile_archive (decoder : TextDecoder) {now : ZipEntry -> LocalTime} {data : ExportData} {files : List ZipEntry}
    (fits : Fits now (archiveEntries data files)) (current : data.version = 1)
    (inFolder : ∀ file, file ∈ files -> attachmentsFolder.toList <+: file.name.toList) :
    parseZipFile decoder (createZip now (archiveEntries data files)) =
      match (files.length + 1) % 65536 with
      | 0 => .error "ZIP file does not contain data.json"
      | count + 1 => .ok { data, attachmentFiles := ((files.take count).map ZipEntry.file).reverse } := by
  have read := readZip_createZip decoder (addEntry decoder) {} fits.reachable
  have counted : (archiveEntries data files).length = files.length + 1 := rfl
  unfold parseZipFile
  rw [read, counted]
  cases (files.length + 1) % 65536 with
  | zero => rfl
  | succ count =>
      have inFront : ∀ file, file ∈ files.take count -> attachmentsFolder.toList <+: file.name.toList :=
        fun file member => inFolder file (List.mem_of_mem_take member)
      rw [archiveEntries, List.take_succ_cons, List.foldlM_cons]
      dsimp only
      rw [addEntry_data decoder {} current, ok_bind, foldlM_files decoder _ _ inFront, ok_bind]
      simp

end Web
end Memos
