import Memos.Library.JsonText
import Memos.Web.Export

namespace Memos
namespace Web

open Library Service
open Filter (isSpace)
open JsonText (js unit isDigit hexValue decimal scale readExponent)
open Store (Visibility)

/-!
# Importing memos

The import compares the memos of an archive with the list of memos that the
client has fetched, creates those that are not there and sets the attachments of
those that lack some.
-/

/-! ## The preview -/

structure MemoToUpdate where
  «export» : MemoExport
  existingMemoName : String
  newAttachmentNames : List String
  /-- Name and file name. -/
  existingAttachments : List (String × String)

structure ImportPreview where
  newMemos : List MemoExport := []
  updateMemos : List MemoToUpdate := []
  skippedCount : Nat := 0
  newAttachments : Nat := 0
  updateAttachments : Nat := 0

/-- The time of a memo of the list as text; a time that cannot be written stops
the preview. -/
def memoTime (memo : MemoMessage) : Option String :=
  match memo.createTime with
  | none => some ""
  | some seconds => toISOString (timestampDate seconds)

def memoKey (memo : MemoMessage) : Option String := do
  let time ← memoTime memo
  return memo.content ++ "|" ++ time

/-- The key of a memo of the archive. -/
def MemoExport.key (memo : MemoExport) : String := memo.content ++ "|" ++ memo.createTime.getD "undefined"

def keyedMemo (memo : MemoMessage) : Option (String × MemoMessage) := do
  let key ← memoKey memo
  return (key, memo)

/-- `existingByKey`; among memos with one key the last one stays in the map. -/
def existingByKey (myMemos : List MemoMessage) : Option (List (String × MemoMessage)) :=
  (myMemos.mapM keyedMemo).map List.reverse

def MemoExport.files (memo : MemoExport) : List AttachmentExport := memo.attachments.getD []

def getNewAttachments (importAtts : List AttachmentExport) (existingFilenames : List String) :
    List AttachmentExport :=
  importAtts.filter fun attachment => attachment.name ∉ existingFilenames

def MemoMessage.filenames (memo : MemoMessage) : List String :=
  memo.attachments.map AttachmentMessage.filename

/-- One turn of the loop over the memos of the archive. -/
def previewMemo (existing : List (String × MemoMessage)) (preview : ImportPreview) (memo : MemoExport) :
    ImportPreview :=
  match existing.lookup memo.key with
  | none =>
      { preview with newMemos := preview.newMemos ++ [memo]
                     newAttachments := preview.newAttachments + memo.files.length }
  | some found =>
      let newAtts := getNewAttachments memo.files found.filenames
      if newAtts ≠ [] then
        { preview with
          updateMemos := preview.updateMemos ++
            [{ «export» := memo, existingMemoName := found.name
               newAttachmentNames := newAtts.map AttachmentExport.name
               existingAttachments := found.attachments.map fun attachment =>
                 (attachment.name, attachment.filename) }]
          updateAttachments := preview.updateAttachments + newAtts.length }
      else { preview with skippedCount := preview.skippedCount + 1 }

def generateImportPreview (data : ExportData) (existingMemos : List MemoMessage) (currentUser : Nat) :
    Option ImportPreview := do
  let existing ← existingByKey (existingMemos.filter fun memo => memo.creator = currentUser)
  return data.memos.foldl (previewMemo existing) {}

/-- `handleFileSelected`: a ZIP file is parsed and compared with the list. -/
def handleFileSelected (decoder : TextDecoder) (file : Bytes) (memos : List MemoMessage) (currentUser : Nat) :
    Option (ParsedImport × ImportPreview) :=
  match parseZipFile decoder file with
  | .error _ => none
  | .ok parsed => (generateImportPreview parsed.data memos currentUser).map fun preview => (parsed, preview)

/-! ## Numbers -/

def isJsSpace (c : Char) : Bool := c = '\ufeff' || (isSpace c && c ≠ '\u0085')

def radixNumber (radix : Nat) (text : List Char) : Option Rat :=
  if text = [] then none
  else
    ((js (String.ofList text)).mapM fun c => (hexValue c).filter fun digit => digit < radix).map fun digits =>
      (Nat.ofDigits radix digits.reverse : Rat)

/-- A decimal number without sign, of which digits may be missing on one side of
the point. -/
def decimalNumber (text : List Char) : Option Rat :=
  let units := js (String.ofList text)
  let whole := units.takeWhile isDigit
  let rest := units.dropWhile isDigit
  let point := rest.head? = some (unit '.')
  let fraction := if point then rest.tail.takeWhile isDigit else []
  if whole ++ fraction = [] then none
  else
    match readExponent (if point then rest.tail.dropWhile isDigit else rest) with
    | some (exponent, []) => some (scale (decimal (whole ++ fraction)) (exponent - fraction.length))
    | _ => none

/-- `Number` of a text before it is rounded, if it is finite. -/
def numberOf (text : String) : Option Rat :=
  match ((text.toList.dropWhile isJsSpace).reverse.dropWhile isJsSpace).reverse with
  | [] => some 0
  | '0' :: 'x' :: digits | '0' :: 'X' :: digits => radixNumber 16 digits
  | '0' :: 'o' :: digits | '0' :: 'O' :: digits => radixNumber 8 digits
  | '0' :: 'b' :: digits | '0' :: 'B' :: digits => radixNumber 2 digits
  | '+' :: digits => decimalNumber digits
  | '-' :: digits => (decimalNumber digits).map Neg.neg
  | digits => decimalNumber digits

example : numberOf "3.0" = some 3 ∧ numberOf " 0x3\n" = some 3 ∧ numberOf "+.2e1" = some 2 ∧ numberOf "3." = some 3 ∧
    numberOf "PUBLIC" = none ∧ numberOf "-0x3" = none := by
  decide +kernel

/-! ## The requests -/

structure ImportResult where
  created : Nat := 0
  updated : Nat := 0
  skipped : Nat := 0
  failed : Nat := 0
  attachmentsCreated : Nat := 0
  attachmentsUpdated : Nat := 0
  attachmentsFailed : Nat := 0
  errors : List (JsonText.JsString × String) := []
deriving DecidableEq

/-- What the client and the server have come to: the tables, how many requests
have been made and how many of them have failed. -/
structure Progress where
  tables : Tables
  requests : Nat := 0
  refused : Nat := 0
  result : ImportResult := {}

/-- What an import works with. -/
structure Importer where
  server : Server
  moments : Nat -> Moment
  user : Account
  parser : DateParser

namespace Importer

variable (importer : Importer)

/-- The seconds of an ISO text that is there and not empty; a text that is no
date throws. -/
def timestamp (isoTime : Option String) : Except String (Option Int) :=
  match isoTime with
  | none => .ok none
  | some isoTime =>
      if isoTime = "" then .ok none
      else
        match importer.parser.newDate isoTime with
        | none => .error "The number NaN cannot be converted to a BigInt because it is not an integer"
        | some ms => .ok (some (timestampFromDate ms))

/-- `a || b` of texts that may be missing. -/
def firstGiven (first second : Option String) : Option String :=
  if first.getD "" ≠ "" then first else second

/-- `uploadOne`, with the name of the attachment. -/
def uploadOne (files : List (String × Bytes)) (attachment : AttachmentExport) (memoCreateTime : Option String)
    (progress : Progress) : Option String × Progress :=
  match getAttachmentData files attachment.path with
  | none => (none, progress)
  | some data =>
      match importer.timestamp (firstGiven attachment.createTime memoCreateTime) with
      | .error _ => (none, progress)
      | .ok createTime =>
          match createAttachment importer.server (importer.moments progress.requests) importer.user
              attachment.name data createTime progress.tables with
          | .error _ =>
              (none, { progress with requests := progress.requests + 1, refused := progress.refused + 1 })
          | .ok (name, tables) => (some name, { progress with tables, requests := progress.requests + 1 })

/-- `uploadMany`, one upload after the other, with the names of those that came
through; the second argument counts a success. -/
def uploadMany (files : List (String × Bytes)) (count : ImportResult -> ImportResult)
    (memoCreateTime : Option String) : List AttachmentExport -> Progress -> List String × Progress
  | [], progress => ([], progress)
  | attachment :: rest, progress =>
      match importer.uploadOne files attachment memoCreateTime progress with
      | (some name, progress) =>
          let (refs, progress) := uploadMany files count memoCreateTime rest
            { progress with result := count progress.result }
          (name :: refs, progress)
      | (none, progress) =>
          uploadMany files count memoCreateTime rest
            { progress with result :=
              { progress.result with attachmentsFailed := progress.result.attachmentsFailed + 1 } }

def recordError (content cause : String) (progress : Progress) : Progress :=
  { progress with result :=
    { progress.result with
      failed := progress.result.failed + 1
      errors := progress.result.errors ++ [((JsonText.js content).take 50, cause)] } }

/-- The letter that a small letter becomes, as far as the three names go. -/
def upperChar (c : Char) : Char := if c = 'ı' then 'I' else if c = 'ſ' then 'S' else c.toUpper

/-- `parseVisibility`; a number between the three visibilities is none of them. -/
def parseVisibility (value : Option String) : Option Visibility :=
  match value with
  | none => some .isPrivate
  | some value =>
      match (numberOf value).filter fun num => 1 - 1 / 2 ^ 54 ≤ num ∧ num ≤ 3 + 1 / 2 ^ 52 with
      | some num =>
          -- the bounds are those of what a double rounds to 1, 2 and 3
          if num ≤ 1 + 1 / 2 ^ 53 then some .isPrivate
          else if 2 - 1 / 2 ^ 53 ≤ num ∧ num ≤ 2 + 1 / 2 ^ 52 then some .isProtected
          else if 3 - 1 / 2 ^ 52 ≤ num then some .isPublic
          else none
      | none =>
          let upper := value.toList.map upperChar
          if upper = "PUBLIC".toList then some .isPublic
          else if upper = "PROTECTED".toList then some .isProtected
          else some .isPrivate

/-- The request for one memo; a visibility that is a fraction cannot be encoded. -/
def requestMemo (moment : Moment) (memo : MemoExport) (createTime : Option Int) (refs : List String)
    (tables : Tables) : Except String Unit × Tables :=
  match parseVisibility memo.visibility with
  | none => (.error "cannot encode field memos.api.v1.Memo.visibility to binary: invalid int32", tables)
  | some visibility =>
      createMemo importer.server moment importer.user memo.content visibility createTime refs tables

/-- Create one memo of the archive. -/
def createOne (files : List (String × Bytes)) (memo : MemoExport) (progress : Progress) : Progress :=
  let count (result : ImportResult) : ImportResult :=
    { result with attachmentsCreated := result.attachmentsCreated + 1 }
  let (refs, progress) := importer.uploadMany files count memo.createTime memo.files progress
  match importer.timestamp memo.createTime with
  | .error cause => recordError memo.content cause progress
  | .ok createTime =>
      match importer.requestMemo (importer.moments progress.requests) memo createTime refs progress.tables with
      | (.error cause, tables) =>
          recordError memo.content cause
            { progress with tables, requests := progress.requests + 1, refused := progress.refused + 1 }
      | (.ok (), tables) =>
          { progress with tables, requests := progress.requests + 1
                          result := { progress.result with created := progress.result.created + 1 } }

/-- The references of the updated list: what the memo has under a name, else what
was uploaded for it, else the name itself. -/
def orderedNames (existingAttachments newRefs : List (String × String)) (files : List AttachmentExport) :
    List String :=
  files.map fun attachment =>
    ((existingAttachments.map Prod.swap).reverse.lookup attachment.name).getD
      ((newRefs.reverse.lookup attachment.name).getD attachment.name)

/-- Set the attachments of one memo. -/
def updateOne (files : List (String × Bytes)) (update : MemoToUpdate) (progress : Progress) : Progress :=
  let count (result : ImportResult) : ImportResult :=
    { result with attachmentsUpdated := result.attachmentsUpdated + 1 }
  let newOnly := update.export.files.filter fun attachment => attachment.name ∈ update.newAttachmentNames
  let (newRefs, progress) := importer.uploadMany files count update.export.createTime newOnly progress
  let newRefMap := (newOnly.map AttachmentExport.name).zip newRefs
  let ordered := orderedNames update.existingAttachments newRefMap update.export.files
  match updateMemoAttachments (importer.moments progress.requests) importer.user update.existingMemoName ordered
      progress.tables with
  | (.error cause, tables) =>
      recordError update.export.content cause
        { progress with tables, requests := progress.requests + 1, refused := progress.refused + 1 }
  | (.ok (), tables) =>
      { progress with tables, requests := progress.requests + 1
                      result := { progress.result with updated := progress.result.updated + 1 } }

/-- `handleConfirmImport` -/
def handleConfirmImport (preview : ImportPreview) (files : List (String × Bytes)) (progress : Progress) :
    Progress :=
  let progress := { progress with result := { skipped := preview.skippedCount : ImportResult } }
  let progress := preview.newMemos.foldl (fun progress memo => importer.createOne files memo progress) progress
  preview.updateMemos.foldl (fun progress update => importer.updateOne files update progress) progress

/-- An import that has been parsed, against the list that has been fetched.  A
list that cannot be previewed stops it. -/
def importParsed (parsed : ParsedImport) (listing : List MemoMessage) (progress : Progress) : Progress :=
  match generateImportPreview parsed.data listing importer.user.id with
  | none => progress
  | some preview => importer.handleConfirmImport preview parsed.attachmentFiles progress

/-- A ZIP file is parsed, previewed and imported. -/
def importFile (decoder : TextDecoder) (file : Bytes) (listing : List MemoMessage) (progress : Progress) :
    Progress :=
  match parseZipFile decoder file with
  | .error _ => progress
  | .ok parsed => importer.importParsed parsed listing progress

end Importer

/-- The memos that the client fetches. -/
def Tables.listing (tables : Tables) (user : Account) : List MemoMessage :=
  (tables.listMemos user).map tables.convertMemo

end Web
end Memos
