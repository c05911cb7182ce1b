import Memos.Web.ExportData
import Memos.Web.Server

namespace Memos
namespace Web

open Library Service
open Store (Visibility)

/-!
# Exporting memos

The export downloads the attachments of the selected memos and gives them names
that differ over the whole archive.
-/

/-- What the export takes from the browser and from the network: the response to
a download is its body, if it came through. -/
structure Browser where
  decoder : TextDecoder
  parser : DateParser
  origin : String
  localTime : ZipEntry -> LocalTime
  exportedAt : String
  fetch : String -> Option Bytes

/-! ## Names of files -/

/-- The name with a counter before its extension. -/
def numberedName (filename : String) (counter : Nat) : String :=
  (splitExtension filename).1 ++ "_" ++ toString counter ++ (splitExtension filename).2

/-- The loop that looks for a name that is not used; one more turn than there are
used names is enough. -/
def findName (usedNames : List String) (filename : String) : Nat -> Nat -> String -> String
  | 0, _, fileName => fileName
  | turns + 1, counter, fileName =>
      if fileName ∈ usedNames then
        findName usedNames filename turns (counter + 1) (numberedName filename counter)
      else fileName

def uniqueName (usedNames : List String) (filename : String) : String :=
  findName usedNames filename (usedNames.length + 1) 1 filename

/-- The names that the attachments of a memo get, and those used after it. -/
def nameAttachments (usedNames : List String) :
    List AttachmentMessage -> List (AttachmentMessage × String) × List String
  | [] => ([], usedNames)
  | attachment :: rest =>
      let fileName := uniqueName usedNames attachment.filename
      let (named, used) := nameAttachments (fileName :: usedNames) rest
      ((attachment, fileName) :: named, used)

/-! ## Downloads -/

def getAttachmentUrl (origin : String) (attachment : AttachmentMessage) : String :=
  if attachment.externalLink ≠ "" then attachment.externalLink
  else origin ++ "/file/" ++ attachment.name ++ "/" ++ attachment.filename

structure Download where
  fileName : String
  data : Bytes
  createTime : Option String

/-- A time that is left out, or written. -/
def optionalIso (createTime : Option Int) : Option (Option String) :=
  match createTime with
  | none => some none
  | some seconds => (toISOString (timestampDate seconds)).map some

/-- A download that fails is left out, and so is one whose time cannot be
written. -/
def download (browser : Browser) (attachment : AttachmentMessage) (fileName : String) : Option Download := do
  let data ← browser.fetch (getAttachmentUrl browser.origin attachment)
  let createTime ← optionalIso attachment.createTime
  return { fileName, data, createTime }

def Download.entry (result : Download) : ZipEntry := ⟨attachmentsFolder ++ result.fileName, result.data⟩

def Download.export (result : Download) : AttachmentExport where
  path := attachmentsFolder ++ result.fileName
  name := result.fileName
  createTime := result.createTime

/-! ## The export -/

def visibilityName : Visibility -> String
  | .isPublic => "PUBLIC"
  | .isProtected => "PROTECTED"
  | .isPrivate => "PRIVATE"

def exportMemo (browser : Browser) (memo : MemoMessage) (downloads : List Download) : Option MemoExport := do
  let createTime ← optionalIso memo.createTime
  return { content := memo.content, visibility := some (visibilityName memo.visibility), tags := some memo.tags
           pinned := some memo.pinned, createTime := some (createTime.getD browser.exportedAt)
           attachments := some (downloads.map Download.export) }

def exportMemos (browser : Browser) (usedNames : List String) :
    List MemoMessage -> Option (List MemoExport × List ZipEntry)
  | [] => some ([], [])
  | memo :: rest => do
      let (named, used) := nameAttachments usedNames memo.attachments
      let downloads := named.filterMap fun (attachment, fileName) => download browser attachment fileName
      let exported ← exportMemo browser memo downloads
      let (others, entries) ← exportMemos browser used rest
      return (exported :: others, downloads.map Download.entry ++ entries)

/-- The memos that an export is made of: the own ones of the list that the
filters and the selection let through. -/
def memosToExport (listing : List MemoMessage) (user : Account) (selected : MemoMessage -> Bool) :
    List MemoMessage :=
  listing.filter fun memo => memo.creator = user.id && selected memo

/-- `handleExport` in the JSON format: the data and the files of the archive. -/
def handleExport (browser : Browser) (memosToExport : List MemoMessage) : Option (ExportData × List ZipEntry) :=
  if memosToExport = [] then none
  else do
    let (memos, entries) ← exportMemos browser [] memosToExport
    return ({ version := 1, exportedAt := some browser.exportedAt, memos }, entries)

def archive (browser : Browser) (data : ExportData) (files : List ZipEntry) : Bytes :=
  createZip browser.localTime (archiveEntries data files)

/-! ## Names of files again -/

/-- The characters up to the first dot, and those behind it. -/
theorem takeWhile_dot {chars : List Char} (hasDot : '.' ∈ chars) :
    Exists fun rest => chars = chars.takeWhile (fun c => c ≠ '.') ++ '.' :: rest := by
  induction chars with
  | nil => exact absurd hasDot List.not_mem_nil
  | cons c chars ih =>
      by_cases here : c = '.'
      · rw [here, List.takeWhile_cons_of_neg (by decide)]
        exact ⟨chars, rfl⟩
      · rcases ih ((List.mem_cons.mp hasDot).resolve_left (Ne.symm here)) with ⟨rest, parts⟩
        rw [List.takeWhile_cons_of_pos (by simpa using here)]
        exact ⟨rest, congrArg (c :: ·) parts⟩

theorem splitExtension_append (filename : String) :
    (splitExtension filename).1 ++ (splitExtension filename).2 = filename := by
  unfold splitExtension
  dsimp only
  split
  next hasDot =>
    rcases takeWhile_dot hasDot with ⟨base, parts⟩
    generalize filename.toList.reverse.takeWhile (fun c => c ≠ '.') = ext at parts
    have past : filename.toList.reverse.drop (ext.reverse.length + 1) = base := by
      rw [parts, List.length_reverse, ← List.drop_drop, List.drop_left]
      rfl
    have whole : filename.toList = base.reverse ++ '.' :: ext.reverse := by
      rw [← List.reverse_reverse filename.toList, parts]
      simp
    apply String.toList_injective
    rw [String.toList_append, String.toList_ofList, String.toList_ofList, past, whole]
  next => exact String.append_empty

/-- What the loop tries one after the other. -/
def candidate (filename : String) : Nat -> String
  | 0 => filename
  | counter + 1 => numberedName filename (counter + 1)

theorem numberedName_length (filename : String) (counter : Nat) :
    filename.length < (numberedName filename counter).length := by
  have whole := congrArg String.length (splitExtension_append filename)
  have mark : ("_" : String).length = 1 := rfl
  rw [String.length_append] at whole
  unfold numberedName
  rw [String.length_append, String.length_append, String.length_append, mark]
  omega

theorem numberedName_injective (filename : String) {first second : Nat}
    (same : numberedName filename first = numberedName filename second) : first = second := by
  have lists := congrArg String.toList same
  simp only [numberedName, String.toList_append, List.append_assoc] at lists
  have digits := List.append_cancel_right (List.append_cancel_left (List.append_cancel_left lists))
  have text (number : Nat) : (toString number).toList = Nat.toDigits 10 number := Nat.toList_repr
  rw [text, text] at digits
  rw [← @Nat.ofDigitChars_ten_toDigits first, digits, Nat.ofDigitChars_ten_toDigits]

theorem candidate_injective (filename : String) {first second : Nat}
    (same : candidate filename first = candidate filename second) : first = second := by
  cases first with
  | zero =>
      cases second with
      | zero => rfl
      | succ second =>
          have longer := numberedName_length filename (second + 1)
          have equal : filename = numberedName filename (second + 1) := same
          rw [← equal] at longer
          exact absurd longer (Nat.lt_irrefl _)
  | succ first =>
      cases second with
      | zero =>
          have longer := numberedName_length filename (first + 1)
          have equal : numberedName filename (first + 1) = filename := same
          rw [equal] at longer
          exact absurd longer (Nat.lt_irrefl _)
      | succ second => exact numberedName_injective filename same

/-- The loop ends with a candidate, and all that it has passed over are used. -/
theorem findName_spec (usedNames : List String) (filename : String) (turns tried : Nat) :
    Exists fun found => findName usedNames filename turns (tried + 1) (candidate filename tried) =
        candidate filename found ∧ tried ≤ found ∧
      (candidate filename found ∉ usedNames ∨ found = tried + turns ∧
        ∀ passed, tried ≤ passed -> passed < found -> candidate filename passed ∈ usedNames) := by
  induction turns generalizing tried with
  | zero => exact ⟨tried, rfl, Nat.le_refl _, Or.inr ⟨rfl, fun passed low high => absurd low (by omega)⟩⟩
  | succ turns ih =>
      rw [findName]
      by_cases used : candidate filename tried ∈ usedNames
      · rw [if_pos used]
        rcases ih (tried + 1) with ⟨found, same, later, free | ⟨last, all⟩⟩
        · exact ⟨found, same, by omega, Or.inl free⟩
        · refine ⟨found, same, by omega, Or.inr ⟨by omega, fun passed low high => ?_⟩⟩
          by_cases here : passed = tried
          · rw [here]
            exact used
          · exact all passed (by omega) high
      · rw [if_neg used]
        exact ⟨tried, rfl, Nat.le_refl _, Or.inl used⟩

theorem uniqueName_spec (usedNames : List String) (filename : String) :
    uniqueName usedNames filename ∉ usedNames ∧
      (uniqueName usedNames filename = filename ∨
        filename.length < (uniqueName usedNames filename).length) := by
  rcases findName_spec usedNames filename (usedNames.length + 1) 0 with ⟨found, same, _, outcome⟩
  have name : uniqueName usedNames filename = candidate filename found := same
  rw [name]
  constructor
  · rcases outcome with free | ⟨last, all⟩
    · exact free
    · exfalso
      have tried : ((List.range found).map (candidate filename)).Nodup :=
        List.Nodup.map (fun _ _ => candidate_injective filename) List.nodup_range
      have inside : (List.range found).map (candidate filename) ⊆ usedNames := by
        intro name member
        rcases List.mem_map.mp member with ⟨passed, low, rfl⟩
        exact all passed (Nat.zero_le _) (List.mem_range.mp low)
      have bounded := (tried.subperm inside).length_le
      rw [List.length_map, List.length_range] at bounded
      omega
  · cases found with
    | zero => exact Or.inl rfl
    | succ found => exact Or.inr (numberedName_length filename (found + 1))

theorem uniqueName_free {usedNames : List String} {filename : String} (free : filename ∉ usedNames) :
    uniqueName usedNames filename = filename := by
  rw [uniqueName, findName, if_neg free]

/-- The names that the files get one after the other. -/
def uniqueNames (usedNames : List String) : List String -> List String
  | [] => []
  | filename :: rest =>
      uniqueName usedNames filename :: uniqueNames (uniqueName usedNames filename :: usedNames) rest

theorem length_uniqueNames (usedNames filenames : List String) :
    (uniqueNames usedNames filenames).length = filenames.length := by
  induction filenames generalizing usedNames with
  | nil => rfl
  | cons filename rest ih =>
      rw [uniqueNames, List.length_cons, List.length_cons, ih]

theorem uniqueNames_append (usedNames first second : List String) :
    uniqueNames usedNames (first ++ second) =
      uniqueNames usedNames first ++ uniqueNames ((uniqueNames usedNames first).reverse ++ usedNames) second := by
  induction first generalizing usedNames with
  | nil => rfl
  | cons filename rest ih =>
      rw [List.cons_append, uniqueNames, uniqueNames, ih]
      simp

theorem uniqueNames_fresh (usedNames filenames : List String) :
    (uniqueNames usedNames filenames).Nodup ∧ ∀ name, name ∈ uniqueNames usedNames filenames -> name ∉ usedNames := by
  induction filenames generalizing usedNames with
  | nil => exact ⟨List.nodup_nil, fun name member => absurd member List.not_mem_nil⟩
  | cons filename rest ih =>
      rcases ih (uniqueName usedNames filename :: usedNames) with ⟨different, fresh⟩
      rw [uniqueNames]
      refine ⟨List.nodup_cons.mpr ⟨fun again => fresh _ again List.mem_cons_self, different⟩, ?_⟩
      intro name member
      rcases List.mem_cons.mp member with rfl | later
      · exact (uniqueName_spec usedNames filename).1
      · exact fun used => fresh name later (List.mem_cons_of_mem _ used)

/-- A file keeps its name or gets a longer one. -/
theorem uniqueNames_longer (usedNames filenames : List String) :
    List.Forall₂ (fun filename name => name = filename ∨ filename.length < name.length) filenames
      (uniqueNames usedNames filenames) := by
  induction filenames generalizing usedNames with
  | nil => exact List.Forall₂.nil
  | cons filename rest ih =>
      exact List.Forall₂.cons (uniqueName_spec usedNames filename).2 (ih _)

/-- Names that differ stay as they are. -/
theorem uniqueNames_self {usedNames filenames : List String} (different : filenames.Nodup)
    (free : ∀ filename, filename ∈ filenames -> filename ∉ usedNames) :
    uniqueNames usedNames filenames = filenames := by
  induction filenames generalizing usedNames with
  | nil => rfl
  | cons filename rest ih =>
      rcases List.nodup_cons.mp different with ⟨notLater, others⟩
      rw [uniqueNames, uniqueName_free (free filename List.mem_cons_self), ih others]
      intro other member used
      rcases List.mem_cons.mp used with rfl | before
      · exact notLater member
      · exact free other (List.mem_cons_of_mem _ member) before

theorem nameAttachments_eq (usedNames : List String) (attachments : List AttachmentMessage) :
    nameAttachments usedNames attachments =
      (attachments.zip (uniqueNames usedNames (attachments.map AttachmentMessage.filename)),
        (uniqueNames usedNames (attachments.map AttachmentMessage.filename)).reverse ++ usedNames) := by
  induction attachments generalizing usedNames with
  | nil => rfl
  | cons attachment rest ih =>
      rw [nameAttachments, ih, List.map_cons, uniqueNames]
      simp

/-! ## Parcels -/

/-- A memo with its attachments and the names that the archive gives them. -/
structure Parcel where
  memo : MemoRow
  files : List (AttachmentRow × String)

def pack (source : Tables) (usedNames : List String) : List MemoRow -> List Parcel
  | [] => []
  | memo :: rest =>
      let rows := source.attachmentsOf memo.id
      let names := uniqueNames usedNames (rows.map AttachmentRow.filename)
      ⟨memo, rows.zip names⟩ :: pack source (names.reverse ++ usedNames) rest

def Parcel.downloads (browser : Browser) (parcel : Parcel) : List Download :=
  parcel.files.filterMap fun file => download browser (convertAttachment file.1) file.2

def Parcel.export (source : Tables) (browser : Browser) (parcel : Parcel) : Option MemoExport :=
  exportMemo browser (source.convertMemo parcel.memo) (parcel.downloads browser)

/-- The export packs one parcel after the other. -/
theorem exportMemos_pack (source : Tables) (browser : Browser) (usedNames : List String) (memos : List MemoRow) :
    exportMemos browser usedNames (memos.map source.convertMemo) =
      ((pack source usedNames memos).mapM (Parcel.export source browser)).map fun exports =>
        (exports, ((pack source usedNames memos).flatMap (Parcel.downloads browser)).map Download.entry) := by
  induction memos generalizing usedNames with
  | nil => rfl
  | cons memo rest ih =>
      have filenames : (source.convertMemo memo).attachments.map AttachmentMessage.filename =
          (source.attachmentsOf memo.id).map AttachmentRow.filename := by
        unfold Tables.convertMemo
        rw [List.map_map]
        rfl
      have named (names : List String) : (((source.convertMemo memo).attachments.zip names).filterMap fun file =>
          download browser file.1 file.2) = Parcel.downloads browser
            ⟨memo, (source.attachmentsOf memo.id).zip names⟩ := by
        unfold Tables.convertMemo Parcel.downloads
        rw [List.zip_map_left, List.filterMap_map]
        rfl
      rw [List.map_cons, exportMemos, nameAttachments_eq, filenames, pack]
      dsimp only
      rw [named, ih, List.mapM_cons]
      have packed (parcel : Parcel) (same : parcel.memo = memo) :
          exportMemo browser (source.convertMemo memo) (parcel.downloads browser) =
            parcel.export source browser := by
        rw [Parcel.export, same]
      rw [packed _ rfl]
      generalize pack source _ rest = parcels
      cases (Parcel.export source browser _) with
      | none => rfl
      | some exported =>
          cases parcels.mapM (Parcel.export source browser) with
          | none => rfl
          | some others => simp

theorem pack_memos (source : Tables) (usedNames : List String) (memos : List MemoRow) :
    (pack source usedNames memos).map Parcel.memo = memos := by
  induction memos generalizing usedNames with
  | nil => rfl
  | cons memo rest ih => exact congrArg (memo :: ·) (ih _)

/-- The parcels together hold the attachments of all memos, with their names. -/
theorem pack_files (source : Tables) (usedNames : List String) (memos : List MemoRow) :
    (pack source usedNames memos).flatMap Parcel.files =
      (memos.flatMap fun memo => source.attachmentsOf memo.id).zip
        (uniqueNames usedNames ((memos.flatMap fun memo => source.attachmentsOf memo.id).map AttachmentRow.filename)) := by
  induction memos generalizing usedNames with
  | nil => rfl
  | cons memo rest ih =>
      rw [pack, List.flatMap_cons, List.flatMap_cons, ih, List.map_append, uniqueNames_append,
        List.zip_append]
      rw [length_uniqueNames, List.length_map]

theorem pack_rows {source : Tables} {usedNames : List String} {memos : List MemoRow} {parcel : Parcel}
    (member : parcel ∈ pack source usedNames memos) :
    parcel.files.map Prod.fst = source.attachmentsOf parcel.memo.id := by
  induction memos generalizing usedNames with
  | nil => exact absurd member List.not_mem_nil
  | cons memo rest ih =>
      rw [pack] at member
      rcases List.mem_cons.mp member with rfl | later
      · exact List.map_fst_zip (by rw [length_uniqueNames, List.length_map])
      · exact ih later

end Web
end Memos
