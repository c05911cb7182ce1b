import Memos.Web.Faithful

namespace Memos
namespace Web

open Library Service
open Store (RowStatus Visibility)

/-!
# Importing again

An archive that is imported into the account that it comes from.
-/

/-! ## The archive of an account and its memos -/

/-- An archive that its 32 and 16 bit fields can address. -/
structure Exports (source : Tables) (owner : Account) (selected : MemoMessage -> Bool) (browser : Browser)
    (data : ExportData) (files : List ZipEntry) : Prop where
  exported : handleExport browser (memosToExport (source.listing owner) owner selected) = some (data, files)
  addressable : (archive browser data files).length < 4294967296
  names : ∀ file, file ∈ files -> file.nameBytes.length < 65536

/-- Every memo of a file is skipped. -/
def AllSkipped (decoder : TextDecoder) (file : Bytes) (listing : List MemoMessage) (user : Account) : Prop :=
  Exists fun parsed => Exists fun preview =>
    handleFileSelected decoder file listing user.id = some (parsed, preview) ∧ preview.newMemos = [] ∧
      preview.updateMemos = [] ∧ preview.skippedCount = parsed.data.memos.length

/-- The own memos of the list. -/
def ownRows (source : Tables) (owner : Account) : List MemoRow :=
  (source.listMemos owner).filter fun memo => memo.creatorId = owner.id

/-- The times of the own memos can be written. -/
def Written (source : Tables) (owner : Account) : Prop :=
  ∀ memo, memo ∈ ownRows source owner -> (toISOString (timestampDate memo.createdTs)).isSome

theorem ownRows_listing (source : Tables) (owner : Account) :
    (source.listing owner).filter (fun memo => memo.creator = owner.id) =
      (ownRows source owner).map source.convertMemo := by
  unfold Tables.listing ownRows
  rw [List.filter_map]
  rfl

theorem exportedRows_sublist (source : Tables) (owner : Account) (selected : MemoMessage -> Bool) :
    (exportedRows source owner selected).Sublist (ownRows source owner) := by
  unfold exportedRows ownRows
  exact List.monotone_filter_right _ fun memo both => (Bool.and_eq_true_iff.mp both).1

/-- The last memo of the list that has the content and the time of a memo. -/
def lastDouble (source : Tables) (owner : Account) (memo : MemoRow) : Option MemoRow :=
  (ownRows source owner).reverse.find? fun other =>
    memoKey (source.convertMemo other) = memoKey (source.convertMemo memo)

def MemoRow.filenames (source : Tables) (memo : MemoRow) : List String :=
  (source.attachmentsOf memo.id).map AttachmentRow.filename

theorem convertMemo_filenames (source : Tables) (memo : MemoRow) :
    (source.convertMemo memo).filenames = memo.filenames source := by
  unfold MemoMessage.filenames Tables.convertMemo MemoRow.filenames
  rw [List.map_map]
  rfl

variable {source : Tables}

theorem counterpart_export {owner : Account} {memo : MemoRow} {key : String}
    (same : memoKey (source.convertMemo memo) = some key) :
    counterpart ((ownRows source owner).map source.convertMemo) key =
      (lastDouble source owner memo).map source.convertMemo := by
  unfold counterpart lastDouble
  rw [← List.map_reverse, List.find?_map, same]
  rfl

theorem Parcel.export_key {browser : Browser} {parcel : Parcel} {memo : MemoExport}
    (exported : parcel.export source browser = some memo) :
    memoKey (source.convertMemo parcel.memo) = some memo.key := by
  unfold Parcel.export exportMemo at exported
  rcases Option.bind_eq_some_iff.mp exported with ⟨createTime, written, finished⟩
  cases finished
  unfold optionalIso Tables.convertMemo at written
  rcases Option.map_eq_some_iff.mp written with ⟨text, iso, rfl⟩
  unfold memoKey memoTime Tables.convertMemo
  dsimp only
  rw [iso]
  rfl

theorem Parcel.export_names {browser : Browser} {parcel : Parcel} {memo : MemoExport}
    (exported : parcel.export source browser = some memo) :
    memo.files.map AttachmentExport.name = (parcel.downloads browser).map Download.fileName := by
  unfold Parcel.export exportMemo at exported
  rcases Option.bind_eq_some_iff.mp exported with ⟨createTime, written, finished⟩
  cases finished
  unfold MemoExport.files
  rw [Option.getD_some, List.map_map]
  rfl

theorem memoKey_isSome {memo : MemoRow} :
    (memoKey (source.convertMemo memo)).isSome ↔ (toISOString (timestampDate memo.createdTs)).isSome := by
  unfold memoKey memoTime Tables.convertMemo
  dsimp only
  cases toISOString (timestampDate memo.createdTs) with
  | none => exact Iff.rfl
  | some text => exact ⟨fun _ => rfl, fun _ => rfl⟩

theorem existingByKey_written (source : Tables) (owner : Account) :
    (existingByKey ((ownRows source owner).map source.convertMemo)).isSome ↔ Written source owner := by
  rw [existingByKey_isSome, List.forall_mem_map]
  exact forall₂_congr fun memo _ => memoKey_isSome

section Archives

variable {source : Tables} {owner : Account} {selected : MemoMessage -> Bool} {browser : Browser}
  {data : ExportData} {files : List ZipEntry}

/-- An exported memo finds the last of its doubles in the list. -/
theorem lastDouble_exists {memo : MemoRow} (member : memo ∈ ownRows source owner) :
    Exists fun double => lastDouble source owner memo = some double ∧ double ∈ ownRows source owner ∧
      memoKey (source.convertMemo double) = memoKey (source.convertMemo memo) := by
  unfold lastDouble
  cases found : (ownRows source owner).reverse.find? fun other =>
      memoKey (source.convertMemo other) = memoKey (source.convertMemo memo) with
  | none => exact absurd (decide_eq_true rfl) (List.find?_eq_none.mp found memo (List.mem_reverse.mpr member))
  | some double =>
      exact ⟨double, rfl, List.mem_reverse.mp (List.mem_of_find?_eq_some found), by simpa using List.find?_some found⟩

theorem skips_export {keyed : List (String × MemoMessage)} {parcel : Parcel} {memo : MemoExport}
    (existing : existingByKey ((ownRows source owner).map source.convertMemo) = some keyed)
    (member : parcel.memo ∈ ownRows source owner) (made : parcel.export source browser = some memo) :
    (∀ double, lastDouble source owner parcel.memo = some double ->
      ∀ result, result ∈ parcel.downloads browser -> result.fileName ∈ double.filenames source) ↔
    Skips keyed memo := by
  rcases lastDouble_exists member with ⟨double, last, _, _⟩
  unfold Skips
  rw [lookup_existingByKey existing, counterpart_export (Parcel.export_key made), last, Option.map_some]
  have names : (∀ result, result ∈ parcel.downloads browser -> result.fileName ∈ double.filenames source) ↔
      ∀ attachment, attachment ∈ memo.files -> attachment.name ∈ double.filenames source := by
    rw [← @List.forall_mem_map _ _ Download.fileName, ← Parcel.export_names made, List.forall_mem_map]
  constructor
  · intro all
    refine ⟨source.convertMemo double, rfl, ?_⟩
    rw [convertMemo_filenames]
    exact names.mp (all double rfl)
  · rintro ⟨found, same, inside⟩ other sameDouble
    cases same
    cases sameDouble
    rw [convertMemo_filenames] at inside
    exact names.mpr inside

/-- When the own archive is skipped as a whole. -/
theorem allSkipped_iff (exports : Exports source owner selected browser data files) (decoder : TextDecoder) :
    AllSkipped decoder (archive browser data files) (source.listing owner) owner ↔
      (files.length + 1) % 65536 ≠ 0 ∧
      Written source owner ∧
      ∀ parcel, parcel ∈ pack source [] (exportedRows source owner selected) ->
        ∀ double, lastDouble source owner parcel.memo = some double ->
          ∀ result, result ∈ parcel.downloads browser -> result.fileName ∈ double.filenames source := by
  have exported := exports.exported
  rw [memosToExport_listing] at exported
  rcases handleExport_some exported with ⟨_, current, packed, entries⟩
  have parsed := @foundFiles_archive decoder browser data files _ current entries exports.addressable exports.names
  have inOwn (parcel : Parcel) (member : parcel ∈ pack source [] (exportedRows source owner selected)) :
      parcel.memo ∈ ownRows source owner := by
    have inList := List.mem_map_of_mem (f := Parcel.memo) member
    rw [pack_memos] at inList
    exact (exportedRows_sublist source owner selected).subset inList
  have written := existingByKey_written source owner
  unfold AllSkipped handleFileSelected generateImportPreview
  rw [parsed, ownRows_listing]
  cases counted : (files.length + 1) % 65536 with
  | zero =>
      constructor
      · rintro ⟨_, _, selectedFile, _⟩
        cases selectedFile
      · exact fun readable => absurd rfl readable.1
  | succ count =>
      dsimp only
      cases existing : existingByKey ((ownRows source owner).map source.convertMemo) with
      | none =>
          rw [existing] at written
          constructor
          · rintro ⟨_, _, selectedFile, _⟩
            cases selectedFile
          · exact fun readable => absurd (written.mpr readable.2.1) Bool.false_ne_true
      | some keyed =>
          rw [existing] at written
          have skips := forall_iff_of_forall₂ packed (fun parcel memo member made =>
            skips_export existing (inOwn parcel member) made)
          constructor
          · rintro ⟨chosen, preview, selectedFile, new, update, _⟩
            cases selectedFile
            exact ⟨Nat.succ_ne_zero count, written.mp rfl, skips.mpr (foldl_previewMemo_idle.mp ⟨new, update⟩)⟩
          · rintro ⟨_, _, all⟩
            have idle := foldl_previewMemo_skips (skips.mp all) {}
            refine ⟨_, _, rfl, ?_, ?_, ?_⟩
            · rw [idle]
            · rw [idle]
            · rw [idle]
              exact Nat.zero_add _

end Archives

/-! ## Names that are kept -/

/-- The attachments of all memos together. -/
def attachmentsOfAll (source : Tables) (memos : List MemoRow) : List AttachmentRow :=
  memos.flatMap fun memo => source.attachmentsOf memo.id

section Archives

variable {source : Tables} {owner : Account} {browser : Browser} {memos : List MemoRow}

variable {parcel : Parcel} {file : AttachmentRow × String}

theorem mem_files_of_parcel (member : parcel ∈ pack source [] memos) (inParcel : file ∈ parcel.files) :
    file ∈ (pack source [] memos).flatMap Parcel.files :=
  List.mem_flatMap.mpr ⟨parcel, member, inParcel⟩

/-- A file of a parcel has the name of its attachment or a longer one. -/
theorem parcel_longer (member : file ∈ (pack source [] memos).flatMap Parcel.files) :
    file.2 = file.1.filename ∨ file.1.filename.length < file.2.length := by
  rw [pack_files] at member
  have grows := uniqueNames_longer [] ((attachmentsOfAll source memos).map AttachmentRow.filename)
  rw [List.forall₂_map_left_iff] at grows
  exact List.forall₂_zip grows member

theorem parcel_named (different : ((attachmentsOfAll source memos).map AttachmentRow.filename).Nodup)
    (member : file ∈ (pack source [] memos).flatMap Parcel.files) :
    file.2 = file.1.filename := by
  unfold attachmentsOfAll at different
  rw [pack_files, uniqueNames_self different fun _ _ => List.not_mem_nil] at member
  have same : List.Forall₂ (fun row name => name = AttachmentRow.filename row) (attachmentsOfAll source memos)
      ((attachmentsOfAll source memos).map AttachmentRow.filename) :=
    List.forall₂_map_right_iff.mpr (List.forall₂_same.mpr fun row _ => rfl)
  exact List.forall₂_zip same member

theorem parcel_filenames (member : parcel ∈ pack source [] memos) :
    parcel.files.map (fun file => file.1.filename) = parcel.memo.filenames source := by
  rw [MemoRow.filenames, ← pack_rows member, List.map_map]
  rfl

theorem memo_of_parcel (member : parcel ∈ pack source [] memos) : parcel.memo ∈ memos := by
  have inList := List.mem_map_of_mem (f := Parcel.memo) member
  rw [pack_memos] at inList
  exact inList

theorem parcel_of_memo {memo : MemoRow} (member : memo ∈ memos) :
    Exists fun parcel => parcel ∈ pack source [] memos ∧ parcel.memo = memo := by
  rw [← pack_memos source [] memos] at member
  exact List.mem_map.mp member

/-- Every attachment is downloaded, and its time can be written. -/
def AllDownloaded (source : Tables) (browser : Browser) (memos : List MemoRow) : Prop :=
  ∀ row, row ∈ attachmentsOfAll source memos ->
    (browser.fetch (getAttachmentUrl browser.origin (convertAttachment row))).isSome ∧
      (toISOString (timestampDate row.createdTs)).isSome

theorem download_isSome {row : AttachmentRow} {fileName : String}
    (fetched : (browser.fetch (getAttachmentUrl browser.origin (convertAttachment row))).isSome)
    (iso : (toISOString (timestampDate row.createdTs)).isSome) :
    (download browser (convertAttachment row) fileName).isSome := by
  rcases Option.isSome_iff_exists.mp fetched with ⟨data, body⟩
  rcases Option.isSome_iff_exists.mp iso with ⟨text, written⟩
  have time : optionalIso (convertAttachment row).createTime = some (some text) := by
    unfold optionalIso convertAttachment
    dsimp only
    rw [written]
    rfl
  unfold download
  rw [body, time]
  rfl

theorem downloads_names (downloaded : AllDownloaded source browser memos) (member : parcel ∈ pack source [] memos) :
    (parcel.downloads browser).map Download.fileName = parcel.files.map Prod.snd := by
  apply List.Sublist.eq_of_length
  · exact labels_sublist fun file _ result success => (download_some success).1
  · rw [List.length_map, List.length_map]
    apply List.filterMap_length_eq_length.mpr
    intro file inParcel
    rcases downloaded file.1 (mem_packed_fst (mem_files_of_parcel member inParcel)) with ⟨fetched, iso⟩
    exact download_isSome fetched iso

/-- The memos that are not the last of their doubles have no attachments, and no
filename is there twice. -/
structure Distinguished (source : Tables) (owner : Account) (memos : List MemoRow) : Prop where
  different : ((attachmentsOfAll source memos).map AttachmentRow.filename).Nodup
  single : ∀ memo, memo ∈ memos -> lastDouble source owner memo ≠ some memo -> source.attachmentsOf memo.id = []

theorem names_of_distinguished (distinguished : Distinguished source owner memos)
    (member : parcel ∈ pack source [] memos) {double : MemoRow}
    (last : lastDouble source owner parcel.memo = some double) (inParcel : file ∈ parcel.files) :
    file.2 ∈ double.filenames source := by
  have inFilenames : file.1.filename ∈ parcel.memo.filenames source := by
    rw [← parcel_filenames member]
    exact List.mem_map_of_mem inParcel
  have own : lastDouble source owner parcel.memo = some parcel.memo := by
    by_contra other
    have none := distinguished.single parcel.memo (memo_of_parcel member) other
    rw [MemoRow.filenames, none] at inFilenames
    exact List.not_mem_nil inFilenames
  rw [own, Option.some_inj] at last
  rw [← last, parcel_named distinguished.different (mem_files_of_parcel member inParcel)]
  exact inFilenames

section Kept

variable (kept : ∀ parcel, parcel ∈ pack source [] memos -> ∀ double,
  lastDouble source owner parcel.memo = some double ->
    ∀ file, file ∈ parcel.files -> file.2 ∈ double.filenames source)

theorem parcel_names_nodup (source : Tables) (memos : List MemoRow) :
    ((pack source [] memos).flatMap fun parcel => parcel.files.map Prod.snd).Nodup := by
  rw [← List.map_flatMap, pack_files, List.map_snd_zip (by rw [length_uniqueNames, List.length_map])]
  exact (uniqueNames_fresh [] _).1

include kept

/-- A memo that finds itself keeps the names of its attachments: they do not get
shorter, and there are as many of them. -/
theorem last_named {parcel : Parcel} (member : parcel ∈ pack source [] memos)
    (last : lastDouble source owner parcel.memo = some parcel.memo) {file : AttachmentRow × String}
    (inParcel : file ∈ parcel.files) : file.2 = file.1.filename := by
  have distinct := (List.nodup_flatMap.mp (parcel_names_nodup source memos)).1 parcel member
  have inside : parcel.files.map Prod.snd ⊆ parcel.files.map fun file => file.1.filename := by
    intro name inNames
    rcases List.mem_map.mp inNames with ⟨other, otherFile, rfl⟩
    rw [parcel_filenames member]
    exact kept parcel member parcel.memo last other otherFile
  have same := (distinct.subperm inside).perm_of_length_le (by rw [List.length_map, List.length_map])
  have all : parcel.files.filterMap (fun file => some file.2) = parcel.files.map Prod.snd :=
    filterMap_eq_map fun _ _ => rfl
  have lengths := @sizes_kept _ _ parcel.files (fun file => file.1.filename) (fun file => some file.2) String.length
    (by rw [all]; exact same.symm)
    (fun other otherFile name arrives => by
      cases arrives
      rcases parcel_longer (mem_files_of_parcel member otherFile) with equal | longer
      · rw [equal]
      · exact Nat.le_of_lt longer) file inParcel file.2 rfl
  rcases parcel_longer (mem_files_of_parcel member inParcel) with equal | longer
  · exact equal
  · exact absurd lengths (Nat.ne_of_gt longer)

theorem distinguished_of_names
    (complete : ∀ memo, memo ∈ memos -> ∀ double, lastDouble source owner memo = some double -> double ∈ memos)
    (own : ∀ memo, memo ∈ memos -> memo ∈ ownRows source owner) : Distinguished source owner memos := by
  have single (memo : MemoRow) (member : memo ∈ memos) (other : lastDouble source owner memo ≠ some memo) :
      source.attachmentsOf memo.id = [] := by
    rcases lastDouble_exists (own memo member) with ⟨double, last, _, sameKey⟩
    rcases @parcel_of_memo source memos memo member with ⟨parcel, inPack, rfl⟩
    rcases @parcel_of_memo source memos double (complete _ member double last) with ⟨found, foundInPack, rfl⟩
    have foundLast : lastDouble source owner found.memo = some found.memo := by
      unfold lastDouble at last ⊢
      rw [sameKey]
      exact last
    have noFile : parcel.files = [] := by
      apply List.eq_nil_iff_forall_not_mem.mpr
      intro file inParcel
      have inFound : file.2 ∈ found.files.map Prod.snd := by
        have shared := kept parcel inPack found.memo last file inParcel
        rw [← parcel_filenames foundInPack] at shared
        rcases List.mem_map.mp shared with ⟨twin, twinFile, same⟩
        rw [← same, ← last_named kept foundInPack foundLast twinFile]
        exact List.mem_map_of_mem twinFile
      have same := box_of_nodup (parcel_names_nodup source memos) inPack foundInPack
        (List.mem_map_of_mem inParcel) inFound
      exact other (same ▸ foundLast)
    rw [← pack_rows inPack, noFile]
    rfl
  have named (file : AttachmentRow × String) (member : file ∈ (pack source [] memos).flatMap Parcel.files) :
      file.2 = file.1.filename := by
    rcases List.mem_flatMap.mp member with ⟨parcel, inPack, inParcel⟩
    have last : lastDouble source owner parcel.memo = some parcel.memo := by
      by_contra other
      have none := single parcel.memo (memo_of_parcel inPack) other
      rw [← pack_rows inPack] at none
      rw [List.map_eq_nil_iff.mp none] at inParcel
      exact List.not_mem_nil inParcel
    exact last_named kept inPack last inParcel
  refine ⟨?_, single⟩
  have names := parcel_names_nodup source memos
  have rows : ((pack source [] memos).flatMap Parcel.files).map Prod.fst = attachmentsOfAll source memos := by
    rw [pack_files, List.map_fst_zip (by rw [length_uniqueNames, List.length_map])]
    rfl
  rw [← List.map_flatMap, List.map_congr_left named] at names
  rw [← rows, List.map_map]
  exact names

end Kept

end Archives

/-! ## An own archive -/

section Archives

variable {source : Tables} {owner : Account} {selected : MemoMessage -> Bool} {browser : Browser}
  {data : ExportData} {files : List ZipEntry}

/-- For any selection it is enough that no filename is there twice and that a
memo has no attachments that the last of its doubles lacks. -/
theorem allSkipped_of_filenames (exports : Exports source owner selected browser data files) (decoder : TextDecoder)
    (counted : (files.length + 1) % 65536 ≠ 0) (writable : Written source owner)
    (different : ((attachmentsOfAll source (exportedRows source owner selected)).map AttachmentRow.filename).Nodup)
    (shared : ∀ memo, memo ∈ exportedRows source owner selected -> ∀ double,
      lastDouble source owner memo = some double -> memo.filenames source ⊆ double.filenames source) :
    AllSkipped decoder (archive browser data files) (source.listing owner) owner := by
  refine (allSkipped_iff exports decoder).mpr ⟨counted, writable, fun parcel member double last result inDownloads => ?_⟩
  rcases List.mem_filterMap.mp inDownloads with ⟨file, inParcel, success⟩
  rw [(download_some success).1, parcel_named different (mem_files_of_parcel member inParcel)]
  apply shared parcel.memo (memo_of_parcel member) double last
  rw [← parcel_filenames member]
  exact List.mem_map_of_mem inParcel

/-- For a selection with the last double of every memo it is also needed. -/
theorem allSkipped_iff_distinguished (exports : Exports source owner selected browser data files)
    (decoder : TextDecoder)
    (complete : ∀ memo, memo ∈ exportedRows source owner selected -> ∀ double,
      lastDouble source owner memo = some double -> double ∈ exportedRows source owner selected)
    (downloaded : AllDownloaded source browser (exportedRows source owner selected)) :
    AllSkipped decoder (archive browser data files) (source.listing owner) owner ↔
      ((attachmentsOfAll source (exportedRows source owner selected)).length + 1) % 65536 ≠ 0 ∧
      Written source owner ∧
      Distinguished source owner (exportedRows source owner selected) := by
  have exported := exports.exported
  rw [memosToExport_listing] at exported
  rcases handleExport_some exported with ⟨_, _, _, entries⟩
  have count : files.length = (attachmentsOfAll source (exportedRows source owner selected)).length := by
    have all : ((pack source [] (exportedRows source owner selected)).flatMap (Parcel.downloads browser)).length =
        ((pack source [] (exportedRows source owner selected)).flatMap Parcel.files).length := by
      rw [flatMap_downloads]
      apply List.filterMap_length_eq_length.mpr
      intro file member
      rcases downloaded file.1 (mem_packed_fst member) with ⟨fetched, iso⟩
      exact download_isSome fetched iso
    rw [entries, List.length_map, all, pack_files, List.length_zip, length_uniqueNames, List.length_map, Nat.min_self]
    rfl
  rw [allSkipped_iff exports decoder, count]
  refine and_congr_right fun _ => and_congr_right fun _ => ?_
  have names : (∀ parcel, parcel ∈ pack source [] (exportedRows source owner selected) -> ∀ double,
      lastDouble source owner parcel.memo = some double ->
        ∀ result, result ∈ parcel.downloads browser -> result.fileName ∈ double.filenames source) ↔
      ∀ parcel, parcel ∈ pack source [] (exportedRows source owner selected) -> ∀ double,
        lastDouble source owner parcel.memo = some double ->
          ∀ file, file ∈ parcel.files -> file.2 ∈ double.filenames source := by
    refine forall₂_congr fun parcel member => forall₂_congr fun double _ => ?_
    rw [← @List.forall_mem_map _ _ Download.fileName, downloads_names downloaded member, List.forall_mem_map]
  rw [names]
  constructor
  · intro kept
    exact distinguished_of_names kept complete fun memo member =>
      (exportedRows_sublist source owner selected).subset member
  · intro distinguished parcel member double last file inParcel
    exact names_of_distinguished distinguished member last inParcel

/-! ## Importing again -/

end Archives

/-! ## Notes again -/

theorem exports_note : Exports (noteAccount false) ⟨1, false⟩ (fun _ => true) noteBrowser (noteArchive false).1
    (noteArchive false).2 where
  exported := handleExport_note false
  addressable := note_addressable false
  names := fun file member => (note_short member).1.trans_lt (by decide)

end Web
end Memos
