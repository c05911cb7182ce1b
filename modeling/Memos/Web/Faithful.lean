import Memos.Web.Arrivals

namespace Memos
namespace Web

open Library Service
open Store (RowStatus Visibility)

/-!
# From one account to another

An account is exported and the archive is imported into an empty account.  The
memos that arrive are those that were exported exactly when none of the places
where the way alters something is met: the pinned flag, names that are renamed,
times that the server replaces, types and pictures that it rewrites, and the
number of files, which the archive keeps in 16 bits.
-/

/-! ## What arrives of a parcel -/

theorem toISOString_nonempty {ms : Int} {text : String} (written : toISOString ms = some text) : text ≠ "" := by
  unfold toISOString at written
  split at written
  next =>
    cases written
    intro empty
    have noChars : isoText ms = [] := by
      have read := @String.toList_ofList (isoText ms)
      rw [empty] at read
      exact read.symm
    unfold isoText at noChars
    dsimp only at noChars
    exact List.cons_ne_nil _ _ (List.append_eq_nil_iff.mp noChars).2
  next => cases written

theorem Importer.timestamp_iso (importer : Importer) {ms : Int} {text : String}
    (written : toISOString ms = some text) : importer.timestamp (some text) = .ok (some (timestampFromDate ms)) := by
  unfold timestamp
  dsimp only
  rw [if_neg (toISOString_nonempty written), importer.parser.newDate_toISOString written]

theorem download_some {browser : Browser} {attachment : AttachmentMessage} {fileName : String} {result : Download}
    (success : download browser attachment fileName = some result) :
    result.fileName = fileName ∧ browser.fetch (getAttachmentUrl browser.origin attachment) = some result.data ∧
      optionalIso attachment.createTime = some result.createTime := by
  unfold download at success
  rcases Option.bind_eq_some_iff.mp success with ⟨data, fetched, rest⟩
  rcases Option.bind_eq_some_iff.mp rest with ⟨createTime, written, finished⟩
  cases finished
  exact ⟨rfl, fetched, written⟩

/-- What becomes of a file on its way through the archive. -/
def Importer.delivery (importer : Importer) (browser : Browser) (files : List (String × Bytes))
    (file : AttachmentRow × String) : Option FileView := do
  let _ ← download browser (convertAttachment file.1) file.2
  let data ← getAttachmentData files (attachmentsFolder ++ file.2)
  let type ← importer.server.deriveType file.2 data
  return ⟨file.2, type, importer.server.storedBlob type data⟩

theorem Importer.arrival_export (importer : Importer) {browser : Browser} (files : List (String × Bytes))
    (memoCreateTime : Option String) {file : AttachmentRow × String} {result : Download}
    (success : download browser (convertAttachment file.1) file.2 = some result) :
    importer.arrival files memoCreateTime result.export = importer.delivery browser files file := by
  rcases download_some success with ⟨name, _, written⟩
  unfold optionalIso convertAttachment at written
  rcases Option.map_eq_some_iff.mp written with ⟨text, iso, createTime⟩
  have given : firstGiven result.export.createTime memoCreateTime = some text := by
    have own : result.export.createTime = some text := createTime.symm
    rw [own, firstGiven, Option.getD_some, if_pos (toISOString_nonempty iso)]
  unfold arrival delivery
  rw [given, importer.timestamp_iso iso, success]
  unfold Download.export
  dsimp only
  rw [name]
  simp only [Except.toOption, Option.bind_eq_bind, Option.bind_some]

theorem Parcel.export_files {source : Tables} {browser : Browser} {parcel : Parcel} {memo : MemoExport}
    (exported : parcel.export source browser = some memo) (importer : Importer) (files : List (String × Bytes)) :
    memo.files.filterMap (importer.arrival files memo.createTime) =
      parcel.files.filterMap (importer.delivery browser files) := by
  unfold Parcel.export exportMemo at exported
  rcases Option.bind_eq_some_iff.mp exported with ⟨createTime, written, finished⟩
  cases finished
  unfold MemoExport.files Parcel.downloads
  dsimp only
  rw [Option.getD_some, List.filterMap_map, List.filterMap_filterMap]
  apply List.filterMap_congr
  intro file member
  cases success : download browser (convertAttachment file.1) file.2 with
  | none =>
      unfold Importer.delivery
      rw [success]
      rfl
  | some result => exact importer.arrival_export files _ success

theorem parseVisibility_visibilityName (visibility : Visibility) :
    Importer.parseVisibility (some (visibilityName visibility)) = some visibility := by
  cases visibility <;> decide +kernel

/-- A memo that has gone through the archive. -/
structure Delivered (importer : Importer) (browser : Browser) (files : List (String × Bytes)) (parcel : Parcel)
    (view : MemoView) : Prop where
  content : view.content = parcel.memo.content
  visibility : view.visibility = parcel.memo.visibility
  unpinned : view.pinned = false
  normal : view.rowStatus = .normal
  created : Exists fun now => (0 < now ∧ isValid now = true) ∧
    view.createdTs = stampedTime (some parcel.memo.createdTs) now
  attachments : view.attachments = (parcel.files.filterMap (importer.delivery browser files) : Multiset FileView)

theorem Parcel.export_time {source : Tables} {browser : Browser} {parcel : Parcel} {memo : MemoExport}
    (exported : parcel.export source browser = some memo) (importer : Importer) :
    importer.timestamp memo.createTime = .ok (some parcel.memo.createdTs) := by
  unfold Parcel.export exportMemo at exported
  rcases Option.bind_eq_some_iff.mp exported with ⟨createTime, written, finished⟩
  cases finished
  unfold optionalIso Tables.convertMemo at written
  rcases Option.map_eq_some_iff.mp written with ⟨text, iso, rfl⟩
  have time := importer.timestamp_iso iso
  rw [timestampFromDate_timestampDate] at time
  exact time

theorem Arrived.delivered {source : Tables} {browser : Browser} {parcel : Parcel} {memo : MemoExport}
    {importer : Importer} {files : List (String × Bytes)} {view : MemoView}
    (exported : parcel.export source browser = some memo) (arrived : Arrived importer files memo view) :
    Delivered importer browser files parcel view where
  content := by
    unfold Parcel.export exportMemo at exported
    rcases Option.bind_eq_some_iff.mp exported with ⟨createTime, written, finished⟩
    cases finished
    exact arrived.content
  visibility := by
    unfold Parcel.export exportMemo at exported
    rcases Option.bind_eq_some_iff.mp exported with ⟨createTime, written, finished⟩
    cases finished
    exact Option.some_inj.mp (arrived.visibility.symm.trans (parseVisibility_visibilityName _))
  unpinned := arrived.unpinned
  normal := arrived.normal
  created := arrived.created _ (Parcel.export_time exported importer)
  attachments := by
    rw [arrived.attachments, Parcel.export_files exported]

/-! ## The way through the archive -/

theorem handleExport_some {source : Tables} {browser : Browser} {memos : List MemoRow} {data : ExportData}
    {files : List ZipEntry} (exported : handleExport browser (memos.map source.convertMemo) = some (data, files)) :
    memos ≠ [] ∧ data.version = 1 ∧
      List.Forall₂ (fun parcel memo => Parcel.export source browser parcel = some memo) (pack source [] memos) data.memos ∧
      files = ((pack source [] memos).flatMap (Parcel.downloads browser)).map Download.entry := by
  unfold handleExport at exported
  split at exported
  next => cases exported
  next nonempty =>
    rw [exportMemos_pack] at exported
    rcases Option.bind_eq_some_iff.mp exported with ⟨⟨exports, entries⟩, packed, finished⟩
    rcases Option.map_eq_some_iff.mp packed with ⟨others, mapped, same⟩
    cases same
    cases finished
    exact ⟨fun none => nonempty (none ▸ rfl), rfl, forall₂_mapM mapped, rfl⟩

theorem flatMap_downloads (browser : Browser) (parcels : List Parcel) :
    parcels.flatMap (Parcel.downloads browser) =
      (parcels.flatMap Parcel.files).filterMap fun file => download browser (convertAttachment file.1) file.2 :=
  List.filterMap_flatMap.symm

theorem folder_injective : Function.Injective fun name => attachmentsFolder ++ name := by
  intro first second same
  have lists := congrArg String.toList same
  rw [String.toList_append, String.toList_append] at lists
  exact String.toList_injective (List.append_cancel_left lists)

/-- The names of the files of an archive differ. -/
theorem file_names_nodup (source : Tables) (browser : Browser) (memos : List MemoRow) :
    ((((pack source [] memos).flatMap (Parcel.downloads browser)).map Download.entry).map ZipEntry.name).Nodup := by
  have labels : (((pack source [] memos).flatMap (Parcel.downloads browser)).map Download.fileName).Sublist
      (((pack source [] memos).flatMap Parcel.files).map Prod.snd) := by
    rw [flatMap_downloads]
    exact labels_sublist fun item _ result success => (download_some success).1
  have names : (((pack source [] memos).flatMap Parcel.files).map Prod.snd).Nodup := by
    rw [pack_files, List.map_snd_zip (by rw [length_uniqueNames, List.length_map])]
    exact (uniqueNames_fresh [] _).1
  have different := (labels.nodup names).map folder_injective
  rw [List.map_map] at different ⊢
  exact different

section Deliveries

variable {source : Tables} {browser : Browser} {importer : Importer} {memos : List MemoRow} {files : List ZipEntry}
  {views : List MemoView} {count : Nat}

/-- The files that an import finds. -/
def foundFiles (files : List ZipEntry) (count : Nat) : List (String × Bytes) :=
  ((files.take count).map ZipEntry.file).reverse

theorem getAttachmentData_foundFiles (different : (files.map ZipEntry.name).Nodup) {name : String} {data : Bytes} :
    getAttachmentData (foundFiles files count) name = some data ↔ ⟨name, data⟩ ∈ files.take count := by
  have distinct : ((foundFiles files count).map Prod.fst).Nodup := by
    unfold foundFiles
    rw [List.map_reverse, List.map_map, List.nodup_reverse]
    exact ((List.take_sublist count files).map ZipEntry.name).nodup different
  unfold getAttachmentData
  rw [lookup_eq_some_iff_mem distinct, foundFiles, List.mem_reverse, List.mem_map]
  constructor
  · rintro ⟨entry, member, same⟩
    cases same
    exact member
  · exact fun member => ⟨_, member, rfl⟩

/-- The attachments of all views together. -/
theorem sum_delivered {parcels : List Parcel} {found : List (String × Bytes)}
    (delivered : List.Forall₂ (Delivered importer browser found) parcels views) :
    (views.map MemoView.attachments).sum =
      ((parcels.flatMap Parcel.files).filterMap (importer.delivery browser found) : Multiset FileView) := by
  rw [List.filterMap_flatMap, ← sum_coe_flatMap]
  congr 1
  induction delivered with
  | nil => rfl
  | cons here _ ih =>
      rw [List.map_cons, List.map_cons, here.attachments, ih]

theorem sum_sent (source : Tables) (memos : List MemoRow) :
    ((memos.map source.view).map MemoView.attachments).sum =
      ((((pack source [] memos).flatMap Parcel.files).map fun file => file.1.view) : Multiset FileView) := by
  have rows : ((pack source [] memos).flatMap Parcel.files).map Prod.fst =
      memos.flatMap fun memo => source.attachmentsOf memo.id := by
    rw [pack_files, List.map_fst_zip (by rw [length_uniqueNames, List.length_map])]
  have views : ((pack source [] memos).flatMap Parcel.files).map (fun file => file.1.view) =
      memos.flatMap fun memo => (source.attachmentsOf memo.id).map AttachmentRow.view := by
    rw [← List.map_flatMap, ← rows, List.map_map]
    rfl
  rw [views, ← sum_coe_flatMap, List.map_map]
  rfl

end Deliveries

/-! ## When everything arrives -/

/-- The conditions under which the way alters nothing of some memos. -/
structure Unaltered (source : Tables) (browser : Browser) (server : Server) (memos : List MemoRow) : Prop where
  /-- The data and the files are counted in 16 bits. -/
  counted : (memos.flatMap fun memo => source.attachmentsOf memo.id).length + 1 < 65536
  unpinned : ∀ memo, memo ∈ memos -> memo.pinned = false
  dated : ∀ memo, memo ∈ memos -> memo.createdTs ≠ 0 ∧ isValid memo.createdTs = true
  different : ((memos.flatMap fun memo => source.attachmentsOf memo.id).map AttachmentRow.filename).Nodup
  /-- What is downloaded gets the type of the attachment and is kept as its
  content. -/
  kept : ∀ row, row ∈ (memos.flatMap fun memo => source.attachmentsOf memo.id) -> Exists fun data =>
    browser.fetch (getAttachmentUrl browser.origin (convertAttachment row)) = some data ∧
      (toISOString (timestampDate row.createdTs)).isSome ∧
      server.deriveType row.filename data = some row.type ∧ server.storedBlob row.type data = row.blob

section Deliveries

variable {source : Tables} {browser : Browser} {importer : Importer} {memos : List MemoRow} {files : List ZipEntry}
  {views : List MemoView} {count : Nat}

theorem mem_packed_fst {item : AttachmentRow × String}
    (member : item ∈ (pack source [] memos).flatMap Parcel.files) :
    item.1 ∈ memos.flatMap fun memo => source.attachmentsOf memo.id := by
  rw [pack_files] at member
  exact (List.of_mem_zip member).1

theorem delivery_some {found : List (String × Bytes)} {item : AttachmentRow × String} {view : FileView}
    (arrives : importer.delivery browser found item = some view) :
    Exists fun result => download browser (convertAttachment item.1) item.2 = some result ∧
      Exists fun data => getAttachmentData found (attachmentsFolder ++ item.2) = some data ∧
        importer.server.deriveType item.2 data = some view.type ∧ view.filename = item.2 ∧
        view.blob = importer.server.storedBlob view.type data := by
  unfold Importer.delivery at arrives
  rcases Option.bind_eq_some_iff.mp arrives with ⟨result, downloaded, rest⟩
  rcases Option.bind_eq_some_iff.mp rest with ⟨data, found, typed⟩
  rcases Option.bind_eq_some_iff.mp typed with ⟨type, derived, finished⟩
  cases finished
  exact ⟨result, downloaded, data, found, derived, rfl, rfl⟩

theorem stampedTime_present (createTime : Option Int) {now : Int} (present : 0 < now ∧ isValid now = true) :
    stampedTime createTime now ≠ 0 ∧ isValid (stampedTime createTime now) = true := by
  unfold stampedTime
  split
  next given =>
    refine ⟨given, ?_⟩
    cases found : createTime.filter isValid with
    | none =>
        rw [found] at given
        exact absurd rfl given
    | some seconds => exact (Option.filter_eq_some_iff.mp found).2
  next => exact ⟨Int.ne_of_gt present.1, present.2⟩

/-- If all memos arrive as they were, nothing has been altered. -/
theorem unaltered_of_perm
    (exported : files = ((pack source [] memos).flatMap (Parcel.downloads browser)).map Download.entry)
    (counted : (files.length + 1) % 65536 = count + 1)
    (delivered : List.Forall₂ (Delivered importer browser (foundFiles files count)) (pack source [] memos) views)
    (same : views.Perm (memos.map source.view)) : Unaltered source browser importer.server memos := by
  have attachments : (((pack source [] memos).flatMap Parcel.files).map fun file => file.1.view).Perm
      (((pack source [] memos).flatMap Parcel.files).filterMap
        (importer.delivery browser (foundFiles files count))) := by
    have sums := ((same.map MemoView.attachments).sum_eq).symm
    rw [sum_sent, sum_delivered delivered] at sums
    exact Multiset.coe_eq_coe.mp sums
  have shown (memo : MemoRow) (member : memo ∈ memos) : Exists fun parcel =>
      Delivered importer browser (foundFiles files count) parcel (source.view memo) := by
    rcases exists_of_mem_right delivered (same.mem_iff.mpr (List.mem_map_of_mem member)) with ⟨parcel, _, here⟩
    exact ⟨parcel, here⟩
  have fileNames : (files.map ZipEntry.name).Nodup := exported ▸ file_names_nodup source browser memos
  rw [flatMap_downloads] at exported
  have distinctNames : (((pack source [] memos).flatMap Parcel.files).map Prod.snd).Nodup := by
    rw [pack_files, List.map_snd_zip (by rw [length_uniqueNames, List.length_map])]
    exact (uniqueNames_fresh [] _).1
  have rows : ((pack source [] memos).flatMap Parcel.files).map Prod.fst =
      memos.flatMap fun memo => source.attachmentsOf memo.id := by
    rw [pack_files, List.map_fst_zip (by rw [length_uniqueNames, List.length_map])]
  have longer (item : AttachmentRow × String) (member : item ∈ (pack source [] memos).flatMap Parcel.files) :
      item.2 = item.1.filename ∨ item.1.filename.length < item.2.length := by
    rw [pack_files] at member
    have grows := uniqueNames_longer [] ((memos.flatMap fun memo => source.attachmentsOf memo.id).map
      AttachmentRow.filename)
    rw [List.forall₂_map_left_iff] at grows
    exact List.forall₂_zip grows member
  generalize (pack source [] memos).flatMap Parcel.files = items at *
  have kept (item : AttachmentRow × String) (member : item ∈ items) : item.2 = item.1.filename := by
    rcases all_arrive attachments member with ⟨view, arrives⟩
    rcases delivery_some arrives with ⟨_, _, _, _, _, name, _⟩
    have length := sizes_kept (fun view => view.filename.length) attachments
      (fun other inItems value here => by
        rcases delivery_some here with ⟨_, _, _, _, _, otherName, _⟩
        rw [otherName]
        rcases longer other inItems with sameName | more
        · rw [sameName]
          exact Nat.le_refl _
        · exact Nat.le_of_lt more) member arrives
    rw [name] at length
    rcases longer item member with sameName | more
    · exact sameName
    · exact absurd length (Nat.ne_of_gt more)
  have names : items.map Prod.snd = (memos.flatMap fun memo => source.attachmentsOf memo.id).map
      AttachmentRow.filename := by
    rw [← rows, List.map_map]
    exact List.map_congr_left kept
  have different : (items.map fun item => item.1.view.filename).Nodup := by
    rw [names, ← rows, List.map_map] at distinctNames
    exact distinctNames
  have arrives (item : AttachmentRow × String) (member : item ∈ items) :
      importer.delivery browser (foundFiles files count) item = some item.1.view :=
    arrive_as_sent FileView.filename different attachments
      (fun other inItems value here => by
        rcases delivery_some here with ⟨_, _, _, _, _, otherName, _⟩
        rw [otherName, kept other inItems]
        rfl) member
  refine ⟨?_, ?_, ?_, ?_, ?_⟩
  · have found : items.map (fun item => attachmentsFolder ++ item.2) ⊆ (files.take count).map ZipEntry.name := by
      intro name member
      rcases List.mem_map.mp member with ⟨item, inItems, rfl⟩
      rcases delivery_some (arrives item inItems) with ⟨_, _, data, inFiles, _⟩
      exact List.mem_map.mpr ⟨_, (getAttachmentData_foundFiles fileNames).mp inFiles, rfl⟩
    have paths : (items.map fun item => attachmentsFolder ++ item.2).Nodup := by
      have mapped := distinctNames.map folder_injective
      rw [List.map_map] at mapped
      exact mapped
    have bounded := (paths.subperm found).length_le
    rw [List.length_map, List.length_map, List.length_take] at bounded
    have size : (memos.flatMap fun memo => source.attachmentsOf memo.id).length = items.length := by
      rw [← rows, List.length_map]
    omega
  · intro memo member
    rcases shown memo member with ⟨parcel, here⟩
    exact here.unpinned
  · intro memo member
    rcases shown memo member with ⟨parcel, here⟩
    rcases here.created with ⟨now, present, created⟩
    have stamped := stampedTime_present (some parcel.memo.createdTs) present
    rw [← created] at stamped
    exact stamped
  · rw [← names]
    exact distinctNames
  · intro row member
    rw [← rows] at member
    rcases List.mem_map.mp member with ⟨item, inItems, rfl⟩
    rcases delivery_some (arrives item inItems) with ⟨result, downloaded, data, inFiles, type, _, blob⟩
    rcases download_some downloaded with ⟨name, fetched, written⟩
    have sent : result.entry ∈ files := by
      rw [exported]
      exact List.mem_map_of_mem (List.mem_filterMap.mpr ⟨item, inItems, downloaded⟩)
    have read := List.mem_of_mem_take ((getAttachmentData_foundFiles fileNames).mp inFiles)
    have sameEntry := List.inj_on_of_nodup_map fileNames sent read (congrArg (attachmentsFolder ++ ·) name)
    have sameData : result.data = data := congrArg ZipEntry.data sameEntry
    rw [sameData] at fetched
    refine ⟨data, fetched, ?_, ?_, blob.symm⟩
    · unfold optionalIso convertAttachment at written
      rcases Option.map_eq_some_iff.mp written with ⟨text, iso, _⟩
      rw [iso]
      rfl
    · rw [← kept item inItems]
      exact type

theorem delivered_unaltered
    (exported : files = ((pack source [] memos).flatMap (Parcel.downloads browser)).map Download.entry)
    (counted : (files.length + 1) % 65536 = count + 1) (unaltered : Unaltered source browser importer.server memos)
    {item : AttachmentRow × String} (member : item ∈ (pack source [] memos).flatMap Parcel.files) :
    importer.delivery browser (foundFiles files count) item = some item.1.view := by
  have fileNames : (files.map ZipEntry.name).Nodup := exported ▸ file_names_nodup source browser memos
  rw [flatMap_downloads] at exported
  have rows := fun other => @mem_packed_fst source memos other
  have length : ((pack source [] memos).flatMap Parcel.files).length =
      (memos.flatMap fun memo => source.attachmentsOf memo.id).length := by
    rw [pack_files, List.length_zip, length_uniqueNames, List.length_map, Nat.min_self]
  have named (other : AttachmentRow × String) (inItems : other ∈ (pack source [] memos).flatMap Parcel.files) :
      other.2 = other.1.filename := by
    rw [pack_files, uniqueNames_self unaltered.different fun _ _ => List.not_mem_nil] at inItems
    have same : List.Forall₂ (fun row name => name = AttachmentRow.filename row)
        (memos.flatMap fun memo => source.attachmentsOf memo.id)
        ((memos.flatMap fun memo => source.attachmentsOf memo.id).map AttachmentRow.filename) :=
      List.forall₂_map_right_iff.mpr (List.forall₂_same.mpr fun row _ => rfl)
    exact List.forall₂_zip same inItems
  generalize (pack source [] memos).flatMap Parcel.files = items at *
  have downloaded (other : AttachmentRow × String) (inItems : other ∈ items) : Exists fun result =>
      download browser (convertAttachment other.1) other.2 = some result := by
    rcases unaltered.kept other.1 (rows other inItems) with ⟨data, fetched, iso, _, _⟩
    rcases Option.isSome_iff_exists.mp iso with ⟨text, written⟩
    refine ⟨⟨other.2, data, some text⟩, ?_⟩
    have time : optionalIso (convertAttachment other.1).createTime = some (some text) := by
      unfold optionalIso convertAttachment
      dsimp only
      rw [written]
      rfl
    unfold download
    rw [fetched, time]
    rfl
  have all : files.length = items.length := by
    rw [exported, List.length_map]
    exact List.filterMap_length_eq_length.mpr fun other inItems =>
      Option.isSome_iff_exists.mpr (downloaded other inItems)
  have whole : files.take count = files := by
    apply List.take_of_length_le
    have bounded := unaltered.counted
    omega
  rcases downloaded item member with ⟨result, success⟩
  rcases download_some success with ⟨name, fetched, _⟩
  rcases unaltered.kept item.1 (rows item member) with ⟨data, sameFetched, _, type, blob⟩
  rw [fetched, Option.some.injEq] at sameFetched
  have sent : ⟨attachmentsFolder ++ item.2, data⟩ ∈ files.take count := by
    rw [whole, exported]
    refine List.mem_map.mpr ⟨result, List.mem_filterMap.mpr ⟨item, member, success⟩, ?_⟩
    rw [Download.entry, name, sameFetched]
  have found := (getAttachmentData_foundFiles fileNames).mpr sent
  unfold Importer.delivery
  rw [success, found, named item member]
  simp only [Option.bind_eq_bind, Option.bind_some, type, blob]
  rfl

/-- If nothing is altered, every memo arrives as it was. -/
theorem views_of_unaltered (normal : ∀ memo, memo ∈ memos -> memo.rowStatus = .normal)
    (exported : files = ((pack source [] memos).flatMap (Parcel.downloads browser)).map Download.entry)
    (counted : (files.length + 1) % 65536 = count + 1) (unaltered : Unaltered source browser importer.server memos)
    (delivered : List.Forall₂ (Delivered importer browser (foundFiles files count)) (pack source [] memos) views) :
    views = memos.map source.view := by
  have arrives := @delivered_unaltered source browser importer memos files count exported counted unaltered
  have inMemos (parcel : Parcel) (member : parcel ∈ pack source [] memos) : parcel.memo ∈ memos := by
    have inList := List.mem_map_of_mem (f := Parcel.memo) member
    rw [pack_memos] at inList
    exact inList
  have rows := fun parcel => @pack_rows source [] memos parcel
  have whole : memos.map source.view = (pack source [] memos).map fun parcel => source.view parcel.memo := by
    conv_lhs => rw [← pack_memos source [] memos, List.map_map]
    rfl
  rw [whole]
  generalize pack source [] memos = parcels at *
  clear whole exported
  induction delivered with
  | nil => rfl
  | @cons parcel view parcels views here _ ih =>
      have others := ih
        (fun member => arrives (by rw [List.flatMap_cons]; exact List.mem_append_right _ member))
        (fun other member => inMemos other (List.mem_cons_of_mem _ member))
        (fun other member => rows other (List.mem_cons_of_mem _ member))
      have memo := inMemos parcel List.mem_cons_self
      have files : parcel.files.filterMap (importer.delivery browser (foundFiles files count)) =
          (source.attachmentsOf parcel.memo.id).map AttachmentRow.view := by
        rw [← rows parcel List.mem_cons_self, List.map_map]
        exact filterMap_eq_map fun item member =>
          arrives (by rw [List.flatMap_cons]; exact List.mem_append_left _ member)
      have created : view.createdTs = parcel.memo.createdTs := by
        rcases here.created with ⟨now, _, stamped⟩
        rcases unaltered.dated parcel.memo memo with ⟨nonzero, valid⟩
        rw [stamped, stampedTime, Option.filter_some, if_pos valid, Option.getD_some, if_pos nonzero]
      have same : view = source.view parcel.memo := by
        have content := here.content
        have visibility := here.visibility
        have pinned := here.unpinned.trans (unaltered.unpinned parcel.memo memo).symm
        have rowStatus := here.normal.trans (normal parcel.memo memo).symm
        have attachments := here.attachments
        rw [files] at attachments
        cases view
        unfold Tables.view
        dsimp only at *
        rw [content, visibility, pinned, rowStatus, created, attachments]
      rw [same, others, List.map_cons]

end Deliveries

/-! ## From account to account -/

/-- The rows behind the memos of an export. -/
def exportedRows (source : Tables) (owner : Account) (selected : MemoMessage -> Bool) : List MemoRow :=
  (source.listMemos owner).filter fun memo => memo.creatorId = owner.id && selected (source.convertMemo memo)

theorem memosToExport_listing (source : Tables) (owner : Account) (selected : MemoMessage -> Bool) :
    memosToExport (source.listing owner) owner selected =
      (exportedRows source owner selected).map source.convertMemo := by
  unfold memosToExport Tables.listing exportedRows
  rw [List.filter_map]
  rfl

theorem exportedRows_normal {source : Tables} {owner : Account} {selected : MemoMessage -> Bool} {memo : MemoRow}
    (member : memo ∈ exportedRows source owner selected) : memo.rowStatus = .normal := by
  have listed := (List.mem_filter.mp member).1
  unfold Tables.listMemos at listed
  have shown := (List.mem_filter.mp (List.mem_mergeSort.mp (List.mem_of_mem_take listed))).2
  rw [Bool.and_eq_true, Bool.and_eq_true] at shown
  exact of_decide_eq_true shown.1.1

theorem foundFiles_archive {decoder : TextDecoder} {browser : Browser} {data : ExportData} {files : List ZipEntry}
    {downloads : List Download} (current : data.version = 1) (entries : files = downloads.map Download.entry)
    (addressable : (archive browser data files).length < 4294967296)
    (names : ∀ file, file ∈ files -> file.nameBytes.length < 65536) :
    parseZipFile decoder (archive browser data files) =
      match (files.length + 1) % 65536 with
      | 0 => .error "ZIP file does not contain data.json"
      | count + 1 => .ok { data, attachmentFiles := foundFiles files count } := by
  have inFolder (file : ZipEntry) (member : file ∈ files) : attachmentsFolder.toList <+: file.name.toList := by
    rw [entries] at member
    rcases List.mem_map.mp member with ⟨result, _, rfl⟩
    rw [Download.entry, String.toList_append]
    exact List.prefix_append _ _
  exact parseZipFile_archive decoder (fits_archive addressable names inFolder) current inFolder

/-- An import of an own archive, of which no request is refused, brings every
memo as it was exactly when the way alters nothing of it. -/
theorem transfer_faithful_iff {source : Tables} {owner : Account} {selected : MemoMessage -> Bool} {browser : Browser}
    {data : ExportData} {files : List ZipEntry} {importer : Importer} {decoder : TextDecoder} {target : Tables}
    (exported : handleExport browser (memosToExport (source.listing owner) owner selected) = some (data, files))
    (addressable : (archive browser data files).length < 4294967296)
    (names : ∀ file, file ∈ files -> file.nameBytes.length < 65536)
    (sequenced : target.Sequenced) (empty : target.ownMemos importer.user = [])
    (through : (importer.importFile decoder (archive browser data files) (target.listing importer.user)
      { tables := target }).refused = 0) :
    (((importer.importFile decoder (archive browser data files) (target.listing importer.user)
        { tables := target }).tables.ownMemos importer.user).map
      (importer.importFile decoder (archive browser data files) (target.listing importer.user)
        { tables := target }).tables.view).Perm ((exportedRows source owner selected).map source.view) ↔
      Unaltered source browser importer.server (exportedRows source owner selected) := by
  rw [memosToExport_listing] at exported
  rcases handleExport_some exported with ⟨nonempty, current, packed, entries⟩
  have normal := fun memo => @exportedRows_normal source owner selected memo
  generalize exportedRows source owner selected = memos at *
  have parsed := @foundFiles_archive decoder browser data files _ current entries addressable names
  unfold Importer.importFile at through ⊢
  rw [parsed] at through ⊢
  cases counted : (files.length + 1) % 65536 with
  | zero =>
      dsimp only
      rw [empty]
      constructor
      · intro same
        exact absurd (List.map_eq_nil_iff.mp (List.nil_perm.mp same)) nonempty
      · intro unaltered
        exfalso
        have bounded := unaltered.counted
        have fewer : files.length ≤ (memos.flatMap fun memo => source.attachmentsOf memo.id).length := by
          have kept := List.length_filterMap_le
            (fun file => download browser (convertAttachment file.1) file.2) ((pack source [] memos).flatMap Parcel.files)
          rw [← flatMap_downloads, pack_files, List.length_zip, length_uniqueNames, List.length_map,
            Nat.min_self] at kept
          rw [entries, List.length_map]
          exact kept
        omega
  | succ count =>
      rw [counted] at through
      dsimp only at through ⊢
      have timed (memo : MemoExport) (member : memo ∈ data.memos) :
          Exists fun createTime => importer.timestamp memo.createTime = .ok createTime := by
        rcases exists_of_mem_right packed member with ⟨parcel, _, made⟩
        exact ⟨_, Parcel.export_time made importer⟩
      rcases @importParsed_empty importer { data, attachmentFiles := foundFiles files count } target sequenced empty timed
        through with ⟨rows, own, arrived⟩
      rw [own]
      have delivered : List.Forall₂ (Delivered importer browser (foundFiles files count)) (pack source [] memos)
          (rows.map (importer.importParsed { data, attachmentFiles := foundFiles files count }
            (target.listing importer.user) { tables := target }).tables.view) := by
        rw [List.forall₂_map_right_iff]
        exact forall₂_trans packed arrived fun parcel memo row made here => here.delivered made
      constructor
      · exact unaltered_of_perm entries counted delivered
      · intro unaltered
        rw [views_of_unaltered normal entries counted unaltered delivered]

/-! ## Small archives -/

theorem length_localParts_le {now : ZipEntry -> LocalTime} {entries : List ZipEntry} {size : Nat}
    (short : ∀ entry, entry ∈ entries -> entry.nameBytes.length ≤ 100 ∧ entry.data.length ≤ size) :
    (localParts now entries).length ≤ entries.length * (130 + size) := by
  induction entries with
  | nil => exact Nat.zero_le _
  | cons entry entries ih =>
      have here := short entry List.mem_cons_self
      have rest := ih fun other member => short other (List.mem_cons_of_mem _ member)
      rw [localParts, List.length_append, List.length_append, length_localHeader, List.length_cons, Nat.succ_mul]
      omega

theorem length_centralParts_le {now : ZipEntry -> LocalTime} {offset : Nat} {entries : List ZipEntry}
    (short : ∀ entry, entry ∈ entries -> entry.nameBytes.length ≤ 100) :
    (centralParts now offset entries).length ≤ entries.length * 146 := by
  induction entries generalizing offset with
  | nil => exact Nat.zero_le _
  | cons entry entries ih =>
      have here := short entry List.mem_cons_self
      have rest := @ih (offset + ((localHeader (now entry) entry).length + entry.data.length))
        fun other member => short other (List.mem_cons_of_mem _ member)
      rw [centralParts, List.length_append, length_centralHeader, List.length_cons, Nat.succ_mul]
      omega

/-- A few files with a few characters can be addressed. -/
theorem archive_addressable {browser : Browser} {data : ExportData} {files : List ZipEntry}
    (chars : (data.toJson.stringify 0).length ≤ 10000) (few : files.length ≤ 100)
    (short : ∀ file, file ∈ files -> file.nameBytes.length ≤ 100 ∧ file.data.length ≤ 10000) :
    (archive browser data files).length < 4294967296 := by
  have text := length_textEncode_le (data.toJson.stringify 0)
  have all (entry : ZipEntry) (member : entry ∈ archiveEntries data files) :
      entry.nameBytes.length ≤ 100 ∧ entry.data.length ≤ 40000 := by
    rcases List.mem_cons.mp member with rfl | isFile
    · exact ⟨(by decide +kernel : (textEncode dataName).length ≤ 100), text.trans (by omega)⟩
    · exact ⟨(short entry isFile).1, (short entry isFile).2.trans (by omega)⟩
  have first := @length_localParts_le browser.localTime _ _ all
  have second := @length_centralParts_le browser.localTime 0 _ fun entry member => (all entry member).1
  have count : (archiveEntries data files).length = files.length + 1 := rfl
  rw [count] at first second
  rw [archive, length_createZip]
  omega

/-! ## A memo with a text file -/

def noteServer : Server where
  typeByExtension := fun ext => if ext = ".txt" then "text/plain; charset=utf-8" else ""
  detectContentType := fun _ => "text/plain; charset=utf-8"
  parseMediaType := fun mimeType => some (if mimeType = "text/plain; charset=utf-8" then "text/plain" else mimeType)
  isMotionPhoto := fun _ => false
  stripImageExif := fun content _ => .ok content
  extractTags := fun _ => []
  contentLengthLimit := 8192
  uploadSizeLimit := 33554432

def noteImporter : Importer where
  server := noteServer
  moments := fun request => { now := 1753959600, uid := "new" ++ toString request, present := by decide }
  user := ⟨2, false⟩
  parser := ⟨fun _ => none⟩

def noteBrowser : Browser where
  decoder := ⟨fun _ => ""⟩
  parser := ⟨fun _ => none⟩
  origin := "https://memos.example"
  localTime := fun _ => ⟨2025, 7, 31, 12, 30, 0⟩
  exportedAt := "2025-07-31T10:30:00.000Z"
  fetch := fun url => if url = "https://memos.example/file/attachments/a1/note.txt" then some [0x68, 0x69] else none

def noteAccount (pinned : Bool) : Tables where
  memos := [{ id := 1, uid := "m1", creatorId := 1, content := "Milk", tags := [], visibility := .isPrivate, pinned
              rowStatus := .normal, createdTs := 1716985800 }]
  attachments := [{ uid := "a1", creatorId := 1, filename := "note.txt", type := "text/plain", blob := [0x68, 0x69]
                    createdTs := 1716985800, updatedTs := 1716985800, memoId := some 1 }]
  sequence := 1

def emptyAccount : Tables := { memos := [], attachments := [], sequence := 0 }

def noteMemos (pinned : Bool) : List MemoMessage :=
  memosToExport ((noteAccount pinned).listing ⟨1, false⟩) ⟨1, false⟩ fun _ => true

def noteArchive (pinned : Bool) : ExportData × List ZipEntry :=
  (handleExport noteBrowser (noteMemos pinned)).getD ({ version := 1, exportedAt := none, memos := [] }, [])

def noteImport (pinned : Bool) : Progress :=
  noteImporter.importFile noteBrowser.decoder (archive noteBrowser (noteArchive pinned).1 (noteArchive pinned).2)
    (emptyAccount.listing noteImporter.user) { tables := emptyAccount }

/-- What the export of the memo consists of. -/
theorem noteArchive_parts (pinned : Bool) :
    (handleExport noteBrowser (noteMemos pinned)).isSome ∧ (noteArchive pinned).1.version = 1 ∧
      (noteArchive pinned).1.memos.map MemoExport.pinned = [some pinned] ∧
      (noteArchive pinned).2 = [⟨"attachments/note.txt", [0x68, 0x69]⟩] ∧
      ((noteArchive pinned).1.toJson.stringify 0).length ≤ 10000 ∧
      (ZipEntry.nameBytes ⟨"attachments/note.txt", [0x68, 0x69]⟩).length ≤ 100 ∧
      exportedRows (noteAccount pinned) ⟨1, false⟩ (fun _ => true) = (noteAccount pinned).memos := by
  cases pinned <;> decide +kernel

theorem handleExport_note (pinned : Bool) : handleExport noteBrowser (noteMemos pinned) =
    some ((noteArchive pinned).1, (noteArchive pinned).2) := by
  rcases Option.isSome_iff_exists.mp (noteArchive_parts pinned).1 with ⟨result, exported⟩
  unfold noteArchive
  rw [exported]
  rfl

theorem note_short {pinned : Bool} {file : ZipEntry} (member : file ∈ (noteArchive pinned).2) :
    file.nameBytes.length ≤ 100 ∧ file.data.length ≤ 10000 := by
  rcases noteArchive_parts pinned with ⟨_, _, _, files, _, name, _⟩
  rw [files] at member
  rw [List.mem_singleton.mp member]
  exact ⟨name, by decide⟩

theorem note_addressable (pinned : Bool) :
    (archive noteBrowser (noteArchive pinned).1 (noteArchive pinned).2).length < 4294967296 := by
  rcases noteArchive_parts pinned with ⟨_, _, _, files, chars, _, _⟩
  refine archive_addressable chars ?_ fun file member => note_short member
  rw [files]
  decide

theorem noteImport_parsed (pinned : Bool) : noteImport pinned =
    noteImporter.importParsed ⟨(noteArchive pinned).1, foundFiles (noteArchive pinned).2 1⟩
      (emptyAccount.listing noteImporter.user) { tables := emptyAccount } := by
  rcases noteArchive_parts pinned with ⟨_, current, _, files, _, _, _⟩
  have parsed := @foundFiles_archive noteBrowser.decoder noteBrowser (noteArchive pinned).1 (noteArchive pinned).2
    [⟨"note.txt", [0x68, 0x69], none⟩] current files (note_addressable pinned)
    fun file member => (note_short member).1.trans_lt (by decide)
  unfold noteImport Importer.importFile
  rw [parsed, files]
  rfl

theorem noteImport_outcome (pinned : Bool) : (noteImport pinned).refused = 0 ∧
    ((noteImport pinned).tables.ownMemos noteImporter.user).map MemoRow.pinned = [false] := by
  rw [noteImport_parsed]
  cases pinned <;> decide +kernel

theorem transfer_faithful_note :
    (((noteImport false).tables.ownMemos noteImporter.user).map (noteImport false).tables.view).Perm
      ((exportedRows (noteAccount false) ⟨1, false⟩ fun _ => true).map (noteAccount false).view) := by
  rcases noteArchive_parts false with ⟨_, _, _, _, _, _, rows⟩
  have attachments : ((noteAccount false).memos.flatMap fun memo => (noteAccount false).attachmentsOf memo.id) =
      (noteAccount false).attachments := by
    decide +kernel
  refine (transfer_faithful_iff (handleExport_note false) (note_addressable false)
    (fun file member => (note_short member).1.trans_lt (by decide)) ⟨?_, ?_⟩ rfl (noteImport_outcome false).1).mpr ?_
  · exact fun memo member => absurd member List.not_mem_nil
  · exact fun row member => absurd member List.not_mem_nil
  · rw [rows]
    refine ⟨?_, by decide, by decide, ?_, ?_⟩
    · rw [attachments]
      decide
    · rw [attachments]
      decide
    · intro row member
      rw [attachments] at member
      rcases List.mem_singleton.mp member with rfl
      exact ⟨[0x68, 0x69], by decide +kernel⟩

/-- A pinned memo is exported as pinned, and created without its pin. -/
theorem pinned_note_unpinned :
    (noteArchive true).1.memos.map MemoExport.pinned = [some true] ∧ (noteImport true).refused = 0 ∧
      ¬ (((noteImport true).tables.ownMemos noteImporter.user).map (noteImport true).tables.view).Perm
        ((exportedRows (noteAccount true) ⟨1, false⟩ fun _ => true).map (noteAccount true).view) := by
  rcases noteArchive_parts true with ⟨_, _, pinned, _, _, _, rows⟩
  refine ⟨pinned, (noteImport_outcome true).1, fun same => ?_⟩
  have pins := same.map MemoView.pinned
  rw [List.map_map, List.map_map, rows] at pins
  have here : ((noteImport true).tables.ownMemos noteImporter.user).map
      (MemoView.pinned ∘ (noteImport true).tables.view) = [false] := (noteImport_outcome true).2
  have there : (noteAccount true).memos.map (MemoView.pinned ∘ (noteAccount true).view) = [true] := rfl
  rw [here, there] at pins
  exact absurd (List.perm_singleton.mp pins) (by decide)

end Web
end Memos
