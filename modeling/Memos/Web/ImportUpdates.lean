import Memos.Web.AttachmentRequests
import Memos.Web.Faithful

namespace Memos
namespace Web

open Library Service

/-!
# Importing into a memo that is there

An import that finds the memo of an archive uploads the files that the memo
lacks, whatever becomes of each upload, and then sends the list of attachments
that the memo is to have.
-/

/-! ## The request -/

/-- The entries of an imported memo that the memo of the table lacks. -/
def newFiles (tables : Tables) (memo : MemoRow) (imported : MemoExport) : List AttachmentExport :=
  getNewAttachments imported.files (tables.convertMemo memo).filenames

/-- The update that is previewed for a memo of the table. -/
def updateFor (tables : Tables) (memo : MemoRow) (imported : MemoExport) : MemoToUpdate where
  «export» := imported
  existingMemoName := buildMemoName memo.uid
  newAttachmentNames := (newFiles tables memo imported).map AttachmentExport.name
  existingAttachments := (tables.convertMemo memo).attachments.map fun attachment =>
    (attachment.name, attachment.filename)

theorem filenames_convertMemo (tables : Tables) (memo : MemoRow) :
    (tables.convertMemo memo).filenames = (tables.attachmentsOf memo.id).map AttachmentRow.filename :=
  List.map_map

theorem mem_newFiles {tables : Tables} {memo : MemoRow} {imported : MemoExport} {entry : AttachmentExport} :
    entry ∈ newFiles tables memo imported ↔
      entry ∈ imported.files ∧ ∀ row, row ∈ tables.attachmentsOf memo.id -> row.filename ≠ entry.name := by
  unfold newFiles getNewAttachments
  rw [List.mem_filter, decide_eq_true_iff, filenames_convertMemo]
  simp only [List.mem_map, not_exists, not_and]

/-- The entries whose names are new are the new entries. -/
theorem filter_newFiles (tables : Tables) (memo : MemoRow) (imported : MemoExport) :
    (imported.files.filter fun entry => entry.name ∈ (updateFor tables memo imported).newAttachmentNames) =
      newFiles tables memo imported := by
  refine List.filter_congr fun entry member => decide_eq_decide.mpr ?_
  constructor
  · intro named
    rcases List.mem_map.mp named with ⟨other, new, same⟩
    rw [← same]
    exact of_decide_eq_true (List.mem_filter.mp new).2
  · intro new
    exact List.mem_map_of_mem (List.mem_filter.mpr ⟨member, decide_eq_true new⟩)

/-- The attachment that stands for a file name. -/
def holder (rows : List AttachmentRow) (filename : String) : Option AttachmentRow :=
  rows.reverse.find? fun row => row.filename = filename

/-- The new entry that stands for a file name, with the upload that is taken for
its own. -/
def courier (paired : List (AttachmentExport × AttachmentExport × String)) (filename : String) :
    Option (AttachmentExport × AttachmentExport × String) :=
  paired.reverse.find? fun pair => pair.1.name = filename

/-- What an entry is sent as. -/
def reference (rows : List AttachmentRow) (paired : List (AttachmentExport × AttachmentExport × String))
    (entry : AttachmentExport) : String :=
  ((holder rows entry.name).map AttachmentRow.name).getD
    (((courier paired entry.name).map fun pair => pair.2.2).getD entry.name)

theorem orderedNames_eq (tables : Tables) (memo : MemoRow) (imported : MemoExport)
    (uploads : List (AttachmentExport × String)) :
    Importer.orderedNames (updateFor tables memo imported).existingAttachments
        (((newFiles tables memo imported).map AttachmentExport.name).zip (uploads.map Prod.snd)) imported.files =
      imported.files.map
        (reference (tables.attachmentsOf memo.id) ((newFiles tables memo imported).zip uploads)) := by
  have known : (updateFor tables memo imported).existingAttachments.map Prod.swap =
      (tables.attachmentsOf memo.id).map fun row => (row.filename, AttachmentRow.name row) := by
    unfold updateFor Tables.convertMemo
    simp only [List.map_map]
    rfl
  have brought : ((newFiles tables memo imported).map AttachmentExport.name).zip (uploads.map Prod.snd) =
      ((newFiles tables memo imported).zip uploads).map fun pair => (pair.1.name, pair.2.2) := by
    rw [List.zip_map]
    rfl
  unfold Importer.orderedNames
  rw [known, brought]
  refine List.map_congr_left fun entry _ => ?_
  rw [lookup_reverse_map, lookup_reverse_map]
  rfl

namespace Importer

variable (importer : Importer) (files : List (String × Bytes)) (memo : MemoRow) (imported : MemoExport)
  (progress : Progress)

def countUpdated (result : ImportResult) : ImportResult :=
  { result with attachmentsUpdated := result.attachmentsUpdated + 1 }

/-- The uploads of an update that come through. -/
def arrived : List (AttachmentExport × String) :=
  importer.uploads files countUpdated imported.createTime (newFiles progress.tables memo imported) progress

/-- Where an update is when its uploads are over. -/
def delivered : Progress :=
  (importer.uploadMany files countUpdated imported.createTime (newFiles progress.tables memo imported) progress).2

/-- The entries of an update with what they are sent as. -/
def links : List (AttachmentExport × String) :=
  imported.files.zip (orderedNames (updateFor progress.tables memo imported).existingAttachments
    (((newFiles progress.tables memo imported).map AttachmentExport.name).zip
      ((importer.arrived files memo imported progress).map Prod.snd)) imported.files)

/-- New entries and uploads, one by one as far as there are uploads. -/
def paired : List (AttachmentExport × AttachmentExport × String) :=
  (newFiles progress.tables memo imported).zip (importer.arrived files memo imported progress)

def referenceOf : AttachmentExport -> String :=
  reference (progress.tables.attachmentsOf memo.id) (importer.paired files memo imported progress)

theorem links_eq : importer.links files memo imported progress =
    imported.files.map fun entry => (entry, importer.referenceOf files memo imported progress entry) := by
  unfold links
  rw [orderedNames_eq]
  conv_lhs => lhs; rw [← List.map_id imported.files]
  exact List.zip_map'

/-- The tables after an update whose last request is looked at. -/
theorem updateOne_tables (own : memo.creatorId = importer.user.id) (plain : PlainUid memo.uid)
    (found : (progress.tables.memos.find? fun other => other.uid = memo.uid) = some memo)
    (quiet : (importer.moments (importer.delivered files memo imported progress).requests).fault = none) :
    (importer.updateOne files (updateFor progress.tables memo imported) progress).tables =
      (setMemoAttachments (importer.moments (importer.delivered files memo imported progress).requests)
        importer.user memo.id (imported.files.map (importer.referenceOf files memo imported progress))
        (importer.delivered files memo imported progress).tables).2 := by
  have many := importer.uploadMany_landed files countUpdated imported.createTime
    (newFiles progress.tables memo imported) progress
  have names : (importer.uploadMany files countUpdated imported.createTime
      (newFiles progress.tables memo imported) progress).1 =
      (importer.arrived files memo imported progress).map Prod.snd := many.1
  have read : extractMemoUIDFromName (updateFor progress.tables memo imported).existingMemoName = .ok memo.uid :=
    extractMemoUIDFromName_buildMemoName plain
  have sameMemos : (importer.delivered files memo imported progress).tables.memos = progress.tables.memos := by
    rcases many.2 with ⟨rows, _, tables⟩
    have here : (importer.delivered files memo imported progress).tables = progress.tables.addAttachments rows :=
      tables
    rw [here]
    rfl
  have request : updateMemoAttachments
      (importer.moments (importer.delivered files memo imported progress).requests) importer.user
      (updateFor progress.tables memo imported).existingMemoName
      (imported.files.map (importer.referenceOf files memo imported progress))
      (importer.delivered files memo imported progress).tables =
      setMemoAttachments (importer.moments (importer.delivered files memo imported progress).requests)
        importer.user memo.id (imported.files.map (importer.referenceOf files memo imported progress))
        (importer.delivered files memo imported progress).tables := by
    unfold updateMemoAttachments
    rw [quiet]
    dsimp only
    rw [read]
    dsimp only
    rw [sameMemos, found]
    exact if_pos (Or.inl own)
  have sent : orderedNames (updateFor progress.tables memo imported).existingAttachments
      (((newFiles progress.tables memo imported).map AttachmentExport.name).zip
        (importer.uploadMany files countUpdated imported.createTime
          (newFiles progress.tables memo imported) progress).1) imported.files =
      imported.files.map (importer.referenceOf files memo imported progress) := by
    rw [names]
    exact orderedNames_eq progress.tables memo imported (importer.arrived files memo imported progress)
  unfold updateOne
  dsimp only
  rw [show (updateFor progress.tables memo imported).export = imported from rfl, filter_newFiles]
  split
  next cause tables answered =>
    have same := (request.symm.trans (congrArg (updateMemoAttachments _ _ _ · _) sent.symm)).trans answered
    rw [same]
    rfl
  next tables answered =>
    have same := (request.symm.trans (congrArg (updateMemoAttachments _ _ _ · _) sent.symm)).trans answered
    rw [same]

end Importer
/-! ## What an update is for -/

/-- An update only adds: what the memo had is kept, each upload that came through
is linked once and under its own name, and no entry is sent as a file of another
name. -/
structure OnlyAdds (memoId : Nat) (before after : Tables) (arrived links : List (AttachmentExport × String)) :
    Prop where
  kept : ∀ row, row ∈ before.attachments -> row.memoId = some memoId ->
    Exists fun later => later ∈ after.attachments ∧ later.uid = row.uid ∧ later.memoId = some memoId
  linked : ∀ upload, upload ∈ arrived ->
    ((after.attachmentsOf memoId).filter fun row => AttachmentRow.name row = upload.2).map
      AttachmentRow.filename = [upload.1.name]
  named : ∀ link, link ∈ links -> ∀ row, row ∈ after.attachments -> AttachmentRow.name row = link.2 ->
    row.filename = link.1.name

/-- Each upload of an update that only adds is linked to the memo. -/
theorem OnlyAdds.found {memoId : Nat} {before after : Tables} {arrived links : List (AttachmentExport × String)}
    (adds : OnlyAdds memoId before after arrived links) {upload : AttachmentExport × String}
    (member : upload ∈ arrived) :
    Exists fun row => row ∈ after.attachments ∧ row.memoId = some memoId ∧ AttachmentRow.name row = upload.2 := by
  have once := adds.linked upload member
  have filename : upload.1.name ∈ ((after.attachmentsOf memoId).filter fun row =>
      AttachmentRow.name row = upload.2).map AttachmentRow.filename := by
    rw [once]
    exact List.mem_singleton_self _
  rcases List.mem_map.mp filename with ⟨row, inList, _⟩
  have there := List.mem_filter.mp inList
  exact ⟨row, (mem_attachmentsOf.mp there.1).1, (mem_attachmentsOf.mp there.1).2, of_decide_eq_true there.2⟩

/-- The first of the new entries are those whose uploads come through, their
names differ, and every new entry has the name of one of them. -/
structure Aligned (fresh : List AttachmentExport) (paired : List (AttachmentExport × AttachmentExport × String)) :
    Prop where
  own : ∀ pair, pair ∈ paired -> pair.1.name = pair.2.1.name
  distinct : (paired.map fun pair => pair.1.name).Nodup
  all : ∀ entry, entry ∈ fresh -> Exists fun pair => pair ∈ paired ∧ pair.1.name = entry.name

/-- The imported memo lists every attachment that the memo is found to have, and
no later one has the same name; those that it lists may be attached by the user. -/
structure Retained (user : Account) (rows current : List AttachmentRow) (files : List AttachmentExport) : Prop where
  listed : ∀ row, row ∈ current ->
    holder rows row.filename = some row ∧ Exists fun entry => entry ∈ files ∧ entry.name = row.filename
  attachable : ∀ entry, entry ∈ files -> ∀ row, holder rows entry.name = some row -> Attachable user row

/-- No new entry is called like an attachment. -/
def NoneNamed (tables : Tables) (fresh : List AttachmentExport) : Prop :=
  ∀ entry, entry ∈ fresh -> ∀ row, row ∈ tables.attachments -> AttachmentRow.name row ≠ entry.name

/-- What the tables are like. -/
structure Tables.Lawful (tables : Tables) : Prop where
  memos : (tables.memos.map MemoRow.uid).Nodup
  plainMemos : ∀ memo, memo ∈ tables.memos -> PlainUid memo.uid
  attachments : (tables.attachments.map AttachmentRow.uid).Nodup
  plainAttachments : ∀ row, row ∈ tables.attachments -> PlainUid row.uid
  /-- File names are checked when they are set. -/
  filenames : ∀ row, row ∈ tables.attachments -> '/' ∉ row.filename.toList

variable {filename : String}

theorem holder_mem {rows : List AttachmentRow} {row : AttachmentRow} (found : holder rows filename = some row) :
    row ∈ rows ∧ row.filename = filename := by
  unfold holder at found
  exact ⟨List.mem_reverse.mp (List.mem_of_find?_eq_some found), by simpa using List.find?_some found⟩

theorem holder_none {rows : List AttachmentRow} :
    holder rows filename = none ↔ ∀ row, row ∈ rows -> row.filename ≠ filename := by
  unfold holder
  simp

theorem courier_mem {paired : List (AttachmentExport × AttachmentExport × String)}
    {pair : AttachmentExport × AttachmentExport × String} (found : courier paired filename = some pair) :
    pair ∈ paired ∧ pair.1.name = filename := by
  unfold courier at found
  exact ⟨List.mem_reverse.mp (List.mem_of_find?_eq_some found), by simpa using List.find?_some found⟩

theorem courier_none {paired : List (AttachmentExport × AttachmentExport × String)} :
    courier paired filename = none ↔ ∀ pair, pair ∈ paired -> pair.1.name ≠ filename := by
  unfold courier
  simp

/-- What an entry is sent as is an attachment of the memo, an upload or its own
name. -/
theorem reference_cases (rows : List AttachmentRow)
    (paired : List (AttachmentExport × AttachmentExport × String)) (entry : AttachmentExport) :
    (Exists fun row => holder rows entry.name = some row ∧ reference rows paired entry = AttachmentRow.name row) ∨
    (holder rows entry.name = none ∧ Exists fun pair => courier paired entry.name = some pair ∧
      reference rows paired entry = pair.2.2) ∨
    (holder rows entry.name = none ∧ courier paired entry.name = none ∧ reference rows paired entry = entry.name) := by
  unfold reference
  cases holder rows entry.name with
  | some row => exact Or.inl ⟨row, rfl, rfl⟩
  | none =>
      cases courier paired entry.name with
      | some pair => exact Or.inr (Or.inl ⟨rfl, pair, rfl, rfl⟩)
      | none => exact Or.inr (Or.inr ⟨rfl, rfl, rfl⟩)
/-! ## The update as a whole -/

namespace Importer

variable {importer : Importer} {files : List (String × Bytes)} {memo : MemoRow} {imported : MemoExport}
  {progress : Progress}

/-- The entries whose uploads come through are some of those that are uploaded. -/
theorem uploads_sublist (importer : Importer) (files : List (String × Bytes)) (count : ImportResult -> ImportResult)
    (memoCreateTime : Option String) (attachments : List AttachmentExport) (progress : Progress) :
    ((importer.uploads files count memoCreateTime attachments progress).map Prod.fst).Sublist attachments := by
  induction attachments generalizing progress with
  | nil => exact List.Sublist.slnil
  | cons attachment rest ih =>
      rw [uploads]
      split
      · exact List.Sublist.cons_cons attachment (ih _)
      · exact List.Sublist.cons attachment (ih _)

theorem mem_paired {pair : AttachmentExport × AttachmentExport × String}
    (member : pair ∈ importer.paired files memo imported progress) :
    pair.1 ∈ newFiles progress.tables memo imported ∧ pair.2 ∈ importer.arrived files memo imported progress :=
  List.of_mem_zip member

/-- Every upload that comes through is taken for the upload of some new entry. -/
theorem map_snd_paired : (importer.paired files memo imported progress).map Prod.snd =
    importer.arrived files memo imported progress := by
  have fewer := (importer.uploads_sublist files countUpdated imported.createTime
    (newFiles progress.tables memo imported) progress).length_le
  rw [List.length_map] at fewer
  exact List.map_snd_zip fewer

/-- An update that has been previewed and whose last request is looked at. -/
structure Previewed (importer : Importer) (files : List (String × Bytes)) (memo : MemoRow) (imported : MemoExport)
    (progress : Progress) : Prop where
  lawful : progress.tables.Lawful
  member : memo ∈ progress.tables.memos
  own : memo.creatorId = importer.user.id
  lacks : newFiles progress.tables memo imported ≠ []
  generated : ∀ request, PlainUid (importer.moments request).uid
  quiet : (importer.moments (importer.delivered files memo imported progress).requests).fault = none

/-- The tables that an update leaves. -/
def updated (importer : Importer) (files : List (String × Bytes)) (memo : MemoRow) (imported : MemoExport)
    (progress : Progress) : Tables :=
  (importer.updateOne files (updateFor progress.tables memo imported) progress).tables

/-- The names that an update sends. -/
def sentNames (importer : Importer) (files : List (String × Bytes)) (memo : MemoRow) (imported : MemoExport)
    (progress : Progress) : List String :=
  imported.files.map (importer.referenceOf files memo imported progress)

/-- The rows of the uploads and what the last request has made of them. -/
structure Ended (importer : Importer) (files : List (String × Bytes)) (memo : MemoRow) (imported : MemoExport)
    (progress : Progress) (rows : List AttachmentRow) : Prop where
  made : importer.Landed progress.tables (importer.arrived files memo imported progress) rows
  outcome : importer.updated files memo imported progress =
    (setMemoAttachments (importer.moments (importer.delivered files memo imported progress).requests)
      importer.user memo.id (importer.sentNames files memo imported progress)
      (progress.tables.addAttachments rows)).2

theorem Previewed.ended (previewed : importer.Previewed files memo imported progress) :
    Exists fun rows => importer.Ended files memo imported progress rows := by
  rcases (importer.uploadMany_landed files countUpdated imported.createTime
    (newFiles progress.tables memo imported) progress).2 with ⟨rows, made, tables⟩
  refine ⟨rows, made, ?_⟩
  rw [← tables]
  exact importer.updateOne_tables files memo imported progress previewed.own
    (previewed.lawful.plainMemos memo previewed.member) (find_key previewed.lawful.memos previewed.member)
    previewed.quiet

section Previews

variable {rows : List AttachmentRow}

/-- Of the entries that the memo lacks, none is sent as an attachment that the
memo has. -/
theorem holder_newFiles {entry : AttachmentExport} (new : entry ∈ newFiles progress.tables memo imported) :
    holder (progress.tables.attachmentsOf memo.id) entry.name = none :=
  holder_none.mpr (mem_newFiles.mp new).2

theorem mem_newFiles_of_holder {entry : AttachmentExport} (listed : entry ∈ imported.files)
    (missing : holder (progress.tables.attachmentsOf memo.id) entry.name = none) :
    entry ∈ newFiles progress.tables memo imported :=
  mem_newFiles.mpr ⟨listed, holder_none.mp missing⟩

theorem exists_paired {upload : AttachmentExport × String}
    (member : upload ∈ importer.arrived files memo imported progress) :
    Exists fun pair => pair ∈ importer.paired files memo imported progress ∧ pair.2 = upload := by
  rw [← map_snd_paired] at member
  exact List.mem_map.mp member

variable {row : AttachmentRow}

/-- The row that holds a file name is one of the table. -/
theorem holder_row {filename : String} (found : holder (progress.tables.attachmentsOf memo.id) filename = some row) :
    row ∈ progress.tables.attachments ∧ row.filename = filename :=
  ⟨(mem_attachmentsOf.mp (holder_mem found).1).1, (holder_mem found).2⟩

/-- Each entry of an aligned update is sent as a file of its name, which the user
may attach. -/
theorem Previewed.reference_row (previewed : importer.Previewed files memo imported progress)
    (made : importer.Landed progress.tables (importer.arrived files memo imported progress) rows)
    (aligned : Aligned (newFiles progress.tables memo imported) (importer.paired files memo imported progress))
    (retained : Retained importer.user (progress.tables.attachmentsOf memo.id)
      (progress.tables.currentAttachments memo.id) imported.files)
    {entry : AttachmentExport} (listed : entry ∈ imported.files) :
    Exists fun row => row ∈ (progress.tables.addAttachments rows).attachments ∧
      importer.referenceOf files memo imported progress entry = AttachmentRow.name row ∧
      row.filename = entry.name ∧ PlainUid row.uid ∧ Attachable importer.user row := by
  rcases reference_cases (progress.tables.attachmentsOf memo.id) (importer.paired files memo imported progress) entry
    with ⟨row, found, same⟩ | ⟨missing, pair, found, same⟩ | ⟨missing, none, _⟩
  · have inTable := holder_row found
    exact ⟨row, List.mem_append_left _ inTable.1, same, inTable.2,
      previewed.lawful.plainAttachments row inTable.1, retained.attachable entry listed row found⟩
  · have inPairs := courier_mem found
    rcases made.row_of (mem_paired inPairs.1).2 with ⟨row, inRows, name, left⟩
    rcases left.generated with ⟨request, uid⟩
    refine ⟨row, List.mem_append_right _ inRows, same.trans name, ?_, ?_,
      Or.inl (made.uploaded.new row inRows).owned⟩
    · rw [left.filename, ← aligned.own pair inPairs.1, inPairs.2]
    · rw [uid]
      exact previewed.generated request
  · rcases aligned.all entry (mem_newFiles_of_holder listed missing) with ⟨pair, inPairs, same⟩
    exact absurd same (courier_none.mp none pair inPairs)

/-- An upload of an aligned update is what its entry is sent as. -/
theorem reference_paired
    (aligned : Aligned (newFiles progress.tables memo imported) (importer.paired files memo imported progress))
    {pair : AttachmentExport × AttachmentExport × String}
    (member : pair ∈ importer.paired files memo imported progress) :
    importer.referenceOf files memo imported progress pair.1 = pair.2.2 := by
  have missing := holder_newFiles (mem_paired member).1
  rcases reference_cases (progress.tables.attachmentsOf memo.id) (importer.paired files memo imported progress) pair.1
    with ⟨row, found, _⟩ | ⟨_, other, found, same⟩ | ⟨_, none, _⟩
  · rw [missing] at found
    cases found
  · have inPairs := courier_mem found
    rw [List.inj_on_of_nodup_map aligned.distinct inPairs.1 member inPairs.2] at same
    exact same
  · exact absurd rfl (courier_none.mp none pair member)

theorem attachmentsOf_named {tables : Tables} (distinct : (tables.attachments.map AttachmentRow.uid).Nodup)
    {memoId : Nat} (member : row ∈ tables.attachmentsOf memoId) :
    ((tables.attachmentsOf memoId).filter fun other => AttachmentRow.name other = row.name) = [row] := by
  rw [← List.perm_singleton]
  have once : (tables.attachmentsOf memoId).Nodup :=
    (List.mergeSort_perm _ _).nodup_iff.mpr ((List.Nodup.of_map _ distinct).filter _)
  refine (List.perm_ext_iff_of_nodup (once.filter _) (List.nodup_singleton _)).mpr fun other => ?_
  rw [List.mem_filter, decide_eq_true_iff, List.mem_singleton]
  constructor
  · rintro ⟨inList, same⟩
    exact List.inj_on_of_nodup_map distinct (mem_attachmentsOf.mp inList).1 (mem_attachmentsOf.mp member).1
      (AttachmentRow.name_injective same)
  · rintro rfl
    exact ⟨member, rfl⟩

/-- An aligned update of a memo whose attachments are all retained only adds. -/
theorem Previewed.onlyAdds_of_aligned (previewed : importer.Previewed files memo imported progress)
    (aligned : Aligned (newFiles progress.tables memo imported) (importer.paired files memo imported progress))
    (retained : Retained importer.user (progress.tables.attachmentsOf memo.id)
      (progress.tables.currentAttachments memo.id) imported.files) :
    OnlyAdds memo.id progress.tables (importer.updated files memo imported progress)
      (importer.arrived files memo imported progress) (importer.links files memo imported progress) := by
  rcases previewed.ended with ⟨rows, made, same⟩
  have distinct := made.uploaded.all_distinct previewed.lawful.attachments
  have sent := fun entry listed => @Previewed.reference_row importer files memo imported progress rows previewed made
    aligned retained entry listed
  have current : (progress.tables.addAttachments rows).currentAttachments memo.id =
      progress.tables.currentAttachments memo.id :=
    congrArg (List.take defaultAttachmentLimit) (made.uploaded.attachmentsOf memo.id)
  have attachable (name : String)
      (member : name ∈ importer.sentNames files memo imported progress) :
      Exists fun row => row ∈ (progress.tables.addAttachments rows).attachments ∧
        name = AttachmentRow.name row ∧ PlainUid row.uid ∧ Attachable importer.user row := by
    rcases List.mem_map.mp member with ⟨entry, listed, rfl⟩
    rcases sent entry listed with ⟨row, inTable, name, _, rest⟩
    exact ⟨row, inTable, name, rest⟩
  have all (row : AttachmentRow)
      (member : row ∈ (progress.tables.addAttachments rows).currentAttachments memo.id) :
      row.name ∈ importer.sentNames files memo imported progress := by
    rw [current] at member
    rcases retained.listed row member with ⟨found, entry, listed, named⟩
    refine List.mem_map.mpr ⟨entry, listed, ?_⟩
    unfold referenceOf reference
    rw [named, found]
    rfl
  rcases setMemoAttachments_adds distinct attachable all with ⟨normalized, covers, rowsAfter⟩
  rw [← same] at rowsAfter
  have distinctAfter : ((importer.updated files memo imported progress).attachments.map AttachmentRow.uid).Nodup := by
    rw [rowsAfter, List.map_map]
    rw [show AttachmentRow.uid ∘ linked _ memo.id normalized = AttachmentRow.uid from
      funext fun row => linked_uid _ _ _ row]
    exact distinct
  constructor
  · intro row member linkedHere
    refine ⟨_, rowsAfter ▸ List.mem_map_of_mem (List.mem_append_left _ member), linked_uid _ _ _ row, ?_⟩
    by_cases has : HasUid normalized row.uid
    · exact linked_memoId _ _ has
    · rw [linked_other _ _ has]
      exact linkedHere
  · intro upload member
    rcases exists_paired member with ⟨pair, inPairs, rfl⟩
    rcases made.row_of member with ⟨row, inRows, name, left⟩
    have inTable : row ∈ (progress.tables.addAttachments rows).attachments := List.mem_append_right _ inRows
    have inNames : row.name ∈ importer.sentNames files memo imported progress := by
      rw [← name, ← reference_paired aligned inPairs]
      exact List.mem_map_of_mem (mem_newFiles.mp (mem_paired inPairs).1).1
    have here : linked _ memo.id normalized row ∈
        (importer.updated files memo imported progress).attachmentsOf memo.id :=
      mem_attachmentsOf.mpr ⟨rowsAfter ▸ List.mem_map_of_mem inTable, linked_memoId _ _ (covers row inTable inNames)⟩
    have alone := attachmentsOf_named distinctAfter here
    have sameName : (linked (importer.moments (importer.delivered files memo imported progress).requests).now
        memo.id normalized row).name = pair.2.2 :=
      (congrArg (attachmentNamePrefix ++ ·) (linked_uid _ _ _ row)).trans name.symm
    rw [sameName] at alone
    rw [alone, List.map_singleton, linked_filename, left.filename]
  · intro link member row inAfter name
    rw [links_eq] at member
    rcases List.mem_map.mp member with ⟨entry, listed, rfl⟩
    rcases sent entry listed with ⟨found, inTable, reference, filename, _⟩
    rw [rowsAfter] at inAfter
    rcases List.mem_map.mp inAfter with ⟨old, oldInTable, rfl⟩
    have uid : old.uid = found.uid := by
      rw [← linked_uid _ memo.id normalized old]
      exact AttachmentRow.name_injective (name.trans reference)
    rw [linked_filename, List.inj_on_of_nodup_map distinct oldInTable inTable uid]
    exact filename

/-- A row of the table and of the uploads, whose name has no slash. -/
theorem Previewed.noSlash (previewed : importer.Previewed files memo imported progress)
    (made : importer.Landed progress.tables (importer.arrived files memo imported progress) rows)
    (member : row ∈ (progress.tables.addAttachments rows).attachments) :
    '/' ∉ row.filename.toList := by
  rcases List.mem_append.mp member with old | new
  · exact previewed.lawful.filenames row old
  · rcases made.upload_of new with ⟨_, _, _, left⟩
    exact left.noSlash

theorem slash_mem_name (row : AttachmentRow) : '/' ∈ row.name.toList := by
  rw [AttachmentRow.name, String.toList_append]
  exact List.mem_append_left _ (by decide)

/-- An update leaves no row that was not there, and when it only adds it leaves
them all. -/
theorem Previewed.outlasts (previewed : importer.Previewed files memo imported progress)
    (ended : importer.Ended files memo imported progress rows)
    (adds : OnlyAdds memo.id progress.tables (importer.updated files memo imported progress)
      (importer.arrived files memo imported progress) (importer.links files memo imported progress))
    (inTable : row ∈ (progress.tables.addAttachments rows).attachments) :
    Exists fun later => later ∈ (importer.updated files memo imported progress).attachments ∧
      later.uid = row.uid ∧ later.filename = row.filename := by
  have distinct := ended.made.uploaded.all_distinct previewed.lawful.attachments
  by_cases linkedHere : row.memoId = some memo.id
  · have old : row ∈ progress.tables.attachments := by
      rcases List.mem_append.mp inTable with old | new
      · exact old
      · have free := (ended.made.uploaded.new row new).unlinked
        rw [linkedHere] at free
        cases free
    rcases adds.kept row old linkedHere with ⟨later, inAfter, uid, _⟩
    have inResult := inAfter
    rw [ended.outcome] at inResult
    rcases setMemoAttachments_origin inResult with ⟨origin, there, sameUid, filename⟩
    rw [List.inj_on_of_nodup_map distinct there inTable (sameUid.symm.trans uid)] at filename
    exact ⟨later, inAfter, uid, filename⟩
  · rw [ended.outcome]
    exact setMemoAttachments_others distinct inTable linkedHere

/-- An update that only adds sends every entry as a file of its name, if as a file
at all. -/
theorem Previewed.filename_of_reference (previewed : importer.Previewed files memo imported progress)
    (ended : importer.Ended files memo imported progress rows)
    (adds : OnlyAdds memo.id progress.tables (importer.updated files memo imported progress)
      (importer.arrived files memo imported progress) (importer.links files memo imported progress))
    {entry : AttachmentExport} (listed : entry ∈ imported.files)
    (inTable : row ∈ (progress.tables.addAttachments rows).attachments)
    (name : row.name = importer.referenceOf files memo imported progress entry) : row.filename = entry.name := by
  rcases previewed.outlasts ended adds inTable with ⟨later, inAfter, uid, filename⟩
  rw [← filename]
  refine adds.named (entry, importer.referenceOf files memo imported progress entry) ?_ later inAfter ?_
  · rw [links_eq]
    exact List.mem_map_of_mem listed
  · rw [← name, AttachmentRow.name, uid]
    rfl

/-- No file is sent for an entry that is sent as its own name. -/
theorem Previewed.no_file (previewed : importer.Previewed files memo imported progress)
    (ended : importer.Ended files memo imported progress rows)
    (adds : OnlyAdds memo.id progress.tables (importer.updated files memo imported progress)
      (importer.arrived files memo imported progress) (importer.links files memo imported progress))
    {entry : AttachmentExport} (listed : entry ∈ imported.files)
    (own : importer.referenceOf files memo imported progress entry = entry.name)
    (inTable : row ∈ (progress.tables.addAttachments rows).attachments) : row.name ≠ entry.name := by
  intro name
  have filename := previewed.filename_of_reference ended adds listed inTable (name.trans own.symm)
  refine previewed.noSlash ended.made inTable ?_
  rw [filename, ← name]
  exact slash_mem_name row

/-- An update that only adds, with an upload that came through, is accepted and
names every upload and everything that the memo was found to have. -/
theorem Previewed.accepted (previewed : importer.Previewed files memo imported progress)
    (ended : importer.Ended files memo imported progress rows)
    (adds : OnlyAdds memo.id progress.tables (importer.updated files memo imported progress)
      (importer.arrived files memo imported progress) (importer.links files memo imported progress))
    (any : importer.arrived files memo imported progress ≠ []) :
    (Exists fun requested => requestedAttachments importer.user (progress.tables.addAttachments rows)
        (importer.sentNames files memo imported progress) = .ok requested) ∧
      ∀ row, row ∈ rows ∨ row ∈ progress.tables.currentAttachments memo.id ->
        row.name ∈ importer.sentNames files memo imported progress := by
  have distinct := ended.made.uploaded.all_distinct previewed.lawful.attachments
  have current : (progress.tables.addAttachments rows).currentAttachments memo.id =
      progress.tables.currentAttachments memo.id :=
    congrArg (List.take defaultAttachmentLimit) (ended.made.uploaded.attachmentsOf memo.id)
  have outcome := ended.outcome
  cases answer : setMemoAttachments (importer.moments (importer.delivered files memo imported progress).requests)
      importer.user memo.id (importer.sentNames files memo imported progress)
      (progress.tables.addAttachments rows) with
  | mk result after =>
      rw [answer] at outcome
      cases result with
      | error cause =>
          exfalso
          rcases List.exists_mem_of_ne_nil _ any with ⟨upload, member⟩
          rcases adds.found member with ⟨found, inAfter, linkedHere, name⟩
          rcases ended.made.row_of member with ⟨row, inRows, sameName, _⟩
          have inTable : found ∈ (progress.tables.addAttachments rows).attachments := by
            rw [outcome] at inAfter
            refine @setMemoAttachments_refused _ _ _ _ _ cause (congrArg Prod.fst answer) found ?_
            rw [answer]
            exact inAfter
          have uid := AttachmentRow.name_injective (name.trans sameName)
          have free := (ended.made.uploaded.new row inRows).unlinked
          rw [← List.inj_on_of_nodup_map distinct inTable (List.mem_append_right _ inRows) uid, linkedHere] at free
          cases free
      | ok done =>
          rcases setMemoAttachments_ok answer with ⟨requested, accepted, normalized, normal, tables⟩
          rw [current] at normal tables
          have sentOf (row : AttachmentRow) (has : HasUid normalized row.uid) :
              row.name ∈ importer.sentNames files memo imported progress := by
            rcases has with ⟨other, inList, uid⟩
            rw [normal] at inList
            rcases mem_normalizeAttachments (fun _ inRequest => inRequest) inList with nothing | inRequest
            · exact absurd nothing List.not_mem_nil
            · have sent := name_of_requested accepted inRequest
              rw [AttachmentRow.name, uid] at sent
              exact sent
          refine ⟨⟨requested, accepted⟩, fun row member => sentOf row ?_⟩
          dsimp only at outcome
          rw [tables] at outcome
          by_contra hasNot
          rcases member with new | inCurrent
          · rcases ended.made.upload_of new with ⟨upload, arrived, name, _⟩
            rcases adds.found arrived with ⟨found, inAfter, linkedHere, sameName⟩
            rw [outcome] at inAfter
            rcases List.mem_map.mp inAfter with ⟨old, kept, rfl⟩
            have uid : old.uid = row.uid := by
              rw [← linked_uid _ memo.id normalized old]
              exact AttachmentRow.name_injective (sameName.trans name)
            rw [List.inj_on_of_nodup_map distinct (mem_without.mp kept).1 (List.mem_append_right _ new) uid,
              linked_other _ _ hasNot, (ended.made.uploaded.new row new).unlinked] at linkedHere
            cases linkedHere
          · have there := mem_currentAttachments inCurrent
            rcases adds.kept row there.1 there.2 with ⟨later, inAfter, uid, _⟩
            rw [outcome] at inAfter
            rcases List.mem_map.mp inAfter with ⟨old, kept, rfl⟩
            refine (mem_without.mp kept).2 ⟨row, mem_without.mpr ⟨inCurrent, hasNot⟩, ?_⟩
            rw [← uid, linked_uid]

/-- Each upload is the last one of its name, and every entry is sent as a file. -/
structure Delivers (importer : Importer) (files : List (String × Bytes)) (memo : MemoRow) (imported : MemoExport)
    (progress : Progress) : Prop where
  last : ∀ pair, pair ∈ importer.paired files memo imported progress ->
    courier (importer.paired files memo imported progress) pair.1.name = some pair
  file : ∀ entry, entry ∈ imported.files -> importer.referenceOf files memo imported progress entry ≠ entry.name

/-- An entry is sent as an attachment of the memo or as an upload, when it is sent
as a file. -/
theorem reference_file {entry : AttachmentExport}
    (file : importer.referenceOf files memo imported progress entry ≠ entry.name) :
    (Exists fun row => holder (progress.tables.attachmentsOf memo.id) entry.name = some row ∧
      importer.referenceOf files memo imported progress entry = AttachmentRow.name row) ∨
    (holder (progress.tables.attachmentsOf memo.id) entry.name = none ∧
      Exists fun pair => courier (importer.paired files memo imported progress) entry.name = some pair ∧
        importer.referenceOf files memo imported progress entry = pair.2.2) := by
  rcases reference_cases (progress.tables.attachmentsOf memo.id) (importer.paired files memo imported progress) entry
    with held | brought | ⟨_, _, own⟩
  · exact Or.inl held
  · exact Or.inr brought
  · exact absurd own file

theorem Previewed.delivers (previewed : importer.Previewed files memo imported progress)
    (ended : importer.Ended files memo imported progress rows)
    (adds : OnlyAdds memo.id progress.tables (importer.updated files memo imported progress)
      (importer.arrived files memo imported progress) (importer.links files memo imported progress))
    (any : importer.arrived files memo imported progress ≠ []) : importer.Delivers files memo imported progress := by
  rcases previewed.accepted ended adds any with ⟨⟨requested, accepted⟩, sent⟩
  have file (entry : AttachmentExport) (listed : entry ∈ imported.files) :
      importer.referenceOf files memo imported progress entry ≠ entry.name := by
    intro own
    rcases requested_of_name accepted (List.mem_map_of_mem listed) with ⟨row, _, inTable, name, _⟩
    exact previewed.no_file ended adds listed own inTable (name.symm.trans own)
  refine ⟨fun pair member => ?_, file⟩
  rcases ended.made.row_of (mem_paired member).2 with ⟨row, inRows, name, _⟩
  rcases List.mem_map.mp (sent row (Or.inl inRows)) with ⟨entry, listed, reference⟩
  rcases reference_file (file entry listed) with ⟨held, found, same⟩ | ⟨_, other, found, same⟩
  · have uid := AttachmentRow.name_injective (same.symm.trans reference)
    exact absurd uid ((ended.made.uploaded.new row inRows).fresh held (holder_row found).1)
  · have distinct : ((importer.paired files memo imported progress).map fun pair => pair.2.2).Nodup := by
      have names := ended.made.names_distinct
      rw [← map_snd_paired, List.map_map] at names
      exact names
    have sameName : other.2.2 = pair.2.2 := same.symm.trans (reference.trans name.symm)
    have samePair := List.inj_on_of_nodup_map distinct (courier_mem found).1 member sameName
    rw [samePair] at found
    rw [(courier_mem found).2]
    exact found

/-- What an update with uploads needs in order to only add. -/
theorem Previewed.aligned_of_onlyAdds (previewed : importer.Previewed files memo imported progress)
    (adds : OnlyAdds memo.id progress.tables (importer.updated files memo imported progress)
      (importer.arrived files memo imported progress) (importer.links files memo imported progress))
    (any : importer.arrived files memo imported progress ≠ []) :
    Aligned (newFiles progress.tables memo imported) (importer.paired files memo imported progress) ∧
      Retained importer.user (progress.tables.attachmentsOf memo.id)
        (progress.tables.currentAttachments memo.id) imported.files := by
  rcases previewed.ended with ⟨rows, ended⟩
  have distinct := ended.made.uploaded.all_distinct previewed.lawful.attachments
  rcases previewed.accepted ended adds any with ⟨⟨requested, accepted⟩, sent⟩
  have delivers := previewed.delivers ended adds any
  have listed (entry : AttachmentExport) (new : entry ∈ newFiles progress.tables memo imported) :
      entry ∈ imported.files := (mem_newFiles.mp new).1
  have new (entry : AttachmentExport) (new : entry ∈ newFiles progress.tables memo imported) :
      Exists fun pair => courier (importer.paired files memo imported progress) entry.name = some pair ∧
        importer.referenceOf files memo imported progress entry = pair.2.2 := by
    rcases reference_file (delivers.file entry (listed entry new)) with ⟨held, found, _⟩ | ⟨_, brought⟩
    · rw [holder_newFiles new] at found
      cases found
    · exact brought
  refine ⟨⟨fun pair member => ?_, ?_, fun entry isNew => ?_⟩, ⟨fun row inCurrent => ?_, ?_⟩⟩
  · have isNew := (mem_paired member).1
    rcases ended.made.row_of (mem_paired member).2 with ⟨row, inRows, name, left⟩
    rcases new pair.1 isNew with ⟨other, found, reference⟩
    rw [delivers.last pair member] at found
    cases found
    rw [← left.filename]
    exact (previewed.filename_of_reference ended adds (listed pair.1 isNew) (List.mem_append_right _ inRows)
      (name.symm.trans reference.symm)).symm
  · have once : (importer.paired files memo imported progress).Nodup := by
      have names := ended.made.names_distinct
      rw [← map_snd_paired, List.map_map] at names
      exact List.Nodup.of_map _ names
    refine List.Nodup.map_on (fun first inPairs second alsoInPairs same => ?_) once
    have found := delivers.last first inPairs
    rw [same, delivers.last second alsoInPairs] at found
    exact (Option.some.inj found).symm
  · rcases new entry isNew with ⟨pair, found, _⟩
    exact ⟨pair, courier_mem found⟩
  · have inTable := (mem_currentAttachments inCurrent).1
    rcases List.mem_map.mp (sent row (Or.inr inCurrent)) with ⟨entry, inFiles, reference⟩
    rcases reference_file (delivers.file entry inFiles) with ⟨held, found, same⟩ | ⟨_, pair, found, same⟩
    · have uid := AttachmentRow.name_injective (same.symm.trans reference)
      rw [List.inj_on_of_nodup_map previewed.lawful.attachments (holder_row found).1 inTable uid] at found
      rw [(holder_row found).2]
      exact ⟨found, entry, inFiles, rfl⟩
    · rcases ended.made.row_of (mem_paired (courier_mem found).1).2 with ⟨new, inRows, name, _⟩
      have uid := AttachmentRow.name_injective (reference.symm.trans (same.trans name))
      exact absurd uid ((ended.made.uploaded.new new inRows).fresh row inTable)
  · intro entry inFiles held found
    have reference : importer.referenceOf files memo imported progress entry = AttachmentRow.name held := by
      unfold referenceOf Web.reference
      rw [found]
      rfl
    rcases requested_of_name accepted (List.mem_map_of_mem inFiles) with ⟨row, _, inTable, name, attachable⟩
    have uid := AttachmentRow.name_injective (name.symm.trans reference)
    rw [List.inj_on_of_nodup_map distinct inTable (List.mem_append_left _ (holder_row found).1) uid] at attachable
    exact attachable

/-- Without an upload, an update leaves the tables as they are when no new entry is
called like an attachment. -/
theorem Previewed.onlyAdds_idle (previewed : importer.Previewed files memo imported progress)
    (none : importer.arrived files memo imported progress = []) :
    OnlyAdds memo.id progress.tables (importer.updated files memo imported progress)
        (importer.arrived files memo imported progress) (importer.links files memo imported progress) ↔
      NoneNamed progress.tables (newFiles progress.tables memo imported) := by
  rcases previewed.ended with ⟨rows, ended⟩
  have noRows : rows = [] := by
    refine List.eq_nil_iff_forall_not_mem.mpr fun row member => ?_
    rcases ended.made.upload_of member with ⟨upload, arrived, _⟩
    rw [none] at arrived
    exact List.not_mem_nil arrived
  have unpaired (filename : String) : courier (importer.paired files memo imported progress) filename = Option.none :=
    courier_none.mpr fun pair member => by
      have arrived := (mem_paired member).2
      rw [none] at arrived
      exact absurd arrived List.not_mem_nil
  have own (entry : AttachmentExport) (new : entry ∈ newFiles progress.tables memo imported) :
      importer.referenceOf files memo imported progress entry = entry.name := by
    unfold referenceOf Web.reference
    rw [holder_newFiles new, unpaired]
    rfl
  constructor
  · intro adds entry new row inTable
    exact previewed.no_file ended adds (mem_newFiles.mp new).1 (own entry new) (List.mem_append_left _ inTable)
  · intro noneNamed
    have outcome := ended.outcome
    rw [noRows, Tables.addAttachments_nil] at outcome
    have unchanged : importer.updated files memo imported progress = progress.tables := by
      rw [outcome]
      rcases setMemoAttachments_cases (importer.moments (importer.delivered files memo imported progress).requests)
        importer.user memo.id (importer.sentNames files memo imported progress) progress.tables with
        ⟨_, _, same⟩ | ⟨requested, accepted, _⟩
      · rw [same]
      · rcases List.exists_mem_of_ne_nil _ previewed.lacks with ⟨entry, new⟩
        have sent : importer.referenceOf files memo imported progress entry ∈
            importer.sentNames files memo imported progress := List.mem_map_of_mem (mem_newFiles.mp new).1
        rcases requested_of_name accepted sent with ⟨row, _, inTable, name, _⟩
        exact absurd (name.symm.trans (own entry new)) (noneNamed entry new row inTable)
    rw [unchanged]
    refine ⟨fun row member linkedHere => ⟨row, member, rfl, linkedHere⟩, fun upload member => ?_, ?_⟩
    · rw [none] at member
      exact absurd member List.not_mem_nil
    · intro link member row inTable name
      rw [links_eq] at member
      rcases List.mem_map.mp member with ⟨entry, listed, rfl⟩
      rcases reference_cases (progress.tables.attachmentsOf memo.id) (importer.paired files memo imported progress)
        entry with ⟨held, found, same⟩ | ⟨_, pair, found, _⟩ | ⟨missing, _, same⟩
      · have uid := AttachmentRow.name_injective (name.trans same)
        rw [List.inj_on_of_nodup_map previewed.lawful.attachments inTable (holder_row found).1 uid]
        exact (holder_row found).2
      · rw [unpaired] at found
        cases found
      · exact absurd (name.trans same) (noneNamed entry (mem_newFiles_of_holder listed missing) row inTable)

/-- An update only adds if and only if no upload came through and no new entry is
called like an attachment, or its uploads are aligned and all that the memo was
found to have is retained. -/
theorem updateOne_onlyAdds_iff (previewed : importer.Previewed files memo imported progress) :
    OnlyAdds memo.id progress.tables
        (importer.updateOne files (updateFor progress.tables memo imported) progress).tables
        (importer.arrived files memo imported progress) (importer.links files memo imported progress) ↔
      (importer.arrived files memo imported progress = [] ∧
        NoneNamed progress.tables (newFiles progress.tables memo imported)) ∨
      (Aligned (newFiles progress.tables memo imported) (importer.paired files memo imported progress) ∧
        Retained importer.user (progress.tables.attachmentsOf memo.id)
          (progress.tables.currentAttachments memo.id) imported.files) := by
  constructor
  · intro adds
    by_cases none : importer.arrived files memo imported progress = []
    · exact Or.inl ⟨none, (previewed.onlyAdds_idle none).mp adds⟩
    · exact Or.inr (previewed.aligned_of_onlyAdds adds none)
  · rintro (⟨none, noneNamed⟩ | ⟨aligned, retained⟩)
    · exact (previewed.onlyAdds_idle none).mpr noneNamed
    · exact previewed.onlyAdds_of_aligned aligned retained

end Previews

end Importer
/-! ## A note and a new file -/

/-- The note with a new file, and with its old one if that is listed. -/
def noteVersion (whole : Bool) : MemoExport where
  content := "Milk"
  visibility := some "PRIVATE"
  tags := none
  pinned := none
  createTime := some "2024-05-29T12:30:00.000Z"
  attachments := some ((if whole then [⟨"attachments/note.txt", "note.txt", none⟩] else []) ++
    [⟨"attachments/new.txt", "new.txt", none⟩])

def noteFiles : List (String × Bytes) :=
  [("attachments/note.txt", [0x68, 0x69]), ("attachments/new.txt", [0x6e, 0x65, 0x77])]

def noteMemo : MemoRow where
  id := 1
  uid := "m1"
  creatorId := 1
  content := "Milk"
  tags := []
  visibility := .isPrivate
  pinned := false
  rowStatus := .normal
  createdTs := 1716985800

def noteOwner : Importer where
  server := noteServer
  moments := fun _ => { now := 1753960800, uid := "b1", present := by decide }
  user := ⟨1, false⟩
  parser := ⟨fun _ => some 1716985800000⟩

def noteProgress : Progress := { tables := noteAccount false }

theorem noteAccount_lawful : (noteAccount false).Lawful where
  memos := by decide
  plainMemos := fun memo member => by
    rw [List.mem_singleton.mp member]
    exact ⟨by decide, by decide⟩
  attachments := by decide
  plainAttachments := fun row member => by
    rw [List.mem_singleton.mp member]
    exact ⟨by decide, by decide⟩
  filenames := fun row member => by
    rw [List.mem_singleton.mp member]
    decide

/-- What each version of the note comes to. -/
theorem noteUpdate_parts (whole : Bool) :
    newFiles (noteAccount false) noteMemo (noteVersion whole) = [⟨"attachments/new.txt", "new.txt", none⟩] ∧
      noteOwner.paired noteFiles noteMemo (noteVersion whole) noteProgress =
        [(⟨"attachments/new.txt", "new.txt", none⟩, ⟨"attachments/new.txt", "new.txt", none⟩, "attachments/b1")] ∧
      (noteAccount false).attachmentsOf 1 = (noteAccount false).attachments ∧
      (noteAccount false).currentAttachments 1 = (noteAccount false).attachments := by
  cases whole <;> decide +kernel

theorem notePreviewed (whole : Bool) :
    noteOwner.Previewed noteFiles noteMemo (noteVersion whole) noteProgress where
  lawful := noteAccount_lawful
  member := List.mem_singleton_self _
  own := rfl
  lacks := fun none => List.cons_ne_nil _ _ ((noteUpdate_parts whole).1.symm.trans none)
  generated := fun _ => (⟨by decide, by decide⟩ : PlainUid "b1")
  quiet := rfl

/-- The new file is added to the old one when the version lists both. -/
theorem updateOne_onlyAdds_note :
    OnlyAdds noteMemo.id noteProgress.tables
      (noteOwner.updateOne noteFiles (updateFor noteProgress.tables noteMemo (noteVersion true)) noteProgress).tables
      (noteOwner.arrived noteFiles noteMemo (noteVersion true) noteProgress)
      (noteOwner.links noteFiles noteMemo (noteVersion true) noteProgress) := by
  rcases noteUpdate_parts true with ⟨new, paired, rows, current⟩
  have aligned : Aligned (newFiles noteProgress.tables noteMemo (noteVersion true))
      (noteOwner.paired noteFiles noteMemo (noteVersion true) noteProgress) := by
    rw [paired]
    refine ⟨fun pair member => ?_, by decide, fun entry member => ?_⟩
    · rw [List.mem_singleton.mp member]
    · change entry ∈ newFiles (noteAccount false) noteMemo (noteVersion true) at member
      rw [new] at member
      rw [List.mem_singleton.mp member]
      exact ⟨_, List.mem_singleton_self _, rfl⟩
  have retained : Retained noteOwner.user (noteProgress.tables.attachmentsOf noteMemo.id)
      (noteProgress.tables.currentAttachments noteMemo.id) (noteVersion true).files := by
    change Retained noteOwner.user ((noteAccount false).attachmentsOf 1) ((noteAccount false).currentAttachments 1) _
    rw [rows, current]
    refine ⟨fun row member => ?_, fun entry _ row found => ?_⟩
    · rw [List.mem_singleton.mp member]
      exact ⟨by decide +kernel, _, List.mem_cons_self, rfl⟩
    · rw [List.mem_singleton.mp (holder_mem found).1]
      exact Or.inl rfl
  exact (Importer.updateOne_onlyAdds_iff (notePreviewed true)).mpr (Or.inr ⟨aligned, retained⟩)

/-- A version that lists the new file alone takes the old one from the memo. -/
theorem updateOne_drops_note :
    noteOwner.Previewed noteFiles noteMemo (noteVersion false) noteProgress ∧
      ¬ OnlyAdds noteMemo.id noteProgress.tables
        (noteOwner.updateOne noteFiles (updateFor noteProgress.tables noteMemo (noteVersion false)) noteProgress).tables
        (noteOwner.arrived noteFiles noteMemo (noteVersion false) noteProgress)
        (noteOwner.links noteFiles noteMemo (noteVersion false) noteProgress) := by
  refine ⟨notePreviewed false, fun adds => ?_⟩
  have uids : (noteOwner.updateOne noteFiles (updateFor noteProgress.tables noteMemo (noteVersion false))
      noteProgress).tables.attachments.map AttachmentRow.uid = ["b1"] := by
    decide +kernel
  rcases adds.kept _ (List.mem_singleton_self _) rfl with ⟨later, inAfter, uid, _⟩
  have listed := List.mem_map_of_mem (f := AttachmentRow.uid) inAfter
  rw [uids, List.mem_singleton, uid] at listed
  exact absurd listed (by decide)

end Web
end Memos
