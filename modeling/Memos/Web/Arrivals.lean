import Memos.Web.ImportRuns
import Memos.Web.Previews

namespace Memos
namespace Web

open Library Service
open Store (RowStatus Visibility)

/-!
# Imports into an empty account

Where the user has no memos yet, every memo of the archive is new, and a run of
requests that are not refused leaves one memo for each of them.
-/

/-! ## What is compared -/

structure MemoView where
  content : String
  visibility : Visibility
  pinned : Bool
  rowStatus : RowStatus
  createdTs : Int
  attachments : Multiset FileView

def Tables.view (tables : Tables) (memo : MemoRow) : MemoView where
  content := memo.content
  visibility := memo.visibility
  pinned := memo.pinned
  rowStatus := memo.rowStatus
  createdTs := memo.createdTs
  attachments := (tables.attachmentsOf memo.id).map AttachmentRow.view

/-- The memos of a user, archived ones and comments included. -/
def Tables.ownMemos (tables : Tables) (user : Account) : List MemoRow :=
  tables.memos.filter fun memo => memo.creatorId = user.id

/-! ## An import into an empty account -/

/-- A memo as an import leaves it that has created it. -/
structure Arrived (importer : Importer) (files : List (String × Bytes)) (memo : MemoExport)
    (view : MemoView) : Prop where
  content : view.content = memo.content
  visibility : Importer.parseVisibility memo.visibility = some view.visibility
  unpinned : view.pinned = false
  normal : view.rowStatus = .normal
  created : ∀ createTime, importer.timestamp memo.createTime = .ok createTime ->
    Exists fun now => (0 < now ∧ isValid now = true) ∧ view.createdTs = stampedTime createTime now
  attachments : view.attachments = (memo.files.filterMap (importer.arrival files memo.createTime) : Multiset FileView)

theorem createMany_refused (importer : Importer) (files : List (String × Bytes)) (memos : List MemoExport)
    (progress : Progress) :
    progress.refused ≤
      (memos.foldl (fun progress memo => importer.createOne files memo progress) progress).refused := by
  induction memos generalizing progress with
  | nil => exact Nat.le_refl _
  | cons memo memos ih =>
      exact (importer.createOne_refused files memo progress).trans (ih _)

/-- The rows that a run of requests has added, of which each shows what was asked
for. -/
structure Created (importer : Importer) (files : List (String × Bytes)) (memos : List MemoExport)
    (before after : Tables) (rows : List MemoRow) : Prop where
  added : after.memos = before.memos ++ rows
  owned : ∀ row, row ∈ rows -> row.creatorId = importer.user.id
  old : ∀ id, id ≤ before.sequence -> after.attachmentsOf id = before.attachmentsOf id
  arrived : List.Forall₂ (fun memo row => Arrived importer files memo (after.view row)) memos rows

theorem createMany_spec {importer : Importer} {files : List (String × Bytes)} {memos : List MemoExport}
    {progress : Progress} (sequenced : progress.tables.Sequenced)
    (timed : ∀ memo, memo ∈ memos -> Exists fun createTime => importer.timestamp memo.createTime = .ok createTime)
    (through : (memos.foldl (fun progress memo => importer.createOne files memo progress) progress).refused =
      progress.refused) :
    Exists fun rows => Created importer files memos progress.tables
      (memos.foldl (fun progress memo => importer.createOne files memo progress) progress).tables rows := by
  induction memos generalizing progress with
  | nil =>
      exact ⟨[], (List.append_nil _).symm, fun row member => absurd member List.not_mem_nil, fun _ _ => rfl,
        List.Forall₂.nil⟩
  | cons memo memos ih =>
      rw [List.foldl_cons] at through ⊢
      have first := importer.createOne_refused files memo progress
      have later := createMany_refused importer files memos (importer.createOne files memo progress)
      have kept : (importer.createOne files memo progress).refused = progress.refused := by omega
      rcases timed memo List.mem_cons_self with ⟨createTime, time⟩
      rcases importer.createOne_spec sequenced time kept with ⟨row, made, visibility, parsed, added⟩
      have rest := ih (added.sequenced sequenced)
        (fun other member => timed other (List.mem_cons_of_mem _ member)) (through.trans kept.symm)
      rcases rest with ⟨rows, created⟩
      have sequence : (importer.createOne files memo progress).tables.sequence = progress.tables.sequence + 1 := by
        rw [added.tables]
      refine ⟨row :: rows, ?_, ?_, ?_, List.Forall₂.cons ?_ created.arrived⟩
      · rw [created.added, added.tables]
        simp
      · intro other member
        rcases List.mem_cons.mp member with rfl | inRows
        · exact added.creator
        · exact created.owned other inRows
      · intro id low
        rw [created.old id (by omega), added.attachmentsOf_old low]
      · have attachments := created.old row.id (by rw [sequence, added.id])
        refine ⟨added.content, parsed.trans (congrArg some added.visibility.symm), added.unpinned, added.normal, ?_, ?_⟩
        · intro other sameTime
          rw [time] at sameTime
          cases sameTime
          exact added.created
        · unfold Tables.view
          dsimp only
          rw [attachments, ← added.views]
          exact Multiset.coe_eq_coe.mpr ((added.attachmentsOf_new sequenced).map _)

/-- Without memos of the user the preview has all memos of the archive as new. -/
theorem generateImportPreview_empty {data : ExportData} {listing : List MemoMessage} {user : Nat}
    (empty : ∀ memo, memo ∈ listing -> memo.creator ≠ user) :
    Exists fun preview => generateImportPreview data listing user = some preview ∧
      preview.newMemos = data.memos ∧ preview.updateMemos = [] := by
  have none : listing.filter (fun memo => memo.creator = user) = [] := by
    apply List.filter_eq_nil_iff.mpr
    intro memo member same
    exact empty memo member (of_decide_eq_true same)
  rcases foldl_previewMemo [] data.memos {} with ⟨new, update⟩
  have all : data.memos.filter (fun memo => (([] : List (String × MemoMessage)).lookup memo.key).isNone) = data.memos :=
    List.filter_eq_self.mpr fun _ _ => rfl
  have noUpdate : data.memos.filterMap (toUpdate []) = [] := List.filterMap_eq_nil_iff.mpr fun _ _ => rfl
  rw [all] at new
  rw [noUpdate] at update
  refine ⟨data.memos.foldl (previewMemo []) {}, ?_, new, update⟩
  unfold generateImportPreview
  rw [none]
  rfl

theorem listing_own {tables : Tables} {user : Account} (empty : tables.ownMemos user = []) {memo : MemoMessage}
    (member : memo ∈ tables.listing user) : memo.creator ≠ user.id := by
  rcases List.mem_map.mp member with ⟨row, listed, rfl⟩
  intro own
  unfold Tables.listMemos at listed
  have inTable := (List.mem_filter.mp (List.mem_mergeSort.mp (List.mem_of_mem_take listed))).1
  exact List.filter_eq_nil_iff.mp empty row inTable (decide_eq_true own)

/-- An import of data into an account without memos. -/
theorem importParsed_empty {importer : Importer} {parsed : ParsedImport} {target : Tables}
    (sequenced : target.Sequenced) (empty : target.ownMemos importer.user = [])
    (timed : ∀ memo, memo ∈ parsed.data.memos ->
      Exists fun createTime => importer.timestamp memo.createTime = .ok createTime)
    (through : (importer.importParsed parsed (target.listing importer.user) { tables := target }).refused = 0) :
    Exists fun rows => (importer.importParsed parsed (target.listing importer.user)
        { tables := target }).tables.ownMemos importer.user = rows ∧
      List.Forall₂ (fun memo row => Arrived importer parsed.attachmentFiles memo
        ((importer.importParsed parsed (target.listing importer.user) { tables := target }).tables.view row))
        parsed.data.memos rows := by
  rcases @generateImportPreview_empty parsed.data (target.listing importer.user) importer.user.id
    (fun memo member => listing_own empty member) with ⟨preview, previewed, new, update⟩
  unfold Importer.importParsed at through ⊢
  rw [previewed] at through ⊢
  dsimp only at through ⊢
  unfold Importer.handleConfirmImport at through ⊢
  rw [new, update] at through ⊢
  dsimp only [List.foldl_nil] at through ⊢
  rcases @createMany_spec importer _ _ _ sequenced timed through with ⟨rows, created⟩
  refine ⟨rows, ?_, created.arrived⟩
  unfold Tables.ownMemos at empty ⊢
  rw [created.added, List.filter_append, empty, List.nil_append]
  exact List.filter_eq_self.mpr fun row member => decide_eq_true (created.owned row member)

end Web
end Memos
