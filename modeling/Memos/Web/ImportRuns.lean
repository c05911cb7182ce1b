import Memos.Library.Grouping
import Memos.Web.Import

namespace Memos
namespace Web

open Library Service
open Store (RowStatus Visibility)

/-!
# What the requests of an import add

Every request that is not refused adds rows to the tables and leaves the others
as they are, so that a run of an import is described by the rows that it adds.
-/

/-! ## Uploads -/

/-- What an attachment shows of itself. -/
structure FileView where
  filename : String
  type : String
  blob : Bytes
deriving DecidableEq

def AttachmentRow.view (row : AttachmentRow) : FileView := ⟨row.filename, row.type, row.blob⟩

def AttachmentRow.name (row : AttachmentRow) : String := attachmentNamePrefix ++ row.uid

/-- A row that an upload has just made. -/
structure NewRow (user : Account) (before : Tables) (row : AttachmentRow) : Prop where
  unlinked : row.memoId = none
  owned : row.creatorId = user.id
  /-- An upload is in no group or in one of its own. -/
  grouped : row.motionGroup = "" ∨ row.motionGroup = row.uid
  fresh : ∀ other, other ∈ before.attachments -> other.uid ≠ row.uid

def Tables.addAttachments (tables : Tables) (rows : List AttachmentRow) : Tables :=
  { tables with attachments := tables.attachments ++ rows }

theorem Tables.addAttachments_nil (tables : Tables) : tables.addAttachments [] = tables := by
  rw [addAttachments, List.append_nil]

theorem Tables.addAttachments_append (tables : Tables) (first second : List AttachmentRow) :
    (tables.addAttachments first).addAttachments second = tables.addAttachments (first ++ second) := by
  simp only [addAttachments, List.append_assoc]

variable {row : AttachmentRow} {moment : Moment} {user : Account} {createTime : Option Int} {rows : List AttachmentRow}
  {content : String} {visibility : Visibility} {memo : MemoRow}

theorem insertAttachment_ok {before after : Tables} (success : insertAttachment row before = .ok after) :
    after = before.addAttachments [row] ∧ ∀ other, other ∈ before.attachments -> other.uid ≠ row.uid := by
  unfold insertAttachment at success
  split at success
  next => cases success
  next fresh =>
    cases success
    refine ⟨rfl, fun other member same => fresh ?_⟩
    exact List.any_eq_true.mpr ⟨other, member, decide_eq_true same⟩

theorem createAttachment_ok {server : Server} {filename : String} {content : Bytes} {before after : Tables}
    {name : String}
    (success : createAttachment server moment user filename content createTime before = .ok (name, after)) :
    Exists fun row => name = AttachmentRow.name row ∧ after = before.addAttachments [row] ∧ NewRow user before row ∧
      row.uid = moment.uid ∧ row.filename = filename ∧ server.deriveType filename content = some row.type ∧
      row.blob = server.storedBlob row.type content := by
  unfold createAttachment at success
  dsimp only at success
  split at success
  next => cases success
  next =>
    split at success
    next => cases success
    next =>
      split at success
      next => cases success
      next =>
        split at success
        next => cases success
        next type derived =>
          split at success
          next => cases success
          next =>
            rcases bind_eq_ok.mp success with ⟨tables, inserted, finished⟩
            rcases insertAttachment_ok inserted with ⟨same, fresh⟩
            cases finished
            refine ⟨_, rfl, same, ⟨rfl, rfl, ?_, fresh⟩, rfl, rfl, derived, rfl⟩
            dsimp only
            split
            · exact Or.inr rfl
            · exact Or.inl rfl

namespace Importer

variable (importer : Importer)

/-- What becomes of an attachment of the archive, if it can be uploaded. -/
def arrival (files : List (String × Bytes)) (memoCreateTime : Option String) (attachment : AttachmentExport) :
    Option FileView := do
  let data ← getAttachmentData files attachment.path
  let _ ← (importer.timestamp (firstGiven attachment.createTime memoCreateTime)).toOption
  let type ← importer.server.deriveType attachment.name data
  return ⟨attachment.name, type, importer.server.storedBlob type data⟩

theorem uploadOne_refused (files : List (String × Bytes)) (attachment : AttachmentExport)
    (memoCreateTime : Option String) (progress : Progress) :
    progress.refused ≤ (importer.uploadOne files attachment memoCreateTime progress).2.refused := by
  unfold uploadOne
  split
  · exact Nat.le_refl _
  · split
    · exact Nat.le_refl _
    · split
      · exact Nat.le_succ _
      · exact Nat.le_refl _

/-- An upload that is not refused adds a row, unless there is nothing to upload. -/
theorem uploadOne_spec {files : List (String × Bytes)} {attachment : AttachmentExport}
    {memoCreateTime : Option String} {progress : Progress}
    (through : (importer.uploadOne files attachment memoCreateTime progress).2.refused = progress.refused) :
    (importer.arrival files memoCreateTime attachment = none ∧
      importer.uploadOne files attachment memoCreateTime progress = (none, progress)) ∨
    Exists fun row => importer.arrival files memoCreateTime attachment = some (AttachmentRow.view row) ∧
      NewRow importer.user progress.tables row ∧ row.uid = (importer.moments progress.requests).uid ∧
      importer.uploadOne files attachment memoCreateTime progress = (some row.name,
        { progress with tables := progress.tables.addAttachments [row], requests := progress.requests + 1 }) := by
  unfold uploadOne at through ⊢
  unfold arrival
  cases found : getAttachmentData files attachment.path with
  | none => exact Or.inl ⟨rfl, rfl⟩
  | some data =>
      rw [found] at through
      dsimp only at through ⊢
      cases time : importer.timestamp (firstGiven attachment.createTime memoCreateTime) with
      | error cause => exact Or.inl ⟨rfl, rfl⟩
      | ok createTime =>
          rw [time] at through
          dsimp only at through ⊢
          cases created : createAttachment importer.server (importer.moments progress.requests) importer.user
              attachment.name data createTime progress.tables with
          | error cause =>
              rw [created] at through
              exact absurd through (Nat.succ_ne_self _)
          | ok result =>
              rcases createAttachment_ok created with ⟨row, name, tables, new, uid, filename, type, blob⟩
              have view : row.view = ⟨attachment.name, row.type, importer.server.storedBlob row.type data⟩ := by
                rw [AttachmentRow.view, filename, blob]
              refine Or.inr ⟨row, ?_, new, uid, ?_⟩
              · simp only [Except.toOption, Option.bind_eq_bind, Option.bind_some, type, view]
                rfl
              · dsimp only
                rw [name, tables]

end Importer

/-! ## Many uploads -/

/-- The rows that some uploads have made. -/
structure Uploaded (user : Account) (before : Tables) (rows : List AttachmentRow) : Prop where
  new : ∀ row, row ∈ rows -> NewRow user before row
  distinct : (rows.map AttachmentRow.uid).Nodup

theorem Uploaded.cons {before : Tables} (new : NewRow user before row)
    (others : Uploaded user (before.addAttachments [row]) rows) :
    Uploaded user before (row :: rows) where
  new := fun other member => by
    rcases List.mem_cons.mp member with rfl | later
    · exact new
    · have otherNew := others.new other later
      exact ⟨otherNew.unlinked, otherNew.owned, otherNew.grouped, fun old inTable =>
        otherNew.fresh old (List.mem_append_left _ inTable)⟩
  distinct := by
    rw [List.map_cons, List.nodup_cons]
    refine ⟨fun again => ?_, others.distinct⟩
    rcases List.mem_map.mp again with ⟨other, later, same⟩
    exact (others.new other later).fresh row (List.mem_append_right _ List.mem_cons_self) same.symm

namespace Importer

variable (importer : Importer)

theorem uploadMany_refused (files : List (String × Bytes)) (count : ImportResult -> ImportResult)
    (memoCreateTime : Option String) (attachments : List AttachmentExport) (progress : Progress) :
    progress.refused ≤ (importer.uploadMany files count memoCreateTime attachments progress).2.refused := by
  induction attachments generalizing progress with
  | nil => exact Nat.le_refl _
  | cons attachment rest ih =>
      have first := importer.uploadOne_refused files attachment memoCreateTime progress
      rw [uploadMany]
      generalize importer.uploadOne files attachment memoCreateTime progress = step at first
      rcases step with ⟨_ | name, next⟩
      · dsimp only at first ⊢
        exact first.trans (ih { next with result :=
          { next.result with attachmentsFailed := next.result.attachmentsFailed + 1 } })
      · dsimp only at first ⊢
        exact first.trans (ih { next with result := count next.result })

/-- Uploads of which none is refused add a row for each attachment that can be
uploaded. -/
theorem uploadMany_spec {files : List (String × Bytes)} {count : ImportResult -> ImportResult}
    {memoCreateTime : Option String} {attachments : List AttachmentExport} {progress : Progress}
    (through : (importer.uploadMany files count memoCreateTime attachments progress).2.refused = progress.refused) :
    Exists fun rows => Uploaded importer.user progress.tables rows ∧
      (∀ row, row ∈ rows -> Exists fun request => row.uid = (importer.moments request).uid) ∧
      rows.map AttachmentRow.view = attachments.filterMap (importer.arrival files memoCreateTime) ∧
      (importer.uploadMany files count memoCreateTime attachments progress).1 = rows.map AttachmentRow.name ∧
      (importer.uploadMany files count memoCreateTime attachments progress).2.tables =
        progress.tables.addAttachments rows := by
  induction attachments generalizing progress with
  | nil =>
      refine ⟨[], ⟨fun row member => absurd member List.not_mem_nil, List.nodup_nil⟩,
        fun row member => absurd member List.not_mem_nil, rfl, rfl, ?_⟩
      rw [Tables.addAttachments_nil]
      rfl
  | cons attachment rest ih =>
      have first := importer.uploadOne_refused files attachment memoCreateTime progress
      have spec := @uploadOne_spec importer files attachment memoCreateTime progress
      rw [uploadMany] at through ⊢
      rw [List.filterMap_cons]
      generalize importer.uploadOne files attachment memoCreateTime progress = step at first spec through ⊢
      rcases step with ⟨name, next⟩
      have later (result : ImportResult) := importer.uploadMany_refused files count memoCreateTime rest
        { next with result }
      dsimp only at first
      cases name with
      | none =>
          dsimp only at through later ⊢
          have kept : next.refused = progress.refused := by
            refine Nat.le_antisymm ?_ first
            rw [← through]
            exact later { next.result with attachmentsFailed := next.result.attachmentsFailed + 1 }
          rcases spec kept with ⟨missing, same⟩ | ⟨row, _, _, _, same⟩
          · cases same
            rw [missing]
            exact ih through
          · cases same
      | some name =>
          dsimp only at through later ⊢
          have kept : next.refused = progress.refused := by
            refine Nat.le_antisymm ?_ first
            rw [← through]
            exact later (count next.result)
          rcases spec kept with ⟨_, same⟩ | ⟨row, arrives, new, uid, same⟩
          · cases same
          · cases same
            rcases ih through with ⟨rows, uploaded, generated, views, names, tables⟩
            rw [arrives]
            refine ⟨row :: rows, Uploaded.cons new uploaded, ?_, congrArg (row.view :: ·) views,
              congrArg (row.name :: ·) names, ?_⟩
            · intro other member
              rcases List.mem_cons.mp member with rfl | later
              · exact ⟨progress.requests, uid⟩
              · exact generated other later
            · rw [tables, Tables.addAttachments_append]
              rfl

end Importer

/-! ## The attachments of a memo -/

theorem mem_appendAttachments {normalized rest : List AttachmentRow}
    (member : row ∈ appendAttachments normalized rest) : row ∈ normalized ∨ row ∈ rest := by
  induction rest generalizing normalized with
  | nil => exact Or.inl member
  | cons attachment rest ih =>
      rw [appendAttachments] at member
      split at member
      · exact (ih member).imp id (List.mem_cons_of_mem _)
      · rcases ih member with before | later
        · rcases List.mem_append.mp before with old | single
          · exact Or.inl old
          · exact Or.inr (List.mem_singleton.mp single ▸ List.mem_cons_self)
        · exact Or.inr (List.mem_cons_of_mem _ later)

/-- A list has a row with this uid. -/
def HasUid (rows : List AttachmentRow) (uid : String) : Prop := Exists fun row => row ∈ rows ∧ row.uid = uid

theorem HasUid.appendAttachments {normalized : List AttachmentRow} {uid : String} (rest : List AttachmentRow)
    (has : HasUid normalized uid) : HasUid (appendAttachments normalized rest) uid := by
  induction rest generalizing normalized with
  | nil => exact has
  | cons attachment rest ih =>
      rw [Web.appendAttachments]
      split
      · exact ih has
      · rcases has with ⟨row, member, same⟩
        exact ih ⟨row, List.mem_append_left _ member, same⟩

theorem appendAttachments_covers (normalized : List AttachmentRow) {rest : List AttachmentRow} (member : row ∈ rest) :
    HasUid (appendAttachments normalized rest) row.uid := by
  induction rest generalizing normalized with
  | nil => exact absurd member List.not_mem_nil
  | cons attachment rest ih =>
      rw [appendAttachments]
      rcases List.mem_cons.mp member with rfl | later
      · split
        next found =>
          rcases List.any_eq_true.mp found with ⟨other, inList, same⟩
          exact HasUid.appendAttachments rest ⟨other, inList, of_decide_eq_true same⟩
        next => exact HasUid.appendAttachments rest ⟨row, List.mem_append_right _ List.mem_cons_self, rfl⟩
      · split
        · exact ih normalized later
        · exact ih _ later

theorem mem_inGroup {group : String} :
    row ∈ inGroup group rows ↔ row ∈ rows ∧ row.motionGroup = group := by
  rw [inGroup, List.mem_filter, decide_eq_true_iff]

/-- A request names some, but not all, of the members that a memo has of a live
photo. -/
def PartlyNamed (current requested : List AttachmentRow) (group : String) : Prop :=
  isMultiMemberMotionGroup (inGroup group current) ∧
    allGroupMembersRequested (inGroup group current) (inGroup group requested) = false

theorem mem_normalizeAttachments {current requested rest normalized : List AttachmentRow} {groups : List String}
    (inside : ∀ other, other ∈ rest -> other ∈ requested)
    (member : row ∈ normalizeAttachments current requested rest normalized groups) :
    row ∈ normalized ∨ row ∈ requested := by
  induction rest generalizing normalized groups with
  | nil => exact Or.inl member
  | cons attachment rest ih =>
      have later := fun other inRest => inside other (List.mem_cons_of_mem _ inRest)
      rw [normalizeAttachments] at member
      split at member
      · rcases ih later member with before | named
        · rcases mem_appendAttachments before with old | single
          · exact Or.inl old
          · rw [List.mem_singleton.mp single]
            exact Or.inr (inside attachment List.mem_cons_self)
        · exact Or.inr named
      · split at member
        · exact ih later member
        · split at member
          · exact ih later member
          · rcases ih later member with before | named
            · exact (mem_appendAttachments before).imp id fun grouped => (mem_inGroup.mp grouped).1
            · exact Or.inr named

/-- A requested attachment stays, unless its group is partly named.  The groups
that have been seen are there as far as they are not. -/
theorem normalizeAttachments_covers {current requested : List AttachmentRow} (rest : List AttachmentRow)
    {normalized : List AttachmentRow} {groups : List String} (named : row ∈ requested)
    (whole : row.motionGroup = "" ∨ ¬ PartlyNamed current requested row.motionGroup)
    (seen : row.motionGroup ∈ groups -> HasUid normalized row.uid) (here : row ∈ rest ∨ HasUid normalized row.uid) :
    HasUid (normalizeAttachments current requested rest normalized groups) row.uid := by
  induction rest generalizing normalized groups with
  | nil => exact here.resolve_left List.not_mem_nil
  | cons attachment rest ih =>
      rw [normalizeAttachments]
      have next (same : row = attachment -> HasUid normalized row.uid) : row ∈ rest ∨ HasUid normalized row.uid := by
        rcases here with inList | has
        · exact (List.mem_cons.mp inList).symm.imp id same
        · exact Or.inr has
      split
      next noGroup =>
        apply ih
        · exact fun inGroups => HasUid.appendAttachments _ (seen inGroups)
        · rcases here with inList | has
          · rcases List.mem_cons.mp inList with rfl | later
            · exact Or.inr (appendAttachments_covers normalized List.mem_cons_self)
            · exact Or.inl later
          · exact Or.inr (HasUid.appendAttachments _ has)
      next grouped =>
        split
        next known => exact ih seen (next fun same => seen (same ▸ known))
        next =>
          have own (same : row.motionGroup = attachment.motionGroup) :
              ¬ PartlyNamed current requested attachment.motionGroup := by
            rw [← same] at grouped ⊢
            exact whole.resolve_left grouped
          split
          next partly =>
            have other : row.motionGroup ≠ attachment.motionGroup := fun same => own same partly
            apply ih
            · exact fun inGroups => seen ((List.mem_cons.mp inGroups).resolve_left other)
            · exact next fun same => absurd (congrArg AttachmentRow.motionGroup same) other
          next =>
            have added (same : row.motionGroup = attachment.motionGroup) :
                HasUid (appendAttachments normalized (inGroup attachment.motionGroup requested)) row.uid :=
              appendAttachments_covers normalized (mem_inGroup.mpr ⟨named, same⟩)
            apply ih
            · intro inGroups
              rcases List.mem_cons.mp inGroups with same | old
              · exact added same
              · exact HasUid.appendAttachments _ (seen old)
            · rcases here with inList | has
              · rcases List.mem_cons.mp inList with rfl | later
                · exact Or.inr (added rfl)
                · exact Or.inl later
              · exact Or.inr (HasUid.appendAttachments _ has)

theorem attachmentName_injective {first second : String}
    (same : attachmentNamePrefix ++ first = attachmentNamePrefix ++ second) : first = second := by
  have lists := congrArg String.toList same
  rw [String.toList_append, String.toList_append] at lists
  exact String.toList_injective (List.append_cancel_left lists)

theorem AttachmentRow.name_injective {first second : AttachmentRow} (same : first.name = second.name) :
    first.uid = second.uid :=
  attachmentName_injective same

variable {tables : Tables} {views : List FileView} {made : List AttachmentRow}

/-- A request that is accepted names attachments of the table one by one. -/
theorem requestedAttachments_ok {names : List String} {requested : List AttachmentRow}
    (success : requestedAttachments user tables names = .ok requested) :
    List.Forall₂ (fun name row => name = AttachmentRow.name row ∧
      tables.attachments.find? (fun other => other.uid = row.uid) = some row) names requested := by
  induction names generalizing requested with
  | nil =>
      cases success
      exact List.Forall₂.nil
  | cons name names ih =>
      rw [requestedAttachments] at success
      rcases bind_eq_ok.mp success with ⟨uid, extracted, checked⟩
      split at checked
      next => cases checked
      next row found =>
        split at checked
        next =>
          rcases bind_eq_ok.mp checked with ⟨others, rest, finished⟩
          cases finished
          have sameUid : row.uid = uid := by simpa using List.find?_some found
          refine List.Forall₂.cons ⟨?_, ?_⟩ (ih rest)
          · rw [eq_of_extractAttachmentUID extracted, AttachmentRow.name, sameUid]
            rfl
          · rw [sameUid]
            exact found
        next => cases checked

theorem requestedAttachments_eq {rows requested : List AttachmentRow}
    (found : ∀ row, row ∈ rows -> tables.attachments.find? (fun other => other.uid = row.uid) = some row)
    (success : requestedAttachments user tables (rows.map AttachmentRow.name) = .ok requested) : requested = rows := by
  have named := requestedAttachments_ok success
  rw [List.forall₂_map_left_iff] at named
  clear success
  induction named with
  | nil => rfl
  | @cons row other rows others same _ ih =>
      have here := found row List.mem_cons_self
      rw [AttachmentRow.name_injective same.1, same.2] at here
      rw [Option.some.inj here, ih fun later member => found later (List.mem_cons_of_mem _ member)]

/-- The rows that are not among some others. -/
def without (dropped rows : List AttachmentRow) : List AttachmentRow :=
  rows.filter fun row => !dropped.any fun other => other.uid = row.uid

theorem without_nil (rows : List AttachmentRow) : without [] rows = rows :=
  List.filter_eq_self.mpr fun _ _ => rfl

theorem mem_without {dropped rows : List AttachmentRow} :
    row ∈ without dropped rows ↔ row ∈ rows ∧ ¬ HasUid dropped row.uid := by
  unfold without HasUid
  rw [List.mem_filter]
  simp

theorem without_cons (attachment : AttachmentRow) (dropped rows : List AttachmentRow) :
    without dropped (rows.filter fun other => other.uid ≠ attachment.uid) = without (attachment :: dropped) rows := by
  unfold without
  rw [List.filter_filter]
  apply List.filter_congr
  intro row _
  by_cases same : row.uid = attachment.uid
  · simp [same]
  · simp [same, Ne.symm same]

theorem deleteAttachments_ok {dropped : List AttachmentRow} {before after : Tables}
    (success : deleteAttachments user dropped before = (.ok (), after)) :
    after = { before with attachments := without dropped before.attachments } := by
  induction dropped generalizing before with
  | nil =>
      cases success
      rw [without_nil]
  | cons attachment dropped ih =>
      rw [deleteAttachments] at success
      split at success
      · rw [ih success, without_cons]
      · cases success

/-- A row after some rows have been linked to a memo. -/
def linked (now : Int) (memoId : Nat) (normalized : List AttachmentRow) (attachment : AttachmentRow) : AttachmentRow :=
  match (normalized.reverse.map AttachmentRow.uid).idxOf? attachment.uid with
  | some index => { attachment with memoId := some memoId, updatedTs := now + index }
  | none => attachment

theorem linkAttachments_eq (now : Int) (memoId : Nat) (normalized : List AttachmentRow) (tables : Tables) :
    linkAttachments now memoId normalized tables =
      { tables with attachments := tables.attachments.map (linked now memoId normalized) } := rfl

section Linked

variable (now : Int) (memoId : Nat) {normalized : List AttachmentRow} {row : AttachmentRow}

/-- What a link leaves as it is. -/
theorem linked_same (normalized : List AttachmentRow) (row : AttachmentRow) :
    Exists fun memo => Exists fun updated =>
      linked now memoId normalized row = { row with memoId := memo, updatedTs := updated } := by
  unfold linked
  split
  next index _ => exact ⟨some memoId, now + index, rfl⟩
  next => exact ⟨row.memoId, row.updatedTs, rfl⟩

theorem linked_view (normalized : List AttachmentRow) (row : AttachmentRow) :
    (linked now memoId normalized row).view = row.view := by
  rcases linked_same now memoId normalized row with ⟨memo, updated, same⟩
  rw [same]
  rfl

theorem linked_uid (normalized : List AttachmentRow) (row : AttachmentRow) :
    (linked now memoId normalized row).uid = row.uid := by
  rcases linked_same now memoId normalized row with ⟨memo, updated, same⟩
  rw [same]

theorem linked_memoId (has : HasUid normalized row.uid) :
    (linked now memoId normalized row).memoId = some memoId := by
  rcases has with ⟨other, member, same⟩
  have inList : row.uid ∈ normalized.reverse.map AttachmentRow.uid :=
    List.mem_map.mpr ⟨other, List.mem_reverse.mpr member, same⟩
  unfold linked
  split
  next => rfl
  next missing => exact absurd inList (List.idxOf?_eq_none_iff.mp missing)

theorem linked_other (hasNot : ¬ HasUid normalized row.uid) : linked now memoId normalized row = row := by
  unfold linked
  split
  next index found =>
    exfalso
    have inList : row.uid ∈ normalized.reverse.map AttachmentRow.uid := by
      by_contra missing
      rw [List.idxOf?_eq_none_iff.mpr missing] at found
      cases found
    rcases List.mem_map.mp inList with ⟨other, member, same⟩
    exact hasNot ⟨other, List.mem_reverse.mp member, same⟩
  next => rfl

end Linked

/-- What a request that sets the attachments of a memo does. -/
theorem setMemoAttachments_ok {memoId : Nat} {names : List String} {before after : Tables}
    (success : setMemoAttachments moment user memoId names before = (.ok (), after)) :
    Exists fun requested => requestedAttachments user before names = .ok requested ∧
      Exists fun normalized =>
        normalized = normalizeAttachments (before.currentAttachments memoId) requested requested [] [] ∧
        after = { before with
          attachments := (without (without normalized (before.currentAttachments memoId)) before.attachments).map
            (linked moment.now memoId normalized) } := by
  unfold setMemoAttachments at success
  dsimp only at success
  split at success
  next => cases success
  next requested accepted =>
    refine ⟨requested, accepted, _, rfl, ?_⟩
    split at success
    next => cases success
    next deleted =>
      cases success
      rw [deleteAttachments_ok deleted, linkAttachments_eq]
      rfl

/-! ## New memos -/

/-- The ids that the tables use are not above the sequence. -/
structure Tables.Sequenced (tables : Tables) : Prop where
  memos : ∀ memo, memo ∈ tables.memos -> memo.id ≤ tables.sequence
  links : ∀ row, row ∈ tables.attachments -> ∀ id, row.memoId = some id -> id ≤ tables.sequence

theorem attachmentsOf_above (sequenced : tables.Sequenced) {id : Nat} (above : tables.sequence < id) :
    tables.attachmentsOf id = [] := by
  have none : tables.attachments.filter (fun row => row.memoId = some id) = [] := by
    apply List.filter_eq_nil_iff.mpr
    intro row member linkedHere
    have low := sequenced.links row member id (of_decide_eq_true linkedHere)
    omega
  unfold Tables.attachmentsOf
  rw [none, List.mergeSort_nil]

/-- The time that a new memo gets. -/
def stampedTime (createTime : Option Int) (now : Int) : Int :=
  if (createTime.filter isValid).getD 0 ≠ 0 then (createTime.filter isValid).getD 0 else now

/-- A memo and its attachments, as a request has added them. -/
structure Added (user : Account) (content : String) (visibility : Visibility) (createTime : Option Int)
    (views : List FileView) (before after : Tables) (memo : MemoRow) (made : List AttachmentRow) : Prop where
  tables : after =
    { memos := before.memos ++ [memo], attachments := before.attachments ++ made, sequence := before.sequence + 1 }
  id : memo.id = before.sequence + 1
  newUid : ∀ other, other ∈ before.memos -> other.uid ≠ memo.uid
  creator : memo.creatorId = user.id
  content : memo.content = content
  visibility : memo.visibility = visibility
  unpinned : memo.pinned = false
  normal : memo.rowStatus = .normal
  noComment : memo.isComment = false
  created : Exists fun now => (0 < now ∧ isValid now = true) ∧ memo.createdTs = stampedTime createTime now
  views : made.map AttachmentRow.view = views
  linked : ∀ row, row ∈ made -> row.memoId = some memo.id
  fresh : ∀ row, row ∈ made -> ∀ other, other ∈ before.attachments -> other.uid ≠ row.uid
  distinct : (made.map AttachmentRow.uid).Nodup

theorem Added.sequenced {before after : Tables}
    (added : Added user content visibility createTime views before after memo made) (sequenced : before.Sequenced) :
    after.Sequenced := by
  rw [added.tables]
  constructor
  · intro other member
    rcases List.mem_append.mp member with old | new
    · exact (sequenced.memos other old).trans (Nat.le_succ _)
    · rw [List.mem_singleton.mp new, added.id]
  · intro row member id links
    rcases List.mem_append.mp member with old | new
    · exact (sequenced.links row old id links).trans (Nat.le_succ _)
    · rw [added.linked row new, Option.some.injEq] at links
      rw [← links, added.id]

/-- The memos that were there keep their attachments. -/
theorem Added.attachmentsOf_old {before after : Tables}
    (added : Added user content visibility createTime views before after memo made) {id : Nat}
    (old : id ≤ before.sequence) : after.attachmentsOf id = before.attachmentsOf id := by
  have none : made.filter (fun row => row.memoId = some id) = [] := by
    apply List.filter_eq_nil_iff.mpr
    intro row member linkedHere
    have elsewhere := added.linked row member
    rw [of_decide_eq_true linkedHere, Option.some.injEq, added.id] at elsewhere
    omega
  rw [added.tables]
  unfold Tables.attachmentsOf
  rw [List.filter_append, none, List.append_nil]

theorem Added.attachmentsOf_new {before after : Tables}
    (added : Added user content visibility createTime views before after memo made) (sequenced : before.Sequenced) :
    (after.attachmentsOf memo.id).Perm made := by
  have above : before.sequence < memo.id := by
    rw [added.id]
    exact Nat.lt_succ_self _
  have none : before.attachments.filter (fun row => row.memoId = some memo.id) = [] := by
    apply List.filter_eq_nil_iff.mpr
    intro row member linkedHere
    have low := sequenced.links row member memo.id (of_decide_eq_true linkedHere)
    omega
  have all : made.filter (fun row => row.memoId = some memo.id) = made :=
    List.filter_eq_self.mpr fun row member => decide_eq_true (added.linked row member)
  rw [added.tables]
  unfold Tables.attachmentsOf
  rw [List.filter_append, none, all, List.nil_append]
  exact List.mergeSort_perm _ _

theorem find_uid (distinct : (rows.map AttachmentRow.uid).Nodup) (member : row ∈ rows) :
    rows.find? (fun other => other.uid = row.uid) = some row :=
  find_key distinct member

theorem Uploaded.find {before : Tables} (uploaded : Uploaded user before rows) (member : row ∈ rows) :
    (before.attachments ++ rows).find? (fun other => other.uid = row.uid) = some row := by
  have old : before.attachments.find? (fun other => other.uid = row.uid) = none := by
    apply List.find?_eq_none.mpr
    intro other inTable same
    exact (uploaded.new row member).fresh other inTable (of_decide_eq_true same)
  rw [List.find?_append, old, Option.none_or]
  exact find_uid uploaded.distinct member

/-- Uploads that are linked to a new memo are all of its attachments. -/
theorem setMemoAttachments_new {before after : Tables} (sequenced : before.Sequenced)
    (uploaded : Uploaded user before rows) (id : memo.id = before.sequence + 1)
    (success : setMemoAttachments moment user memo.id (rows.map AttachmentRow.name)
      { memos := before.memos ++ [memo], attachments := before.attachments ++ rows, sequence := before.sequence + 1 } =
        (.ok (), after)) :
    Exists fun made => after =
        { memos := before.memos ++ [memo], attachments := before.attachments ++ made,
          sequence := before.sequence + 1 } ∧
      made.map AttachmentRow.view = rows.map AttachmentRow.view ∧
      made.map AttachmentRow.uid = rows.map AttachmentRow.uid ∧
      ∀ row, row ∈ made -> row.memoId = some memo.id := by
  rcases setMemoAttachments_ok success with ⟨requested, accepted, normalized, normal, rfl⟩
  have allRequested := requestedAttachments_eq (fun row member => uploaded.find member) accepted
  have none : Tables.currentAttachments
      { memos := before.memos ++ [memo], attachments := before.attachments ++ rows,
        sequence := before.sequence + 1 } memo.id = [] := by
    rw [Tables.currentAttachments, List.take_eq_nil_iff]
    refine Or.inr ?_
    have old := attachmentsOf_above sequenced (id ▸ Nat.lt_succ_self _ : before.sequence < memo.id)
    unfold Tables.attachmentsOf at old ⊢
    have unlinked : rows.filter (fun row => row.memoId = some memo.id) = [] := by
      apply List.filter_eq_nil_iff.mpr
      intro row member linkedHere
      have free := (uploaded.new row member).unlinked
      rw [of_decide_eq_true linkedHere] at free
      cases free
    rw [List.filter_append, unlinked, List.append_nil]
    exact old
  rw [none, allRequested] at normal
  have noGroup (group : String) : ¬ PartlyNamed [] rows group := fun partly => absurd partly.1 Bool.false_ne_true
  have all (row : AttachmentRow) (member : row ∈ rows) : HasUid normalized row.uid := by
    rw [normal]
    exact normalizeAttachments_covers rows member (Or.inr (noGroup _)) (fun inGroups => absurd inGroups List.not_mem_nil)
      (Or.inl member)
  have others (row : AttachmentRow) (member : row ∈ before.attachments) : ¬ HasUid normalized row.uid := by
    rintro ⟨found, inList, same⟩
    rw [normal] at inList
    rcases mem_normalizeAttachments (fun _ inRows => inRows) inList with nothing | inRows
    · exact List.not_mem_nil nothing
    · exact (uploaded.new found inRows).fresh row member same.symm
  refine ⟨rows.map (linked moment.now memo.id normalized), ?_, ?_, ?_, ?_⟩
  · rw [none]
    have nothing : without normalized [] = [] := rfl
    rw [nothing, without_nil, List.map_append]
    have kept : before.attachments.map (linked moment.now memo.id normalized) = before.attachments := by
      conv_rhs => rw [← List.map_id before.attachments]
      exact List.map_congr_left fun row member => linked_other _ _ (others row member)
    rw [kept]
  · rw [List.map_map]
    exact List.map_congr_left fun row _ => linked_view _ _ _ row
  · rw [List.map_map]
    exact List.map_congr_left fun row _ => linked_uid _ _ _ row
  · intro row member
    rcases List.mem_map.mp member with ⟨original, inRows, rfl⟩
    exact linked_memoId _ _ (all original inRows)

theorem createMemo_ok {server : Server} {before after : Tables} (sequenced : before.Sequenced)
    (uploaded : Uploaded user before rows)
    (success : createMemo server moment user content visibility createTime (rows.map AttachmentRow.name)
      (before.addAttachments rows) = (.ok (), after)) :
    Exists fun memo => Exists fun made =>
      Added user content visibility createTime (rows.map AttachmentRow.view) before after memo made := by
  unfold createMemo at success
  split at success
  next => cases success
  next =>
    split at success
    next => cases success
    next =>
      split at success
      next => cases success
      next freshUid =>
        have newUid (other : MemoRow) (member : other ∈ before.memos) : other.uid ≠ moment.uid := fun same =>
          freshUid (List.any_eq_true.mpr ⟨other, member, decide_eq_true same⟩)
        have created : Exists fun now => (0 < now ∧ isValid now = true) ∧
            stampedTime createTime moment.now = stampedTime createTime now := ⟨moment.now, moment.present, rfl⟩
        dsimp only at success
        split at success
        next noNames =>
          have noRows : rows = [] := by
            rw [List.isEmpty_iff, List.map_eq_nil_iff] at noNames
            exact noNames
          cases success
          subst noRows
          let memo : MemoRow :=
            { id := before.sequence + 1, uid := moment.uid, creatorId := user.id, content
              tags := server.extractTags content, visibility, pinned := false, rowStatus := .normal
              createdTs := stampedTime createTime moment.now }
          refine ⟨memo, [], ?_, rfl, newUid, rfl, rfl, rfl, rfl, rfl, rfl, created, rfl, ?_, ?_, List.nodup_nil⟩
          · rw [Tables.addAttachments_nil, List.append_nil]
            rfl
          · exact fun row member => absurd member List.not_mem_nil
          · exact fun row member => absurd member List.not_mem_nil
        next =>
          rcases setMemoAttachments_new sequenced uploaded rfl success with ⟨made, same, views, uids, linked⟩
          refine ⟨_, made, same, rfl, newUid, rfl, rfl, rfl, rfl, rfl, rfl, created, views, linked, ?_, ?_⟩
          · intro row member other inTable
            have uid : row.uid ∈ rows.map AttachmentRow.uid := uids ▸ List.mem_map_of_mem member
            rcases List.mem_map.mp uid with ⟨original, inRows, sameUid⟩
            rw [← sameUid]
            exact (uploaded.new original inRows).fresh other inTable
          · rw [uids]
            exact uploaded.distinct

namespace Importer

variable (importer : Importer)

theorem createOne_refused (files : List (String × Bytes)) (memo : MemoExport) (progress : Progress) :
    progress.refused ≤ (importer.createOne files memo progress).refused := by
  have uploads (count : ImportResult -> ImportResult) :=
    importer.uploadMany_refused files count memo.createTime memo.files progress
  unfold createOne
  dsimp only
  split
  · exact uploads _
  · split
    · exact (uploads _).trans (Nat.le_succ _)
    · exact uploads _

/-- A memo of the archive that is not refused has its attachments uploaded and is
created with them. -/
theorem createOne_created {files : List (String × Bytes)} {memo : MemoExport} {progress : Progress}
    {createTime : Option Int} (time : importer.timestamp memo.createTime = .ok createTime)
    (through : (importer.createOne files memo progress).refused = progress.refused) :
    Exists fun rows => Exists fun moment => Exists fun visibility => Uploaded importer.user progress.tables rows ∧
      rows.map AttachmentRow.view = memo.files.filterMap (importer.arrival files memo.createTime) ∧
      parseVisibility memo.visibility = some visibility ∧
      createMemo importer.server moment importer.user memo.content visibility createTime
        (rows.map AttachmentRow.name) (progress.tables.addAttachments rows) =
          (.ok (), (importer.createOne files memo progress).tables) := by
  have uploads (count : ImportResult -> ImportResult) :=
    importer.uploadMany_refused files count memo.createTime memo.files progress
  have spec (count : ImportResult -> ImportResult) :=
    @uploadMany_spec importer files count memo.createTime memo.files progress
  unfold createOne at through ⊢
  dsimp only at through ⊢
  rw [time] at through ⊢
  dsimp only at through ⊢
  split at through
  next =>
    have low := uploads fun result => { result with attachmentsCreated := result.attachmentsCreated + 1 }
    unfold recordError at through
    dsimp only at through low
    omega
  next tables created =>
    rcases spec _ through with ⟨rows, uploaded, _, views, names, same⟩
    unfold requestMemo at created
    split at created
    next => cases created
    next visibility parsed =>
      rw [names, same] at created
      exact ⟨rows, _, visibility, uploaded, views, parsed, created⟩

/-- It is added with what arrives of its attachments. -/
theorem createOne_spec {files : List (String × Bytes)} {memo : MemoExport} {progress : Progress}
    {createTime : Option Int} (sequenced : progress.tables.Sequenced)
    (time : importer.timestamp memo.createTime = .ok createTime)
    (through : (importer.createOne files memo progress).refused = progress.refused) :
    Exists fun row => Exists fun made => Exists fun visibility => parseVisibility memo.visibility = some visibility ∧
      Added importer.user memo.content visibility createTime
        (memo.files.filterMap (importer.arrival files memo.createTime)) progress.tables
        (importer.createOne files memo progress).tables row made := by
  rcases importer.createOne_created time through with ⟨rows, _, visibility, uploaded, views, parsed, created⟩
  rw [← views]
  rcases createMemo_ok sequenced uploaded created with ⟨row, made, added⟩
  exact ⟨row, made, visibility, parsed, added⟩

end Importer

end Web
end Memos
