import Memos.Library.Transfers
import Memos.Web.ImportRuns

namespace Memos
namespace Web

open Library Service

/-!
# Requests that may be refused

What uploads of which some fail leave, and what becomes of the attachments of a
memo whether or not the request that sets them is accepted.
-/

/-! ## Uploads of which some fail -/

variable {user : Account} {tables : Tables} {names : List String}

theorem createAttachment_valid {server : Server} {moment : Moment} {filename : String} {content : Bytes}
    {createTime : Option Int} {before : Tables} {result : String × Tables}
    (success : createAttachment server moment user filename content createTime before = .ok result) :
    validateFilename filename = true := by
  unfold createAttachment at success
  dsimp only at success
  split at success
  next => cases success
  next =>
    split at success
    next => cases success
    next =>
      split at success
      next => cases success
      next valid =>
        rw [Bool.not_eq_false] at valid
        exact valid

theorem noSlash_of_validateFilename {filename : String} (valid : validateFilename filename = true) :
    '/' ∉ filename.toList := by
  intro member
  unfold validateFilename at valid
  dsimp only at valid
  have slash : filename.toList.any (fun c => c = '/' || c = '\\') = true :=
    List.any_eq_true.mpr ⟨'/', member, rfl⟩
  simp [slash] at valid

namespace Importer

variable (importer : Importer)

/-- The row that an upload of an entry has left. -/
structure Left (entry : AttachmentExport) (row : AttachmentRow) : Prop where
  filename : row.filename = entry.name
  noSlash : '/' ∉ row.filename.toList
  generated : Exists fun request => row.uid = (importer.moments request).uid

/-- An upload leaves the tables as they are or adds the row of its entry. -/
theorem uploadOne_left (files : List (String × Bytes)) (entry : AttachmentExport) (memoCreateTime : Option String)
    (progress : Progress) :
    ((importer.uploadOne files entry memoCreateTime progress).1 = none ∧
      (importer.uploadOne files entry memoCreateTime progress).2.tables = progress.tables) ∨
    Exists fun row => (importer.uploadOne files entry memoCreateTime progress).1 = some (AttachmentRow.name row) ∧
      (importer.uploadOne files entry memoCreateTime progress).2.tables = progress.tables.addAttachments [row] ∧
      NewRow importer.user progress.tables row ∧ importer.Left entry row := by
  unfold uploadOne
  split
  next => exact Or.inl ⟨rfl, rfl⟩
  next data _ =>
    split
    next => exact Or.inl ⟨rfl, rfl⟩
    next createTime _ =>
      cases created : createAttachment importer.server (importer.moments progress.requests) importer.user
          entry.name data createTime progress.tables with
      | error cause => exact Or.inl ⟨rfl, rfl⟩
      | ok result =>
          have valid := noSlash_of_validateFilename (createAttachment_valid created)
          rcases createAttachment_ok created with ⟨row, name, tables, new, uid, filename, _⟩
          refine Or.inr ⟨row, congrArg some name, tables, new, filename, ?_, progress.requests, uid⟩
          rw [filename]
          exact valid

/-- The entries of which the upload comes through, each with the name of its
attachment. -/
def uploads (files : List (String × Bytes)) (count : ImportResult -> ImportResult) (memoCreateTime : Option String) :
    List AttachmentExport -> Progress -> List (AttachmentExport × String)
  | [], _ => []
  | attachment :: rest, progress =>
      match importer.uploadOne files attachment memoCreateTime progress with
      | (some name, progress) =>
          (attachment, name) :: uploads files count memoCreateTime rest
            { progress with result := count progress.result }
      | (none, progress) =>
          uploads files count memoCreateTime rest
            { progress with result :=
              { progress.result with attachmentsFailed := progress.result.attachmentsFailed + 1 } }

/-- Uploads and the rows that they have left. -/
structure Landed (before : Tables) (uploads : List (AttachmentExport × String)) (rows : List AttachmentRow) :
    Prop where
  uploaded : Uploaded importer.user before rows
  each : List.Forall₂ (fun upload row => upload.2 = AttachmentRow.name row ∧ importer.Left upload.1 row) uploads rows

theorem uploadMany_landed (files : List (String × Bytes)) (count : ImportResult -> ImportResult)
    (memoCreateTime : Option String) (attachments : List AttachmentExport) (progress : Progress) :
    (importer.uploadMany files count memoCreateTime attachments progress).1 =
        (importer.uploads files count memoCreateTime attachments progress).map Prod.snd ∧
      Exists fun rows => importer.Landed progress.tables
          (importer.uploads files count memoCreateTime attachments progress) rows ∧
        (importer.uploadMany files count memoCreateTime attachments progress).2.tables =
          progress.tables.addAttachments rows := by
  induction attachments generalizing progress with
  | nil =>
      refine ⟨rfl, [], ⟨⟨fun row member => absurd member List.not_mem_nil, List.nodup_nil⟩,
        List.Forall₂.nil⟩, ?_⟩
      rw [Tables.addAttachments_nil]
      rfl
  | cons attachment rest ih =>
      have first := importer.uploadOne_left files attachment memoCreateTime progress
      rw [uploadMany, uploads]
      generalize importer.uploadOne files attachment memoCreateTime progress = step at first
      rcases step with ⟨_ | name, next⟩
      · rcases first with ⟨_, same⟩ | ⟨row, wrong, _⟩
        · dsimp only at same ⊢
          rw [← same]
          exact ih _
        · cases wrong
      · rcases first with ⟨wrong, _⟩ | ⟨row, named, tables, new, left⟩
        · cases wrong
        · dsimp only at tables ⊢
          rcases ih { next with result := count next.result } with
            ⟨names, rows, landed, after⟩
          refine ⟨congrArg (name :: ·) names, row :: rows, ⟨Uploaded.cons new ?_, List.Forall₂.cons ⟨?_, left⟩
            landed.each⟩, ?_⟩
          · rw [← tables]
            exact landed.uploaded
          · exact Option.some.inj named
          · rw [after]
            dsimp only
            rw [tables, Tables.addAttachments_append]
            rfl

end Importer
/-! ## Rows after the uploads -/

section Uploads

variable {importer : Importer} {before : Tables} {uploads : List (AttachmentExport × String)}
  {rows : List AttachmentRow}

theorem Uploaded.attachmentsOf {user : Account} (uploaded : Uploaded user before rows) (memoId : Nat) :
    (before.addAttachments rows).attachmentsOf memoId = before.attachmentsOf memoId := by
  have unlinked : rows.filter (fun row => row.memoId = some memoId) = [] := by
    refine List.filter_eq_nil_iff.mpr fun row member linkedHere => ?_
    have free := (uploaded.new row member).unlinked
    rw [of_decide_eq_true linkedHere] at free
    cases free
  unfold Tables.attachmentsOf Tables.addAttachments
  rw [List.filter_append, unlinked, List.append_nil]

theorem Uploaded.all_distinct {user : Account} (uploaded : Uploaded user before rows)
    (distinct : (before.attachments.map AttachmentRow.uid).Nodup) :
    ((before.addAttachments rows).attachments.map AttachmentRow.uid).Nodup := by
  unfold Tables.addAttachments
  rw [List.map_append, List.nodup_append]
  refine ⟨distinct, uploaded.distinct, fun first inTable second inRows same => ?_⟩
  rcases List.mem_map.mp inTable with ⟨old, oldMember, rfl⟩
  rcases List.mem_map.mp inRows with ⟨new, newMember, rfl⟩
  exact (uploaded.new new newMember).fresh old oldMember same

theorem Importer.Landed.row_of (landed : importer.Landed before uploads rows)
    {upload : AttachmentExport × String} (member : upload ∈ uploads) :
    Exists fun row => row ∈ rows ∧ upload.2 = AttachmentRow.name row ∧ importer.Left upload.1 row :=
  Library.exists_of_mem_right landed.each.flip member

theorem Importer.Landed.upload_of (landed : importer.Landed before uploads rows)
    {row : AttachmentRow} (member : row ∈ rows) :
    Exists fun upload => upload ∈ uploads ∧ upload.2 = AttachmentRow.name row ∧ importer.Left upload.1 row :=
  Library.exists_of_mem_right landed.each member

theorem Importer.Landed.names_distinct (landed : importer.Landed before uploads rows) :
    (uploads.map Prod.snd).Nodup := by
  have same : uploads.map Prod.snd = rows.map AttachmentRow.name := by
    have each := landed.each
    clear landed
    induction each with
    | nil => rfl
    | cons here _ ih => rw [List.map_cons, List.map_cons, here.1, ih]
  have named : rows.map AttachmentRow.name =
      (rows.map AttachmentRow.uid).map fun uid => attachmentNamePrefix ++ uid := by
    rw [List.map_map]
    rfl
  rw [same, named]
  exact landed.uploaded.distinct.map fun _ _ alike => attachmentName_injective alike

end Uploads
/-! ## What the request does -/

/-- An attachment that a user may attach. -/
def Attachable (user : Account) (row : AttachmentRow) : Prop := row.creatorId = user.id ∨ user.isSuperUser = true

variable {requested : List AttachmentRow} {row : AttachmentRow}

theorem requestedAttachments_attachable (success : requestedAttachments user tables names = .ok requested) :
    ∀ row, row ∈ requested -> Attachable user row := by
  induction names generalizing requested with
  | nil =>
      cases success
      exact fun row member => absurd member List.not_mem_nil
  | cons name names ih =>
      rw [requestedAttachments] at success
      rcases bind_eq_ok.mp success with ⟨uid, _, checked⟩
      split at checked
      next => cases checked
      next row found =>
        split at checked
        next attachable =>
          rcases bind_eq_ok.mp checked with ⟨others, rest, finished⟩
          cases finished
          intro other member
          rcases List.mem_cons.mp member with rfl | later
          · exact attachable
          · exact ih rest other later
        next => cases checked

/-- What a request that is accepted names is there, and the user may attach it. -/
theorem requested_of_name (success : requestedAttachments user tables names = .ok requested) {name : String}
    (sent : name ∈ names) :
    Exists fun row => row ∈ requested ∧ row ∈ tables.attachments ∧ name = AttachmentRow.name row ∧
      Attachable user row := by
  have allowed := requestedAttachments_attachable success
  have named := requestedAttachments_ok success
  clear success
  induction named with
  | nil => exact absurd sent List.not_mem_nil
  | @cons first row names rows same _ ih =>
      rcases List.mem_cons.mp sent with rfl | later
      · exact ⟨row, List.mem_cons_self, List.mem_of_find?_eq_some same.2, same.1, allowed row List.mem_cons_self⟩
      · rcases ih later fun other member => allowed other (List.mem_cons_of_mem _ member) with
          ⟨found, member, rest⟩
        exact ⟨found, List.mem_cons_of_mem _ member, rest⟩

/-- What is found for a request that is accepted has been named. -/
theorem name_of_requested (success : requestedAttachments user tables names = .ok requested)
    (member : row ∈ requested) : row.name ∈ names := by
  have named := requestedAttachments_ok success
  clear success
  induction named with
  | nil => exact absurd member List.not_mem_nil
  | @cons first other names rows same _ ih =>
      rcases List.mem_cons.mp member with rfl | later
      · rw [same.1]
        exact List.mem_cons_self
      · exact List.mem_cons_of_mem _ (ih later)

/-- A request that names attachments that the user may attach is accepted. -/
theorem requestedAttachments_accepts (distinct : (tables.attachments.map AttachmentRow.uid).Nodup)
    (attachable : ∀ name, name ∈ names -> Exists fun row => row ∈ tables.attachments ∧
      name = AttachmentRow.name row ∧ PlainUid row.uid ∧ Attachable user row) :
    Exists fun requested => requestedAttachments user tables names = .ok requested := by
  induction names with
  | nil => exact ⟨[], rfl⟩
  | cons name names ih =>
      rcases attachable name List.mem_cons_self with ⟨row, member, rfl, plain, allowed⟩
      rcases ih fun other later => attachable other (List.mem_cons_of_mem _ later) with
        ⟨others, rest⟩
      refine ⟨row :: others, ?_⟩
      rw [requestedAttachments]
      refine bind_eq_ok.mpr ⟨row.uid, extractAttachmentUIDFromName_append plain, ?_⟩
      rw [find_uid distinct member]
      dsimp only
      exact (if_pos allowed).trans (bind_eq_ok.mpr ⟨others, rest, rfl⟩)

/-! ## What becomes of the rows -/

/-- Deletions leave the rows that they leave, and all those that they do not
name, as they are. -/
theorem deleteAttachments_kept {dropped : List AttachmentRow} {before after : Tables} {outcome : Except String Unit}
    (deleted : deleteAttachments user dropped before = (outcome, after)) :
    (∀ row, row ∈ after.attachments -> row ∈ before.attachments) ∧
      ∀ row, row ∈ before.attachments -> ¬ HasUid dropped row.uid -> row ∈ after.attachments := by
  induction dropped generalizing before with
  | nil =>
      cases deleted
      exact ⟨fun row member => member, fun row member _ => member⟩
  | cons attachment dropped ih =>
      rw [deleteAttachments] at deleted
      split at deleted
      · have rest := ih deleted
        refine ⟨fun row member => (List.mem_filter.mp (rest.1 row member)).1, ?_⟩
        intro row member other
        refine rest.2 row (List.mem_filter.mpr ⟨member, decide_eq_true fun same => other ?_⟩) fun later => other ?_
        · exact ⟨attachment, List.mem_cons_self, same.symm⟩
        · rcases later with ⟨found, inList, same⟩
          exact ⟨found, List.mem_cons_of_mem _ inList, same⟩
      · cases deleted
        exact ⟨fun row member => member, fun row member _ => member⟩

theorem mem_currentAttachments {memoId : Nat} (member : row ∈ tables.currentAttachments memoId) :
    row ∈ tables.attachments ∧ row.memoId = some memoId := by
  have inList := (List.mergeSort_perm _ _).mem_iff.mp (List.mem_of_mem_take member)
  exact ⟨(List.mem_filter.mp inList).1, of_decide_eq_true (List.mem_filter.mp inList).2⟩

theorem mem_attachmentsOf {memoId : Nat} :
    row ∈ tables.attachmentsOf memoId ↔ row ∈ tables.attachments ∧ row.memoId = some memoId := by
  unfold Tables.attachmentsOf
  rw [(List.mergeSort_perm _ _).mem_iff, List.mem_filter, decide_eq_true_iff]

theorem linked_filename (now : Int) (memoId : Nat) (normalized : List AttachmentRow) (row : AttachmentRow) :
    (linked now memoId normalized row).filename = row.filename :=
  congrArg FileView.filename (linked_view now memoId normalized row)

section Requests

variable {moment : Moment} {user : Account} {memoId : Nat} {names : List String} {before : Tables}

/-- A request is refused at once, or it deletes what is left out, and links the
others when it gets that far. -/
theorem setMemoAttachments_cases (moment : Moment) (user : Account) (memoId : Nat) (names : List String)
    (before : Tables) :
    (Exists fun cause => requestedAttachments user before names = .error cause ∧
      setMemoAttachments moment user memoId names before = (.error cause, before)) ∨
    Exists fun requested => requestedAttachments user before names = .ok requested ∧
      Exists fun normalized =>
        normalized = normalizeAttachments (before.currentAttachments memoId) requested requested [] [] ∧
        Exists fun after =>
          ((Exists fun cause => deleteAttachments user (without normalized (before.currentAttachments memoId)) before =
              (.error cause, after) ∧
            setMemoAttachments moment user memoId names before = (.error cause, after)) ∨
          (deleteAttachments user (without normalized (before.currentAttachments memoId)) before = (.ok (), after) ∧
            setMemoAttachments moment user memoId names before =
              (.ok (), linkAttachments moment.now memoId normalized after))) := by
  unfold setMemoAttachments
  dsimp only
  split
  next cause refused => exact Or.inl ⟨cause, refused, rfl⟩
  next requested accepted =>
    refine Or.inr ⟨requested, accepted, _, rfl, ?_⟩
    split
    next cause after deleted => exact ⟨after, Or.inl ⟨cause, deleted, rfl⟩⟩
    next after deleted => exact ⟨after, Or.inr ⟨deleted, rfl⟩⟩

/-- A request that is refused links nothing, though it may have deleted some. -/
theorem setMemoAttachments_refused {cause : String}
    (refused : (setMemoAttachments moment user memoId names before).1 = .error cause) {row : AttachmentRow}
    (member : row ∈ (setMemoAttachments moment user memoId names before).2.attachments) :
    row ∈ before.attachments := by
  rcases setMemoAttachments_cases moment user memoId names before with
    ⟨_, _, same⟩ | ⟨requested, _, normalized, _, after, ⟨_, deleted, same⟩ | ⟨_, same⟩⟩
  · rw [same] at member
    exact member
  · rw [same] at member
    exact (deleteAttachments_kept deleted).1 row member
  · rw [same] at refused
    cases refused

/-- The attachments of other memos and of none outlast every request. -/
theorem setMemoAttachments_others (distinct : (before.attachments.map AttachmentRow.uid).Nodup)
    {row : AttachmentRow} (member : row ∈ before.attachments) (elsewhere : row.memoId ≠ some memoId) :
    Exists fun later => later ∈ (setMemoAttachments moment user memoId names before).2.attachments ∧
      later.uid = row.uid ∧ later.filename = row.filename := by
  have safe (normalized : List AttachmentRow) :
      ¬ HasUid (without normalized (before.currentAttachments memoId)) row.uid := by
    rintro ⟨other, inDropped, same⟩
    have current := mem_currentAttachments (mem_without.mp inDropped).1
    rw [List.inj_on_of_nodup_map distinct current.1 member same] at current
    exact elsewhere current.2
  rcases setMemoAttachments_cases moment user memoId names before with
    ⟨_, _, same⟩ | ⟨requested, _, normalized, _, after, ⟨_, deleted, same⟩ | ⟨deleted, same⟩⟩
  · rw [same]
    exact ⟨row, member, rfl, rfl⟩
  · rw [same]
    exact ⟨row, (deleteAttachments_kept deleted).2 row member (safe normalized), rfl, rfl⟩
  · have here := (deleteAttachments_kept deleted).2 row member (safe normalized)
    rw [same, linkAttachments_eq]
    exact ⟨_, List.mem_map_of_mem here, linked_uid _ _ _ row, linked_filename _ _ _ row⟩

/-- Every row that a request leaves has been there, under its name. -/
theorem setMemoAttachments_origin {later : AttachmentRow}
    (member : later ∈ (setMemoAttachments moment user memoId names before).2.attachments) :
    Exists fun row => row ∈ before.attachments ∧ later.uid = row.uid ∧ later.filename = row.filename := by
  rcases setMemoAttachments_cases moment user memoId names before with
    ⟨_, _, same⟩ | ⟨requested, _, normalized, _, after, ⟨_, deleted, same⟩ | ⟨deleted, same⟩⟩
  · rw [same] at member
    exact ⟨later, member, rfl, rfl⟩
  · rw [same] at member
    exact ⟨later, (deleteAttachments_kept deleted).1 later member, rfl, rfl⟩
  · rw [same, linkAttachments_eq] at member
    rcases List.mem_map.mp member with ⟨row, inAfter, rfl⟩
    exact ⟨row, (deleteAttachments_kept deleted).1 row inAfter, linked_uid _ _ _ row, linked_filename _ _ _ row⟩

/-- A request that names all that the memo has, each attachable, only adds. -/
theorem setMemoAttachments_adds (distinct : (before.attachments.map AttachmentRow.uid).Nodup)
    (attachable : ∀ name, name ∈ names -> Exists fun row => row ∈ before.attachments ∧
      name = AttachmentRow.name row ∧ PlainUid row.uid ∧ Attachable user row)
    (all : ∀ row, row ∈ before.currentAttachments memoId -> row.name ∈ names) :
    Exists fun normalized =>
      (∀ row, row ∈ before.attachments -> row.name ∈ names -> HasUid normalized row.uid) ∧
      (setMemoAttachments moment user memoId names before).2.attachments =
        before.attachments.map (linked moment.now memoId normalized) := by
  rcases requestedAttachments_accepts distinct attachable with ⟨requested, accepted⟩
  have inRequest (row : AttachmentRow) (member : row ∈ before.attachments) (sent : row.name ∈ names) :
      row ∈ requested := by
    rcases requested_of_name accepted sent with ⟨found, inList, inTable, same, _⟩
    rw [← List.inj_on_of_nodup_map distinct inTable member (AttachmentRow.name_injective same).symm]
    exact inList
  have whole (group : String) : ¬ PartlyNamed (before.currentAttachments memoId) requested group := by
    rintro ⟨_, partly⟩
    rw [allGroupMembersRequested, List.all_eq_false] at partly
    rcases partly with ⟨row, member, missing⟩
    have inCurrent := mem_inGroup.mp member
    refine missing (List.any_eq_true.mpr ⟨row, mem_inGroup.mpr ⟨?_, inCurrent.2⟩, decide_eq_true rfl⟩)
    exact inRequest row (mem_currentAttachments inCurrent.1).1 (all row inCurrent.1)
  have covers (row : AttachmentRow) (member : row ∈ before.attachments) (sent : row.name ∈ names) :
      HasUid (normalizeAttachments (before.currentAttachments memoId) requested requested [] []) row.uid :=
    normalizeAttachments_covers requested (inRequest row member sent) (Or.inr (whole _))
      (fun inGroups => absurd inGroups List.not_mem_nil) (Or.inl (inRequest row member sent))
  have nothing : without (normalizeAttachments (before.currentAttachments memoId) requested requested [] [])
      (before.currentAttachments memoId) = [] := by
    refine List.eq_nil_iff_forall_not_mem.mpr fun row member => ?_
    have inList := mem_without.mp member
    exact inList.2 (covers row (mem_currentAttachments inList.1).1 (all row inList.1))
  refine ⟨_, covers, ?_⟩
  rcases setMemoAttachments_cases moment user memoId names before with
    ⟨_, refused, _⟩ | ⟨again, same, normalized, normal, after, ⟨_, deleted, _⟩ | ⟨deleted, outcome⟩⟩
  · rw [accepted] at refused
    cases refused
  · rw [accepted] at same
    cases same
    rw [normal, nothing] at deleted
    cases deleted
  · rw [accepted] at same
    cases same
    rw [normal, nothing] at deleted
    cases deleted
    rw [outcome, linkAttachments_eq, normal]

end Requests
end Web
end Memos
