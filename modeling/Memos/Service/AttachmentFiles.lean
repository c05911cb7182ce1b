import Memos.Service.LocalFiles

namespace Memos
namespace Service
namespace LocalFiles

open Library Library.FilePath Store
open DerivedMedia (Blob AttachmentStorageType thumbnailCacheFolder motionCacheFolder)

/-!
# Who owns a local file

A run of uploads and deletions in which every upload finds room for its file:
one of its two candidates is free, and the one that is picked lies inside the
data directory, outside the folders of derived files.  Then no file is
overwritten, no two attachments share one, and each reference leads to what was
saved.
-/

/-! ## Places inside the data directory -/

/-- The places that `resolveLocalPath` is meant for. -/
def Inside (data : DataDirectory) (location : List Text) : Prop :=
  location = place data.path ∨ place data.path ≠ [] ∧ place data.path <+: location

instance (data : DataDirectory) (location : List Text) : Decidable (Inside data location) :=
  inferInstanceAs (Decidable (_ ∨ _))

/-- The places that are not directly in a folder of derived files. -/
def Underived (data : DataDirectory) (location : List Text) : Prop :=
  location.dropLast ≠ place data.path ++ [thumbnailCacheFolder.toList] ∧
    location.dropLast ≠ place data.path ++ [motionCacheFolder.toList]

instance (data : DataDirectory) (location : List Text) : Decidable (Underived data location) :=
  inferInstanceAs (Decidable (_ ∧ _))

theorem absolute_inj {first second : List Text} (firstProper : forall name, name ∈ first -> Proper name)
    (secondProper : forall name, name ∈ second -> Proper name) :
    absolute first = absolute second ↔ first = second := by
  constructor
  · intro same
    rw [← place_absolute firstProper, same, place_absolute secondProper]
  · exact fun same => congrArg absolute same

variable {data : DataDirectory} {path : Text} {disk : Disk Blob} {location : List Text} {blob : Blob}
  {attachment : StoredAttachment} {attachments : List StoredAttachment} {state : FilesState} {upload : Upload}
  {history : History}

/-- The file server accepts the absolute references that lead inside the data
directory, and no others. -/
theorem resolveLocalPath_eq {reference : Text} (rooted : isAbs reference = true) :
    resolveLocalPath data reference =
      if Inside data (place reference) then .ok (absolute (place reference))
      else .error "path traversal detected" := by
  have accepts : Inside data (place reference) ↔
      ¬(¬(clean data.path ++ ['/'] <+: clean reference) ∧ clean reference ≠ clean data.path) := by
    have same : absolute (place reference) = absolute (place data.path) ↔
        place reference = place data.path :=
      absolute_inj (fun _ => place_proper) (fun _ => place_proper)
    rw [clean_of_isAbs rooted, clean_of_isAbs data.rooted,
      absolute_prefix_iff (fun _ => place_proper) (fun _ => place_proper), Inside]
    tauto
  simp only [resolveLocalPath, if_pos rooted]
  by_cases inside : Inside data (place reference)
  · rw [if_pos inside, if_neg (accepts.mp inside), clean_of_isAbs rooted]
  · rw [if_neg inside, if_pos (not_not.mp fun refused => inside (accepts.mpr refused))]

/-! ## Local paths are absolute -/

theorem isAbs_expandedPath (data : DataDirectory) (setting : InstanceStorageSetting)
    (outside : Surroundings) (filename : Text) :
    isAbs (expandedPath data setting outside filename) = true := by
  have either : forall path : Text,
      isAbs (if isAbs path then path else join [data.path, path]) = true := by
    intro path
    split
    next rooted => exact rooted
    next => exact isAbs_join data.rooted path
  exact either _

theorem isAbs_suffixedPath (rooted : isAbs path = true) (uid : String) :
    isAbs (suffixedPath path uid) = true :=
  isAbs_append (isAbs_trimSuffix rooted (not_slash_mem_ext path)) _

theorem isAbs_ensureUnique (rooted : isAbs path = true) (disk : Disk Blob) (uid : String) :
    isAbs (ensureUniqueLocalAttachmentPath disk path uid) = true := by
  unfold ensureUniqueLocalAttachmentPath
  split
  · exact rooted
  · exact isAbs_suffixedPath rooted uid

/-- The path is only made relative when the data directory is. -/
theorem localReference_eq {osPath : Text} (rooted : isAbs osPath = true) :
    localReference data osPath = .ok osPath := if_pos rooted

variable {uid : String} {call : FilesCall} {saved : SavedBlob}

/-- The path that is picked is free if one of the candidates is. -/
theorem stat_ensureUnique (free : (disk.stat path).isOk = false ∨ (disk.stat (suffixedPath path uid)).isOk = false) :
    (disk.stat (ensureUniqueLocalAttachmentPath disk path uid)).isOk = false := by
  unfold ensureUniqueLocalAttachmentPath
  split
  next errno missing => rw [missing]; rfl
  next entry found =>
    rcases free with missing | missing
    · rw [found] at missing
      cases missing
    · exact missing

/-! ## Deleting -/

theorem not_slash_of_uidMatches (wellFormed : uidMatches uid = true) :
    '/' ∉ uid.toList := by
  intro member
  simp only [uidMatches, Bool.and_eq_true, List.all_eq_true] at wellFormed
  have letter := wellFormed.1.2 '/' member
  exact absurd letter (by decide)

theorem join_folder {base folder name : Text} (basePresent : base ≠ []) (folderPresent : folder ≠ [])
    (namePresent : name ≠ []) : join [base, folder, name] = join [base, folder ++ '/' :: name] := by
  simp [join, basePresent, folderPresent, namePresent, List.intercalate_cons_of_ne_nil]

/-- A derived file of an attachment is directly in its folder. -/
theorem place_derived {folder name suffix : Text} (properFolder : Proper folder) (slashless : '/' ∉ name)
    (longSuffix : 2 < suffix.length) (plainSuffix : '/' ∉ suffix) :
    place (join [data.path, folder, name ++ suffix]) = place data.path ++ [folder, name ++ suffix] := by
  have long : 2 < (name ++ suffix).length := by
    rw [List.length_append]
    omega
  have proper : Proper (name ++ suffix) := by
    refine ⟨fun empty => ?_, fun member => ?_, fun same => ?_, fun same => ?_⟩
    · rw [empty] at long
      exact absurd long (by decide)
    · rcases List.mem_append.mp member with inName | inSuffix
      · exact slashless inName
      · exact plainSuffix inSuffix
    · rw [same] at long
      exact absurd long (by decide)
    · rw [same] at long
      exact absurd long (by decide)
  rw [join_folder (ne_nil_of_isAbs data.rooted) properFolder.1 proper.1, place_join data.rooted,
    components, List.splitOn_append_cons_self, List.splitOn_eq_singleton properFolder.2.1,
    List.splitOn_eq_singleton proper.2.1]
  simp only [List.singleton_append, List.foldl_cons, List.foldl_nil]
  rw [properFolder.push, proper.push, List.append_assoc, List.singleton_append]

theorem Underived.ne_derived (underived : Underived data location) (wellFormed : uidMatches uid = true)
    (derived : path ∈ derivedCachePaths data uid) : location ≠ place path := by
  have slashless := not_slash_of_uidMatches wellFormed
  have parent : forall folder name : Text, place data.path ++ [folder, name] =
      place data.path ++ [folder] ++ [name] := fun folder name => by simp
  rcases List.mem_cons.mp derived with rfl | later
  · rw [place_derived (by decide +kernel) slashless (by decide) (by decide), parent]
    rintro rfl
    exact underived.1 List.dropLast_concat
  · rw [List.mem_singleton.mp later,
      place_derived (by decide +kernel) slashless (by decide) (by decide), parent]
    rintro rfl
    exact underived.2 List.dropLast_concat

/-- A file of its own: inside, not a derived one, under an absolute reference. -/
structure Placed (data : DataDirectory) (attachment : StoredAttachment) : Prop where
  rooted : isAbs attachment.reference = true
  inside : Inside data (place attachment.reference)
  underived : Underived data (place attachment.reference)

theorem holds_removeAll {faults : DiskFaults Blob} (holds : disk.Holds location blob) {paths : List Text}
    (different : forall path, path ∈ paths -> location ≠ place path) :
    (paths.foldl (fun disk path => (disk.remove faults path).2) disk).Holds location blob := by
  induction paths generalizing disk with
  | nil => exact holds
  | cons path rest ih =>
      exact ih (holds.remove (different path List.mem_cons_self))
        fun later member => different later (List.mem_cons_of_mem _ member)

/-- Deleting the storage of an attachment leaves the files of others alone. -/
theorem holds_deleteAttachmentStorageImpl (faults : DeleteFaults) (holds : disk.Holds location blob)
    (underived : Underived data location) (wellFormed : uidMatches attachment.uid = true)
    (placed : attachment.storageType = .local ->
      isAbs attachment.reference = true ∧ location ≠ place attachment.reference) :
    (deleteAttachmentStorageImpl data faults disk attachment).2.Holds location blob := by
  have caches : forall middle : Disk Blob, middle.Holds location blob ->
      (deleteAttachmentDerivedCaches data faults.disk middle attachment).Holds location blob :=
    fun middle kept => holds_removeAll kept fun path derived => underived.ne_derived wellFormed derived
  unfold deleteAttachmentStorageImpl
  cases storage : attachment.storageType with
  | «local» =>
      rcases placed storage with ⟨rooted, different⟩
      have removed : (disk.remove faults.disk (removedPath data attachment.reference)).2.Holds location blob := by
        rw [removedPath, if_pos rooted]
        exact holds.remove different
      simp only
      split
      next outcome => rw [outcome] at removed; exact caches _ removed
      next outcome => rw [outcome] at removed; exact caches _ removed
      next _ outcome => rw [outcome] at removed; exact removed
  | s3 =>
      simp only
      split
      · exact holds
      · exact caches _ holds
  | unspecified => exact caches _ holds

theorem holds_deleteStorages {faults : DeleteFaults} {stops : Bool} (holds : disk.Holds location blob)
    (underived : Underived data location)
    (wellFormed : forall attachment, attachment ∈ attachments -> uidMatches attachment.uid = true)
    (placed : forall attachment, attachment ∈ attachments -> attachment.storageType = .local ->
      isAbs attachment.reference = true ∧ location ≠ place attachment.reference) :
    (deleteStorages data faults stops disk attachments).2.Holds location blob := by
  induction attachments generalizing disk with
  | nil => exact holds
  | cons attachment rest ih =>
      have after := holds_deleteAttachmentStorageImpl faults holds underived
        (wellFormed attachment List.mem_cons_self) (placed attachment List.mem_cons_self)
      simp only [deleteStorages]
      split
      · exact after
      · exact ih after
          (fun later member => wellFormed later (List.mem_cons_of_mem _ member))
          (fun later member => placed later (List.mem_cons_of_mem _ member))

/-- What a deletion may do: rows go, but only those it is about, and so do
their files. -/
structure Shrinks (data : DataDirectory) (deletes : StoredAttachment -> Bool)
    (before after : FilesState) : Prop where
  old : forall attachment, attachment ∈ after.attachments -> attachment ∈ before.attachments
  others : forall attachment, attachment ∈ before.attachments -> deletes attachment = false ->
    attachment ∈ after.attachments
  files : forall (location : List Text) (blob : Blob), before.disk.Holds location blob ->
    Underived data location ->
    (forall attachment, attachment ∈ before.attachments -> deletes attachment = true ->
      attachment.storageType = .local -> location ≠ place attachment.reference) ->
    after.disk.Holds location blob

/-- The rows that the deletions rely on. -/
structure Rows (data : DataDirectory) (attachments : List StoredAttachment) : Prop where
  wellFormed : forall attachment, attachment ∈ attachments -> uidMatches attachment.uid = true
  placed : forall attachment, attachment ∈ attachments -> attachment.storageType = .local ->
    Placed data attachment

theorem shrinks_deleteAttachment (rows : Rows data state.attachments) (faults : DeleteFaults) (id : Nat) :
    Shrinks data (fun attachment => attachment.id = id) state
      (deleteAttachment data faults state id).2 := by
  unfold deleteAttachment
  split
  next => exact ⟨fun _ member => member, fun _ member _ => member, fun _ _ holds _ _ => holds⟩
  next attachment found =>
    have member := List.mem_of_find?_eq_some found
    have named : attachment.id = id := by simpa using List.find?_some found
    have files : forall (location : List Text) (blob : Blob), state.disk.Holds location blob ->
        Underived data location ->
        (forall attachment, attachment ∈ state.attachments ->
          decide (attachment.id = id) = true -> attachment.storageType = .local ->
          location ≠ place attachment.reference) ->
        (deleteAttachmentStorageImpl data faults state.disk attachment).2.Holds location blob := by
      intro location blob holds underived different
      refine holds_deleteAttachmentStorageImpl faults holds underived (rows.wellFormed attachment member) ?_
      intro isLocal
      exact ⟨(rows.placed attachment member isLocal).rooted,
        different attachment member (decide_eq_true named) isLocal⟩
    simp only
    split
    · exact ⟨fun _ member => member, fun _ member _ => member, files⟩
    · split
      · exact ⟨fun _ member => member, fun _ member _ => member, files⟩
      · refine ⟨fun other member => List.mem_of_mem_filter member, ?_, files⟩
        intro other member spared
        exact List.mem_filter.mpr ⟨member, by simpa using spared⟩

theorem shrinks_deleteTogether (rows : Rows data state.attachments) (faults : DeleteFaults) (stops : Bool)
    {deletes : StoredAttachment -> Bool} (selected : forall attachment, attachment ∈ attachments ->
      attachment ∈ state.attachments ∧ deletes attachment = true) :
    Shrinks data deletes state (deleteTogether data faults stops state attachments).2 := by
  unfold deleteTogether
  split
  · exact ⟨fun _ member => member, fun _ member _ => member, fun _ _ holds _ _ => holds⟩
  · refine ⟨fun other member => List.mem_of_mem_filter member, ?_, ?_⟩
    · intro other member spared
      refine List.mem_filter.mpr ⟨member, ?_⟩
      have unselected : other ∉ attachments := by
        intro isSelected
        rw [(selected other isSelected).2] at spared
        cases spared
      simpa using unselected
    · intro location blob holds underived different
      refine holds_deleteStorages holds underived
        (fun attachment member => rows.wellFormed attachment (selected attachment member).1) ?_
      intro attachment member isLocal
      rcases selected attachment member with ⟨present, isDeleted⟩
      exact ⟨(rows.placed attachment present isLocal).rooted, different attachment present isDeleted isLocal⟩

/-- Every call but an upload shrinks the state. -/
theorem shrinks_apply (rows : Rows data state.attachments) (deletion : forall upload, call ≠ .create upload) :
    Shrinks data (fun attachment => call.deletes attachment) state (call.apply data state) := by
  cases call with
  | create upload => exact absurd rfl (deletion upload)
  | delete faults id => exact shrinks_deleteAttachment rows faults id
  | deleteAll faults ids =>
      refine shrinks_deleteTogether rows faults true fun attachment member => ?_
      rcases List.mem_filterMap.mp member with ⟨id, isNamed, found⟩
      have same : attachment.id = id := by simpa using List.find?_some found
      exact ⟨List.mem_of_find?_eq_some found, decide_eq_true (same ▸ isNamed)⟩
  | deleteUser faults userId =>
      refine shrinks_deleteTogether rows faults false fun attachment member => ?_
      rcases List.mem_filter.mp member with ⟨present, isOwned⟩
      exact ⟨present, isOwned⟩

/-! ## Saving -/

/-- The path under which an upload is written. -/
def pickedPath (data : DataDirectory) (state : FilesState) (upload : Upload) : Text :=
  ensureUniqueLocalAttachmentPath state.disk
    (expandedPath data upload.setting upload.outside upload.filename) upload.uid

/-- There is room for the file of an upload: one of its two candidates is free,
and the one that is picked lies inside the data directory, is no derived file
and not the lost file of another attachment. -/
structure Room (data : DataDirectory) (state : FilesState) (upload : Upload) : Prop where
  free : let path := expandedPath data upload.setting upload.outside upload.filename
    (state.disk.stat path).isOk = false ∨ (state.disk.stat (suffixedPath path upload.uid)).isOk = false
  inside : Inside data (place (pickedPath data state upload))
  underived : Underived data (place (pickedPath data state upload))
  unowned : forall attachment, attachment ∈ state.attachments -> attachment.storageType = .local ->
    place attachment.reference ≠ place (pickedPath data state upload)

theorem isAbs_pickedPath (data : DataDirectory) (state : FilesState) (upload : Upload) :
    isAbs (pickedPath data state upload) = true :=
  isAbs_ensureUnique (isAbs_expandedPath data _ _ _) _ _

/-- The blob of an upload, saved as `SaveAttachmentBlob` does. -/
def savedBlob (data : DataDirectory) (state : FilesState) (upload : Upload) :
    Except String SavedBlob × Disk Blob :=
  saveAttachmentBlob data upload.setting upload.outside state.disk upload.filename upload.uid
    upload.content

/-- Saving locally is making the directory and writing the file. -/
theorem savedBlob_local (isLocal : upload.setting.storageType = .local) :
    savedBlob data state upload =
      match state.disk.mkdirAll upload.outside.faults (dir (pickedPath data state upload)) with
      | (.error _, made) => (.error "Failed to create directory", made)
      | (.ok (), made) =>
          match made.writeFile upload.outside.faults (pickedPath data state upload) upload.content with
          | (.error _, written) => (.error "Failed to write file", written)
          | (.ok (), written) => (.ok ⟨pickedPath data state upload, none, .local⟩, written) := by
  have reference : localReference data (pickedPath data state upload) = .ok (pickedPath data state upload) :=
    localReference_eq (isAbs_pickedPath data state upload)
  rw [savedBlob, saveAttachmentBlob, isLocal]
  simp only [pickedPath] at reference ⊢
  split
  next failed =>
    rw [reference] at failed
    cases failed
  next given =>
    rw [reference] at given
    cases given
    rfl

/-- A blob that is saved with room spoils no file. -/
theorem holds_savedBlob (room : upload.setting.storageType = .local -> Room data state upload)
    (holds : state.disk.Holds location blob) :
    (savedBlob data state upload).2.Holds location blob := by
  cases storage : upload.setting.storageType with
  | database =>
      rw [savedBlob, saveAttachmentBlob, storage]
      exact holds
  | s3 =>
      rw [savedBlob, saveAttachmentBlob, storage]
      simp only
      split <;> exact holds
  | «local» =>
      have free := stat_ensureUnique (room storage).free
      have made : (state.disk.mkdirAll upload.outside.faults
          (dir (pickedPath data state upload))).2.Holds location blob := holds.mkdirAll _
      have written := holds.write_free upload.outside.faults upload.content
        (isAbs_pickedPath data state upload) free
      rw [savedBlob_local storage]
      split
      next outcome => rwa [outcome] at made
      next outcome =>
        rw [outcome] at written
        split
        next result => rwa [result] at written
        next result => rwa [result] at written

/-- What is saved locally can be read under its reference. -/
theorem savedBlob_ok (success : (savedBlob data state upload).1 = .ok saved) (isLocal : saved.storageType = .local) :
    upload.setting.storageType = .local ∧ saved.reference = pickedPath data state upload ∧
      (savedBlob data state upload).2.Holds (place (pickedPath data state upload)) upload.content := by
  cases storage : upload.setting.storageType with
  | database =>
      rw [savedBlob, saveAttachmentBlob, storage] at success
      cases success
      cases isLocal
  | s3 =>
      rw [savedBlob, saveAttachmentBlob, storage] at success
      simp only at success
      split at success
      · cases success
      · cases success
        cases isLocal
  | «local» =>
      have reached := Disk.Holds.of_written upload.outside.faults state.disk upload.content
        (isAbs_pickedPath data state upload)
      rw [savedBlob_local storage] at success ⊢
      split at success
      · cases success
      next outcome =>
        rw [outcome] at reached
        split at success
        · cases success
        next result =>
          rw [result] at reached
          cases success
          exact ⟨rfl, rfl, by simpa [outcome, result] using reached rfl rfl⟩

/-- An upload saves its blob and then adds its row, if it comes to that. -/
theorem createAttachment_cases (data : DataDirectory) (state : FilesState) (upload : Upload) :
    (Exists fun cause : String => createAttachment data state upload =
      (.error cause, { state with disk := (savedBlob data state upload).2 })) ∨
    (Exists fun saved : SavedBlob =>
      (savedBlob data state upload).1 = .ok saved ∧ uidMatches upload.uid = true ∧
        createAttachment data state upload =
          (.ok (newAttachment state upload saved),
            ⟨state.attachments ++ [newAttachment state upload saved], state.sequence + 1,
              (savedBlob data state upload).2⟩)) := by
  rw [createAttachment, ← savedBlob]
  rcases (savedBlob data state upload) with ⟨result, disk⟩
  cases result with
  | error cause => exact Or.inl ⟨_, rfl⟩
  | ok saved =>
      simp only
      split
      · exact Or.inl ⟨_, rfl⟩
      next accepted =>
        refine Or.inr ⟨saved, rfl, ?_, rfl⟩
        simp only [Bool.or_eq_true, not_or] at accepted
        simpa using accepted.1.1

/-! ## Runs -/

/-- No two local attachments lead to one place. -/
def Exclusive (attachments : List StoredAttachment) : Prop :=
  forall first, first ∈ attachments -> forall second, second ∈ attachments ->
    first.storageType = .local -> second.storageType = .local ->
      place first.reference = place second.reference -> first = second

/-- The file server resolves the reference and reads the content. -/
def Readable (data : DataDirectory) (disk : Disk Blob) (attachment : StoredAttachment) (content : Blob) :
    Prop :=
  Exists fun path : Text =>
    resolveLocalPath data attachment.reference = .ok path ∧ disk.readFile path = .ok content

/-- What holds after each call of a careful run. -/
structure Sound (data : DataDirectory) (history : History) : Prop where
  rows : Rows data history.state.attachments
  exclusive : Exclusive history.state.attachments
  kept : forall item, item ∈ history.kept -> item.1 ∈ history.state.attachments ∧
    item.1.storageType = .local ∧ history.state.disk.Holds (place item.1.reference) item.2

/-- An upload to the local disk has room. -/
def Careful (data : DataDirectory) (state : FilesState) : FilesCall -> Prop
  | .create upload => upload.setting.storageType = .local -> Room data state upload
  | _ => True

/-- Every call of the run is careful where it is made. -/
def CarefulRun (data : DataDirectory) : History -> List FilesCall -> Prop
  | _, [] => True
  | history, call :: rest =>
      Careful data history.state call ∧ CarefulRun data (history.step data call) rest

theorem Placed.readable {content : Blob} (placed : Placed data attachment)
    (holds : disk.Holds (place attachment.reference) content) :
    Readable data disk attachment content := by
  refine ⟨absolute (place attachment.reference), ?_, holds.readFile fun _ => place_proper⟩
  rw [resolveLocalPath_eq placed.rooted, if_pos placed.inside]

/-- The row of an upload that has room is well placed. -/
theorem placed_newAttachment (room : upload.setting.storageType = .local -> Room data state upload)
    (success : (savedBlob data state upload).1 = .ok saved) (isLocal : saved.storageType = .local) :
    Placed data (newAttachment state upload saved) := by
  rcases savedBlob_ok success isLocal with ⟨storage, reference, _⟩
  have same : (newAttachment state upload saved).reference = pickedPath data state upload := reference
  refine ⟨?_, ?_, ?_⟩
  · rw [same]
    exact isAbs_pickedPath data state upload
  · rw [same]
    exact (room storage).inside
  · rw [same]
    exact (room storage).underived

theorem rows_append (rows : Rows data attachments) (wellFormed : uidMatches attachment.uid = true)
    (placed : attachment.storageType = .local -> Placed data attachment) :
    Rows data (attachments ++ [attachment]) := by
  constructor
  · intro other member
    rcases List.mem_append.mp member with before | new
    · exact rows.wellFormed other before
    · rw [List.mem_singleton.mp new]
      exact wellFormed
  · intro other member
    rcases List.mem_append.mp member with before | new
    · exact rows.placed other before
    · rw [List.mem_singleton.mp new]
      exact placed

theorem exclusive_append (exclusive : Exclusive attachments)
    (apart : attachment.storageType = .local -> forall other, other ∈ attachments ->
      other.storageType = .local -> place other.reference ≠ place attachment.reference) :
    Exclusive (attachments ++ [attachment]) := by
  intro first firstMember second secondMember firstLocal secondLocal same
  rcases List.mem_append.mp firstMember with firstOld | firstNew
  · rcases List.mem_append.mp secondMember with secondOld | secondNew
    · exact exclusive first firstOld second secondOld firstLocal secondLocal same
    · rw [List.mem_singleton.mp secondNew] at secondLocal same
      exact absurd same (apart secondLocal first firstOld firstLocal)
  · rw [List.mem_singleton.mp firstNew] at firstLocal same ⊢
    rcases List.mem_append.mp secondMember with secondOld | secondNew
    · exact absurd same.symm (apart firstLocal second secondOld secondLocal)
    · exact (List.mem_singleton.mp secondNew).symm

theorem Sound.create (sound : Sound data history)
    (room : upload.setting.storageType = .local -> Room data history.state upload) :
    Sound data (history.step data (.create upload)) := by
  have spared : (history.kept.filter fun item => !(FilesCall.create upload).deletes item.1) =
      history.kept := List.filter_eq_self.mpr fun item member => rfl
  have kept : forall item, item ∈ history.kept ->
      (savedBlob data history.state upload).2.Holds (place item.1.reference) item.2 :=
    fun item member => holds_savedBlob room (sound.kept item member).2.2
  rcases createAttachment_cases data history.state upload with
    ⟨cause, outcome⟩ | ⟨saved, success, wellFormed, outcome⟩
  · have after : history.step data (.create upload) =
        ⟨{ history.state with disk := (savedBlob data history.state upload).2 }, history.kept⟩ := by
      rw [History.step, spared]
      simp [FilesCall.apply, FilesCall.saved, outcome]
    rw [after]
    refine ⟨sound.rows, sound.exclusive, fun item member => ?_⟩
    exact ⟨(sound.kept item member).1, (sound.kept item member).2.1, kept item member⟩
  · have after : history.step data (.create upload) =
        ⟨⟨history.state.attachments ++ [newAttachment history.state upload saved],
          history.state.sequence + 1, (savedBlob data history.state upload).2⟩,
          history.kept ++ if saved.storageType = .local then
            [(newAttachment history.state upload saved, upload.content)] else []⟩ := by
      rw [History.step, spared]
      simp [FilesCall.apply, FilesCall.saved, outcome, newAttachment]
    have placed := placed_newAttachment room success
    rw [after]
    refine ⟨rows_append sound.rows wellFormed placed, ?_, ?_⟩
    · refine exclusive_append sound.exclusive fun isLocal other member otherLocal => ?_
      rcases savedBlob_ok success isLocal with ⟨storage, reference, _⟩
      have target : (newAttachment history.state upload saved).reference =
          pickedPath data history.state upload := reference
      rw [target]
      exact (room storage).unowned other member otherLocal
    · intro item member
      rcases List.mem_append.mp member with before | new
      · exact ⟨List.mem_append_left _ (sound.kept item before).1, (sound.kept item before).2.1,
          kept item before⟩
      · by_cases isLocal : saved.storageType = .local
        · rw [if_pos isLocal] at new
          rcases savedBlob_ok success isLocal with ⟨_, reference, reached⟩
          have target : (newAttachment history.state upload saved).reference =
              pickedPath data history.state upload := reference
          rw [List.mem_singleton.mp new]
          refine ⟨List.mem_append_right _ List.mem_cons_self, isLocal, ?_⟩
          simp only [target]
          exact reached
        · rw [if_neg isLocal] at new
          exact absurd new List.not_mem_nil

theorem Sound.shrink (sound : Sound data history) (deletion : forall upload, call ≠ .create upload) :
    Sound data (history.step data call) := by
  have shrinks := shrinks_apply sound.rows deletion
  have nothing : call.saved data history.state = [] := by
    cases call with
    | create upload => exact absurd rfl (deletion upload)
    | delete faults id => rfl
    | deleteAll faults ids => rfl
    | deleteUser faults userId => rfl
  rw [History.step, nothing, List.append_nil]
  refine ⟨⟨fun attachment member => sound.rows.wellFormed attachment (shrinks.old attachment member),
    fun attachment member => sound.rows.placed attachment (shrinks.old attachment member)⟩, ?_, ?_⟩
  · intro first firstMember second secondMember
    exact sound.exclusive first (shrinks.old first firstMember) second (shrinks.old second secondMember)
  · intro item member
    rcases List.mem_filter.mp member with ⟨present, isSpared⟩
    rcases sound.kept item present with ⟨live, isLocal, holds⟩
    have spared : call.deletes item.1 = false := by simpa using isSpared
    refine ⟨shrinks.others item.1 live spared, isLocal, ?_⟩
    refine shrinks.files _ _ holds (sound.rows.placed item.1 live isLocal).underived ?_
    intro other otherMember isDeleted otherLocal same
    have equal := sound.exclusive item.1 live other otherMember isLocal otherLocal same
    rw [equal, isDeleted] at spared
    cases spared

theorem Sound.step (sound : Sound data history) (careful : Careful data history.state call) :
    Sound data (history.step data call) := by
  cases call with
  | create upload => exact sound.create careful
  | delete faults id => exact sound.shrink fun upload => FilesCall.noConfusion
  | deleteAll faults ids => exact sound.shrink fun upload => FilesCall.noConfusion
  | deleteUser faults userId => exact sound.shrink fun upload => FilesCall.noConfusion

theorem Sound.run (sound : Sound data history) {calls : List FilesCall} (careful : CarefulRun data history calls) :
    Sound data (history.run data calls) := by
  induction calls generalizing history with
  | nil => exact sound
  | cons call rest ih =>
      exact ih (sound.step careful.1) careful.2

theorem sound_start (data : DataDirectory) (disk : Disk Blob) : Sound data ⟨{ disk := disk }, []⟩ :=
  ⟨⟨fun _ none => absurd none List.not_mem_nil, fun _ none => absurd none List.not_mem_nil⟩,
    fun _ none => absurd none List.not_mem_nil, fun _ none => absurd none List.not_mem_nil⟩

/-! ## What goes wrong without room -/

/-- The file server rejects what is saved outside the data directory. -/
theorem rejected_of_not_inside (success : (savedBlob data state upload).1 = .ok saved)
    (isLocal : saved.storageType = .local) (outside : ¬Inside data (place (pickedPath data state upload))) :
    resolveLocalPath data saved.reference = .error "path traversal detected" := by
  rw [(savedBlob_ok success isLocal).2.1, resolveLocalPath_eq (isAbs_pickedPath data state upload),
    if_neg outside]

/-! ## Exclusive and resolvable files -/

/-- In a careful run no upload overwrites a file, no two local attachments share
one, every reference is resolved, and each attachment that was not to be deleted
reads as it was saved. -/
theorem local_files_exclusive (data : DataDirectory) (disk : Disk Blob) (calls : List FilesCall)
    (careful : CarefulRun data ⟨{ disk := disk }, []⟩ calls) :
    let last := History.run data ⟨{ disk := disk }, []⟩ calls
    Exclusive last.state.attachments ∧
      (forall attachment, attachment ∈ last.state.attachments -> attachment.storageType = .local ->
        Exists fun path : Text => resolveLocalPath data attachment.reference = .ok path) ∧
      (forall item, item ∈ last.kept -> item.1 ∈ last.state.attachments ∧
        Readable data last.state.disk item.1 item.2) ∧
      forall upload, Careful data last.state (.create upload) ->
        (forall (location : List Text) (blob : Blob), last.state.disk.Holds location blob ->
          (createAttachment data last.state upload).2.disk.Holds location blob) ∧
        forall attachment, (createAttachment data last.state upload).1 = .ok attachment ->
          attachment.storageType = .local ->
          Readable data (createAttachment data last.state upload).2.disk attachment upload.content := by
  intro last
  have sound : Sound data last := (sound_start data disk).run careful
  refine ⟨sound.exclusive, fun attachment member isLocal => ?_, fun item member => ?_,
    fun upload room => ⟨fun location blob holds => ?_, fun attachment created isLocal => ?_⟩⟩
  · have placed := sound.rows.placed attachment member isLocal
    exact ⟨_, (resolveLocalPath_eq placed.rooted).trans (if_pos placed.inside)⟩
  · rcases sound.kept item member with ⟨live, isLocal, holds⟩
    exact ⟨live, (sound.rows.placed item.1 live isLocal).readable holds⟩
  · rcases createAttachment_cases data last.state upload with ⟨_, outcome⟩ | ⟨_, _, _, outcome⟩
    · rw [outcome]
      exact holds_savedBlob room holds
    · rw [outcome]
      exact holds_savedBlob room holds
  · rcases createAttachment_cases data last.state upload with ⟨_, outcome⟩ | ⟨saved, success, _, outcome⟩
    · rw [outcome] at created
      cases created
    · rw [outcome] at created ⊢
      cases created
      rcases savedBlob_ok success isLocal with ⟨_, reference, reached⟩
      refine (placed_newAttachment room success isLocal).readable ?_
      have target : (newAttachment last.state upload saved).reference =
          pickedPath data last.state upload := reference
      rw [target]
      exact reached

/-! ## Two uploads of one name, and a third -/

def exampleData : DataDirectory := ⟨"/data".toList, rfl⟩

/-- An upload under `assets/{filename}`. -/
def exampleUpload (uid : String) (filename : Text) (content : Blob) : Upload where
  setting := { filepathTemplate := "assets/{filename}".toList }
  outside := { moment := ⟨1700000000, 2023, 11, 14, 22, 13, 20⟩ }
  uid := uid
  filename := filename
  content := content

/-- Two uploads of one name; the first is deleted. -/
theorem local_files_exclusive_twice :
    Exclusive (History.run exampleData ⟨{}, []⟩
      [.create (exampleUpload "one" "shot.png".toList [1]),
        .create (exampleUpload "two" "shot.png".toList [2]), .delete {} 1]).state.attachments :=
  (local_files_exclusive exampleData {}
    [.create (exampleUpload "one" "shot.png".toList [1]),
      .create (exampleUpload "two" "shot.png".toList [2]), .delete {} 1]
    ⟨fun _ => ⟨by decide +kernel, by decide +kernel, by decide +kernel, by decide +kernel⟩,
      fun _ => ⟨by decide +kernel, by decide +kernel, by decide +kernel, by decide +kernel⟩,
      trivial, trivial⟩).1

/-- Three uploads; the third finds `note.txt` taken and is given the name that
the first one has. -/
def collidingUploads : List FilesCall :=
  [.create (exampleUpload "one" "note_abc.txt".toList [1]),
    .create (exampleUpload "two" "note.txt".toList [2]),
    .create (exampleUpload "abc" "note.txt".toList [3])]

/-- The third upload overwrites the file of the first one and shares it. -/
theorem file_overwritten :
    let last := History.run exampleData ⟨{}, []⟩ collidingUploads
    ¬Exclusive last.state.attachments ∧
      Exists fun item : StoredAttachment × Blob =>
        item ∈ last.kept ∧ ¬Readable exampleData last.state.disk item.1 item.2 := by
  intro last
  let path : Text := "/data/assets/note_abc.txt".toList
  let first : StoredAttachment := ⟨1, "one", 1, "note_abc.txt".toList, .local, path, none⟩
  let third : StoredAttachment := ⟨3, "abc", 1, "note.txt".toList, .local, path, none⟩
  constructor
  · intro exclusive
    have firstLive : first ∈ last.state.attachments := by decide +kernel
    have thirdLive : third ∈ last.state.attachments := by decide +kernel
    have same := exclusive first firstLive third thirdLive rfl rfl rfl
    exact absurd (congrArg StoredAttachment.id same) (by decide)
  · refine ⟨(first, [1]), by decide +kernel, ?_⟩
    rintro ⟨resolved, accepted, content⟩
    have target : resolveLocalPath exampleData path = .ok path := by decide +kernel
    have overwritten : last.state.disk.readFile path = .ok [3] := by decide +kernel
    cases target.symm.trans accepted
    exact absurd (overwritten.symm.trans content) (by decide)

end LocalFiles
end Service
end Memos
