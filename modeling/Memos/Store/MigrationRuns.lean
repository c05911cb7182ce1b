import Memos.Store.Migrator

namespace Memos
namespace Store

open Library

/-!
# Which scripts run

The scripts that `applyMigrations` executes are those above the version of the
database and up to the latest version, in the order of their paths.  The
version it records is that of the latest script.
-/

/-! ## Versions as strings -/

section Versions

variable {compare : String -> String -> Int}

theorem isVersionGreaterThan_text (compares : SemverCompares compare) (first second : SchemaVersion) :
    isVersionGreaterThan compare first.text second.text = decide (second < first) := by
  unfold isVersionGreaterThan
  rw [compares]
  rcases lt_trichotomy first second with below | same | above
  · simp [below, lt_asymm below]
  · simp [same]
  · simp [above, lt_asymm above]

theorem isVersionGreaterOrEqualThan_text (compares : SemverCompares compare) (first second : SchemaVersion) :
    isVersionGreaterOrEqualThan compare first.text second.text = decide (second ≤ first) := by
  unfold isVersionGreaterOrEqualThan
  rw [compares]
  rcases lt_trichotomy first second with below | same | above
  · simp [below, not_le_of_gt below]
  · simp [same]
  · simp [above, lt_asymm above, le_of_lt above]

/-- The version of a database, as its setting holds it: an empty text counts
as the default version. -/
def HoldsVersion (schemaVersion : String) (version : SchemaVersion) : Prop :=
  getSchemaVersionOrDefault schemaVersion = version.text

theorem shouldApplyMigration_text (compares : SemverCompares compare) {schemaVersion : String}
    {current : SchemaVersion} (holds : HoldsVersion schemaVersion current) (version target : SchemaVersion) :
    shouldApplyMigration compare version.text schemaVersion target.text =
      decide (current < version ∧ version ≤ target) := by
  unfold shouldApplyMigration
  rw [holds, isVersionGreaterThan_text compares, isVersionGreaterOrEqualThan_text compares,
    Bool.decide_and]

end Versions

/-! ## The latest version -/

/-- The latest version of the files, the default one without files. -/
def latestVersion (files : List MigrationFile) : SchemaVersion :=
  (files.map MigrationFile.version).foldl max ⟨0, 0, 0⟩

theorem foldl_max_mem (versions : List SchemaVersion) (start : SchemaVersion) :
    versions.foldl max start = start ∨ versions.foldl max start ∈ versions := by
  induction versions generalizing start with
  | nil => exact .inl rfl
  | cons head rest ih =>
      rw [List.foldl_cons]
      rcases ih (max start head) with same | later
      · rw [same]
        rcases max_choice start head with left | right
        · exact .inl left
        · rw [right]
          exact .inr List.mem_cons_self
      · exact .inr (List.mem_cons_of_mem _ later)

/-- A version below the latest one has a file that brings the latest one. -/
theorem exists_latest {files : List MigrationFile} {current : SchemaVersion}
    (below : current < latestVersion files) :
    Exists fun file => file ∈ files ∧ file.version = latestVersion files := by
  rcases foldl_max_mem (files.map MigrationFile.version) ⟨0, 0, 0⟩ with default | member
  · have zero : latestVersion files = ⟨0, 0, 0⟩ := default
    rw [zero] at below
    have impossible := SchemaVersion.lt_iff.mp below
    simp at impossible
  · rcases List.mem_map.mp member with ⟨file, here, same⟩
    exact ⟨file, here, same⟩

/-- A fold that may fail, over names of what is folded, as a fold of these. -/
theorem foldlM_ok {α β γ δ : Type} {ε : Type} {step : β -> δ -> Except ε β} {name : α -> δ}
    {text : γ -> β} {combine : γ -> α -> γ}
    (steps : ∀ current item, step (text current) (name item) = .ok (text (combine current item)))
    (items : List α) (start : γ) :
    (items.map name).foldlM step (text start) = .ok (text (items.foldl combine start)) := by
  induction items generalizing start with
  | nil => rfl
  | cons item rest ih =>
      rw [List.map_cons, List.foldlM_cons, steps, ok_bind, ih, List.foldl_cons]

theorem getCurrentSchemaVersion_paths {compare : String -> String -> Int}
    (compares : SemverCompares compare) (driver : String) (files : List MigrationFile) (depth : Nat) :
    getCurrentSchemaVersion compare (files.map (MigrationFile.path driver)) (depth + 1) =
      .ok (latestVersion files).text := by
  have folded : latestVersion files =
      files.foldl (fun current file => max current file.version) ⟨0, 0, 0⟩ := by
    rw [latestVersion, List.foldl_map]
  rw [folded, getCurrentSchemaVersion]
  have start : defaultSchemaVersion = (⟨0, 0, 0⟩ : SchemaVersion).text := rfl
  rw [start]
  refine foldlM_ok (fun (current : SchemaVersion) (file : MigrationFile) => ?_) files _
  rw [MigrationFile.getSchemaVersionOfMigrateScript_path]
  dsimp only
  rw [isVersionGreaterThan_text compares]
  by_cases below : current < file.version
  · rw [if_pos (decide_eq_true below), max_eq_right (le_of_lt below)]
  · rw [if_neg (by simpa using below), max_eq_left (not_lt.mp below)]

/-! ## Running scripts -/

/-- The database accepts each script after the ones before it. -/
def Accepted (engine : ScriptEngine) : SchemaState -> List Script -> Prop
  | _, [] => True
  | state, script :: rest =>
      engine.accepts state script = true ∧ Accepted engine (state.ran script) rest

/-- Execute the scripts until one is refused. -/
def executeScripts (refusal : Script -> String) : List Script -> MigrateProgram
  | [] => return .ok ()
  | script :: rest => do
      let accepted ← execute script
      if accepted then executeScripts refusal rest else Migrator.giveUp (refusal script)

variable {engine : ScriptEngine}

theorem view_execute (connection : Connection) (script : Script) :
    (connection.execute engine script).view = connection.view.ran script := by
  unfold Connection.execute
  split
  · rename_i closed
    simp [Connection.view, closed]
  · rename_i state opened
    split
    · simp [Connection.view, opened]
    · simp [Connection.view, opened]

theorem view_foldl_execute (scripts : List Script) (connection : Connection) :
    (scripts.foldl (Connection.execute engine) connection).view =
      scripts.foldl SchemaState.ran connection.view := by
  induction scripts generalizing connection with
  | nil => rfl
  | cons script rest ih =>
      rw [List.foldl_cons, List.foldl_cons, ih, view_execute]

theorem run_execute (connection : Connection) (script : Script) :
    (execute script).run engine.perform connection =
      if engine.accepts connection.view script then (true, connection.execute engine script)
      else (false, connection) := by
  change (Program.perform (SchemaStatement.execute script) Program.done).run engine.perform
    connection = _
  rw [Program.run_perform]
  unfold ScriptEngine.perform
  dsimp only
  split
  · rfl
  · rfl

/-- Accepted scripts all run. -/
theorem run_executeScripts {refusal : Script -> String} {scripts : List Script}
    {connection : Connection} (accepted : Accepted engine connection.view scripts) :
    (executeScripts refusal scripts).run engine.perform connection =
      (.ok (), scripts.foldl (Connection.execute engine) connection) := by
  induction scripts generalizing connection with
  | nil => rfl
  | cons script rest ih =>
      rcases accepted with ⟨first, later⟩
      rw [executeScripts, Program.run_bind, run_execute, if_pos first]
      dsimp only
      rw [if_pos rfl, ih (by rwa [view_execute])]
      rfl

/-- Scripts that run have been accepted. -/
theorem accepted_of_run {refusal : Script -> String} {scripts : List Script} {connection : Connection}
    (success : ((executeScripts refusal scripts).run engine.perform connection).1 = .ok ()) :
    Accepted engine connection.view scripts := by
  induction scripts generalizing connection with
  | nil => trivial
  | cons script rest ih =>
      rw [executeScripts, Program.run_bind, run_execute] at success
      by_cases first : engine.accepts connection.view script = true
      · rw [if_pos first] at success
        dsimp only at success
        rw [if_pos rfl] at success
        have later := ih success
        rw [view_execute] at later
        exact ⟨first, later⟩
      · rw [if_neg first] at success
        cases success

/-! ## The selected files -/

/-- The files of a migrator, which knows how versions compare. -/
structure Migrator.Has (migrator : Migrator) (files : List MigrationFile) : Prop where
  compares : SemverCompares migrator.compare
  paths : migrator.migrationPaths = files.map (MigrationFile.path migrator.driver)
  stack : 0 < migrator.stack

/-- The files between two versions, in the order of their paths. -/
def selectedFiles (driver : String) (files : List MigrationFile) (current : SchemaVersion) :
    List MigrationFile :=
  (files.mergeSort fun first second => first.path driver ≤ second.path driver).filter fun file =>
    current < file.version ∧ file.version ≤ latestVersion files

def migrationScripts (driver : String) (files : List MigrationFile) : List Script :=
  files.map fun file => .migration (file.path driver)

namespace Migrator

variable {migrator : Migrator} {files : List MigrationFile}

theorem Has.currentSchemaVersion (has : migrator.Has files) :
    migrator.currentSchemaVersion = .ok (latestVersion files).text := by
  rcases Nat.exists_eq_succ_of_ne_zero (Nat.pos_iff_ne_zero.mp has.stack) with ⟨depth, deep⟩
  unfold Migrator.currentSchemaVersion
  rw [has.paths, deep, getCurrentSchemaVersion_paths has.compares]

theorem Has.sortedPaths (has : migrator.Has files) :
    migrator.sortedPaths = (files.mergeSort fun first second =>
      first.path migrator.driver ≤ second.path migrator.driver).map
        (MigrationFile.path migrator.driver) := by
  unfold Migrator.sortedPaths
  rw [has.paths]
  symm
  apply List.map_mergeSort
  exact fun _ _ _ _ => rfl

/-- Why the execution of a migration failed. -/
def refusal : Script -> String
  | .migration filePath => "failed to execute migration " ++ filePath
  | _ => ""

/-- The loop executes the scripts of the selected files. -/
theorem Has.applyFiles (has : migrator.Has files) {schemaVersion : String}
    {current : SchemaVersion} (holds : HoldsVersion schemaVersion current)
    (target : SchemaVersion) (rest : List MigrationFile) :
    migrator.applyFiles schemaVersion target.text (rest.map (MigrationFile.path migrator.driver)) =
      executeScripts refusal (migrationScripts migrator.driver
        (rest.filter fun file => current < file.version ∧ file.version ≤ target)) := by
  induction rest with
  | nil => rfl
  | cons file rest ih =>
      rw [List.map_cons, Migrator.applyFiles, MigrationFile.getSchemaVersionOfMigrateScript_path]
      dsimp only
      rw [shouldApplyMigration_text has.compares holds, List.filter_cons, ih]
      by_cases selected : current < file.version ∧ file.version ≤ target
      · rw [if_pos (decide_eq_true selected), if_pos (decide_eq_true selected)]
        rfl
      · rw [if_neg (by simpa using selected), if_neg (by simpa using selected)]

theorem Has.applySorted (has : migrator.Has files) {schemaVersion : String}
    {current : SchemaVersion} (holds : HoldsVersion schemaVersion current) :
    migrator.applyFiles schemaVersion (latestVersion files).text migrator.sortedPaths =
      executeScripts refusal (migrationScripts migrator.driver
        (selectedFiles migrator.driver files current)) := by
  rw [has.sortedPaths, has.applyFiles holds]
  rfl

end Migrator

/-! ## What applying the migrations does -/

/-- The state with a new schema version in its setting. -/
def SchemaState.recorded (state : SchemaState) (schemaVersion : String) : SchemaState :=
  { state with basicSetting := some { state.basicSetting.getD {} with schemaVersion } }

theorem foldl_ran_migrations (driver : String) (files : List MigrationFile) (state : SchemaState) :
    (migrationScripts driver files).foldl SchemaState.ran state =
      { state with executed := state.executed ++ migrationScripts driver files } := by
  induction files generalizing state with
  | nil =>
      change state = { state with executed := state.executed ++ [] }
      rw [List.append_nil]
  | cons file rest ih =>
      change (migrationScripts driver rest).foldl SchemaState.ran
        (state.ran (.migration (file.path driver))) = _
      rw [ih]
      have joined : (state.executed ++ [.migration (file.path driver)]) ++
          migrationScripts driver rest = state.executed ++ migrationScripts driver (file :: rest) := by
        rw [List.append_assoc]
        rfl
      rw [← joined]
      rfl

theorem run_updateCurrentSchemaVersion (schemaVersion : String) (state : SchemaState) :
    (Migrator.updateCurrentSchemaVersion schemaVersion).run engine.perform ⟨state, none⟩ =
      (.ok (), ⟨state.recorded schemaVersion, none⟩) := rfl

namespace Migrator

variable {migrator : Migrator} {files : List MigrationFile}

/-- The scripts run in a transaction, then the version is recorded. -/
theorem Has.run_applyMigrations (has : migrator.Has files) {schemaVersion : String}
    {current : SchemaVersion} (holds : HoldsVersion schemaVersion current) {state : SchemaState}
    (accepted : Accepted engine state
      (migrationScripts migrator.driver (selectedFiles migrator.driver files current))) :
    (migrator.applyMigrations schemaVersion (latestVersion files).text).run engine.perform
        ⟨state, none⟩ =
      (.ok (), ⟨SchemaState.recorded
        { state with executed := state.executed ++
            migrationScripts migrator.driver (selectedFiles migrator.driver files current) }
        (latestVersion files).text, none⟩) := by
  have viewed : Accepted engine (Connection.view ⟨state, some state⟩)
      (migrationScripts migrator.driver (selectedFiles migrator.driver files current)) := accepted
  have executed : (executeScripts refusal _).run engine.perform ⟨state, some state⟩ = _ :=
    run_executeScripts viewed
  have result : (List.foldl (Connection.execute engine) ⟨state, some state⟩
      (migrationScripts migrator.driver (selectedFiles migrator.driver files current))).view = _ :=
    view_foldl_execute _ _
  rw [show Connection.view ⟨state, some state⟩ = state from rfl, foldl_ran_migrations] at result
  have started : (startTransaction).run engine.perform ⟨state, none⟩ =
    ((), ⟨state, some state⟩) := rfl
  unfold Migrator.applyMigrations
  rw [has.applySorted holds, Program.run_bind, started]
  dsimp only
  rw [andThen, Program.run_bind, executed]
  dsimp only
  rw [Program.run_bind]
  have committed (connection : Connection) : (commit).run engine.perform connection =
    ((), ⟨connection.view, none⟩) := rfl
  rw [committed, result]
  exact run_updateCurrentSchemaVersion _ _

end Migrator

/-! ## Selection and order -/

section Selection

variable {migrator : Migrator} {driver : String} {files : List MigrationFile}
  {current : SchemaVersion}

theorem mem_selectedFiles {file : MigrationFile} : file ∈ selectedFiles driver files current ↔
    file ∈ files ∧ current < file.version ∧ file.version ≤ latestVersion files := by
  rw [selectedFiles, List.mem_filter, List.mem_mergeSort, decide_eq_true_eq]

theorem selectedFiles_nodup (distinct : files.Nodup) : (selectedFiles driver files current).Nodup :=
  ((List.mergeSort_perm files _).nodup_iff.mpr distinct).filter _

theorem selectedFiles_sorted : (selectedFiles driver files current).Pairwise fun first second =>
    first.path driver ≤ second.path driver := by
  have sorted : (files.mergeSort fun first second =>
      decide (first.path driver ≤ second.path driver)).Pairwise fun first second =>
        decide (first.path driver ≤ second.path driver) = true := by
    apply List.pairwise_mergeSort
    · intro first second third below above
      simp only [decide_eq_true_eq] at below above ⊢
      exact below.trans above
    · intro first second
      simp only [Bool.or_eq_true, decide_eq_true_eq]
      exact le_total _ _
  exact (sorted.imp fun below => of_decide_eq_true below).filter _

/-- Files whose numbers are written with equal widths run in the order of
their versions. -/
theorem selectedFiles_increasing (distinct : files.Nodup)
    (aligned : ∀ first second, first ∈ selectedFiles driver files current ->
      second ∈ selectedFiles driver files current -> first ≠ second ->
      first.Aligned second ∧ first.version ≠ second.version) :
    (selectedFiles driver files current).Pairwise fun first second =>
      first.version < second.version := by
  have apart : (selectedFiles driver files current).Nodup := selectedFiles_nodup distinct
  have ordered := List.pairwise_and_iff.mpr ⟨selectedFiles_sorted, apart⟩
  refine ordered.imp_of_mem ?_
  rintro first second inFirst inSecond ⟨path, apart⟩
  rcases aligned first second inFirst inSecond apart with ⟨widths, versions⟩
  exact MigrationFile.version_lt widths versions path

/-- The scripts that run are those of the files above the current version and
up to the latest one, in the order of their paths.  That is the order of their
versions when these are distinct and written with equal widths.  The version
recorded is the greatest that has run. -/
theorem migrations_select (has : migrator.Has files) (distinct : files.Nodup)
    {schemaVersion : String} (holds : HoldsVersion schemaVersion current)
    (below : current < latestVersion files) {state : SchemaState}
    (accepted : Accepted engine state
      (migrationScripts migrator.driver (selectedFiles migrator.driver files current))) :
    migrator.currentSchemaVersion = .ok (latestVersion files).text ∧
    Exists fun executed : List MigrationFile =>
      (∀ file, file ∈ executed ↔
        file ∈ files ∧ current < file.version ∧ file.version ≤ latestVersion files) ∧
      executed.Nodup ∧
      (executed.Pairwise fun first second =>
        first.path migrator.driver ≤ second.path migrator.driver) ∧
      ((∀ first second, first ∈ executed -> second ∈ executed -> first ≠ second ->
          first.Aligned second ∧ first.version ≠ second.version) ->
        executed.Pairwise fun first second => first.version < second.version) ∧
      (Exists fun newest => newest ∈ executed ∧ newest.version = latestVersion files ∧
        ∀ file, file ∈ executed -> file.version ≤ newest.version) ∧
      (migrator.applyMigrations schemaVersion (latestVersion files).text).run engine.perform
          ⟨state, none⟩ =
        (.ok (), ⟨SchemaState.recorded
          { state with executed := state.executed ++ migrationScripts migrator.driver executed }
          (latestVersion files).text, none⟩) := by
  refine ⟨has.currentSchemaVersion, selectedFiles migrator.driver files current,
    fun file => mem_selectedFiles, selectedFiles_nodup distinct, selectedFiles_sorted,
    selectedFiles_increasing distinct, ?_, has.run_applyMigrations holds accepted⟩
  rcases exists_latest below with ⟨newest, member, same⟩
  refine ⟨newest, mem_selectedFiles.mpr ⟨member, same ▸ below, le_of_eq same⟩, same, ?_⟩
  intro file selected
  rw [same]
  exact (mem_selectedFiles.mp selected).2.2

end Selection

/-! ## A comparison of versions -/

def readNumber (digits : List Char) : Option Nat :=
  if digits.isEmpty || !digits.all Char.isDigit then none else some (Nat.ofDigitChars 10 digits 0)

/-- The version in a text with a leading `v`. -/
def readVersion (text : String) : Option SchemaVersion :=
  match text.toList with
  | 'v' :: rest =>
      match rest.splitOn '.' with
      | [major, minor, patch] => do
          return ⟨← readNumber major, ← readNumber minor, ← readNumber patch⟩
      | _ => none
  | _ => none

/-- `semver.Compare` on versions without further parts: an invalid version is
less than a valid one. -/
def semverCompare (first second : String) : Int :=
  match readVersion first, readVersion second with
  | some first, some second => if first < second then -1 else if second < first then 1 else 0
  | none, some _ => -1
  | some _, none => 1
  | none, none => 0

theorem readNumber_toString (number : Nat) : readNumber (toString number).toList = some number := by
  have digits : (toString number).toList = Nat.toDigits 10 number := Nat.toList_repr
  have all : (toString number).toList.all Char.isDigit = true :=
    List.all_eq_true.mpr fun _ member => MigrationFile.isDigit_of_mem_toString member
  have shown : (toString number).toList.isEmpty = false := by
    rw [digits, List.isEmpty_eq_false_iff]
    exact Nat.toDigits_ne_nil
  unfold readNumber
  rw [shown, all, if_neg (by decide), digits, Nat.ofDigitChars_ten_toDigits]

theorem readVersion_text (version : SchemaVersion) :
    readVersion ("v" ++ version.text) = some version := by
  have dotless (number : Nat) : '.' ∉ (toString number).toList := fun member =>
    absurd (MigrationFile.isDigit_of_mem_toString member) (by decide)
  have whole : ("v" ++ version.text).toList = 'v' :: ((toString version.major).toList ++
      '.' :: ((toString version.minor).toList ++ '.' :: (toString version.patch).toList)) := by
    simp [SchemaVersion.text]
  unfold readVersion
  rw [whole]
  simp only
  rw [List.splitOn_append_cons_self, List.splitOn_append_cons_self,
    List.splitOn_eq_singleton (dotless _), List.splitOn_eq_singleton (dotless _),
    List.splitOn_eq_singleton (dotless _)]
  simp only [List.cons_append, List.nil_append, readNumber_toString]
  rfl

theorem semverCompares_semverCompare : SemverCompares semverCompare := by
  intro first second
  unfold semverCompare
  rw [readVersion_text, readVersion_text]

/-! ## Examples -/

/-- A database that accepts every script and commits on none. -/
def lenientEngine : ScriptEngine := ⟨fun _ _ => true, fun _ => false⟩

def sqliteMigrator (files : List MigrationFile) : Migrator where
  compare := semverCompare
  driver := "sqlite"
  migrationPaths := files.map (MigrationFile.path "sqlite")
  stack := 1

theorem has_sqliteMigrator (files : List MigrationFile) : (sqliteMigrator files).Has files :=
  ⟨semverCompares_semverCompare, rfl, Nat.one_pos⟩

theorem accepted_lenientEngine (state : SchemaState) (scripts : List Script) :
    Accepted lenientEngine state scripts := by
  induction scripts generalizing state with
  | nil => trivial
  | cons first rest ih => exact ⟨rfl, ih _⟩

/-- `0.22/01__memo_tags.sql` -/
def memoTags : MigrationFile :=
  ⟨0, 22, ['0', '1'], "memo_tags", by decide, by decide, by decide, by decide⟩

/-- `0.22/02__memo_payload.sql` -/
def memoPayload : MigrationFile :=
  ⟨0, 22, ['0', '2'], "memo_payload", by decide, by decide, by decide, by decide⟩

/-- `0.28/00__user_identity.sql` -/
def userIdentity : MigrationFile :=
  ⟨0, 28, ['0', '0'], "user_identity", by decide, by decide, by decide, by decide⟩

def recentFiles : List MigrationFile := [memoTags, memoPayload, userIdentity]

/-- From 0.22.2 the last two of three scripts run, and 0.28.1 is recorded. -/
theorem migrations_select_user_identity :
    Exists fun executed : List MigrationFile =>
      (∀ file, file ∈ executed ↔ file ∈ recentFiles ∧ ⟨0, 22, 2⟩ < file.version ∧
        file.version ≤ latestVersion recentFiles) ∧
      ((sqliteMigrator recentFiles).applyMigrations "0.22.2"
        (latestVersion recentFiles).text).run lenientEngine.perform ⟨{}, none⟩ =
        (.ok (), ⟨SchemaState.recorded
          { executed := [] ++ migrationScripts "sqlite" executed }
          (latestVersion recentFiles).text, none⟩) := by
  have holds : HoldsVersion "0.22.2" ⟨0, 22, 2⟩ := by
    unfold HoldsVersion
    decide
  rcases migrations_select (has_sqliteMigrator recentFiles) (by decide) holds (by decide)
    (accepted_lenientEngine {} _) with ⟨_, executed, selected, _, _, _, _, run⟩
  exact ⟨executed, selected, run⟩

/-- `0.99/00__tag.sql` -/
def tagScript : MigrationFile :=
  ⟨0, 99, ['0', '0'], "tag", by decide, by decide, by decide, by decide⟩

/-- `0.100/00__activity.sql` -/
def activityScript : MigrationFile :=
  ⟨0, 100, ['0', '0'], "activity", by decide, by decide, by decide, by decide⟩

/-- The path of 0.100 comes before that of 0.99: from 0.98.1 the script of 0.100
runs first. -/
theorem migrations_not_increasing :
    ¬ ∀ (migrator : Migrator) (files : List MigrationFile) (engine : ScriptEngine)
      (schemaVersion : String) (current : SchemaVersion) (state : SchemaState),
      migrator.Has files -> files.Nodup -> HoldsVersion schemaVersion current ->
      current < latestVersion files ->
      Accepted engine state
        (migrationScripts migrator.driver (selectedFiles migrator.driver files current)) ->
      Exists fun executed : List MigrationFile =>
        (∀ file, file ∈ executed ↔
          file ∈ files ∧ current < file.version ∧ file.version ≤ latestVersion files) ∧
        (executed.Pairwise fun first second => first.version < second.version) ∧
        (migrator.applyMigrations schemaVersion (latestVersion files).text).run engine.perform
            ⟨state, none⟩ =
          (.ok (), ⟨SchemaState.recorded
            { state with executed := state.executed ++ migrationScripts migrator.driver executed }
            (latestVersion files).text, none⟩) := by
  intro claimed
  have has := has_sqliteMigrator [activityScript, tagScript]
  have holds : HoldsVersion "0.98.1" ⟨0, 98, 1⟩ := by
    unfold HoldsVersion
    decide
  have accepted := accepted_lenientEngine {}
    (migrationScripts "sqlite" (selectedFiles "sqlite" [activityScript, tagScript] ⟨0, 98, 1⟩))
  rcases claimed _ _ _ _ _ _ has (by decide) holds (by decide) accepted with
    ⟨executed, selected, increasing, run⟩
  have ordered : selectedFiles "sqlite" [activityScript, tagScript] ⟨0, 98, 1⟩ =
      [activityScript, tagScript] := by
    unfold selectedFiles
    rw [List.mergeSort_of_pairwise (by decide +kernel)]
    decide
  rw [has.run_applyMigrations holds accepted] at run
  have scripts : migrationScripts "sqlite" (selectedFiles "sqlite" [activityScript, tagScript]
      ⟨0, 98, 1⟩) = migrationScripts "sqlite" executed :=
    congrArg (fun outcome => outcome.2.committed.executed) run
  rw [ordered] at scripts
  have count : executed.length = 2 := by
    have lengths := congrArg List.length scripts
    simpa [migrationScripts] using lengths.symm
  rcases List.length_eq_two.mp count with ⟨first, second, rfl⟩
  simp only [migrationScripts, List.map_cons, List.map_nil, List.cons.injEq,
    Script.migration.injEq, and_true] at scripts
  have member (file : MigrationFile) (inList : file ∈ [first, second]) :
      file = activityScript ∨ file = tagScript := by
    have known := ((selected file).mp inList).1
    rcases List.mem_cons.mp known with same | later
    · exact .inl same
    · exact .inr (List.mem_singleton.mp later)
  have below := List.rel_of_pairwise_cons increasing List.mem_cons_self
  rcases member first List.mem_cons_self with rfl | rfl
  · rcases member second (List.mem_cons_of_mem _ List.mem_cons_self) with rfl | rfl
    · exact absurd scripts.2 (by decide)
    · exact absurd below (by decide)
  · exact absurd scripts.1 (by decide)

end Store
end Memos
