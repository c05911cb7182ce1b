import Memos.Store.MigrationRuns

namespace Memos
namespace Store

open Library

/-!
# Stops during a migration

The process may stop after any statement of `Migrate`; what the database has
committed is what the next start finds.  The version is written only after the
scripts have been committed.  A stop between the two leaves a database that
has the scripts and not their version: a fresh installation is then refused by
every later start, and an upgrade runs its scripts again.
-/

variable {engine : ScriptEngine} {migrator : Migrator} {files : List MigrationFile}

/-! ## Scripts in a transaction -/

/-- The scripts are durable although this many operations of the transaction
have been performed: it has been committed, or a script has ended it. -/
def Persisted (engine : ScriptEngine) (scripts : List Script) (performed : Nat) : Prop :=
  scripts.length < performed ∨ (scripts.take performed).any engine.endsTransaction = true

/-- What is durable of the scripts. -/
def durable (engine : ScriptEngine) (scripts : List Script) (state : SchemaState)
    (performed : Nat) : SchemaState :=
  if (scripts.take performed).any engine.endsTransaction then
    (scripts.take performed).foldl SchemaState.ran state
  else state

theorem foldl_execute_closed (scripts : List Script) (state : SchemaState) :
    scripts.foldl (Connection.execute engine) ⟨state, none⟩ =
      ⟨scripts.foldl SchemaState.ran state, none⟩ := by
  induction scripts generalizing state with
  | nil => rfl
  | cons script rest ih => exact ih (state.ran script)

theorem committed_foldl_execute (scripts : List Script) (base state : SchemaState) :
    (scripts.foldl (Connection.execute engine) ⟨base, some state⟩).committed =
      if scripts.any engine.endsTransaction then scripts.foldl SchemaState.ran state else base := by
  induction scripts generalizing state with
  | nil => rfl
  | cons script rest ih =>
      rw [List.foldl_cons, List.any_cons, List.foldl_cons, Connection.execute]
      dsimp only
      by_cases ends : engine.endsTransaction script = true
      · rw [if_pos ends, foldl_execute_closed, ends, Bool.true_or, if_pos rfl]
      · rw [if_neg ends, ih, Bool.eq_false_iff.mpr ends, Bool.false_or]

theorem steps_execute (connection : Connection) (script : Script) :
    (execute script).steps engine.perform connection = 1 := rfl

variable {connection : Connection} {state : SchemaState} {performed : Nat}

theorem steps_executeScripts {refusal : Script -> String} {scripts : List Script}
    (accepted : Accepted engine connection.view scripts) :
    (executeScripts refusal scripts).steps engine.perform connection = scripts.length := by
  induction scripts generalizing connection with
  | nil => rfl
  | cons script rest ih =>
      rcases accepted with ⟨first, later⟩
      rw [executeScripts, Program.steps_bind, steps_execute, run_execute, if_pos first]
      dsimp only
      rw [if_pos rfl, ih (by rwa [view_execute]), List.length_cons, Nat.add_comm]

theorem stop_executeScripts {refusal : Script -> String} {scripts : List Script}
    (accepted : Accepted engine connection.view scripts) (count : Nat) :
    (executeScripts refusal scripts).stop engine.perform count connection =
      (scripts.take count).foldl (Connection.execute engine) connection := by
  induction scripts generalizing connection count with
  | nil =>
      rw [List.take_nil]
      rfl
  | cons script rest ih =>
      rcases accepted with ⟨first, later⟩
      cases count with
      | zero => exact Program.stop_zero _ _
      | succ count =>
          rw [executeScripts, Program.stop_bind, steps_execute,
            if_neg (Nat.not_lt.mpr (Nat.succ_le_succ (Nat.zero_le count))), run_execute,
            if_pos first]
          dsimp only
          rw [if_pos rfl, Nat.add_sub_cancel, ih (by rwa [view_execute])]
          rfl

/-! ## Parts of the migrator -/

section AndThen

variable {program next : MigrateProgram} {context : String} {connection after : Connection}

theorem run_andThen (success : program.run engine.perform connection = (.ok (), after)) :
    (andThen program context next).run engine.perform connection =
      next.run engine.perform after := by
  rw [andThen, Program.run_bind, success]

theorem run_andThen_error {cause : String}
    (failure : (program.run engine.perform connection).1 = .error cause) :
    ((andThen program context next).run engine.perform connection).1 =
      .error (context ++ cause) := by
  rw [andThen, Program.run_bind, failure]
  rfl

/-- What goes on has not failed. -/
theorem ok_of_andThen (success : ((andThen program context next).run engine.perform connection).1 = .ok ()) :
    (program.run engine.perform connection).1 = .ok () := by
  cases outcome : (program.run engine.perform connection).1 with
  | ok result => rfl
  | error cause =>
      rw [run_andThen_error outcome] at success
      cases success

theorem steps_andThen (success : program.run engine.perform connection = (.ok (), after)) :
    (andThen program context next).steps engine.perform connection =
      program.steps engine.perform connection + next.steps engine.perform after := by
  rw [andThen, Program.steps_bind, success]

theorem stop_andThen (success : program.run engine.perform connection = (.ok (), after))
    (count : Nat) : (andThen program context next).stop engine.perform count connection =
      if count < program.steps engine.perform connection then
        program.stop engine.perform count connection
      else next.stop engine.perform (count - program.steps engine.perform connection) after := by
  rw [andThen, Program.stop_bind, success]

end AndThen

/-- A part of the migrator succeeds: it leads from one state to another, and
this is what a stop in between leaves. -/
structure Phase (engine : ScriptEngine) (program : MigrateProgram) (state after : SchemaState)
    (length : Nat) (left : Nat -> SchemaState) : Prop where
  run : program.run engine.perform ⟨state, none⟩ = (.ok (), ⟨after, none⟩)
  steps : program.steps engine.perform ⟨state, none⟩ = length
  stopped : ∀ count, count < length ->
    (program.stop engine.perform count ⟨state, none⟩).committed = left count

/-- What a first part leaves and, later, a second one. -/
def leftIn (length : Nat) (first second : Nat -> SchemaState) (count : Nat) : SchemaState :=
  if count < length then first count else second (count - length)

namespace Phase

variable {program next : MigrateProgram} {state middle after : SchemaState}
  {length rest : Nat} {left later : Nat -> SchemaState}

theorem done : Phase engine (pure (.ok ())) state state 0 fun _ => state where
  run := rfl
  steps := rfl
  stopped := fun _ impossible => absurd impossible (Nat.not_lt_zero _)

theorem andThen (first : Phase engine program state middle length left) (context : String)
    (second : Phase engine next middle after rest later) :
    Phase engine (Store.andThen program context next) state after (length + rest)
      (leftIn length left later) where
  run := by rw [run_andThen first.run, second.run]
  steps := by rw [steps_andThen first.run, first.steps, second.steps]
  stopped := by
    intro count inside
    rw [stop_andThen first.run, first.steps, leftIn]
    split
    · rename_i before
      exact first.stopped count before
    · rename_i past
      exact second.stopped _ (by omega)

/-- One statement that reads. -/
theorem read {α : Type} {reader : Program SchemaStatement SchemaReply α} {value : α}
    {next : α -> MigrateProgram} (reads : reader.run engine.perform ⟨state, none⟩ = (value, ⟨state, none⟩))
    (one : reader.steps engine.perform ⟨state, none⟩ = 1)
    (second : Phase engine (next value) state after rest later) :
    Phase engine (reader >>= next) state after (1 + rest) (leftIn 1 (fun _ => state) later) where
  run := by rw [Program.run_bind, reads, second.run]
  steps := by rw [Program.steps_bind, reads, one, second.steps]
  stopped := by
    intro count inside
    rw [leftIn]
    split
    · rename_i before
      rw [Nat.lt_one_iff.mp before, Program.stop_zero]
    · rename_i past
      rw [Program.stop_bind, reads, one, if_neg past]
      exact second.stopped _ (by omega)

/-- What a stop leaves, also after the end. -/
theorem committed_stop (phase : Phase engine program state after length left) (count : Nat) :
    (program.stop engine.perform count ⟨state, none⟩).committed =
      if count < length then left count else after := by
  split
  · rename_i inside
    exact phase.stopped count inside
  · rename_i past
    rw [Program.stop_of_steps_le _ (by rw [phase.steps]; exact Nat.not_lt.mp past), phase.run]

/-- Scripts in a transaction, and what comes after the commit. -/
theorem transaction {refusal : Script -> String} {scripts : List Script} {context : String}
    (accepted : Accepted engine state scripts)
    (second : Phase engine next (scripts.foldl SchemaState.ran state) after rest later) :
    Phase engine
      (do
        startTransaction
        Store.andThen (executeScripts refusal scripts) context
          (do
            commit
            next)) state after (scripts.length + 2 + rest)
      (leftIn (scripts.length + 2) (fun count => durable engine scripts state (count - 1)) later) := by
  have started : startTransaction.run engine.perform ⟨state, none⟩ = ((), ⟨state, some state⟩) :=
    rfl
  have oneStart : startTransaction.steps engine.perform ⟨state, none⟩ = 1 := rfl
  have committed (connection : Connection) : commit.run engine.perform connection =
    ((), ⟨connection.view, none⟩) := rfl
  have oneCommit (connection : Connection) : commit.steps engine.perform connection = 1 := rfl
  have viewed : Accepted engine (Connection.view ⟨state, some state⟩) scripts := accepted
  have executed : (executeScripts refusal scripts).run engine.perform ⟨state, some state⟩ = _ :=
    run_executeScripts viewed
  have result : (scripts.foldl (Connection.execute engine) ⟨state, some state⟩).view =
      scripts.foldl SchemaState.ran state := view_foldl_execute _ _
  have ends : (commit >>= fun _ => next).run engine.perform
      (scripts.foldl (Connection.execute engine) ⟨state, some state⟩) =
      (.ok (), ⟨after, none⟩) := by
    rw [Program.run_bind, committed, result, second.run]
  constructor
  · rw [Program.run_bind, started, run_andThen executed, ends]
  · rw [Program.steps_bind, started, oneStart, steps_andThen executed,
      steps_executeScripts viewed, Program.steps_bind, committed, oneCommit, result, second.steps]
    omega
  · intro count inside
    rw [Program.stop_bind, started, oneStart, leftIn]
    by_cases unstarted : count < 1
    · rw [if_pos unstarted, if_pos (by omega), Nat.lt_one_iff.mp unstarted, Program.stop_zero]
      simp [durable]
    · rw [if_neg unstarted, stop_andThen executed, steps_executeScripts viewed]
      by_cases running : count - 1 < scripts.length
      · rw [if_pos running, if_pos (by omega), stop_executeScripts viewed,
          committed_foldl_execute]
        rfl
      · rw [if_neg running, Program.stop_bind, committed, oneCommit, result]
        by_cases uncommitted : count - 1 - scripts.length < 1
        · have whole : count - 1 = scripts.length := by omega
          rw [if_pos uncommitted, if_pos (by omega), Nat.lt_one_iff.mp uncommitted,
            Program.stop_zero, committed_foldl_execute, durable, whole, List.take_length]
        · rw [if_neg uncommitted, if_neg (by omega)]
          have place : count - 1 - scripts.length - 1 = count - (scripts.length + 2) := by omega
          rw [place]
          exact second.stopped _ (by omega)

theorem update (schemaVersion : String) (state : SchemaState) :
    Phase engine (Migrator.updateCurrentSchemaVersion schemaVersion) state
      (state.recorded schemaVersion) 2 fun _ => state where
  run := rfl
  steps := rfl
  stopped := by
    intro count inside
    rcases count with _ | _ | count
    · rfl
    · rfl
    · omega

end Phase

/-! ## Seeds -/

namespace Migrator

/-- The seeds of demo mode, which only SQLite has. -/
def demoSeeds (migrator : Migrator) : List Script :=
  if migrator.demo ∧ migrator.driver = "sqlite" then
    (migrator.seedPaths.mergeSort (· ≤ ·)).map .seed
  else []

/-- The number of statements of the seeding. -/
def seedSteps (migrator : Migrator) : Nat :=
  if migrator.demo ∧ migrator.driver = "sqlite" then migrator.demoSeeds.length + 2 else 0

/-- No seed ends its transaction: it is SQLite that runs them. -/
def SeedsTransactional (engine : ScriptEngine) : Prop :=
  ∀ filePath, engine.endsTransaction (.seed filePath) = false

def seedRefusal : Script -> String
  | .seed filePath => "seed error: " ++ filePath
  | _ => ""

theorem seedFiles_eq (filePaths : List String) :
    seedFiles filePaths = executeScripts seedRefusal (filePaths.map .seed) := by
  induction filePaths with
  | nil => rfl
  | cons filePath rest ih =>
      rw [seedFiles, ih]
      rfl

theorem seedDemo_eq (migrator : Migrator) : migrator.seedDemo =
    if migrator.demo ∧ migrator.driver = "sqlite" then
      (do
        startTransaction
        andThen (executeScripts seedRefusal migrator.demoSeeds) "failed to seed: "
          (do
            commit
            return .ok ()))
    else return .ok () := by
  unfold seedDemo seed
  by_cases both : migrator.demo ∧ migrator.driver = "sqlite"
  · rw [if_pos both, if_pos both.1, if_pos both.2, seedFiles_eq, demoSeeds, if_pos both]
  · rw [if_neg both]
    split
    · rename_i demo
      rw [if_neg fun sqlite => both ⟨demo, sqlite⟩]
    · rfl

end Migrator

/-- The state after the seeding. -/
def Migrator.seeded (migrator : Migrator) (state : SchemaState) : SchemaState :=
  migrator.demoSeeds.foldl SchemaState.ran state

theorem foldl_ran_seeds (filePaths : List String) (state : SchemaState) :
    (filePaths.map Script.seed).foldl SchemaState.ran state =
      { state with seeded := state.seeded ++ filePaths.map Script.seed } := by
  induction filePaths generalizing state with
  | nil => rw [List.map_nil, List.append_nil, List.foldl_nil]
  | cons filePath rest ih =>
      rw [List.map_cons, List.foldl_cons, ih, SchemaState.ran,
        List.append_assoc, List.singleton_append]

theorem Migrator.seeded_eq (migrator : Migrator) (state : SchemaState) :
    migrator.seeded state = { state with seeded := state.seeded ++ migrator.demoSeeds } := by
  unfold Migrator.seeded Migrator.demoSeeds
  split
  · exact foldl_ran_seeds _ _
  · rw [List.append_nil, List.foldl_nil]

theorem phase_seedDemo (transactional : Migrator.SeedsTransactional engine)
    (accepted : Accepted engine state migrator.demoSeeds) :
    Phase engine migrator.seedDemo state (migrator.seeded state) migrator.seedSteps
      fun _ => state := by
  rw [Migrator.seedDemo_eq]
  unfold Migrator.seedSteps
  by_cases both : migrator.demo ∧ migrator.driver = "sqlite"
  · rw [if_pos both, if_pos both]
    have phase : Phase engine (do
        startTransaction
        andThen (executeScripts Migrator.seedRefusal migrator.demoSeeds) "failed to seed: "
          (do
            commit
            return .ok ())) _ _ _ _ := Phase.transaction accepted Phase.done
    refine ⟨phase.run, phase.steps, ?_⟩
    intro count inside
    rw [phase.stopped count inside, leftIn, if_pos inside, durable, if_neg]
    intro ends
    rcases List.any_eq_true.mp ends with ⟨script, member, ending⟩
    have listed := List.mem_of_mem_take member
    rw [Migrator.demoSeeds, if_pos both] at listed
    rcases List.mem_map.mp listed with ⟨filePath, _, rfl⟩
    rw [transactional] at ending
    cases ending
  · rw [if_neg both, if_neg both]
    have none : migrator.seeded state = state := by
      rw [Migrator.seeded, Migrator.demoSeeds, if_neg both, List.foldl_nil]
    rw [none]
    exact Phase.done

/-- Seeds that have run had been accepted. -/
theorem accepted_of_seedDemo {after : Connection}
    (success : migrator.seedDemo.run engine.perform ⟨state, none⟩ = (.ok (), after)) :
    Accepted engine state migrator.demoSeeds := by
  rw [Migrator.seedDemo_eq] at success
  by_cases both : migrator.demo ∧ migrator.driver = "sqlite"
  · rw [if_pos both, Program.run_bind] at success
    have executed := ok_of_andThen (congrArg Prod.fst success)
    exact accepted_of_run executed
  · rw [Migrator.demoSeeds, if_neg both]
    trivial

/-! ## Versions of a database -/

/-- The first version that can be upgraded. -/
def minimumVersion : SchemaVersion := ⟨0, 22, 0⟩

def SchemaState.schemaVersion (state : SchemaState) : String :=
  (state.basicSetting.getD {}).schemaVersion

theorem SchemaVersion.text_injective : Function.Injective SchemaVersion.text := by
  intro first second same
  have read := readVersion_text first
  rw [same, readVersion_text] at read
  exact (Option.some.inj read).symm

theorem isVersionEmpty_text {version : SchemaVersion} (supported : minimumVersion ≤ version) :
    isVersionEmpty version.text = false := by
  have some : version.text ≠ "" := by
    intro empty
    have read := readVersion_text version
    rw [empty] at read
    cases read
  have notDefault : version.text ≠ defaultSchemaVersion := by
    intro default
    have zero : version = ⟨0, 0, 0⟩ := SchemaVersion.text_injective default
    rw [zero] at supported
    exact absurd supported (by decide)
  simp [isVersionEmpty, some, notDefault]

theorem holdsVersion_text {version : SchemaVersion} (supported : minimumVersion ≤ version) :
    HoldsVersion version.text version := by
  have filled := isVersionEmpty_text supported
  simp only [isVersionEmpty, Bool.or_eq_false_iff, decide_eq_false_iff_not] at filled
  rw [HoldsVersion, getSchemaVersionOrDefault, if_neg filled.1]

/-- An initialized database of a version that can be upgraded. -/
structure AtVersion (state : SchemaState) (current : SchemaVersion) : Prop where
  initialized : state.initialized = true
  recorded : state.schemaVersion = current.text
  supported : minimumVersion ≤ current

/-- The database cannot be upgraded: its version is missing or too low. -/
structure Refused (migrator : Migrator) (state : SchemaState) : Prop where
  initialized : state.initialized = true
  low : (!isVersionEmpty state.schemaVersion &&
    isVersionGreaterOrEqualThan migrator.compare state.schemaVersion "0.22.0") = false

namespace Migrator

variable {state : SchemaState} {current : SchemaVersion}

theorem Has.check (has : migrator.Has files) (version : AtVersion state current) :
    Phase engine migrator.checkMinimumUpgradeVersion state state 1 fun _ => state := by
  have passes : (!isVersionEmpty state.schemaVersion &&
      isVersionGreaterOrEqualThan migrator.compare state.schemaVersion "0.22.0") = true := by
    rw [version.recorded, isVersionEmpty_text version.supported,
      show "0.22.0" = minimumVersion.text from rfl, isVersionGreaterOrEqualThan_text has.compares]
    simpa using version.supported
  have phase : Phase engine migrator.checkMinimumUpgradeVersion state state (1 + 0)
      (leftIn 1 (fun _ => state) fun _ => state) := by
    apply Phase.read
    · rfl
    · rfl
    · change Phase engine (if (!isVersionEmpty state.schemaVersion &&
        isVersionGreaterOrEqualThan migrator.compare state.schemaVersion "0.22.0") then _
        else _) state state 0 _
      rw [if_pos passes]
      exact Phase.done
  refine ⟨phase.run, phase.steps, fun count inside => ?_⟩
  rw [phase.stopped count inside, leftIn, if_pos inside]

/-- A database that cannot be upgraded is left alone. -/
theorem check_refused (refused : Refused migrator state) :
    migrator.checkMinimumUpgradeVersion.run engine.perform ⟨state, none⟩ =
      (migrator.rejected state.schemaVersion, ⟨state, none⟩) := by
  have read : getInstanceBasicSetting.run engine.perform ⟨state, none⟩ =
      (state.basicSetting.getD {}, ⟨state, none⟩) := rfl
  unfold checkMinimumUpgradeVersion
  rw [Program.run_bind, read]
  change Program.run engine.perform (if (!isVersionEmpty state.schemaVersion &&
    isVersionGreaterOrEqualThan migrator.compare state.schemaVersion "0.22.0") then _ else _) _ = _
  rw [if_neg (by rw [refused.low]; decide)]
  split
  · have known : isInitialized.run engine.perform ⟨state, none⟩ = (true, ⟨state, none⟩) := by
      rw [← refused.initialized]
      rfl
    rw [Program.run_bind, known]
    rfl
  · rfl

/-- What is left to do for a database that can be upgraded. -/
theorem Has.upgradeFrom (has : migrator.Has files) (supported : minimumVersion ≤ current)
    (known : current ≤ latestVersion files) :
    migrator.upgradeFrom current.text = if current < latestVersion files then
      andThen (migrator.applyMigrations current.text (latestVersion files).text)
        "failed to apply migrations: " migrator.seedDemo
    else migrator.seedDemo := by
  unfold Migrator.upgradeFrom
  rw [has.currentSchemaVersion]
  dsimp only
  rw [isVersionEmpty_text supported, isVersionGreaterThan_text has.compares,
    isVersionGreaterThan_text has.compares, if_neg (by simpa using known)]
  by_cases older : current < latestVersion files
  · rw [if_pos (by simpa using older), if_pos older]
  · rw [if_neg (by simpa using older), if_neg older]

/-- `upgrade` reads the version and goes on. -/
theorem Has.run_upgrade (has : migrator.Has files) (version : AtVersion state current)
    (known : current ≤ latestVersion files) :
    migrator.upgrade.run engine.perform ⟨state, none⟩ =
      (if current < latestVersion files then
        andThen (migrator.applyMigrations current.text (latestVersion files).text)
          "failed to apply migrations: " migrator.seedDemo
      else migrator.seedDemo).run engine.perform ⟨state, none⟩ := by
  rw [← has.upgradeFrom version.supported known, ← version.recorded]
  rfl

theorem Has.upgrade (has : migrator.Has files) {state after : SchemaState} (version : AtVersion state current)
    (known : current ≤ latestVersion files) {length : Nat} {left : Nat -> SchemaState}
    (rest : Phase engine (if current < latestVersion files then
        andThen (migrator.applyMigrations current.text (latestVersion files).text)
          "failed to apply migrations: " migrator.seedDemo
      else migrator.seedDemo) state after length left) :
    Phase engine migrator.upgrade state after (1 + length) (leftIn 1 (fun _ => state) left) := by
  have read : getInstanceBasicSetting.run engine.perform ⟨state, none⟩ =
      (state.basicSetting.getD {}, ⟨state, none⟩) := rfl
  apply Phase.read read rfl
  change Phase engine (migrator.upgradeFrom state.schemaVersion) _ _ _ _
  rw [version.recorded, has.upgradeFrom version.supported known]
  exact rest

theorem Has.upToDate (has : migrator.Has files) (transactional : SeedsTransactional engine)
    (version : AtVersion state (latestVersion files)) (seeds : Accepted engine state migrator.demoSeeds) :
    Phase engine migrator.upgrade state (migrator.seeded state) (1 + migrator.seedSteps)
      (leftIn 1 (fun _ => state) fun _ => state) := by
  apply has.upgrade version (le_refl _)
  rw [if_neg (lt_irrefl _)]
  exact phase_seedDemo transactional seeds

end Migrator

/-- The state after the scripts, with the latest version recorded. -/
def migrated (files : List MigrationFile) (scripts : List Script) (state : SchemaState) :
    SchemaState :=
  (scripts.foldl SchemaState.ran state).recorded (latestVersion files).text

namespace Migrator

/-- The scripts that bring an older database to the latest version. -/
def pending (migrator : Migrator) (files : List MigrationFile) (current : SchemaVersion) :
    List Script :=
  migrationScripts migrator.driver (selectedFiles migrator.driver files current)

variable {state : SchemaState} {current : SchemaVersion}

theorem Has.applies (has : migrator.Has files) (supported : minimumVersion ≤ current)
    (accepted : Accepted engine state (migrator.pending files current)) :
    Phase engine (migrator.applyMigrations current.text (latestVersion files).text) state
      (migrated files (migrator.pending files current) state)
      ((migrator.pending files current).length + 2 + 2)
      (leftIn ((migrator.pending files current).length + 2)
        (fun count => durable engine (migrator.pending files current) state (count - 1))
        fun _ => (migrator.pending files current).foldl SchemaState.ran state) := by
  unfold applyMigrations
  rw [has.applySorted (holdsVersion_text supported)]
  exact Phase.transaction accepted (Phase.update _ _)

theorem Has.outdated (has : migrator.Has files) (transactional : SeedsTransactional engine)
    (version : AtVersion state current) (older : current < latestVersion files)
    (accepted : Accepted engine state (migrator.pending files current))
    (seeds : Accepted engine (migrated files (migrator.pending files current) state)
      migrator.demoSeeds) :
    Phase engine migrator.upgrade state
      (migrator.seeded (migrated files (migrator.pending files current) state))
      (1 + ((migrator.pending files current).length + 2 + 2 + migrator.seedSteps))
      (leftIn 1 (fun _ => state)
        (leftIn ((migrator.pending files current).length + 2 + 2)
          (leftIn ((migrator.pending files current).length + 2)
            (fun count => durable engine (migrator.pending files current) state (count - 1))
            fun _ => (migrator.pending files current).foldl SchemaState.ran state)
          fun _ => migrated files (migrator.pending files current) state)) := by
  apply has.upgrade version (le_of_lt older)
  rw [if_pos older]
  exact (has.applies version.supported accepted).andThen _ (phase_seedDemo transactional seeds)

theorem Has.preMigrate (has : migrator.Has files) (version : AtVersion state current) :
    Phase engine migrator.preMigrate state state 2 fun _ => state := by
  have phase : Phase engine migrator.preMigrate state state (1 + 1)
      (leftIn 1 (fun _ => state) fun _ => state) := by
    have known : isInitialized.run engine.perform ⟨state, none⟩ = (true, ⟨state, none⟩) := by
      rw [← version.initialized]
      rfl
    exact Phase.read known rfl (has.check version)
  refine ⟨phase.run, phase.steps, fun count inside => ?_⟩
  rw [phase.stopped count inside, leftIn]
  split
  · rfl
  · rfl

/-- The first part of `preMigrate` gives a fresh database the latest schema
and its version. -/
theorem Has.applyLatestSchema (has : migrator.Has files) (accepted : Accepted engine {} [.latest]) :
    Phase engine migrator.applyLatestSchema {} (migrated files [.latest] {}) (3 + 2)
      (leftIn 3 (fun count => durable engine [.latest] {} (count - 1))
        fun _ => SchemaState.ran {} .latest) := by
  have same : migrator.applyLatestSchema = (do
      startTransaction
      andThen (executeScripts (fun _ => "failed to execute SQL file") [.latest]) ""
        (do
          commit
          updateCurrentSchemaVersion (latestVersion files).text)) := by
    unfold Migrator.applyLatestSchema
    rw [has.currentSchemaVersion]
    apply congrArg (startTransaction >>= ·)
    funext _
    rw [andThen, executeScripts, Program.bind_assoc]
    apply congrArg (execute .latest >>= ·)
    funext accepted
    cases accepted
    · rfl
    · rfl
  rw [same]
  exact Phase.transaction accepted (Phase.update _ _)

theorem Has.freshInstall (has : migrator.Has files) (supported : minimumVersion ≤ latestVersion files)
    (accepted : Accepted engine {} [.latest]) :
    Phase engine migrator.preMigrate {} (migrated files [.latest] {}) (1 + (3 + 2 + 1))
      (leftIn 1 (fun _ => {}) (leftIn (3 + 2)
        (leftIn 3 (fun count => durable engine [.latest] {} (count - 1))
          fun _ => SchemaState.ran {} .latest)
        fun _ => migrated files [.latest] {})) := by
  have unknown : isInitialized.run engine.perform ⟨{}, none⟩ = (false, ⟨{}, none⟩) := rfl
  have version : AtVersion (migrated files [.latest] {}) (latestVersion files) :=
    ⟨rfl, rfl, supported⟩
  exact Phase.read unknown rfl ((has.applyLatestSchema accepted).andThen "" (has.check version))

end Migrator

/-! ## Starting again -/

/-- The next start succeeds; then these scripts have run and the latest
version is recorded. -/
def Recovers (engine : ScriptEngine) (migrator : Migrator) (files : List MigrationFile)
    (executed : List Script) (state : SchemaState) : Prop :=
  Exists fun final => migrator.migrate.run engine.perform ⟨state, none⟩ = (.ok (), ⟨final, none⟩) ∧
    final.executed = executed ∧ final.schemaVersion = (latestVersion files).text

theorem recovers_of_phase {state after : SchemaState} {length : Nat} {left : Nat -> SchemaState}
    {executed : List Script} (phase : Phase engine migrator.migrate state after length left)
    (complete : after.executed = executed) (recorded : after.schemaVersion = (latestVersion files).text) :
    Recovers engine migrator files executed state :=
  ⟨after, phase.run, complete, recorded⟩

/-- A database that is refused is refused by every later start. -/
theorem not_recovers_of_refused (refused : Refused migrator state) (executed : List Script) :
    ¬ Recovers engine migrator files executed state := by
  rintro ⟨final, success, _⟩
  have known : isInitialized.run engine.perform ⟨state, none⟩ = (true, ⟨state, none⟩) := by
    rw [← refused.initialized]
    rfl
  have passed := ok_of_andThen (congrArg Prod.fst success)
  unfold Migrator.preMigrate at passed
  rw [Program.run_bind, known] at passed
  change (migrator.checkMinimumUpgradeVersion.run engine.perform ⟨state, none⟩).1 = _ at passed
  rw [Migrator.check_refused refused] at passed
  cases passed

namespace Migrator

variable {state : SchemaState}

theorem Has.migrate_upToDate (has : migrator.Has files) (transactional : SeedsTransactional engine)
    (version : AtVersion state (latestVersion files)) (seeds : Accepted engine state migrator.demoSeeds) :
    Phase engine migrator.migrate state (migrator.seeded state) (2 + (1 + migrator.seedSteps))
      (leftIn 2 (fun _ => state) (leftIn 1 (fun _ => state) fun _ => state)) :=
  (has.preMigrate version).andThen _ (has.upToDate transactional version seeds)

theorem Has.migrate_fresh (has : migrator.Has files) (transactional : SeedsTransactional engine)
    (supported : minimumVersion ≤ latestVersion files) (accepted : Accepted engine {} [.latest])
    (seeds : Accepted engine (migrated files [.latest] {}) migrator.demoSeeds) :
    Phase engine migrator.migrate {} (migrator.seeded (migrated files [.latest] {}))
      (1 + (3 + 2 + 1) + (1 + migrator.seedSteps))
      (leftIn (1 + (3 + 2 + 1))
        (leftIn 1 (fun _ => {}) (leftIn (3 + 2)
          (leftIn 3 (fun count => durable engine [.latest] {} (count - 1))
            fun _ => SchemaState.ran {} .latest)
          fun _ => migrated files [.latest] {}))
        (leftIn 1 (fun _ => migrated files [.latest] {}) fun _ => migrated files [.latest] {})) :=
  (has.freshInstall supported accepted).andThen _
    (has.upToDate transactional ⟨rfl, rfl, supported⟩ seeds)

theorem Has.migrate_outdated (has : migrator.Has files) (transactional : SeedsTransactional engine)
    {current : SchemaVersion} (version : AtVersion state current) (older : current < latestVersion files)
    (accepted : Accepted engine state (migrator.pending files current))
    (seeds : Accepted engine (migrated files (migrator.pending files current) state)
      migrator.demoSeeds) :
    Phase engine migrator.migrate state
      (migrator.seeded (migrated files (migrator.pending files current) state))
      (2 + (1 + ((migrator.pending files current).length + 2 + 2 + migrator.seedSteps)))
      (leftIn 2 (fun _ => state) (leftIn 1 (fun _ => state)
        (leftIn ((migrator.pending files current).length + 2 + 2)
          (leftIn ((migrator.pending files current).length + 2)
            (fun count => durable engine (migrator.pending files current) state (count - 1))
            fun _ => (migrator.pending files current).foldl SchemaState.ran state)
          fun _ => migrated files (migrator.pending files current) state))) :=
  (has.preMigrate version).andThen _ (has.outdated transactional version older accepted seeds)

/-- At the latest version only the seeds can fail. -/
theorem Has.recovers_upToDate_iff (has : migrator.Has files) (transactional : SeedsTransactional engine)
    (version : AtVersion state (latestVersion files)) :
    Recovers engine migrator files state.executed state ↔
      Accepted engine state migrator.demoSeeds := by
  constructor
  · rintro ⟨final, success, _⟩
    unfold Migrator.migrate at success
    rw [run_andThen (has.preMigrate version).run] at success
    rw [has.run_upgrade version (le_refl _), if_neg (lt_irrefl _)] at success
    exact accepted_of_seedDemo success
  · intro seeds
    apply recovers_of_phase (has.migrate_upToDate transactional version seeds)
    · rw [Migrator.seeded_eq]
    · rw [Migrator.seeded_eq]
      exact version.recorded

/-- What a start of an older version executes if it succeeds. -/
theorem Has.executed_of_recovers (has : migrator.Has files) (transactional : SeedsTransactional engine)
    {current : SchemaVersion} (version : AtVersion state current) (older : current < latestVersion files)
    {executed : List Script} (recovers : Recovers engine migrator files executed state) :
    executed = state.executed ++ migrator.pending files current := by
  rcases recovers with ⟨final, success, rfl, _⟩
  unfold Migrator.migrate at success
  rw [run_andThen (has.preMigrate version).run, has.run_upgrade version (le_of_lt older),
    if_pos older] at success
  have applied := ok_of_andThen (congrArg Prod.fst success)
  have accepted : Accepted engine state (migrator.pending files current) := by
    unfold Migrator.applyMigrations at applied
    rw [has.applySorted (holdsVersion_text version.supported), Program.run_bind] at applied
    exact accepted_of_run (ok_of_andThen applied)
  rw [run_andThen (has.applies version.supported accepted).run] at success
  have seeds := accepted_of_seedDemo success
  rw [(phase_seedDemo transactional seeds).run] at success
  have same : migrator.seeded (migrated files (migrator.pending files current) state) = final :=
    congrArg (fun outcome => outcome.2.committed) success
  rw [← same, Migrator.seeded_eq, migrated, Migrator.pending, foldl_ran_migrations]
  rfl

end Migrator

/-! ## Every stop -/

instance (scripts : List Script) (performed : Nat) :
    Decidable (Persisted engine scripts performed) :=
  inferInstanceAs (Decidable (_ ∨ _))

theorem not_persisted_zero (scripts : List Script) : ¬ Persisted engine scripts 0 := by
  rintro (past | ended)
  · cases past
  · cases ended

/-- What the transaction has left, up to the record of the version. -/
def kept (engine : ScriptEngine) (scripts : List Script) (state : SchemaState) (performed : Nat) :
    SchemaState :=
  if Persisted engine scripts performed then (scripts.take performed).foldl SchemaState.ran state
  else state

theorem durable_eq_kept {scripts : List Script} (inside : performed ≤ scripts.length) :
    durable engine scripts state performed = kept engine scripts state performed := by
  unfold durable kept
  by_cases ended : (scripts.take performed).any engine.endsTransaction = true
  · have persisted : Persisted engine scripts performed := .inr ended
    rw [if_pos ended, if_pos persisted]
  · have unpersisted : ¬ Persisted engine scripts performed := by
      rintro (past | ending)
      · exact absurd inside (Nat.not_le.mpr past)
      · exact ended ending
    rw [if_neg ended, if_neg unpersisted]

theorem foldl_eq_kept {scripts : List Script} (past : scripts.length < performed) :
    scripts.foldl SchemaState.ran state = kept engine scripts state performed := by
  have persisted : Persisted engine scripts performed := .inl past
  rw [kept, if_pos persisted, List.take_of_length_le (Nat.le_of_lt past)]

/-- The statements of a transaction from its first script on, the record of
the version included. -/
theorem leftIn_transaction (scripts : List Script) (state : SchemaState) {count : Nat}
    (inside : count < scripts.length + 2 + 2) :
    leftIn (scripts.length + 2) (fun count => durable engine scripts state (count - 1))
      (fun _ => scripts.foldl SchemaState.ran state) count =
        kept engine scripts state (count - 1) := by
  unfold leftIn
  split
  · exact durable_eq_kept (by omega)
  · exact foldl_eq_kept (by omega)

/-- A fresh database, or one of a version that can be upgraded. -/
inductive StartsAt (files : List MigrationFile) : Option SchemaVersion -> SchemaState -> Prop where
  | fresh : StartsAt files none {}
  | supported {current : SchemaVersion} {state : SchemaState} (version : AtVersion state current)
      (known : current ≤ latestVersion files) : StartsAt files (some current) state

/-- The scripts that the first start has to run. -/
def Migrator.scripts (migrator : Migrator) (files : List MigrationFile) :
    Option SchemaVersion -> List Script
  | none => [.latest]
  | some current => migrator.pending files current

/-- The statements before the first script. -/
def leadingSteps : Option SchemaVersion -> Nat
  | none => 2
  | some _ => 4

/-- The scripts are durable and their version is not, after this many of the
operations from the first script on. -/
def Unrecorded (engine : ScriptEngine) (scripts : List Script) (performed : Nat) : Prop :=
  Persisted engine scripts performed ∧ performed < scripts.length + 3

theorem pending_eq_nil (migrator : Migrator) (files : List MigrationFile) :
    migrator.pending files (latestVersion files) = [] := by
  have none : selectedFiles migrator.driver files (latestVersion files) = [] := by
    apply List.filter_eq_nil_iff.mpr
    intro file _ selected
    have between := of_decide_eq_true selected
    exact absurd between.1 (not_lt_of_ge between.2)
  rw [Migrator.pending, none]
  rfl

theorem pending_ne_nil (migrator : Migrator) {files : List MigrationFile} {current : SchemaVersion}
    (older : current < latestVersion files) : migrator.pending files current ≠ [] := by
  rcases exists_latest older with ⟨newest, member, same⟩
  have selected : newest ∈ selectedFiles migrator.driver files current :=
    mem_selectedFiles.mpr ⟨member, same ▸ older, le_of_eq same⟩
  intro none
  have listed : Script.migration (newest.path migrator.driver) ∈ migrator.pending files current :=
    List.mem_map_of_mem selected
  rw [none] at listed
  cases listed

/-- What a stop leaves of a start that has scripts to run, when its statements
up to the record of the version are followed by others that write nothing
before the end. -/
structure Leaves (engine : ScriptEngine) (migrator : Migrator) (files : List MigrationFile)
    (scripts : List Script) (leading total : Nat) (start : SchemaState) : Prop where
  early : ∀ count, count < leading + (scripts.length + 3) ->
    (migrator.migrate.stop engine.perform count ⟨start, none⟩).committed =
      kept engine scripts start (count - leading)
  recorded : ∀ count, leading + (scripts.length + 3) ≤ count -> count < total ->
    (migrator.migrate.stop engine.perform count ⟨start, none⟩).committed =
      migrated files scripts start
  final : ∀ count, total ≤ count ->
    (migrator.migrate.stop engine.perform count ⟨start, none⟩).committed =
      migrator.seeded (migrated files scripts start)

namespace Migrator

theorem Has.leaves_fresh (has : migrator.Has files) (transactional : SeedsTransactional engine)
    (supported : minimumVersion ≤ latestVersion files) (accepted : Accepted engine {} [.latest])
    (seeds : Accepted engine (migrated files [.latest] {}) migrator.demoSeeds) :
    Leaves engine migrator files [.latest] 2 (8 + migrator.seedSteps) {} := by
  have phase := has.migrate_fresh transactional supported accepted seeds
  constructor
  · intro count early
    have early : count < 6 := early
    rw [phase.committed_stop, if_pos (by omega), leftIn, if_pos (by omega), leftIn]
    by_cases unread : count < 1
    · have none : count = 0 := by omega
      rw [if_pos unread, none]
      rfl
    · rw [if_neg unread, leftIn, if_pos (by omega)]
      exact leftIn_transaction [.latest] {} (by change count - 1 < 5; omega)
  · intro count late before
    have late : 6 ≤ count := late
    rw [phase.committed_stop, if_pos (by omega), leftIn]
    by_cases unchecked : count < 1 + (3 + 2 + 1)
    · rw [if_pos unchecked, leftIn, if_neg (by omega), leftIn, if_neg (by omega)]
    · rw [if_neg unchecked, leftIn]
      split
      · rfl
      · rfl
  · intro count past
    rw [phase.committed_stop, if_neg (by omega)]

theorem Has.leaves_outdated (has : migrator.Has files)
    (transactional : SeedsTransactional engine) {state : SchemaState} {current : SchemaVersion}
    (version : AtVersion state current) (older : current < latestVersion files)
    (accepted : Accepted engine state (migrator.pending files current))
    (seeds : Accepted engine (migrated files (migrator.pending files current) state)
      migrator.demoSeeds) :
    Leaves engine migrator files (migrator.pending files current) 4
      ((migrator.pending files current).length + 7 + migrator.seedSteps) state := by
  have phase := has.migrate_outdated transactional version older accepted seeds
  constructor
  · intro count early
    rw [phase.committed_stop, if_pos (by omega), leftIn]
    have unstarted (few : count < 4) :
        kept engine (migrator.pending files current) state (count - 4) = state := by
      rw [Nat.sub_eq_zero_of_le (Nat.le_of_lt few), ← durable_eq_kept (Nat.zero_le _)]
      rfl
    by_cases unread : count < 2
    · rw [if_pos unread, unstarted (by omega)]
    · rw [if_neg unread, leftIn]
      by_cases reading : count - 2 < 1
      · rw [if_pos reading, unstarted (by omega)]
      · rw [if_neg reading, leftIn, if_pos (by omega), leftIn_transaction _ _ (by omega)]
        have place : count - 2 - 1 - 1 = count - 4 := by omega
        rw [place]
  · intro count late before
    rw [phase.committed_stop, if_pos (by omega), leftIn, if_neg (by omega), leftIn,
      if_neg (by omega), leftIn, if_neg (by omega)]
  · intro count past
    rw [phase.committed_stop, if_neg (by omega)]

end Migrator

/-- Recovery from a stop, when a start with scripts to run leaves this. -/
theorem Leaves.recovers_iff {scripts : List Script} {leading total : Nat} {start : SchemaState}
    (leaves : Leaves engine migrator files scripts leading total start)
    (has : migrator.Has files) (transactional : Migrator.SeedsTransactional engine)
    (latest : AtVersion (migrated files scripts start) (latestVersion files))
    (complete : (migrated files scripts start).executed = start.executed ++ scripts)
    (seeds : Accepted engine (migrated files scripts start) migrator.demoSeeds)
    (unstopped : Recovers engine migrator files (start.executed ++ scripts) start)
    (lost : ∀ performed, Persisted engine scripts performed ->
      ¬ Recovers engine migrator files (start.executed ++ scripts)
        ((scripts.take performed).foldl SchemaState.ran start))
    (enough : leading + (scripts.length + 3) ≤ total) (count : Nat) :
    Recovers engine migrator files (start.executed ++ scripts)
        (migrator.migrate.stop engine.perform count ⟨start, none⟩).committed ↔
      ¬ Unrecorded engine scripts (count - leading) ∧
        (total ≤ count ->
          Accepted engine (migrator.seeded (migrated files scripts start)) migrator.demoSeeds) := by
  rcases Nat.lt_or_ge count (leading + (scripts.length + 3)) with early | late
  · rw [leaves.early count early, kept]
    by_cases persisted : Persisted engine scripts (count - leading)
    · rw [if_pos persisted]
      constructor
      · exact fun recovers => absurd recovers (lost _ persisted)
      · rintro ⟨safe, _⟩
        refine absurd ⟨persisted, ?_⟩ safe
        rcases Nat.lt_or_ge count leading with before | within
        · omega
        · omega
    · rw [if_neg persisted]
      constructor
      · exact fun _ => ⟨fun unrecorded => persisted unrecorded.1, fun past => by omega⟩
      · exact fun _ => unstopped
  · have safe : ¬ Unrecorded engine scripts (count - leading) := by
      rintro ⟨_, few⟩
      omega
    rcases Nat.lt_or_ge count total with before | past
    · rw [leaves.recorded count late before, ← complete,
        has.recovers_upToDate_iff transactional latest]
      constructor
      · exact fun _ => ⟨safe, fun past => absurd before (Nat.not_lt.mpr past)⟩
      · exact fun _ => seeds
    · rw [leaves.final count past]
      have seededVersion : AtVersion (migrator.seeded (migrated files scripts start))
          (latestVersion files) := by
        rw [Migrator.seeded_eq]
        exact ⟨latest.initialized, latest.recorded, latest.supported⟩
      have seededComplete : (migrator.seeded (migrated files scripts start)).executed =
          start.executed ++ scripts := by
        rw [Migrator.seeded_eq]
        exact complete
      rw [← seededComplete, has.recovers_upToDate_iff transactional seededVersion]
      constructor
      · exact fun again => ⟨safe, fun _ => again⟩
      · exact fun holds => holds.2 past

/-! ## Files below the first version that can be upgraded -/

theorem refused_migrated (has : migrator.Has files) (low : ¬ minimumVersion ≤ latestVersion files) :
    Refused migrator (migrated files [.latest] {}) := by
  refine ⟨rfl, ?_⟩
  have recorded : (migrated files [.latest] {}).schemaVersion = (latestVersion files).text := rfl
  rw [recorded, show "0.22.0" = minimumVersion.text from rfl,
    isVersionGreaterOrEqualThan_text has.compares, decide_eq_false low, Bool.and_false]

/-- A database with the latest schema and without a version is refused. -/
theorem refused_unrecorded (migrator : Migrator) :
    Refused migrator (SchemaState.ran {} .latest) := ⟨rfl, rfl⟩

theorem stop_check (state : SchemaState) (count : Nat) :
    migrator.checkMinimumUpgradeVersion.stop engine.perform count ⟨state, none⟩ =
      ⟨state, none⟩ := by
  unfold Migrator.checkMinimumUpgradeVersion
  rw [Program.stop_bind]
  split
  · rename_i before
    rw [Nat.lt_one_iff.mp before]
    rfl
  · dsimp only
    split
    · rfl
    · split
      · rw [Program.stop_bind]
        split
        · rename_i before
          rw [Nat.lt_one_iff.mp before]
          rfl
        · split
          · rfl
          · rfl
      · rfl

theorem stop_andThen_error {program next : MigrateProgram} {context cause : String}
    (failure : (program.run engine.perform connection).1 = .error cause) (count : Nat) :
    (andThen program context next).stop engine.perform count connection =
      program.stop engine.perform count connection := by
  rw [andThen, Program.stop_bind]
  split
  · rfl
  · rename_i past
    rw [Program.stop_of_steps_le program (Nat.not_lt.mp past), failure]
    rfl

/-- Before the record of its version a fresh database is still fresh or
refused. -/
theorem kept_latest (performed : Nat) : kept engine [.latest] {} performed = {} ∨
    kept engine [.latest] {} performed = SchemaState.ran {} .latest := by
  unfold kept
  split
  · rename_i persisted
    cases performed with
    | zero => exact absurd persisted (not_persisted_zero _)
    | succ performed =>
        rw [List.take_of_length_le (Nat.succ_le_succ (Nat.zero_le _))]
        exact .inr rfl
  · exact .inl rfl

/-- Every stop of a fresh installation then leaves a database that is refused
or still fresh. -/
theorem left_low (has : migrator.Has files) (low : ¬ minimumVersion ≤ latestVersion files)
    (accepted : Accepted engine {} [.latest]) (count : Nat) :
    (migrator.migrate.stop engine.perform count ⟨{}, none⟩).committed = {} ∨
      Refused migrator (migrator.migrate.stop engine.perform count ⟨{}, none⟩).committed := by
  have unknown : isInitialized.run engine.perform ⟨{}, none⟩ = (false, ⟨{}, none⟩) := rfl
  have phase : Phase engine migrator.applyLatestSchema {} _ _ _ := has.applyLatestSchema accepted
  have failure : (migrator.preMigrate.run engine.perform ⟨{}, none⟩).1 =
      migrator.rejected (latestVersion files).text := by
    unfold Migrator.preMigrate
    rw [Program.run_bind, unknown]
    change ((andThen migrator.applyLatestSchema "" _).run engine.perform ⟨{}, none⟩).1 = _
    rw [run_andThen phase.run, Migrator.check_refused (refused_migrated has low)]
    rfl
  unfold Migrator.migrate
  rw [stop_andThen_error failure]
  unfold Migrator.preMigrate
  rw [Program.stop_bind, unknown]
  split
  · rename_i before
    rw [Nat.lt_one_iff.mp before]
    exact .inl rfl
  · change (Program.stop engine.perform (andThen migrator.applyLatestSchema "" _) _ _).committed =
        {} ∨ Refused migrator
      (Program.stop engine.perform (andThen migrator.applyLatestSchema "" _) _ _).committed
    rw [stop_andThen phase.run, phase.steps]
    split
    · rename_i inside
      have left : leftIn _ _ _ _ = kept engine [.latest] {} _ :=
        leftIn_transaction [.latest] {} inside
      rw [phase.stopped _ inside]
      rcases kept_latest (count - isInitialized.steps engine.perform ⟨{}, none⟩ - 1) with
        fresh | unrecorded
      · exact .inl (left.trans fresh)
      · exact .inr (Eq.mpr (congrArg (Refused migrator) (left.trans unrecorded))
          (refused_unrecorded migrator))
    · rw [stop_check]
      exact .inr (refused_migrated has low)

theorem not_recovers_low (has : migrator.Has files) (low : ¬ minimumVersion ≤ latestVersion files)
    (accepted : Accepted engine {} [.latest]) (executed : List Script) :
    ¬ Recovers engine migrator files executed {} := by
  rintro ⟨final, success, _⟩
  have unknown : isInitialized.run engine.perform ⟨{}, none⟩ = (false, ⟨{}, none⟩) := rfl
  have passed := ok_of_andThen (congrArg Prod.fst success)
  unfold Migrator.preMigrate at passed
  rw [Program.run_bind, unknown] at passed
  change ((andThen migrator.applyLatestSchema "" _).run engine.perform ⟨{}, none⟩).1 = _ at passed
  rw [run_andThen (has.applyLatestSchema accepted).run,
    Migrator.check_refused (refused_migrated has low)] at passed
  cases passed

/-! ## When a stop does no harm -/

/-- Scripts that are durable without their version run again. -/
theorem not_recovers_again (has : migrator.Has files) (transactional : Migrator.SeedsTransactional engine)
    {start : SchemaState} {current : SchemaVersion} (version : AtVersion start current)
    (older : current < latestVersion files) (scripts : migrator.pending files current ≠ [])
    (persisted : Persisted engine (migrator.pending files current) performed) :
    ¬ Recovers engine migrator files (start.executed ++ migrator.pending files current)
      (((migrator.pending files current).take performed).foldl SchemaState.ran start) := by
  intro recovers
  have positive : performed ≠ 0 := fun zero => not_persisted_zero _ (zero ▸ persisted)
  have part : (migrator.pending files current).take performed =
      migrationScripts migrator.driver
        ((selectedFiles migrator.driver files current).take performed) := by
    rw [Migrator.pending, migrationScripts, migrationScripts, List.map_take]
  rw [part, foldl_ran_migrations, ← part] at recovers
  have still : AtVersion { start with executed := start.executed ++
      (migrator.pending files current).take performed } current :=
    ⟨version.initialized, version.recorded, version.supported⟩
  have twice := has.executed_of_recovers transactional still older recovers
  have longer := congrArg List.length twice
  simp only [List.length_append, List.length_take] at longer
  have nonempty := List.length_pos_iff.mpr scripts
  omega

/-- The number of statements of a start that is not stopped. -/
def Migrator.totalSteps (migrator : Migrator) (files : List MigrationFile) :
    Option SchemaVersion -> Nat
  | none => 8 + migrator.seedSteps
  | some current =>
      if current < latestVersion files then
        (migrator.pending files current).length + 7 + migrator.seedSteps
      else 3 + migrator.seedSteps

/-- The state before the seeding. -/
def Migrator.upgraded (migrator : Migrator) (files : List MigrationFile)
    (version : Option SchemaVersion) (start : SchemaState) : SchemaState :=
  if migrator.scripts files version = [] then start
  else migrated files (migrator.scripts files version) start

/-- The next start after a stop succeeds, with every script run once and the
latest version recorded, exactly when the stop does not fall between the
scripts and the record of their version.  Apart from stops, the files must
reach the first version that can be upgraded, and a start after the seeds of
demo mode needs seeds that can run again. -/
theorem migrate_recovers_iff (has : migrator.Has files)
    (transactional : Migrator.SeedsTransactional engine) {version : Option SchemaVersion}
    {start : SchemaState} (starts : StartsAt files version start)
    (accepted : Accepted engine start (migrator.scripts files version))
    (seeds : Accepted engine (migrator.upgraded files version start) migrator.demoSeeds) (count : Nat) :
    Recovers engine migrator files (start.executed ++ migrator.scripts files version)
        (migrator.migrate.stop engine.perform count ⟨start, none⟩).committed ↔
      ¬ (migrator.scripts files version ≠ [] ∧
          Unrecorded engine (migrator.scripts files version) (count - leadingSteps version)) ∧
        minimumVersion ≤ latestVersion files ∧
        (migrator.totalSteps files version ≤ count ->
          Accepted engine (migrator.seeded (migrator.upgraded files version start))
            migrator.demoSeeds) := by
  cases starts with
  | fresh =>
      change Accepted engine (migrated files [.latest] {}) _ at seeds
      change Recovers engine migrator files [.latest] _ ↔
        ¬ ([Script.latest] ≠ [] ∧ Unrecorded engine [.latest] (count - 2)) ∧ _ ∧
          (8 + migrator.seedSteps ≤ count ->
            Accepted engine (migrator.seeded (migrated files [.latest] {})) _)
      by_cases supported : minimumVersion ≤ latestVersion files
      · have leaves := has.leaves_fresh transactional supported accepted seeds
        have unstopped : Recovers engine migrator files [.latest] {} :=
          recovers_of_phase (has.migrate_fresh transactional supported accepted seeds)
            (by rw [Migrator.seeded_eq]; rfl) (by rw [Migrator.seeded_eq]; rfl)
        have lost : ∀ performed, Persisted engine [.latest] performed ->
            ¬ Recovers engine migrator files [.latest]
              (([Script.latest].take performed).foldl SchemaState.ran {}) := by
          intro performed persisted
          cases performed with
          | zero => exact absurd persisted (not_persisted_zero _)
          | succ performed =>
              rw [List.take_of_length_le (Nat.succ_le_succ (Nat.zero_le _))]
              exact not_recovers_of_refused (refused_unrecorded migrator) _
        have recovery := leaves.recovers_iff has transactional ⟨rfl, rfl, supported⟩ rfl seeds
          unstopped lost (by change 6 ≤ 8 + migrator.seedSteps; omega) count
        have scripts : [Script.latest] ≠ [] := by decide
        simp only [supported, scripts, true_and, ne_eq, not_false_eq_true]
        exact recovery
      · simp only [supported, false_and, and_false, iff_false]
        rcases left_low has supported accepted count with fresh | refused
        · rw [fresh]
          exact not_recovers_low has supported accepted _
        · exact not_recovers_of_refused refused _
  | supported atVersion known =>
      rename_i current
      have supported := le_trans atVersion.supported known
      rcases lt_or_eq_of_le known with older | same
      · have scripts := pending_ne_nil migrator older
        change Accepted engine (if migrator.pending files current = [] then start
          else migrated files (migrator.pending files current) start) _ at seeds
        change Recovers engine migrator files (start.executed ++ migrator.pending files current) _ ↔
          ¬ (migrator.pending files current ≠ [] ∧
            Unrecorded engine (migrator.pending files current) (count - 4)) ∧ _ ∧
          ((if current < latestVersion files then
            (migrator.pending files current).length + 7 + migrator.seedSteps
            else 3 + migrator.seedSteps) ≤ count ->
          Accepted engine (migrator.seeded (if migrator.pending files current = [] then start
          else migrated files (migrator.pending files current) start)) _)
        rw [if_neg scripts] at seeds
        rw [if_neg scripts, if_pos older]
        have leaves := has.leaves_outdated transactional atVersion older accepted seeds
        have executed : (migrated files (migrator.pending files current) start).executed =
            start.executed ++ migrator.pending files current := by
          rw [migrated, Migrator.pending, foldl_ran_migrations]
          rfl
        have unstopped : Recovers engine migrator files
            (start.executed ++ migrator.pending files current) start :=
          recovers_of_phase (has.migrate_outdated transactional atVersion older accepted seeds)
            (by rw [Migrator.seeded_eq]; exact executed) (by rw [Migrator.seeded_eq]; rfl)
        have latest : AtVersion (migrated files (migrator.pending files current) start)
            (latestVersion files) := by
          refine ⟨?_, rfl, supported⟩
          rw [migrated, Migrator.pending, foldl_ran_migrations]
          exact atVersion.initialized
        have recovery := leaves.recovers_iff has transactional latest executed seeds unstopped
          (fun performed persisted => not_recovers_again has transactional atVersion older scripts
            persisted) (by omega) count
        simp only [supported, scripts, true_and, ne_eq, not_false_eq_true]
        exact recovery
      · subst same
        have none := pending_eq_nil migrator files
        change Accepted engine (if migrator.pending files (latestVersion files) = [] then start
          else _) _ at seeds
        change Recovers engine migrator files
            (start.executed ++ migrator.pending files (latestVersion files)) _ ↔
          ¬ (migrator.pending files (latestVersion files) ≠ [] ∧ _) ∧ _ ∧
          ((if latestVersion files < latestVersion files then _
            else 3 + migrator.seedSteps) ≤ count ->
          Accepted engine (migrator.seeded (if migrator.pending files (latestVersion files) = []
            then start else _)) _)
        rw [if_pos none] at seeds
        rw [if_pos none, if_neg (lt_irrefl _), none, List.append_nil]
        have phase := has.migrate_upToDate transactional atVersion seeds
        have left : (migrator.migrate.stop engine.perform count ⟨start, .none⟩).committed =
            if count < 3 + migrator.seedSteps then start else migrator.seeded start := by
          rw [phase.committed_stop]
          by_cases inside : count < 3 + migrator.seedSteps
          · rw [if_pos (by omega), if_pos inside, leftIn, leftIn]
            split
            · rfl
            · split
              · rfl
              · rfl
          · rw [if_neg (by omega), if_neg inside]
        simp only [supported, ne_eq, not_true_eq_false, false_and, not_false_eq_true, true_and]
        rw [left]
        split
        · rename_i inside
          rw [has.recovers_upToDate_iff transactional atVersion]
          exact ⟨fun _ past => absurd inside (Nat.not_lt.mpr past), fun _ => seeds⟩
        · rename_i past
          have again : AtVersion (migrator.seeded start) (latestVersion files) := by
            rw [Migrator.seeded_eq]
            exact ⟨atVersion.initialized, atVersion.recorded, atVersion.supported⟩
          have complete : (migrator.seeded start).executed = start.executed := by
            rw [Migrator.seeded_eq]
          rw [← complete, has.recovers_upToDate_iff transactional again]
          exact ⟨fun accepted _ => accepted, fun holds => holds (Nat.not_lt.mp past)⟩

theorem transactional_lenientEngine : Migrator.SeedsTransactional lenientEngine := fun _ => rfl

/-- A fresh installation that is stopped before its first script recovers. -/
theorem migrate_recovers_iff_fresh :
    Recovers lenientEngine (sqliteMigrator recentFiles) recentFiles [.latest]
      ((sqliteMigrator recentFiles).migrate.stop lenientEngine.perform 2 ⟨{}, none⟩).committed :=
  (migrate_recovers_iff (has_sqliteMigrator recentFiles) transactional_lenientEngine .fresh
    (accepted_lenientEngine _ _) (accepted_lenientEngine _ _) 2).mpr
      ⟨fun stopped => not_persisted_zero _ stopped.2.1, by decide,
        fun _ => accepted_lenientEngine _ _⟩

/-- A fresh installation that is stopped right after the latest schema has
been committed is refused from then on. -/
theorem fresh_install_lost :
    ¬ ∀ (engine : ScriptEngine) (migrator : Migrator) (files : List MigrationFile)
      (version : Option SchemaVersion) (start : SchemaState), migrator.Has files ->
      Migrator.SeedsTransactional engine -> StartsAt files version start ->
      Accepted engine start (migrator.scripts files version) ->
      Accepted engine (migrator.upgraded files version start) migrator.demoSeeds ->
      ∀ count, Recovers engine migrator files
        (start.executed ++ migrator.scripts files version)
        (migrator.migrate.stop engine.perform count ⟨start, none⟩).committed := by
  intro claimed
  have has := has_sqliteMigrator recentFiles
  have recovers := claimed lenientEngine (sqliteMigrator recentFiles) recentFiles none {} has
    transactional_lenientEngine .fresh (accepted_lenientEngine _ _) (accepted_lenientEngine _ _) 4
  have leaves := has.leaves_fresh transactional_lenientEngine (by decide)
    (accepted_lenientEngine _ _) (accepted_lenientEngine _ _)
  have left : ((sqliteMigrator recentFiles).migrate.stop lenientEngine.perform 4
      ⟨{}, none⟩).committed = SchemaState.ran {} .latest := leaves.early 4 (by decide)
  rw [left] at recovers
  exact not_recovers_of_refused (refused_unrecorded _) _ recovers

end Store
end Memos
