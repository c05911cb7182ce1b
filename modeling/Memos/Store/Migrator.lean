import Memos.Library.Stopping
import Memos.Store.MigrationFiles
import Memos.Store.Settings

namespace Memos
namespace Store

open Library

/-!
# Migrating the schema

`Migrate` as the sequence of its database steps.  A fresh database gets the
latest schema, an older one the scripts between its version and the latest
one.  In both cases the scripts run in a transaction, and the version is
written after the transaction has been committed.
-/

/-! ## The database as the migrator sees it -/

inductive Script where
  | latest
  | migration (filePath : String)
  | seed (filePath : String)
deriving DecidableEq

/-- Whether the memo table exists, the scripts that this migrator has run, and
the setting that holds the schema version. -/
structure SchemaState where
  initialized : Bool := false
  executed : List Script := []
  seeded : List Script := []
  basicSetting : Option InstanceBasicSetting := none
deriving DecidableEq

def SchemaState.ran (state : SchemaState) : Script -> SchemaState
  | .latest => { state with initialized := true, executed := state.executed ++ [.latest] }
  | .migration filePath => { state with executed := state.executed ++ [.migration filePath] }
  | .seed filePath => { state with seeded := state.seeded ++ [.seed filePath] }

/-- What the database does with scripts.  MySQL ends the transaction when a
script defines a table, the other databases do not. -/
structure ScriptEngine where
  accepts : SchemaState -> Script -> Bool
  endsTransaction : Script -> Bool

/-- What is durable, and what an open transaction has made of it. -/
structure Connection where
  committed : SchemaState
  working : Option SchemaState := none
deriving DecidableEq

/-- What a statement reads. -/
def Connection.view (connection : Connection) : SchemaState :=
  connection.working.getD connection.committed

/-- Run a script, durably if no transaction is open any more. -/
def Connection.execute (engine : ScriptEngine) (connection : Connection) (script : Script) :
    Connection :=
  match connection.working with
  | none => ⟨connection.committed.ran script, none⟩
  | some state =>
      if engine.endsTransaction script then ⟨state.ran script, none⟩
      else ⟨connection.committed, some (state.ran script)⟩

inductive SchemaStatement where
  | isInitialized
  | getInstanceBasicSetting
  | upsertInstanceBasicSetting (setting : InstanceBasicSetting)
  | start
  | execute (script : Script)
  | commit
  | rollback

def SchemaReply : SchemaStatement -> Type
  | .isInitialized => Bool
  | .getInstanceBasicSetting => InstanceBasicSetting
  | .execute _ => Bool
  | _ => Unit

def ScriptEngine.perform (engine : ScriptEngine) (connection : Connection) :
    (statement : SchemaStatement) -> SchemaReply statement × Connection
  | .isInitialized => (connection.committed.initialized, connection)
  | .getInstanceBasicSetting => (connection.committed.basicSetting.getD {}, connection)
  | .upsertInstanceBasicSetting setting =>
      ((), { connection with committed.basicSetting := some setting })
  | .start => ((), ⟨connection.committed, some connection.committed⟩)
  | .execute script =>
      if engine.accepts connection.view script then (true, connection.execute engine script)
      else (false, connection)
  | .commit => ((), ⟨connection.view, none⟩)
  | .rollback => ((), ⟨connection.committed, none⟩)

abbrev MigrateProgram := Program SchemaStatement SchemaReply (Except String Unit)

def statement (statement : SchemaStatement) :
    Program SchemaStatement SchemaReply (SchemaReply statement) :=
  .perform statement .done

def isInitialized : Program SchemaStatement SchemaReply Bool := statement .isInitialized

def getInstanceBasicSetting : Program SchemaStatement SchemaReply InstanceBasicSetting :=
  statement .getInstanceBasicSetting

def upsertInstanceBasicSetting (setting : InstanceBasicSetting) :
    Program SchemaStatement SchemaReply Unit :=
  statement (.upsertInstanceBasicSetting setting)

def startTransaction : Program SchemaStatement SchemaReply Unit := statement .start

def execute (script : Script) : Program SchemaStatement SchemaReply Bool :=
  statement (.execute script)

def commit : Program SchemaStatement SchemaReply Unit := statement .commit

def rollback : Program SchemaStatement SchemaReply Unit := statement .rollback

/-- Go on, unless the program fails. -/
def andThen (program : MigrateProgram) (context : String) (next : MigrateProgram) :
    MigrateProgram := do
  match ← program with
  | .error cause => return .error (context ++ cause)
  | .ok () => next

/-! ## The migrator -/

/-- The profile, the embedded files, and how deep calls may be nested. -/
structure Migrator where
  compare : String -> String -> Int
  driver : String
  demo : Bool := false
  migrationPaths : List String
  seedPaths : List String := []
  stack : Nat

namespace Migrator

variable (migrator : Migrator)

/-- `GetCurrentSchemaVersion` -/
def currentSchemaVersion : Except String String :=
  getCurrentSchemaVersion migrator.compare migrator.migrationPaths migrator.stack

def updateCurrentSchemaVersion (schemaVersion : String) : MigrateProgram := do
  let instanceBasicSetting ← getInstanceBasicSetting
  upsertInstanceBasicSetting { instanceBasicSetting with schemaVersion }
  return .ok ()

/-- Give up a transaction. -/
def giveUp (cause : String) : MigrateProgram := do
  rollback
  return .error cause

/-- The loop of `applyMigrations`. -/
def applyFiles (currentSchemaVersion targetSchemaVersion : String) : List String -> MigrateProgram
  | [] => return .ok ()
  | filePath :: rest =>
      match getSchemaVersionOfMigrateScript migrator.currentSchemaVersion filePath with
      | .error cause => giveUp ("failed to get schema version of migrate script: " ++ cause)
      | .ok fileSchemaVersion =>
          if shouldApplyMigration migrator.compare fileSchemaVersion currentSchemaVersion
            targetSchemaVersion then do
            let accepted ← execute (.migration filePath)
            if accepted then applyFiles currentSchemaVersion targetSchemaVersion rest
            else giveUp ("failed to execute migration " ++ filePath)
          else applyFiles currentSchemaVersion targetSchemaVersion rest

/-- `slices.Sort` -/
def sortedPaths : List String := migrator.migrationPaths.mergeSort (· ≤ ·)

def applyMigrations (currentSchemaVersion targetSchemaVersion : String) : MigrateProgram := do
  startTransaction
  andThen (migrator.applyFiles currentSchemaVersion targetSchemaVersion migrator.sortedPaths) ""
    (do
      commit
      updateCurrentSchemaVersion targetSchemaVersion)

/-- The text for installations that are too old. -/
def tooOld (schemaVersion currentVersion : String) : String :=
  "Your Memos installation is too old to upgrade directly.\n\n" ++
  "Your current version: " ++ schemaVersion ++ "\n" ++
  "Target version: " ++ currentVersion ++ "\n" ++
  "Minimum required: v0.22.0 (May 2024)\n\n" ++
  "Upgrade path:\n" ++
  "1. First upgrade to v0.25.3: https://github.com/usememos/memos/releases/tag/v0.25.3\n" ++
  "2. Start the server and verify it works\n" ++
  "3. Then upgrade to the latest version\n\n" ++
  "This is required because schema version tracking was moved from migration_history\n" ++
  "to system_setting in v0.22.0. The intermediate upgrade handles this migration safely."

/-- An installation that cannot be upgraded. -/
def rejected (schemaVersion : String) : Except String Unit :=
  .error (tooOld schemaVersion
    (match migrator.currentSchemaVersion with
    | .ok version => version
    | .error _ => ""))

def checkMinimumUpgradeVersion : MigrateProgram := do
  let instanceBasicSetting ← getInstanceBasicSetting
  let schemaVersion := instanceBasicSetting.schemaVersion
  if !isVersionEmpty schemaVersion &&
    isVersionGreaterOrEqualThan migrator.compare schemaVersion "0.22.0" then return .ok ()
  else if isVersionEmpty schemaVersion then
    let initialized ← isInitialized
    if !initialized then return .ok () else return migrator.rejected schemaVersion
  else return migrator.rejected schemaVersion

/-- Give the fresh database the latest schema and its version. -/
def applyLatestSchema : MigrateProgram := do
  startTransaction
  let accepted ← execute .latest
  if !accepted then giveUp "failed to execute SQL file"
  else do
    commit
    match migrator.currentSchemaVersion with
    | .error cause => return .error ("failed to get current schema version: " ++ cause)
    | .ok schemaVersion => updateCurrentSchemaVersion schemaVersion

def preMigrate : MigrateProgram := do
  let initialized ← isInitialized
  if !initialized then andThen migrator.applyLatestSchema "" migrator.checkMinimumUpgradeVersion
  else migrator.checkMinimumUpgradeVersion

def seedFiles : List String -> MigrateProgram
  | [] => return .ok ()
  | filePath :: rest => do
      let accepted ← execute (.seed filePath)
      if accepted then seedFiles rest else giveUp ("seed error: " ++ filePath)

/-- `seed`, which only SQLite supports. -/
def seed : MigrateProgram :=
  if migrator.driver = "sqlite" then do
    startTransaction
    andThen (seedFiles (migrator.seedPaths.mergeSort (· ≤ ·))) "failed to seed: "
      (do
        commit
        return .ok ())
  else return .ok ()

/-- The part of `Migrate` after the migrations. -/
def seedDemo : MigrateProgram := if migrator.demo then migrator.seed else return .ok ()

/-- Refuse a downgrade, upgrade an older version. -/
def upgradeFrom (schemaVersion : String) : MigrateProgram :=
  match migrator.currentSchemaVersion with
  | .error cause => return .error ("failed to get current schema version: " ++ cause)
  | .ok currentSchemaVersion =>
      if !isVersionEmpty schemaVersion &&
        isVersionGreaterThan migrator.compare schemaVersion currentSchemaVersion then
        return .error ("cannot downgrade schema version from " ++ schemaVersion ++ " to " ++
          currentSchemaVersion)
      else if isVersionEmpty schemaVersion ||
        isVersionGreaterThan migrator.compare currentSchemaVersion schemaVersion then
        andThen (migrator.applyMigrations schemaVersion currentSchemaVersion)
          "failed to apply migrations: " migrator.seedDemo
      else migrator.seedDemo

/-- The part of `Migrate` after `preMigrate`. -/
def upgrade : MigrateProgram := do
  let instanceBasicSetting ← getInstanceBasicSetting
  migrator.upgradeFrom instanceBasicSetting.schemaVersion

/-- `Migrate` -/
def migrate : MigrateProgram :=
  andThen migrator.preMigrate "failed to pre-migrate: " migrator.upgrade

end Migrator

end Store
end Memos
