import Memos.Store.Coherence

namespace Memos
namespace Store
namespace Caching

open Library

/-!
# Runs of the store

Any number of operations run beside each other over caches that are empty at
the start.  Entries may expire at any time.  Along a timely run an entry is the
row of its key unless an operation still has to set or evict it.
-/

variable {ι : Type} [DecidableEq ι] (codecs : SettingCodecs)

/-- The operations that run over the tables and the caches. -/
abbrev StorePool (ι : Type) : Type :=
  CachePool ι AccountTables CacheKey CachedValue Statement.Reply Unit

/-- All operations before their first step. -/
def start (tables : AccountTables) (calls : ι -> StoreCall) : StorePool ι where
  shared := ⟨tables, fun _ => none⟩
  programs := fun index => (calls index).program codecs

/-- The permission of the steps: an operation puts a row into a cache only while
it is still the stored one, or while the operation that changed it has still to
set or evict the entry.  A deletion of settings, and a write of a user that is
reported as failed, change the row of an entry only where an operation has still
to set or evict it. -/
abbrev InTime (pool : StorePool ι) (index : ι) :
    (operation : CacheOperation CacheKey CachedValue Statement) ->
      CacheReply CachedValue Statement.Reply operation ->
      Cached AccountTables CacheKey CachedValue -> Prop :=
  Timely (AccountTables.row codecs) Agrees Statement.excused pool index

/-- Every step is possible at any time. -/
def AnyTime (_ : StorePool ι) (_ : ι) (operation : CacheOperation CacheKey CachedValue Statement)
    (_ : CacheReply CachedValue Statement.Reply operation)
    (_ : Cached AccountTables CacheKey CachedValue) : Prop := True

/-- The states that the operations reach. -/
abbrev Reaches
    (permitted : StorePool ι -> ι ->
      (operation : CacheOperation CacheKey CachedValue Statement) ->
      CacheReply CachedValue Statement.Reply operation ->
      Cached AccountTables CacheKey CachedValue -> Prop)
    (before after : StorePool ι) : Prop :=
  Pool.Run (CacheEffect Runs) Expires permitted before after

/-- No operation is in flight: each has returned or has not started. -/
def Idle (calls : ι -> StoreCall) (pool : StorePool ι) : Prop :=
  ∀ index, pool.programs index = .done () ∨
    pool.programs index = (calls index).program codecs

/-- Every cache entry is the row of its key. -/
def EntriesRight (state : Cached AccountTables CacheKey CachedValue) : Prop :=
  ∀ key value, state.cache key = some value -> Agrees (state.db.row codecs key) value

/-- An operation that has not started has no entry to settle. -/
theorem not_settles_program (call : StoreCall) (key : CacheKey) :
    ¬ Settles key (call.program codecs) := by
  intro settles
  cases call with
  | getUser find =>
      rcases find with ⟨_ | id, _, _, _, _, _, _⟩ <;> exact settles
  | getUserSetting find =>
      rcases find with ⟨_ | id, _⟩ <;> exact settles
  | upsertUserSetting upsert =>
      change Settles key (upsertUserSetting codecs upsert >>= fun _ => pure ()) at settles
      unfold upsertUserSetting at settles
      cases marshalled : convertUserSettingToRaw codecs upsert <;>
        rw [marshalled] at settles <;> exact settles
  | upsertInstanceSetting upsert =>
      change Settles key (upsertInstanceSetting codecs upsert >>= fun _ => pure ()) at settles
      unfold upsertInstanceSetting at settles
      cases marshalled : marshalInstanceSetting codecs upsert <;>
        rw [marshalled] at settles <;> exact settles
  | _ => exact settles

variable {codecs} {tables : AccountTables} {calls : ι -> StoreCall} {last : StorePool ι}

omit [DecidableEq ι] in
theorem not_settles_of_idle (idle : Idle codecs calls last) (key : CacheKey) (index : ι) :
    ¬ Settles key (last.programs index) := by
  rcases idle index with returned | unstarted
  · rw [returned]
    exact id
  · rw [unstarted]
    exact not_settles_program codecs (calls index) key

omit [DecidableEq ι] in
theorem coherence_start : Coherence (AccountTables.row codecs) Agrees Statement.excused Runs
    (start codecs tables calls) where
  attentive := fun index => (keeps_program (calls index) tables).attentive
  entry := fun _ _ impossible => by cases impossible

omit [DecidableEq ι] in
theorem fitting_start : Fitting (AccountTables.row codecs) Agrees Statement.excused Runs
    (start codecs tables calls) :=
  fun index => keeps_program (calls index) tables

/-- A run without races is in time. -/
theorem inTime_of_orderly
    (run : Reaches (Orderly (AccountTables.row codecs) Statement.excused)
      (start codecs tables calls) last) :
    Reaches (InTime codecs) (start codecs tables calls) last :=
  timely_of_orderly coherence_start fitting_start run

/-- Without races no entry is stale once the operations are over. -/
theorem orderly_coherent
    (run : Reaches (Orderly (AccountTables.row codecs) Statement.excused)
      (start codecs tables calls) last) (idle : Idle codecs calls last) :
    EntriesRight codecs last.shared := by
  have coherence := coherent_of_run coherence_start (inTime_of_orderly run)
  intro key value cached
  exact coherence.right cached (not_settles_of_idle idle key)

/-- In time, every entry that no operation still has to set or evict is the row
of its key.  In particular every entry is, when no operation is in flight. -/
theorem caches_coherent (codecs : SettingCodecs) (tables : AccountTables) (calls : ι -> StoreCall)
    (last : StorePool ι) (run : Reaches (InTime codecs) (start codecs tables calls) last) :
    (Idle codecs calls last -> EntriesRight codecs last.shared) ∧
      ∀ key value, last.shared.cache key = some value ->
        (∀ index, ¬ Settles key (last.programs index)) ->
        Agrees (last.shared.db.row codecs key) value := by
  have coherence := coherent_of_run coherence_start run
  constructor
  · intro idle key value cached
    exact coherence.right cached (not_settles_of_idle idle key)
  · intro key value cached settled
    exact coherence.right cached settled

/-! ## A stale entry -/

/-- A user, before and after an administrator archives the account. -/
def activeUser : User := ⟨1, .normal, "steven", .user⟩
def archivedUser : User := ⟨1, .archived, "steven", .user⟩

def oneUser : AccountTables where
  users := Function.update (fun _ => none) 1 (some activeUser)

/-- One request reads the user while another one archives it. -/
def readAndArchive : Bool -> StoreCall
  | false => .getUser { id := some 1 }
  | true => .updateUser { id := 1, rowStatus := some .archived }

theorem lists_oneUser : ListsUsers oneUser { id := some 1 } [activeUser] where
  nodup := List.nodup_singleton _
  found := by
    intro user member
    cases List.mem_singleton.mp member
    decide
  complete := by
    intro _ id user stored _
    change Function.update (fun _ => none) 1 (some activeUser) id = some user at stored
    rcases update_eq_some stored with ⟨_, same⟩ | ⟨_, impossible⟩
    · cases same
      exact List.mem_singleton_self _
    · cases impossible

/-- The read comes before the update and its cache steps after it. -/
theorem stale_run : Exists fun last =>
    Reaches AnyTime (start emptyCodecs oneUser readAndArchive) last ∧
      Idle emptyCodecs readAndArchive last ∧
      last.shared.db.users 1 = some archivedUser ∧
      last.shared.cache (.user 1) = some (.user activeUser) := by
  have begun : Reaches AnyTime (start emptyCodecs oneUser readAndArchive)
      (start emptyCodecs oneUser readAndArchive) := .refl
  have missed := begun.operation false rfl _ _ ⟨rfl, rfl⟩ trivial
  have read := missed.operation false rfl (.ok [activeUser]) ⟨oneUser, _⟩
    ⟨rfl, rfl, lists_oneUser⟩ trivial
  have archived := read.operation true rfl (.ok archivedUser)
    ⟨oneUser.putUser 1 (some archivedUser), _⟩ ⟨rfl, rfl, rfl⟩ trivial
  have settled := archived.operation true rfl () _ rfl trivial
  have listed := settled.operation false rfl () _ rfl trivial
  have returned := listed.operation false rfl () _ rfl trivial
  refine ⟨_, returned, ?_, rfl, rfl⟩
  intro index
  cases index <;> exact .inl rfl

/-- At any time, the archived user stays in the cache as an active one. -/
theorem caches_stale : ¬ ∀ (codecs : SettingCodecs) (tables : AccountTables)
    (calls : Bool -> StoreCall) (last : StorePool Bool),
    Reaches AnyTime (start codecs tables calls) last -> Idle codecs calls last ->
      EntriesRight codecs last.shared := by
  intro coherent
  rcases stale_run with ⟨last, run, idle, row, entry⟩
  have agrees : last.shared.db.row emptyCodecs (.user 1) = some (.user activeUser) :=
    coherent _ _ _ last run idle (.user 1) (.user activeUser) entry
  simp only [AccountTables.row, row] at agrees
  revert agrees
  decide

/-- The update sets the entry of the row that it changes. -/
theorem settles_archived {key : CacheKey} {next : Except String User -> StoreProgram Unit}
    (current : (start emptyCodecs oneUser readAndArchive).programs true =
      .perform (.call (.updateUser { id := 1, rowStatus := some .archived })) next)
    (changed : oneUser.row emptyCodecs key ≠
      (oneUser.putUser 1 (some archivedUser)).row emptyCodecs key) :
    Settles key (next (.ok archivedUser)) := by
  cases current
  rw [row_putUser changed]
  exact .inl rfl

/-- The update that has set its entry before the read starts. -/
theorem caches_coherent_archived : Exists fun last =>
    Reaches (InTime emptyCodecs) (start emptyCodecs oneUser readAndArchive) last ∧
      EntriesRight emptyCodecs last.shared ∧
      last.shared.cache (.user 1) = some (.user archivedUser) := by
  have begun : Reaches (InTime emptyCodecs) (start emptyCodecs oneUser readAndArchive)
      (start emptyCodecs oneUser readAndArchive) := .refl
  have archived := begun.operation true rfl (.ok archivedUser)
    ⟨oneUser.putUser 1 (some archivedUser), _⟩ ⟨rfl, rfl, rfl⟩
    fun _ same _ key changed => .inr (.inl (settles_archived same changed))
  have settled := archived.operation true rfl () _ rfl fun _ _ => .inl rfl
  have served := settled.operation false rfl _ _ ⟨rfl, rfl⟩ trivial
  refine ⟨_, served, (caches_coherent emptyCodecs oneUser readAndArchive _ served).1 ?_, rfl⟩
  intro index
  cases index <;> exact .inl rfl

/-- In the same run no request uses the entry while another changes it. -/
theorem orderly_coherent_archived : Exists fun last : StorePool Bool =>
    EntriesRight emptyCodecs last.shared ∧
      last.shared.cache (.user 1) = some (.user archivedUser) := by
  have begun : Reaches (Orderly (AccountTables.row emptyCodecs) Statement.excused)
      (start emptyCodecs oneUser readAndArchive) (start emptyCodecs oneUser readAndArchive) := .refl
  have archived := begun.operation true rfl (.ok archivedUser)
    ⟨oneUser.putUser 1 (some archivedUser), _⟩ ⟨rfl, rfl, rfl⟩ fun _ same key changed =>
      ⟨fun _ => settles_archived same changed, by rintro (_ | _) other _ stores <;> trivial⟩
  have settled := archived.operation true rfl () _ rfl trivial
  have served := settled.operation false rfl _ _ ⟨rfl, rfl⟩
    fun _ _ _ => by rintro (_ | _) other settles <;> trivial
  refine ⟨_, orderly_coherent served fun index => ?_, rfl⟩
  cases index <;> exact .inl rfl

end Caching
end Store
end Memos
