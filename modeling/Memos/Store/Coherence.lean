import Memos.Store.Caching

namespace Memos
namespace Store
namespace Caching

open Library

/-!
# Coherence of the caches

A cache entry is right when it is the row of its key, where an instance setting
may have its defaults filled in.  Each operation of the store puts only rows
into the cache that it has just read or written, and sets or evicts the entries
of the rows that it changes.  There are two exceptions: `DeleteUserSettings`
evicts what it listed before the deletion, and a user whose row is written but
not read back is not put into the cache.
-/

variable (codecs : SettingCodecs)

/-- The row of a key as the store reads it. -/
def AccountTables.row (tables : AccountTables) : CacheKey -> Option CachedValue
  | .user id => (tables.users id).map .user
  | .userSetting userId key =>
      match tables.userSettings userId key with
      | none => none
      | some value =>
          match convertUserSettingFromRaw codecs ⟨userId, key, value⟩ with
          | .ok setting => setting.map .userSetting
          | .error _ => none
  | .instanceSetting name =>
      match tables.instanceSettings name with
      | none => none
      | some value =>
          match convertInstanceSettingFromRaw codecs ⟨name, value⟩ with
          | .ok setting => setting.map .instanceSetting
          | .error _ => none

/-- An entry is the row, up to the defaults of an instance setting.  Where
there is no instance setting, the entry has the defaults alone. -/
def Agrees (row : Option CachedValue) : CachedValue -> Prop
  | .instanceSetting setting =>
      match row with
      | some (.instanceSetting stored) => setting.withDefaults = stored.withDefaults
      | _ => setting.withDefaults = (InstanceSetting.empty setting.key).withDefaults
  | value => row = some value

/-- The calls that may change rows whose entries their programs do not settle:
one evicts what was listed before, and the others may fail after they wrote. -/
def Statement.excused : Statement -> Prop
  | .deleteUserSettings _ | .createUser _ | .updateUser _ => True
  | _ => False

/-- A program of the store that keeps its obligations to the caches. -/
abbrev Keeps {α : Type} (tables : AccountTables) (program : StoreProgram α) : Prop :=
  Fits (AccountTables.row codecs) Agrees Statement.excused Runs tables program

/-! ## Rows and entries -/

theorem agrees_withDefaults (row : Option CachedValue) (value : CachedValue)
    (right : Agrees row value) : Agrees row value.withDefaults := by
  cases value with
  | instanceSetting setting =>
      change Agrees row (.instanceSetting setting.withDefaults)
      simp only [Agrees, InstanceSetting.withDefaults_withDefaults,
        InstanceSetting.key_withDefaults]
      exact right
  | _ => exact right

/-- A row agrees with itself. -/
theorem agrees_self (value : CachedValue) : Agrees (some value) value := by
  cases value <;> rfl

variable {codecs} {tables : AccountTables}

theorem row_userSetting {raw : RawUserSetting} {setting : UserSettingMessage}
    (stored : tables.userSettings raw.userId raw.key = some raw.value)
    (converted : convertUserSettingFromRaw codecs raw = .ok (some setting)) :
    tables.row codecs (.userSetting setting.userId setting.value.key) =
      some (.userSetting setting) := by
  rcases convertUserSettingFromRaw_key converted with ⟨sameUser, sameKey⟩
  rw [sameUser, sameKey]
  simp only [AccountTables.row, stored]
  change (match convertUserSettingFromRaw codecs raw with
    | .ok found => found.map CachedValue.userSetting
    | .error _ => none) = _
  rw [converted]
  rfl

theorem row_instanceSetting {raw : RawInstanceSetting} {setting : InstanceSetting}
    (stored : tables.instanceSettings raw.name = some raw.value)
    (converted : convertInstanceSettingFromRaw codecs raw = .ok (some setting)) :
    tables.row codecs (.instanceSetting setting.key.string) = some (.instanceSetting setting) := by
  rw [convertInstanceSettingFromRaw_key converted]
  simp only [AccountTables.row, stored]
  change (match convertInstanceSettingFromRaw codecs raw with
    | .ok found => found.map CachedValue.instanceSetting
    | .error _ => none) = _
  rw [converted]
  rfl

/-- A statement on the users changes no other row. -/
theorem row_putUser {id : Nat} {entry : Option User} {key : CacheKey}
    (changed : tables.row codecs key ≠ (tables.putUser id entry).row codecs key) :
    key = .user id := by
  cases key with
  | user other =>
      by_cases same : other = id
      · rw [same]
      · refine absurd ?_ changed
        simp only [AccountTables.row, AccountTables.putUser, Function.update_of_ne same]
  | userSetting userId key => exact absurd rfl changed
  | instanceSetting name => exact absurd rfl changed

theorem keeps_cacheSet {α : Type} {key : CacheKey} {value : CachedValue}
    {next : Unit -> StoreProgram α} (right : Agrees (tables.row codecs key) value)
    (continues : Keeps codecs tables (next ())) :
    Keeps codecs tables (cacheSet key value >>= next) :=
  Fits.set right continues

/-! ## Users -/

section Users

variable {α β : Type}

theorem agrees_user {user : User} (stored : tables.users user.id = some user) :
    Agrees (tables.row codecs (.user user.id)) (.user user) := by
  change Option.map CachedValue.user (tables.users user.id) = _
  rw [stored]
  rfl

theorem excused_of_readsBack {statement : Statement} (reads : statement.readsBack) :
    statement.excused := by
  cases statement <;> first | exact trivial | exact absurd reads id

/-- The program goes on in the same way wherever the statement fails. -/
theorem keeps_call {statement : Statement} {next : statement.Reply -> StoreProgram α}
    (failed : ∀ tables cause, Keeps codecs tables (next (.error cause)))
    (succeeded : ∀ before result after, Succeeds before statement result after ->
      Keeps codecs after (next (.ok result)) ∧
        ∀ key, AccountTables.row codecs before key ≠ AccountTables.row codecs after key ->
          Statement.excused statement ∨ Settles key (next (.ok result))) :
    Keeps codecs tables (.perform (.call statement) next) := by
  apply Fits.call
  intro before reply after ran
  cases reply with
  | error cause =>
      refine ⟨failed _ _, fun key changed => .inl ?_⟩
      rcases ran with rfl | ⟨reads, _⟩
      · exact absurd rfl changed
      · exact excused_of_readsBack reads
  | ok result => exact succeeded before result after ran

theorem keeps_createUser {create : CreateUser} {next : Except String User -> StoreProgram α}
    (continues : ∀ tables reply, Keeps codecs tables (next reply)) :
    Keeps codecs tables (createUser create >>= next) := by
  apply keeps_call
  · intro tables cause
    exact continues _ _
  · intro before user after ran
    rcases ran with ⟨_, _, rfl⟩
    refine ⟨Fits.set (agrees_user (before.putUser_users _ _)) (continues _ (.ok user)), ?_⟩
    intro key changed
    rw [row_putUser changed]
    exact .inr (.inl rfl)

theorem keeps_updateUser {update : UpdateUser} {next : Except String User -> StoreProgram α}
    (continues : ∀ tables reply, Keeps codecs tables (next reply)) :
    Keeps codecs tables (updateUser update >>= next) := by
  apply keeps_call
  · intro tables cause
    exact continues _ _
  · intro before user after ran
    rcases ran with ⟨updated, rfl⟩
    rcases Option.map_eq_some_iff.mp updated with ⟨old, _, rfl⟩
    refine ⟨Fits.set (agrees_user (before.putUser_users _ _)) (continues _ (.ok _)), ?_⟩
    intro key changed
    rw [row_putUser changed]
    exact .inr (.inl rfl)

theorem keeps_cacheUsers {list : List User} {next : Unit -> StoreProgram α}
    (stored : ∀ user, user ∈ list -> tables.users user.id = some user)
    (continues : Keeps codecs tables (next ())) :
    Keeps codecs tables (cacheUsers list >>= next) := by
  induction list with
  | nil => exact continues
  | cons user rest ih =>
      rcases List.forall_mem_cons.mp stored with ⟨first, others⟩
      exact Fits.set (agrees_user first) (ih others)

variable {find : FindUser} {next : Except String (Option User) -> StoreProgram α}

theorem keeps_listUsers {next : Except String (List User) -> StoreProgram α}
    (failed : ∀ tables cause, Keeps codecs tables (next (.error cause)))
    (listed : ∀ tables list, (∀ user, user ∈ list -> tables.users user.id = some user) ->
      Keeps codecs tables (next (.ok list))) :
    Keeps codecs tables (listUsers find >>= next) := by
  apply keeps_call
  · intro tables cause
    exact failed _ _
  · intro before list after ran
    rcases ran with ⟨rfl, lists⟩
    have stored := fun user member => (lists.found user member).1
    refine ⟨?_, fun key changed => absurd rfl changed⟩
    change Keeps codecs after ((cacheUsers list >>= fun _ => pure (.ok list)) >>= next)
    rw [Program.bind_assoc]
    exact keeps_cacheUsers stored (listed after list stored)

theorem keeps_createUserIfNoUsers {create : CreateUser}
    (continues : ∀ tables reply, Keeps codecs tables (next reply)) :
    Keeps codecs tables (createUserIfNoUsers create >>= next) := by
  apply keeps_call
  · intro tables cause
    exact continues _ _
  · intro before list after ran
    rcases ran with ⟨rfl, _⟩
    refine ⟨?_, fun key changed => absurd rfl changed⟩
    cases list with
    | cons user rest => exact continues _ _
    | nil =>
        change Keeps codecs after ((createUser create >>= _) >>= next)
        rw [Program.bind_assoc]
        apply keeps_createUser
        intro tables created
        cases created <;> exact continues _ _

theorem keeps_getUserFromList (continues : ∀ tables reply, Keeps codecs tables (next reply)) :
    Keeps codecs tables (getUserFromList find >>= next) := by
  unfold getUserFromList
  rw [Program.bind_assoc]
  apply keeps_listUsers
  · exact fun tables cause => continues tables _
  · intro tables list stored
    cases list with
    | nil => exact continues _ _
    | cons user rest =>
        exact Fits.set (agrees_user (stored user List.mem_cons_self)) (continues _ _)

theorem keeps_getUser (continues : ∀ tables reply, Keeps codecs tables (next reply)) :
    Keeps codecs tables (getUser find >>= next) := by
  unfold getUser
  cases find.id with
  | none => exact keeps_getUserFromList continues
  | some id =>
      refine Fits.get_of_forall (fun _ _ right => right) ?_
      intro tables reply
      rcases reply with _ | user | setting | setting
      · exact keeps_getUserFromList continues
      · exact continues _ _
      · exact keeps_getUserFromList continues
      · exact keeps_getUserFromList continues

theorem settles_deleteSettingKeys (userId : Nat) {keys : List UserSettingKey}
    {key : UserSettingKey} (member : key ∈ keys) :
    Settles (CacheKey.userSetting userId key) (deleteSettingKeys userId keys) := by
  induction keys with
  | nil => exact absurd member List.not_mem_nil
  | cons first rest ih =>
      rcases List.mem_cons.mp member with rfl | later
      · exact .inl rfl
      · exact .inr (ih later)

theorem keeps_deleteSettingKeys {userId : Nat} {keys : List UserSettingKey}
    {next : Unit -> StoreProgram α} (continues : Keeps codecs tables (next ())) :
    Keeps codecs tables (deleteSettingKeys userId keys >>= next) := by
  induction keys with
  | nil => exact continues
  | cons first rest ih => exact Fits.evict ih

theorem keeps_deleteUser {id : Nat} {next : Except String (List UserSettingKey) -> StoreProgram α}
    (continues : ∀ tables reply, Keeps codecs tables (next reply)) :
    Keeps codecs tables (deleteUser id >>= next) := by
  apply keeps_call
  · intro tables cause
    exact continues _ _
  · intro before keys after ran
    rcases ran with ⟨listed, rfl⟩
    constructor
    · change Fits _ _ _ _ _ ((deleteUserCache id keys >>= fun _ => pure (.ok keys)) >>= next)
      rw [Program.bind_assoc]
      exact Fits.evict (keeps_deleteSettingKeys (continues _ _))
    · intro key changed
      refine .inr ?_
      cases key with
      | user other =>
          by_cases same : other = id
          · exact .inl (congrArg CacheKey.user same.symm)
          · refine absurd ?_ changed
            simp only [AccountTables.row, AccountTables.putUser, Function.update_of_ne same]
      | userSetting userId key =>
          by_cases same : userId = id
          · subst same
            by_cases stored : (before.userSettings userId key).isSome
            · have settled := settles_deleteSettingKeys userId ((listed key).mpr stored)
              exact .inr settled.bind.bind
            · refine absurd ?_ changed
              rw [Option.not_isSome_iff_eq_none] at stored
              simp only [AccountTables.row, Function.update_self, stored]
          · refine absurd ?_ changed
            simp only [AccountTables.row, Function.update_of_ne same]
      | instanceSetting name => exact absurd rfl changed

end Users

/-! ## User settings -/

section UserSettings

variable {α : Type}

variable {raw : RawUserSetting}

theorem cacheUpserted_eq {setting : UserSettingMessage}
    (converted : convertUserSettingFromRaw codecs raw = .ok (some setting)) :
    cacheUpserted codecs raw = do
      cacheSet (.userSetting setting.userId setting.value.key) (.userSetting setting)
      return .ok setting := by
  unfold cacheUpserted
  rw [converted]

/-- An upsert changes no other row. -/
theorem row_putUserSetting {key : CacheKey}
    (changed : tables.row codecs key ≠ (tables.putUserSetting raw).row codecs key) :
    key = .userSetting raw.userId raw.key := by
  cases key with
  | userSetting userId key =>
      by_cases sameUser : userId = raw.userId
      · subst sameUser
        by_cases sameKey : key = raw.key
        · rw [sameKey]
        · refine absurd ?_ changed
          simp only [AccountTables.row, AccountTables.putUserSetting, Function.update_self,
            Function.update_of_ne sameKey]
      · refine absurd ?_ changed
        simp only [AccountTables.row, AccountTables.putUserSetting, Function.update_of_ne sameUser]
  | user id => exact absurd rfl changed
  | instanceSetting name => exact absurd rfl changed

theorem keeps_upsertUserSetting {upsert : UserSettingMessage}
    {next : Except String UserSettingMessage -> StoreProgram α}
    (continues : ∀ tables reply, Keeps codecs tables (next reply)) :
    Keeps codecs tables (upsertUserSetting codecs upsert >>= next) := by
  unfold upsertUserSetting
  cases marshalled : convertUserSettingToRaw codecs upsert with
  | error cause => exact continues _ _
  | ok raw =>
      apply keeps_call
      · intro tables cause
        exact continues _ _
      · intro before returned after ran
        rcases ran with ⟨same, rfl⟩
        cases (same : returned = raw)
        have converted := convertUserSettingFromRaw_toRaw codecs marshalled
        change Keeps codecs _ (cacheUpserted codecs raw >>= next) ∧ ∀ key, _ ->
          _ ∨ Settles key (cacheUpserted codecs raw >>= next)
        rw [cacheUpserted_eq converted]
        constructor
        · refine keeps_cacheSet ?_ (continues _ _)
          rw [row_userSetting (before.putUserSetting_userSettings raw) converted]
          rfl
        · intro key changed
          rcases convertUserSettingFromRaw_key converted with ⟨sameUser, sameKey⟩
          rw [row_putUserSetting changed, ← sameUser, ← sameKey]
          exact .inr (.inl rfl)

variable {rest : List RawUserSetting} {find : FindUserSetting}

theorem cacheUserSettings_error {cause : String} (converted : convertUserSettingFromRaw codecs raw = .error cause) :
    cacheUserSettings codecs (raw :: rest) = pure (.error cause) := by
  rw [cacheUserSettings, converted]

theorem cacheUserSettings_none (converted : convertUserSettingFromRaw codecs raw = .ok none) :
    cacheUserSettings codecs (raw :: rest) = cacheUserSettings codecs rest := by
  rw [cacheUserSettings, converted]

theorem cacheUserSettings_some {setting : UserSettingMessage}
    (converted : convertUserSettingFromRaw codecs raw = .ok (some setting)) :
    cacheUserSettings codecs (raw :: rest) = do
      cacheSet (.userSetting setting.userId setting.value.key) (.userSetting setting)
      match ← cacheUserSettings codecs rest with
      | .error cause => return .error cause
      | .ok settings => return .ok (setting :: settings) := by
  rw [cacheUserSettings, converted] <;> rfl

theorem keeps_cacheUserSettings {list : List RawUserSetting}
    {next : Except String (List UserSettingMessage) -> StoreProgram α}
    (stored : ∀ raw, raw ∈ list -> tables.userSettings raw.userId raw.key = some raw.value)
    (failed : ∀ cause, Keeps codecs tables (next (.error cause)))
    (listed : ∀ settings : List UserSettingMessage, (∀ setting, setting ∈ settings ->
        tables.row codecs (.userSetting setting.userId setting.value.key) =
          some (.userSetting setting)) -> Keeps codecs tables (next (.ok settings))) :
    Keeps codecs tables (cacheUserSettings codecs list >>= next) := by
  induction list generalizing next with
  | nil => exact listed [] fun _ impossible => absurd impossible List.not_mem_nil
  | cons raw rest ih =>
      rcases List.forall_mem_cons.mp stored with ⟨first, others⟩
      cases converted : convertUserSettingFromRaw codecs raw with
      | error cause =>
          rw [cacheUserSettings_error converted]
          exact failed cause
      | ok found =>
          cases found with
          | none =>
              rw [cacheUserSettings_none converted]
              exact ih others failed listed
          | some setting =>
              have row := row_userSetting first converted
              rw [cacheUserSettings_some converted, Program.bind_assoc]
              apply keeps_cacheSet
              · rw [row]
                rfl
              · rw [Program.bind_assoc]
                refine ih others failed fun settings rows => ?_
                exact listed (setting :: settings) (List.forall_mem_cons.mpr ⟨row, rows⟩)

theorem keeps_listUserSettings {next : Except String (List UserSettingMessage) -> StoreProgram α}
    (failed : ∀ tables cause, Keeps codecs tables (next (.error cause)))
    (listed : ∀ tables settings, (∀ setting, setting ∈ settings ->
        tables.row codecs (.userSetting setting.userId setting.value.key) =
          some (.userSetting setting)) -> Keeps codecs tables (next (.ok settings))) :
    Keeps codecs tables (listUserSettings codecs find >>= next) := by
  apply keeps_call
  · intro tables cause
    exact failed _ _
  · intro before list after ran
    rcases ran with ⟨rfl, lists⟩
    refine ⟨?_, fun key changed => absurd rfl changed⟩
    exact keeps_cacheUserSettings (fun raw member => ((lists.found raw).mp member).1)
      (failed after) (listed after)

theorem keeps_getUserSettingFromList {next : Except String (Option UserSettingMessage) -> StoreProgram α}
    (continues : ∀ tables reply, Keeps codecs tables (next reply)) :
    Keeps codecs tables (getUserSettingFromList codecs find >>= next) := by
  unfold getUserSettingFromList
  rw [Program.bind_assoc]
  apply keeps_listUserSettings
  · exact fun tables cause => continues tables _
  · intro tables settings rows
    rcases settings with _ | ⟨setting, _ | ⟨second, rest⟩⟩
    · exact continues _ _
    · refine keeps_cacheSet ?_ (continues _ _)
      rw [rows setting List.mem_cons_self]
      rfl
    · exact continues _ _

theorem keeps_getUserSetting {next : Except String (Option UserSettingMessage) -> StoreProgram α}
    (continues : ∀ tables reply, Keeps codecs tables (next reply)) :
    Keeps codecs tables (getUserSetting codecs find >>= next) := by
  unfold getUserSetting
  cases find.userId with
  | none => exact keeps_getUserSettingFromList continues
  | some id =>
      refine Fits.get_of_forall (fun _ _ right => right) ?_
      intro tables reply
      rcases reply with _ | user | setting | setting
      · exact keeps_getUserSettingFromList continues
      · exact keeps_getUserSettingFromList continues
      · exact continues _ _
      · exact keeps_getUserSettingFromList continues

theorem keeps_deleteSettings {settings : List UserSettingMessage} {next : Unit -> StoreProgram α}
    (continues : Keeps codecs tables (next ())) :
    Keeps codecs tables (deleteSettings settings >>= next) := by
  induction settings with
  | nil => exact continues
  | cons first rest ih => exact Fits.evict ih

theorem keeps_deleteUserSettings {delete : FindUserSetting} {next : Except String Unit -> StoreProgram α}
    (continues : ∀ tables reply, Keeps codecs tables (next reply)) :
    Keeps codecs tables (deleteUserSettings codecs delete >>= next) := by
  unfold deleteUserSettings
  rw [Program.bind_assoc]
  apply keeps_listUserSettings
  · exact fun tables cause => continues tables _
  · intro tables existing _
    apply Fits.call
    intro before reply after ran
    refine ⟨?_, fun _ _ => .inl trivial⟩
    cases reply with
    | error cause => exact continues _ _
    | ok done =>
        change Keeps codecs after ((deleteSettings existing >>= fun _ => pure (.ok ())) >>= next)
        rw [Program.bind_assoc]
        exact keeps_deleteSettings (continues _ _)

end UserSettings

/-! ## Instance settings -/

section InstanceSettings

variable {α : Type}

variable {raw : RawInstanceSetting} {rest : List RawInstanceSetting}

variable {setting : InstanceSetting} {name : String}

theorem cacheUpsertedInstance_eq (converted : convertInstanceSettingFromRaw codecs raw = .ok (some setting)) :
    cacheUpsertedInstance codecs raw = do
      cacheSet (.instanceSetting setting.key.string) (.instanceSetting setting)
      return .ok setting := by
  unfold cacheUpsertedInstance
  rw [converted]

theorem row_putInstanceSetting {key : CacheKey}
    (changed : tables.row codecs key ≠ (tables.putInstanceSetting raw).row codecs key) :
    key = .instanceSetting raw.name := by
  cases key with
  | instanceSetting name =>
      by_cases same : name = raw.name
      · rw [same]
      · refine absurd ?_ changed
        simp only [AccountTables.row, AccountTables.putInstanceSetting, Function.update_of_ne same]
  | user id => exact absurd rfl changed
  | userSetting userId key => exact absurd rfl changed

theorem keeps_upsertInstanceSetting {upsert : InstanceSetting}
    {next : Except String InstanceSetting -> StoreProgram α}
    (continues : ∀ tables reply, Keeps codecs tables (next reply)) :
    Keeps codecs tables (upsertInstanceSetting codecs upsert >>= next) := by
  unfold upsertInstanceSetting
  cases marshalled : marshalInstanceSetting codecs upsert with
  | error cause => exact continues _ _
  | ok value =>
      apply keeps_call
      · intro tables cause
        exact continues _ _
      · intro before returned after ran
        rcases ran with ⟨same, rfl⟩
        cases (same : returned = ⟨upsert.key.string, value⟩)
        have converted := convertInstanceSettingFromRaw_marshal codecs marshalled
        change Keeps codecs _ (cacheUpsertedInstance codecs _ >>= next) ∧ ∀ key, _ ->
          _ ∨ Settles key (cacheUpsertedInstance codecs _ >>= next)
        rw [cacheUpsertedInstance_eq converted]
        constructor
        · refine keeps_cacheSet ?_ (continues _ _)
          rw [row_instanceSetting (before.putInstanceSetting_instanceSettings _) converted]
          exact agrees_self _
        · intro key changed
          rw [row_putInstanceSetting changed]
          exact .inr (.inl rfl)

theorem cacheInstanceSettings_error {cause : String}
    (converted : convertInstanceSettingFromRaw codecs raw = .error cause) :
    cacheInstanceSettings codecs (raw :: rest) =
      pure (.error ("Failed to convert instance setting: " ++ cause)) := by
  rw [cacheInstanceSettings, converted]

theorem cacheInstanceSettings_none (converted : convertInstanceSettingFromRaw codecs raw = .ok none) :
    cacheInstanceSettings codecs (raw :: rest) = cacheInstanceSettings codecs rest := by
  rw [cacheInstanceSettings, converted]

theorem cacheInstanceSettings_some (converted : convertInstanceSettingFromRaw codecs raw = .ok (some setting)) :
    cacheInstanceSettings codecs (raw :: rest) = do
      cacheSet (.instanceSetting setting.key.string) (.instanceSetting setting)
      match ← cacheInstanceSettings codecs rest with
      | .error cause => return .error cause
      | .ok settings => return .ok (setting :: settings) := by
  rw [cacheInstanceSettings, converted] <;> rfl

/-- What a list of rows is converted to. -/
structure Converted (codecs : SettingCodecs) (list : List RawInstanceSetting)
    (settings : List InstanceSetting) : Prop where
  source : ∀ setting, setting ∈ settings -> Exists fun raw => raw ∈ list ∧
    convertInstanceSettingFromRaw codecs raw = .ok (some setting)
  skipped : settings = [] -> ∀ raw, raw ∈ list ->
    convertInstanceSettingFromRaw codecs raw = .ok none

theorem Converted.skip {settings : List InstanceSetting} (converted : Converted codecs rest settings)
    (first : convertInstanceSettingFromRaw codecs raw = .ok none) :
    Converted codecs (raw :: rest) settings where
  source := by
    intro setting member
    rcases converted.source setting member with ⟨row, inside, same⟩
    exact ⟨row, List.mem_cons_of_mem _ inside, same⟩
  skipped := fun empty => List.forall_mem_cons.mpr ⟨first, converted.skipped empty⟩

theorem Converted.cons {settings : List InstanceSetting} (converted : Converted codecs rest settings)
    (first : convertInstanceSettingFromRaw codecs raw = .ok (some setting)) :
    Converted codecs (raw :: rest) (setting :: settings) where
  source := by
    intro other member
    rcases List.mem_cons.mp member with rfl | later
    · exact ⟨raw, List.mem_cons_self, first⟩
    · rcases converted.source other later with ⟨row, inside, same⟩
      exact ⟨row, List.mem_cons_of_mem _ inside, same⟩
  skipped := fun impossible => absurd impossible (List.cons_ne_nil _ _)

theorem keeps_cacheInstanceSettings {list : List RawInstanceSetting}
    {next : Except String (List InstanceSetting) -> StoreProgram α}
    (stored : ∀ raw, raw ∈ list -> tables.instanceSettings raw.name = some raw.value)
    (failed : ∀ cause, Keeps codecs tables (next (.error cause)))
    (listed : ∀ settings, Converted codecs list settings ->
      Keeps codecs tables (next (.ok settings))) :
    Keeps codecs tables (cacheInstanceSettings codecs list >>= next) := by
  induction list generalizing next with
  | nil =>
      exact listed [] ⟨fun _ impossible => absurd impossible List.not_mem_nil,
        fun _ _ impossible => absurd impossible List.not_mem_nil⟩
  | cons raw rest ih =>
      rcases List.forall_mem_cons.mp stored with ⟨first, others⟩
      cases converted : convertInstanceSettingFromRaw codecs raw with
      | error cause =>
          rw [cacheInstanceSettings_error converted]
          exact failed _
      | ok found =>
          cases found with
          | none =>
              rw [cacheInstanceSettings_none converted]
              exact ih others failed fun settings rows =>
                listed settings (rows.skip converted)
          | some setting =>
              rw [cacheInstanceSettings_some converted, Program.bind_assoc]
              apply keeps_cacheSet
              · rw [row_instanceSetting first converted]
                exact agrees_self _
              · rw [Program.bind_assoc]
                exact ih others failed fun settings rows =>
                  listed (setting :: settings) (rows.cons converted)

/-- The setting that a query for a name found, or that there is none. -/
def FoundInstance (codecs : SettingCodecs) (tables : AccountTables) (name : String) :
    Option InstanceSetting -> Prop
  | some setting => name ≠ "" -> tables.row codecs (.instanceSetting name) =
      some (.instanceSetting setting)
  | none => ∀ key : InstanceSettingKey, key.string = name ->
      tables.row codecs (.instanceSetting name) = none

theorem keeps_listInstanceSettings {next : Except String (List InstanceSetting) -> StoreProgram α}
    (failed : ∀ tables cause, Keeps codecs tables (next (.error cause))) (listed : ∀ tables settings,
      (∀ setting, setting ∈ settings -> FoundInstance codecs tables name (some setting)) ->
      (settings = [] -> FoundInstance codecs tables name none) ->
      Keeps codecs tables (next (.ok settings))) :
    Keeps codecs tables (listInstanceSettings codecs name >>= next) := by
  apply keeps_call
  · intro tables cause
    exact failed _ _
  · intro before list after ran
    rcases ran with ⟨rfl, lists⟩
    refine ⟨?_, fun key changed => absurd rfl changed⟩
    refine keeps_cacheInstanceSettings (fun raw member => ((lists.found raw).mp member).1)
      (failed after) fun settings converted => listed after settings ?_ ?_
    · intro setting member named
      rcases converted.source setting member with ⟨raw, inside, same⟩
      rcases (lists.found raw).mp inside with ⟨stored, anyName | sameName⟩
      · exact absurd anyName named
      · rw [← sameName, ← convertInstanceSettingFromRaw_key same]
        exact row_instanceSetting stored same
    · rintro empty key rfl
      cases stored : after.instanceSettings key.string with
      | none => simp only [AccountTables.row, stored]
      | some value =>
          have member := (lists.found ⟨key.string, value⟩).mpr ⟨stored, .inr rfl⟩
          exact absurd (converted.skipped empty _ member)
            (convertInstanceSettingFromRaw_ne_none key value)

theorem keeps_getInstanceSettingFromList {next : Except String (Option InstanceSetting) -> StoreProgram α}
    (failed : ∀ tables cause, Keeps codecs tables (next (.error cause)))
    (continues : ∀ tables found, FoundInstance codecs tables name found ->
      Keeps codecs tables (next (.ok found))) :
    Keeps codecs tables (getInstanceSettingFromList codecs name >>= next) := by
  unfold getInstanceSettingFromList
  rw [Program.bind_assoc]
  apply keeps_listInstanceSettings
  · exact fun tables cause => failed tables _
  · intro tables settings each empty
    rcases settings with _ | ⟨setting, _ | ⟨second, rest⟩⟩
    · exact continues tables none (empty rfl)
    · exact continues tables (some setting) (each setting List.mem_cons_self)
    · exact failed tables _

theorem keeps_getInstanceSetting {next : Except String (Option InstanceSetting) -> StoreProgram α}
    (continues : ∀ tables reply, Keeps codecs tables (next reply)) :
    Keeps codecs tables (getInstanceSetting codecs name >>= next) := by
  unfold getInstanceSetting
  refine Fits.get_of_forall (fun _ _ right => right) ?_
  intro tables reply
  have missed : Keeps codecs tables (getInstanceSettingFromList codecs name >>= next) :=
    keeps_getInstanceSettingFromList (fun tables _ => continues tables _)
      fun tables found _ => continues tables _
  rcases reply with _ | user | setting | setting
  · exact missed
  · exact missed
  · exact missed
  · exact continues _ _

/-- What a typed getter puts into the cache is right where it was found. -/
theorem agrees_found {key : InstanceSettingKey} {found : Option InstanceSetting}
    (finds : FoundInstance codecs tables key.string found) :
    Agrees (tables.row codecs (.instanceSetting key.string))
      (.instanceSetting (found.getD (.empty key)).withDefaults) := by
  cases found with
  | some setting =>
      rw [finds key.string_ne_empty]
      exact agrees_withDefaults _ _ (agrees_self (.instanceSetting setting))
  | none =>
      rw [finds key rfl]
      simp only [Agrees, Option.getD, InstanceSetting.withDefaults_withDefaults,
        InstanceSetting.key_withDefaults, InstanceSetting.key_empty]

theorem keeps_getInstanceSettingOf {key : InstanceSettingKey}
    {next : Except String InstanceSetting -> StoreProgram α}
    (continues : ∀ tables reply, Keeps codecs tables (next reply)) :
    Keeps codecs tables (getInstanceSettingOf codecs key >>= next) := by
  have typed : ∀ tables found, Agrees (tables.row codecs (.instanceSetting key.string))
      (.instanceSetting (found.getD (.empty key)).withDefaults) ->
      Keeps codecs tables (getTypedInstanceSetting key (.ok found) >>= next) :=
    fun tables found right => keeps_cacheSet right (continues tables _)
  have missed : ∀ tables, Keeps codecs tables ((getInstanceSettingFromList codecs key.string
      >>= fun found => getTypedInstanceSetting key found) >>= next) := by
    intro tables
    rw [Program.bind_assoc]
    apply keeps_getInstanceSettingFromList
    · exact fun tables cause => continues tables _
    · exact fun tables found finds => typed tables found (agrees_found finds)
  unfold getInstanceSettingOf
  refine Fits.get agrees_withDefaults ?_ ?_
  · intro reply
    rcases reply with _ | user | setting | setting
    · exact (missed tables).attentive
    · exact (missed tables).attentive
    · exact (missed tables).attentive
    · exact (continues tables _).attentive
  · intro reply tables right
    rcases reply with _ | user | setting | setting
    · exact (missed tables).backed
    · exact (missed tables).backed
    · exact (missed tables).backed
    · exact (typed tables (some setting) (agrees_withDefaults _ _ (right _ rfl))).backed

end InstanceSettings

/-! ## Operations of the store -/

/-- The operations on users and settings. -/
inductive StoreCall where
  | createUser (create : CreateUser)
  | createUserIfNoUsers (create : CreateUser)
  | updateUser (update : UpdateUser)
  | listUsers (find : FindUser)
  | getUser (find : FindUser)
  | deleteUser (id : Nat)
  | upsertUserSetting (upsert : UserSettingMessage)
  | listUserSettings (find : FindUserSetting)
  | getUserSetting (find : FindUserSetting)
  | deleteUserSettings (delete : FindUserSetting)
  | upsertInstanceSetting (upsert : InstanceSetting)
  | listInstanceSettings (name : String)
  | getInstanceSetting (name : String)
  | getInstanceSettingOf (key : InstanceSettingKey)

/-- The steps of an operation, without its result. -/
def StoreCall.program (codecs : SettingCodecs) : StoreCall -> StoreProgram Unit
  | .createUser create => Caching.createUser create >>= fun _ => pure ()
  | .createUserIfNoUsers create => Caching.createUserIfNoUsers create >>= fun _ => pure ()
  | .updateUser update => Caching.updateUser update >>= fun _ => pure ()
  | .listUsers find => Caching.listUsers find >>= fun _ => pure ()
  | .getUser find => Caching.getUser find >>= fun _ => pure ()
  | .deleteUser id => Caching.deleteUser id >>= fun _ => pure ()
  | .upsertUserSetting upsert => Caching.upsertUserSetting codecs upsert >>= fun _ => pure ()
  | .listUserSettings find => Caching.listUserSettings codecs find >>= fun _ => pure ()
  | .getUserSetting find => Caching.getUserSetting codecs find >>= fun _ => pure ()
  | .deleteUserSettings delete => Caching.deleteUserSettings codecs delete >>= fun _ => pure ()
  | .upsertInstanceSetting upsert =>
      Caching.upsertInstanceSetting codecs upsert >>= fun _ => pure ()
  | .listInstanceSettings name => Caching.listInstanceSettings codecs name >>= fun _ => pure ()
  | .getInstanceSetting name => Caching.getInstanceSetting codecs name >>= fun _ => pure ()
  | .getInstanceSettingOf key => Caching.getInstanceSettingOf codecs key >>= fun _ => pure ()

theorem keeps_program (call : StoreCall) (tables : AccountTables) :
    Keeps codecs tables (call.program codecs) := by
  have ends : ∀ {β : Type} (tables : AccountTables) (_ : β),
      Keeps codecs tables (pure () : StoreProgram Unit) := fun _ _ => Fits.done ()
  cases call with
  | createUser create => exact keeps_createUser ends
  | createUserIfNoUsers create => exact keeps_createUserIfNoUsers ends
  | updateUser update => exact keeps_updateUser ends
  | listUsers find => exact keeps_listUsers ends fun tables list _ => ends tables list
  | getUser find => exact keeps_getUser ends
  | deleteUser id => exact keeps_deleteUser ends
  | upsertUserSetting upsert => exact keeps_upsertUserSetting ends
  | listUserSettings find =>
      exact keeps_listUserSettings ends fun tables settings _ => ends tables settings
  | getUserSetting find => exact keeps_getUserSetting ends
  | deleteUserSettings delete => exact keeps_deleteUserSettings ends
  | upsertInstanceSetting upsert => exact keeps_upsertInstanceSetting ends
  | listInstanceSettings name =>
      exact keeps_listInstanceSettings ends fun tables settings _ _ => ends tables settings
  | getInstanceSetting name => exact keeps_getInstanceSetting ends
  | getInstanceSettingOf key => exact keeps_getInstanceSettingOf ends

end Caching
end Store
end Memos
