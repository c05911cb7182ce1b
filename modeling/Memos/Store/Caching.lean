import Memos.Library.ReadThrough
import Memos.Store.Settings

namespace Memos
namespace Store
namespace Caching

open Library

/-!
# The store and its caches

The store keeps users, user settings and instance settings in memory.  Its
operations are programs over the driver and the caches: every call of the
driver and every access to a cache is a step of its own, and steps of several
operations interleave.  Tables are maps from their primary keys, and a list
query replies with some list of the rows that it finds.
-/

/-! ## The driver -/

/-- The tables behind the caches. -/
structure AccountTables where
  users : Nat -> Option User := fun _ => none
  userSettings : Nat -> UserSettingKey -> Option String := fun _ _ => none
  instanceSettings : String -> Option String := fun _ => none

/-- Write or remove the row of a user. -/
def AccountTables.putUser (tables : AccountTables) (id : Nat) (entry : Option User) :
    AccountTables :=
  { tables with users := Function.update tables.users id entry }

def AccountTables.putUserSetting (tables : AccountTables) (raw : RawUserSetting) : AccountTables :=
  { tables with
    userSettings := Function.update tables.userSettings raw.userId
      (Function.update (tables.userSettings raw.userId) raw.key (some raw.value)) }

def AccountTables.putInstanceSetting (tables : AccountTables) (raw : RawInstanceSetting) :
    AccountTables :=
  { tables with
    instanceSettings := Function.update tables.instanceSettings raw.name (some raw.value) }

@[simp] theorem AccountTables.putUser_users (tables : AccountTables) (id : Nat)
    (entry : Option User) : (tables.putUser id entry).users id = entry :=
  Function.update_self _ _ _

@[simp] theorem AccountTables.putUserSetting_userSettings (tables : AccountTables)
    (raw : RawUserSetting) :
    (tables.putUserSetting raw).userSettings raw.userId raw.key = some raw.value := by
  simp only [putUserSetting, Function.update_self]

@[simp] theorem AccountTables.putInstanceSetting_instanceSettings (tables : AccountTables)
    (raw : RawInstanceSetting) :
    (tables.putInstanceSetting raw).instanceSettings raw.name = some raw.value :=
  Function.update_self _ _ _

structure CreateUser where
  username : String
  role : Role

structure UpdateUser where
  id : Nat
  rowStatus : Option RowStatus := none
  username : Option String := none
  role : Option Role := none

/-- The row that `RETURNING` reads. -/
def UpdateUser.apply (update : UpdateUser) (user : User) : User where
  id := update.id
  rowStatus := update.rowStatus.getD user.rowStatus
  username := update.username.getD user.username
  role := update.role.getD user.role

structure FindUser where
  id : Option Nat := none
  idList : List Nat := []
  usernameList : List String := []
  rowStatus : Option RowStatus := none
  username : Option String := none
  role : Option Role := none
  limit : Option Nat := none

/-- The conditions of a user query. -/
def FindUser.finds (find : FindUser) (user : User) : Bool :=
  find.id.all (user.id == ·) && (find.idList.isEmpty || find.idList.contains user.id) &&
  (find.usernameList.isEmpty || find.usernameList.contains user.username) &&
  find.rowStatus.all (user.rowStatus == ·) && find.username.all (user.username == ·) &&
  find.role.all (user.role == ·)

/-- `FindUserSetting` and `DeleteUserSetting`.  The zero key stands for all. -/
structure FindUserSetting where
  userId : Option Nat
  key : UserSettingKey
deriving DecidableEq

def FindUserSetting.finds (find : FindUserSetting) (userId : Nat) (key : UserSettingKey) : Bool :=
  find.userId.all (userId == ·) && (find.key == .unspecified || key == find.key)

/-- The calls of the driver. -/
inductive Statement where
  | createUser (create : CreateUser)
  | updateUser (update : UpdateUser)
  | listUsers (find : FindUser)
  | deleteUser (id : Nat)
  | upsertUserSetting (upsert : RawUserSetting)
  | listUserSettings (find : FindUserSetting)
  | deleteUserSettings (delete : FindUserSetting)
  | upsertInstanceSetting (upsert : RawInstanceSetting)
  | listInstanceSettings (name : String)

/-- What a call returns when it succeeds. -/
def Statement.Result : Statement -> Type
  | .createUser _ => User
  | .updateUser _ => User
  | .listUsers _ => List User
  | .deleteUser _ => List UserSettingKey
  | .upsertUserSetting _ => RawUserSetting
  | .listUserSettings _ => List RawUserSetting
  | .deleteUserSettings _ => Unit
  | .upsertInstanceSetting _ => RawInstanceSetting
  | .listInstanceSettings _ => List RawInstanceSetting

abbrev Statement.Reply (statement : Statement) : Type := Except String statement.Result

/-- The rows that a query for users returns. -/
structure ListsUsers (tables : AccountTables) (find : FindUser) (list : List User) : Prop where
  nodup : (list.map User.id).Nodup
  found : ∀ user, user ∈ list -> tables.users user.id = some user ∧ find.finds user = true
  complete : find.limit = none -> ∀ id user, tables.users id = some user ->
    find.finds user = true -> user ∈ list

structure ListsUserSettings (tables : AccountTables) (find : FindUserSetting)
    (list : List RawUserSetting) : Prop where
  nodup : list.Nodup
  found : ∀ raw, raw ∈ list ↔ tables.userSettings raw.userId raw.key = some raw.value ∧
    find.finds raw.userId raw.key = true

/-- The empty name stands for all settings. -/
structure ListsInstanceSettings (tables : AccountTables) (name : String)
    (list : List RawInstanceSetting) : Prop where
  nodup : list.Nodup
  found : ∀ raw, raw ∈ list ↔ tables.instanceSettings raw.name = some raw.value ∧
    (name = "" ∨ raw.name = name)

/-- The keys of the settings of a user. -/
def ListsKeys (tables : AccountTables) (userId : Nat) (keys : List UserSettingKey) : Prop :=
  ∀ key, key ∈ keys ↔ (tables.userSettings userId key).isSome

/-- `AUTOINCREMENT` gives a new user an unused id. -/
def Creates (before : AccountTables) (create : CreateUser) (user : User) (after : AccountTables) :
    Prop :=
  before.users user.id = none ∧ user = ⟨user.id, .normal, create.username, create.role⟩ ∧
    after = before.putUser user.id (some user)

/-- A call that succeeds. -/
def Succeeds (before : AccountTables) :
    (statement : Statement) -> statement.Result -> AccountTables -> Prop
  | .createUser create, user, after =>
      Creates before create user after
  | .updateUser update, user, after =>
      (before.users update.id).map update.apply = some user ∧
        after = before.putUser update.id (some user)
  | .listUsers find, list, after =>
      after = before ∧ ListsUsers before find list
  | .deleteUser id, keys, after =>
      ListsKeys before id keys ∧
        after = { before.putUser id none with
          userSettings := Function.update before.userSettings id fun _ => none }
  | .upsertUserSetting upsert, returned, after =>
      returned = upsert ∧ after = before.putUserSetting upsert
  | .listUserSettings find, list, after =>
      after = before ∧ ListsUserSettings before find list
  | .deleteUserSettings delete, _, after =>
      after = { before with
        userSettings := fun userId key =>
          if delete.finds userId key then none else before.userSettings userId key }
  | .upsertInstanceSetting upsert, returned, after =>
      returned = upsert ∧ after = before.putInstanceSetting upsert
  | .listInstanceSettings name, list, after =>
      after = before ∧ ListsInstanceSettings before name list

/-- The calls that MySQL answers with a second query, for the row that it wrote. -/
def Statement.readsBack : Statement -> Prop
  | .createUser _ | .updateUser _ => True
  | _ => False

/-- A call either succeeds or fails and changes nothing.  When the row is read
back, the call can also fail after the row is written. -/
def Runs : Pool.Effect AccountTables Statement Statement.Reply
  | before, statement, .ok result, after => Succeeds before statement result after
  | before, statement, .error _, after => after = before ∨
      statement.readsBack ∧ Exists fun result => Succeeds before statement result after

/-! ## The caches -/

/-- The keys of the three caches. -/
inductive CacheKey where
  | user (id : Nat)
  | userSetting (userId : Nat) (key : UserSettingKey)
  | instanceSetting (name : String)
deriving DecidableEq

inductive CachedValue where
  | user (user : User)
  | userSetting (setting : UserSettingMessage)
  | instanceSetting (setting : InstanceSetting)
deriving DecidableEq

/-- A program of the store. -/
abbrev StoreProgram (α : Type) : Type := CacheProgram CacheKey CachedValue Statement.Reply α

/-- `Cache.Get` -/
def cacheGet (key : CacheKey) : StoreProgram (Option CachedValue) :=
  .perform (.get key id) .done

/-- `Cache.Set` -/
def cacheSet (key : CacheKey) (value : CachedValue) : StoreProgram Unit :=
  .perform (.set key value) .done

/-- `Cache.Delete` -/
def cacheDelete (key : CacheKey) : StoreProgram Unit := .perform (.evict key) .done

def driver (statement : Statement) : StoreProgram statement.Reply :=
  .perform (.call statement) .done

/-! ## Users -/

/-- Put the result of a call into the user cache. -/
def cachingUser (reply : Except String User) : StoreProgram (Except String User) :=
  match reply with
  | .error cause => return .error cause
  | .ok user => do
      cacheSet (.user user.id) (.user user)
      return .ok user

def createUser (create : CreateUser) : StoreProgram (Except String User) := do
  let created ← driver (.createUser create)
  cachingUser created

/-- The lock of the source is left out: it only excludes schedules. -/
def createUserIfNoUsers (create : CreateUser) : StoreProgram (Except String (Option User)) := do
  match ← driver (.listUsers { limit := some 1 }) with
  | .error cause => return .error cause
  | .ok (_ :: _) => return .ok none
  | .ok [] =>
      match ← createUser create with
      | .error cause => return .error cause
      | .ok user => return .ok (some user)

def updateUser (update : UpdateUser) : StoreProgram (Except String User) := do
  let updated ← driver (.updateUser update)
  cachingUser updated

def cacheUsers : List User -> StoreProgram Unit
  | [] => return ()
  | user :: rest => do
      cacheSet (.user user.id) (.user user)
      cacheUsers rest

def listUsers (find : FindUser) : StoreProgram (Except String (List User)) := do
  match ← driver (.listUsers find) with
  | .error cause => return .error cause
  | .ok list =>
      cacheUsers list
      return .ok list

/-- The part of `GetUser` after the cache. -/
def getUserFromList (find : FindUser) : StoreProgram (Except String (Option User)) := do
  match ← listUsers find with
  | .error cause => return .error cause
  | .ok [] => return .ok none
  | .ok (user :: _) =>
      cacheSet (.user user.id) (.user user)
      return .ok (some user)

def getUser (find : FindUser) : StoreProgram (Except String (Option User)) :=
  match find.id with
  | none => getUserFromList find
  | some id => do
      match ← cacheGet (.user id) with
      | some (.user user) => return .ok (some user)
      | _ => getUserFromList find

def deleteSettingKeys (userId : Nat) : List UserSettingKey -> StoreProgram Unit
  | [] => return ()
  | key :: rest => do
      cacheDelete (.userSetting userId key)
      deleteSettingKeys userId rest

/-- `deleteUserCache` -/
def deleteUserCache (userId : Nat) (keys : List UserSettingKey) : StoreProgram Unit := do
  cacheDelete (.user userId)
  deleteSettingKeys userId keys

def deleteUser (id : Nat) : StoreProgram (Except String (List UserSettingKey)) := do
  match ← driver (.deleteUser id) with
  | .error cause => return .error cause
  | .ok keys =>
      deleteUserCache id keys
      return .ok keys

/-! ## User settings -/

variable (codecs : SettingCodecs)

/-- The part of `UpsertUserSetting` after the driver. -/
def cacheUpserted (returned : RawUserSetting) : StoreProgram (Except String UserSettingMessage) :=
  match convertUserSettingFromRaw codecs returned with
  | .error cause => return .error cause
  | .ok none => return .error "unexpected nil user setting"
  | .ok (some setting) => do
      cacheSet (.userSetting setting.userId setting.value.key) (.userSetting setting)
      return .ok setting

def upsertUserSetting (upsert : UserSettingMessage) :
    StoreProgram (Except String UserSettingMessage) :=
  match convertUserSettingToRaw codecs upsert with
  | .error cause => return .error cause
  | .ok raw => do
      match ← driver (.upsertUserSetting raw) with
      | .error cause => return .error cause
      | .ok returned => cacheUpserted codecs returned

/-- The loop of `ListUserSettings`. -/
def cacheUserSettings : List RawUserSetting ->
    StoreProgram (Except String (List UserSettingMessage))
  | [] => return .ok []
  | raw :: rest =>
      match convertUserSettingFromRaw codecs raw with
      | .error cause => return .error cause
      | .ok none => cacheUserSettings rest
      | .ok (some setting) => do
          cacheSet (.userSetting setting.userId setting.value.key) (.userSetting setting)
          match ← cacheUserSettings rest with
          | .error cause => return .error cause
          | .ok settings => return .ok (setting :: settings)

def listUserSettings (find : FindUserSetting) :
    StoreProgram (Except String (List UserSettingMessage)) := do
  match ← driver (.listUserSettings find) with
  | .error cause => return .error cause
  | .ok list => cacheUserSettings codecs list

/-- The part of `GetUserSetting` after the cache. -/
def getUserSettingFromList (find : FindUserSetting) :
    StoreProgram (Except String (Option UserSettingMessage)) := do
  match ← listUserSettings codecs find with
  | .error cause => return .error cause
  | .ok [] => return .ok none
  | .ok [setting] =>
      cacheSet (.userSetting setting.userId setting.value.key) (.userSetting setting)
      return .ok (some setting)
  | .ok _ => return .error "expected 1 user setting"

def getUserSetting (find : FindUserSetting) :
    StoreProgram (Except String (Option UserSettingMessage)) :=
  match find.userId with
  | none => getUserSettingFromList codecs find
  | some userId => do
      match ← cacheGet (.userSetting userId find.key) with
      | some (.userSetting setting) => return .ok (some setting)
      | _ => getUserSettingFromList codecs find

def deleteSettings : List UserSettingMessage -> StoreProgram Unit
  | [] => return ()
  | setting :: rest => do
      cacheDelete (.userSetting setting.userId setting.value.key)
      deleteSettings rest

def deleteUserSettings (delete : FindUserSetting) : StoreProgram (Except String Unit) := do
  match ← listUserSettings codecs delete with
  | .error cause => return .error cause
  | .ok existing =>
      match ← driver (.deleteUserSettings delete) with
      | .error cause => return .error cause
      | .ok () =>
          deleteSettings existing
          return .ok ()

/-! ## Instance settings -/

/-- The part of `UpsertInstanceSetting` after the driver.  The kinds of
settings that can be upserted can all be converted. -/
def cacheUpsertedInstance (returned : RawInstanceSetting) :
    StoreProgram (Except String InstanceSetting) :=
  match convertInstanceSettingFromRaw codecs returned with
  | .error cause => return .error ("Failed to convert instance setting: " ++ cause)
  | .ok none => return .error "unsupported instance setting key"
  | .ok (some setting) => do
      cacheSet (.instanceSetting setting.key.string) (.instanceSetting setting)
      return .ok setting

def upsertInstanceSetting (upsert : InstanceSetting) :
    StoreProgram (Except String InstanceSetting) :=
  match marshalInstanceSetting codecs upsert with
  | .error cause => return .error ("failed to marshal instance setting value: " ++ cause)
  | .ok value => do
      match ← driver (.upsertInstanceSetting ⟨upsert.key.string, value⟩) with
      | .error cause => return .error ("Failed to upsert instance setting: " ++ cause)
      | .ok returned => cacheUpsertedInstance codecs returned

/-- The loop of `ListInstanceSettings`. -/
def cacheInstanceSettings : List RawInstanceSetting ->
    StoreProgram (Except String (List InstanceSetting))
  | [] => return .ok []
  | raw :: rest =>
      match convertInstanceSettingFromRaw codecs raw with
      | .error cause => return .error ("Failed to convert instance setting: " ++ cause)
      | .ok none => cacheInstanceSettings rest
      | .ok (some setting) => do
          cacheSet (.instanceSetting setting.key.string) (.instanceSetting setting)
          match ← cacheInstanceSettings rest with
          | .error cause => return .error cause
          | .ok settings => return .ok (setting :: settings)

def listInstanceSettings (name : String) : StoreProgram (Except String (List InstanceSetting)) := do
  match ← driver (.listInstanceSettings name) with
  | .error cause => return .error cause
  | .ok list => cacheInstanceSettings codecs list

/-- The part of `GetInstanceSetting` after the cache. -/
def getInstanceSettingFromList (name : String) :
    StoreProgram (Except String (Option InstanceSetting)) := do
  match ← listInstanceSettings codecs name with
  | .error cause => return .error cause
  | .ok [] => return .ok none
  | .ok [setting] => return .ok (some setting)
  | .ok _ => return .error ("found multiple instance settings with key " ++ name)

def getInstanceSetting (name : String) : StoreProgram (Except String (Option InstanceSetting)) := do
  match ← cacheGet (.instanceSetting name) with
  | some (.instanceSetting setting) => return .ok (some setting)
  | _ => getInstanceSettingFromList codecs name

/-- A cached instance setting with the defaults filled in. -/
def CachedValue.withDefaults : CachedValue -> CachedValue
  | .instanceSetting setting => .instanceSetting setting.withDefaults
  | value => value

/-- `Cache.Get` of a caller that fills the defaults into the object. -/
def cacheGetWithDefaults (key : CacheKey) : StoreProgram (Option CachedValue) :=
  .perform (.get key CachedValue.withDefaults) .done

/-- What a typed getter does with the setting that it found: it fills the
defaults into the message and puts that into the cache again. -/
def getTypedInstanceSetting (key : InstanceSettingKey) :
    Except String (Option InstanceSetting) -> StoreProgram (Except String InstanceSetting)
  | .error cause => return .error cause
  | .ok found => do
      let setting := (found.getD (.empty key)).withDefaults
      cacheSet (.instanceSetting key.string) (.instanceSetting setting)
      return .ok setting

/-- `GetInstanceBasicSetting` and the other getters of one kind of setting.
The defaults go into the object that the cache holds. -/
def getInstanceSettingOf (key : InstanceSettingKey) :
    StoreProgram (Except String InstanceSetting) := do
  match ← cacheGetWithDefaults (.instanceSetting key.string) with
  | some (.instanceSetting setting) => getTypedInstanceSetting key (.ok (some setting))
  | _ =>
      let found ← getInstanceSettingFromList codecs key.string
      getTypedInstanceSetting key found

end Caching
end Store
end Memos
