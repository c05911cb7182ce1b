import Memos.Store.Caching

namespace Memos
namespace Store
namespace Caching

open Library

/-!
# Lists in user settings

Refresh tokens, personal access tokens and webhooks are lists in one setting of
their user.  An operation on a list obtains the setting, changes the list and
upserts the whole setting.  The setting that it obtains is the object in the
cache, and some operations change this object before the upsert.
-/

/-- A change of a user setting in the cache. -/
def CachedValue.changeSetting (change : UserSettingMessage -> UserSettingMessage) :
    CachedValue -> CachedValue
  | .userSetting setting => .userSetting (change setting)
  | value => value

/-- One operation on a list: what becomes of the object in the cache, and the
setting to upsert, both computed from the setting that was there. -/
structure SettingChange where
  userId : Nat
  key : UserSettingKey
  object : UserSettingMessage -> UserSettingMessage := id
  compute : Option UserSettingMessage -> Except String UserSettingMessage

/-- `Cache.Get` of a caller that changes the object. -/
def cacheGetChanging (userId : Nat) (key : UserSettingKey)
    (change : UserSettingMessage -> UserSettingMessage) : StoreProgram (Option CachedValue) :=
  .perform (.get (.userSetting userId key) (CachedValue.changeSetting change)) .done

variable (codecs : SettingCodecs)

namespace SettingChange

variable (change : SettingChange)

/-- The part of `GetUserSetting` after the cache.  The object is changed when it
is in the cache. -/
def obtainFromList : StoreProgram (Except String (Option UserSettingMessage)) := do
  match ← listUserSettings codecs ⟨some change.userId, change.key⟩ with
  | .error cause => return .error cause
  | .ok [] => return .ok none
  | .ok [setting] =>
      cacheSet (.userSetting setting.userId setting.value.key) (.userSetting (change.object setting))
      return .ok (some setting)
  | .ok _ => return .error "expected 1 user setting"

/-- `GetUserSetting`, with the change of the object that it returns. -/
def obtain : StoreProgram (Except String (Option UserSettingMessage)) := do
  match ← cacheGetChanging change.userId change.key change.object with
  | some (.userSetting setting) => return .ok (some setting)
  | _ => obtainFromList codecs change

/-- The part of an operation after it has obtained the setting. -/
def write (found : Option UserSettingMessage) : StoreProgram (Except String Unit) :=
  match change.compute found with
  | .error cause => return .error cause
  | .ok setting => do
      match ← upsertUserSetting codecs setting with
      | .error cause => return .error cause
      | .ok _ => return .ok ()

def program : StoreProgram (Except String Unit) := do
  match ← obtain codecs change with
  | .error cause => return .error cause
  | .ok found => write codecs change found

end SettingChange

/-! ## The lists -/

/-- `GetUserRefreshTokens` -/
def getUserRefreshTokens : Option UserSettingMessage -> List RefreshToken
  | none => []
  | some setting => setting.refreshTokens

/-- `GetUserPersonalAccessTokens` -/
def getUserPersonalAccessTokens : Option UserSettingMessage -> List PersonalAccessToken
  | none => []
  | some setting => setting.personalAccessTokens

/-- `GetUserWebhooks` -/
def getUserWebhooks : Option UserSettingMessage -> List Webhook
  | none => []
  | some setting => setting.webhooks

/-- Change the first element that is selected. -/
def changeFirst {α : Type} (selects : α -> Bool) (change : α -> α) : List α -> List α
  | [] => []
  | first :: rest =>
      if selects first then change first :: rest else first :: changeFirst selects change rest

/-! ## Refresh tokens -/

def addUserRefreshToken (userId : Nat) (token : RefreshToken) : SettingChange where
  userId := userId
  key := .refreshTokens
  compute := fun found =>
    let tokens := getUserRefreshTokens found
    .ok ⟨userId, .refreshTokens (tokens ++ [token])⟩

def removeUserRefreshToken (userId : Nat) (tokenId : String) : SettingChange where
  userId := userId
  key := .refreshTokens
  compute := fun found =>
    let existingTokens := getUserRefreshTokens found
    .ok ⟨userId, .refreshTokens (existingTokens.filter fun token => token.tokenId ≠ tokenId)⟩

/-! ## Personal access tokens -/

def addUserPersonalAccessToken (userId : Nat) (token : PersonalAccessToken) : SettingChange where
  userId := userId
  key := .personalAccessTokens
  compute := fun found =>
    let tokens := getUserPersonalAccessTokens found
    .ok ⟨userId, .personalAccessTokens (tokens ++ [token])⟩

def removeUserPersonalAccessToken (userId : Nat) (tokenId : String) : SettingChange where
  userId := userId
  key := .personalAccessTokens
  compute := fun found =>
    let existingTokens := getUserPersonalAccessTokens found
    .ok ⟨userId, .personalAccessTokens (existingTokens.filter fun token => token.tokenId ≠ tokenId)⟩

/-- The loop of `UpdatePATLastUsed`, which changes the tokens in place. -/
def setLastUsed (tokenId : String) (lastUsed : Option Int) :
    List PersonalAccessToken -> List PersonalAccessToken :=
  changeFirst (fun token => token.tokenId = tokenId) fun token =>
    { token with lastUsedAt := lastUsed }

def updatePATLastUsed (userId : Nat) (tokenId : String) (lastUsed : Option Int) :
    SettingChange where
  userId := userId
  key := .personalAccessTokens
  object := fun setting =>
    match setting with
    | ⟨owner, .personalAccessTokens tokens⟩ =>
        ⟨owner, .personalAccessTokens (setLastUsed tokenId lastUsed tokens)⟩
    | other => other
  compute := fun found =>
    let tokens := getUserPersonalAccessTokens found
    .ok ⟨userId, .personalAccessTokens (setLastUsed tokenId lastUsed tokens)⟩

/-! ## Webhooks -/

/-- Every webhook with this id is replaced, or the webhook is appended. -/
def addUserWebhook (userId : Nat) (webhook : Webhook) : SettingChange where
  userId := userId
  key := .webhooks
  compute := fun found =>
    let existingWebhooks := getUserWebhooks found
    let updatedWebhooks := existingWebhooks.map fun existing =>
      if existing.id = webhook.id then webhook else existing
    let webhookExists := existingWebhooks.any fun existing => existing.id = webhook.id
    .ok ⟨userId, .webhooks (if webhookExists then updatedWebhooks else updatedWebhooks ++ [webhook])⟩

def removeUserWebhook (userId : Nat) (webhookId : String) : SettingChange where
  userId := userId
  key := .webhooks
  compute := fun found =>
    let oldWebhooks := getUserWebhooks found
    .ok ⟨userId, .webhooks (oldWebhooks.filter fun webhook => webhookId ≠ webhook.id)⟩

/-- The loop of `UpdateUserWebhook`, which changes the list in place. -/
def replaceWebhook (webhook : Webhook) : List Webhook -> List Webhook :=
  changeFirst (fun existing => existing.id = webhook.id) fun _ => webhook

def updateUserWebhook (userId : Nat) (webhook : Webhook) : SettingChange where
  userId := userId
  key := .webhooks
  object := fun setting =>
    match setting with
    | ⟨owner, .webhooks webhooks⟩ => ⟨owner, .webhooks (replaceWebhook webhook webhooks)⟩
    | other => other
  compute := fun found =>
    let webhooks := getUserWebhooks found
    .ok ⟨userId, .webhooks (replaceWebhook webhook webhooks)⟩

/-! ## An operation alone -/

/-- The setting that is stored, as the store reads it. -/
def AccountTables.storedSetting (tables : AccountTables) (userId : Nat) (key : UserSettingKey) :
    Except String (Option UserSettingMessage) :=
  match tables.userSettings userId key with
  | none => .ok none
  | some value => convertUserSettingFromRaw codecs ⟨userId, key, value⟩

/-- The setting that `GetUserSetting` returns. -/
def readUserSetting (state : Cached AccountTables CacheKey CachedValue) (userId : Nat)
    (key : UserSettingKey) : Except String (Option UserSettingMessage) :=
  match state.cache (.userSetting userId key) with
  | some (.userSetting setting) => .ok (some setting)
  | _ => state.db.storedSetting codecs userId key

/-- A driver that fails at these calls. -/
def Faulty (faults : Statement -> Option String) :
    Pool.Effect AccountTables Statement Statement.Reply
  | before, statement, .ok result, after =>
      faults statement = none ∧ Succeeds before statement result after
  | before, statement, .error cause, after => faults statement = some cause ∧ after = before

/-- The setting that the operation obtains. -/
def SettingChange.obtains (change : SettingChange) (faults : Statement -> Option String)
    (state : Cached AccountTables CacheKey CachedValue) : Option UserSettingMessage :=
  match state.cache (.userSetting change.userId change.key) with
  | some (.userSetting setting) => some setting
  | _ =>
      if faults (.listUserSettings ⟨some change.userId, change.key⟩) = none then
        match state.db.storedSetting codecs change.userId change.key with
        | .ok found => found
        | .error _ => none
      else none

/-- The entry of a setting. -/
def putEntry (state : Cached AccountTables CacheKey CachedValue) (userId : Nat)
    (key : UserSettingKey) (setting : UserSettingMessage) :
    Cached AccountTables CacheKey CachedValue :=
  { state with
    cache := Function.update state.cache (.userSetting userId key) (some (.userSetting setting)) }

variable {codecs} {faults : Statement -> Option String} {change : SettingChange}
  {state after : Cached AccountTables CacheKey CachedValue}

variable {userId : Nat} {key : UserSettingKey}

/-- A query for one key finds its row. -/
theorem lists_setting {tables : AccountTables} {list : List RawUserSetting} (specified : key ≠ .unspecified)
    (lists : ListsUserSettings tables ⟨some userId, key⟩ list) :
    list = match tables.userSettings userId key with
      | none => []
      | some value => [⟨userId, key, value⟩] := by
  have found : ∀ raw, raw ∈ list ↔ tables.userSettings raw.userId raw.key = some raw.value ∧
      raw.userId = userId ∧ raw.key = key := by
    intro raw
    rw [lists.found raw]
    simp [FindUserSetting.finds, specified]
  cases stored : tables.userSettings userId key with
  | none =>
      refine List.eq_nil_iff_forall_not_mem.mpr fun raw member => ?_
      rcases (found raw).mp member with ⟨row, rfl, rfl⟩
      rw [stored] at row
      cases row
  | some value =>
      have only : ∀ raw, raw ∈ list -> raw = ⟨userId, key, value⟩ := by
        intro raw member
        rcases (found raw).mp member with ⟨row, rfl, rfl⟩
        rw [stored] at row
        cases row
        rfl
      have member : (⟨userId, key, value⟩ : RawUserSetting) ∈ list :=
        (found _).mpr ⟨stored, rfl, rfl⟩
      have nodup := lists.nodup
      rcases list with _ | ⟨first, _ | ⟨second, rest⟩⟩
      · cases member
      · rw [only first List.mem_cons_self]
      · have same : first = second := by
          rw [only first List.mem_cons_self, only second (by simp)]
        rw [same] at nodup
        simp at nodup

/-- A stored setting has the user and the key of its row. -/
theorem storedSetting_key {tables : AccountTables} {setting : UserSettingMessage}
    (stored : tables.storedSetting codecs userId key = .ok (some setting)) :
    setting.userId = userId ∧ setting.value.key = key := by
  unfold AccountTables.storedSetting at stored
  split at stored
  · cases stored
  · exact convertUserSettingFromRaw_key stored

/-- What the query for one key returns, and the entry that it leaves. -/
theorem executes_listUserSettings {result : Except String (List UserSettingMessage)} (specified : key ≠ .unspecified)
    (ran : Pool.Executes (CacheEffect (Faulty faults)) state
      (listUserSettings codecs ⟨some userId, key⟩) result after) :
    (Exists fun cause => faults (.listUserSettings ⟨some userId, key⟩) = some cause ∧
      result = .error cause ∧ after = state) ∨
    (faults (.listUserSettings ⟨some userId, key⟩) = none ∧
      match state.db.storedSetting codecs userId key with
      | .error cause => result = .error cause ∧ after = state
      | .ok none => result = .ok [] ∧ after = state
      | .ok (some setting) => result = .ok [setting] ∧ after = putEntry state userId key setting) := by
  rcases ran with ⟨reply, ⟨db, cache⟩, ⟨sameCache, replied⟩, rest⟩
  cases (sameCache : cache = state.cache)
  cases reply with
  | error cause =>
      rcases replied with ⟨fault, unchanged⟩
      cases (unchanged : db = state.db)
      rcases rest with ⟨rfl, rfl⟩
      exact .inl ⟨cause, fault, rfl, rfl⟩
  | ok list =>
      rcases replied with ⟨works, unchanged, lists⟩
      cases (unchanged : db = state.db)
      have listed := lists_setting specified lists
      refine .inr ⟨works, ?_⟩
      unfold AccountTables.storedSetting
      cases stored : state.db.userSettings userId key with
      | none =>
          rw [stored] at listed
          cases listed
          rcases rest with ⟨rfl, rfl⟩
          exact ⟨rfl, rfl⟩
      | some value =>
          rw [stored] at listed
          cases listed
          change Pool.Executes _ _ (cacheUserSettings codecs _) _ _ at rest
          dsimp only
          cases converted : convertUserSettingFromRaw codecs ⟨userId, key, value⟩ with
          | error cause =>
              rw [cacheUserSettings, converted] at rest
              rcases rest with ⟨rfl, rfl⟩
              exact ⟨rfl, rfl⟩
          | ok found =>
              cases found with
              | none =>
                  rw [cacheUserSettings, converted] at rest
                  rcases rest with ⟨rfl, rfl⟩
                  exact ⟨rfl, rfl⟩
              | some setting =>
                  rw [cacheUserSettings, converted] at rest
                  rcases convertUserSettingFromRaw_key converted with ⟨sameUser, sameKey⟩
                  rcases rest with ⟨_, _, rfl, rfl, rfl⟩
                  refine ⟨rfl, ?_⟩
                  rw [sameUser, sameKey]
                  rfl

/-- The state after an operation has obtained the setting. -/
def SettingChange.objectChanged (codecs : SettingCodecs) (change : SettingChange)
    (faults : Statement -> Option String) (state : Cached AccountTables CacheKey CachedValue) :
    Cached AccountTables CacheKey CachedValue :=
  match change.obtains codecs faults state with
  | none => state
  | some setting => putEntry state change.userId change.key (change.object setting)

theorem putEntry_cache (userId : Nat) (key : UserSettingKey) (setting : UserSettingMessage) :
    (putEntry state userId key setting).cache (.userSetting userId key) =
      some (.userSetting setting) :=
  Function.update_self _ _ _

theorem putEntry_putEntry (userId : Nat) (key : UserSettingKey) (first second : UserSettingMessage) :
    putEntry (putEntry state userId key first) userId key second =
      putEntry state userId key second := by
  simp only [putEntry, Function.update_idem]

variable {result : Except String (Option UserSettingMessage)}

/-- The part after a miss. -/
theorem executes_obtainFromList (specified : change.key ≠ .unspecified)
    (ran : Pool.Executes (CacheEffect (Faulty faults)) state (change.obtainFromList codecs) result
      after) :
    (Exists fun cause => result = .error cause ∧ after = state ∧
      (faults (.listUserSettings ⟨some change.userId, change.key⟩) = none ->
        state.db.storedSetting codecs change.userId change.key = .error cause)) ∨
    (faults (.listUserSettings ⟨some change.userId, change.key⟩) = none ∧
      result = state.db.storedSetting codecs change.userId change.key ∧
      (result = .ok none ∧ after = state ∨ Exists fun setting => result = .ok (some setting) ∧
        after = putEntry state change.userId change.key (change.object setting))) := by
  rcases Pool.executes_bind.mp ran with ⟨listed, between, lists, rest⟩
  rcases executes_listUserSettings specified lists with ⟨cause, fault, rfl, rfl⟩ | ⟨works, lists⟩
  · rcases rest with ⟨rfl, rfl⟩
    refine .inl ⟨cause, rfl, rfl, fun works => ?_⟩
    rw [works] at fault
    cases fault
  · cases stored : state.db.storedSetting codecs change.userId change.key with
    | error cause =>
        rw [stored] at lists
        rcases lists with ⟨rfl, rfl⟩
        rcases rest with ⟨rfl, rfl⟩
        exact .inl ⟨cause, rfl, rfl, fun _ => rfl⟩
    | ok found =>
        cases found with
        | none =>
            rw [stored] at lists
            rcases lists with ⟨rfl, rfl⟩
            rcases rest with ⟨rfl, rfl⟩
            exact .inr ⟨works, rfl, .inl ⟨rfl, rfl⟩⟩
        | some setting =>
            rw [stored] at lists
            rcases lists with ⟨rfl, rfl⟩
            rcases storedSetting_key stored with ⟨sameUser, sameKey⟩
            rcases rest with ⟨_, _, rfl, rfl, rfl⟩
            refine .inr ⟨works, rfl, .inr ⟨setting, rfl, ?_⟩⟩
            rw [sameUser, sameKey]
            exact putEntry_putEntry _ _ _ _

/-- A miss leaves the entry as it is. -/
theorem changeSetting_miss {change : UserSettingMessage -> UserSettingMessage}
    (missed : ∀ setting, state.cache (.userSetting userId key) ≠ some (.userSetting setting)) :
    Function.update state.cache (.userSetting userId key)
      ((state.cache (.userSetting userId key)).map (CachedValue.changeSetting change)) =
      state.cache := by
  have same : (state.cache (.userSetting userId key)).map (CachedValue.changeSetting change) =
      state.cache (.userSetting userId key) := by
    cases cached : state.cache (.userSetting userId key) with
    | none => rfl
    | some value =>
        cases value with
        | userSetting setting => exact absurd cached (missed setting)
        | user user => rfl
        | instanceSetting setting => rfl
  rw [same, Function.update_eq_self]

section Entries

variable {setting : UserSettingMessage}

theorem SettingChange.obtains_hit
    (hit : state.cache (.userSetting change.userId change.key) = some (.userSetting setting)) :
    change.obtains codecs faults state = some setting := by
  unfold obtains
  rw [hit]

theorem SettingChange.obtains_miss
    (missed : ∀ setting,
      state.cache (.userSetting change.userId change.key) ≠ some (.userSetting setting)) :
    change.obtains codecs faults state =
      if faults (.listUserSettings ⟨some change.userId, change.key⟩) = none then
        match state.db.storedSetting codecs change.userId change.key with
        | .ok found => found
        | .error _ => none
      else none := by
  unfold obtains
  split
  · rename_i setting hit
    exact absurd hit (missed setting)
  · rfl

variable {userId : Nat} {key : UserSettingKey}

theorem readUserSetting_hit (hit : state.cache (.userSetting userId key) = some (.userSetting setting)) :
    readUserSetting codecs state userId key = .ok (some setting) := by
  unfold readUserSetting
  rw [hit]

theorem readUserSetting_miss
    (missed : ∀ setting, state.cache (.userSetting userId key) ≠ some (.userSetting setting)) :
    readUserSetting codecs state userId key = state.db.storedSetting codecs userId key := by
  unfold readUserSetting
  split
  · rename_i setting hit
    exact absurd hit (missed setting)
  · rfl

end Entries

theorem executes_obtain (specified : change.key ≠ .unspecified)
    (ran : Pool.Executes (CacheEffect (Faulty faults)) state (change.obtain codecs) result after) :
    after = change.objectChanged codecs faults state ∧
      (faults (.listUserSettings ⟨some change.userId, change.key⟩) = none ->
        result = readUserSetting codecs state change.userId change.key) ∧
      ((change.obtains codecs faults state = none ∧ Exists fun cause => result = .error cause) ∨
        (result = .ok (change.obtains codecs faults state) ∧
          result = readUserSetting codecs state change.userId change.key)) := by
  rcases ran with ⟨reply, between, ⟨rfl, rfl⟩, rest⟩
  unfold SettingChange.objectChanged
  by_cases hit : Exists fun setting =>
      state.cache (.userSetting change.userId change.key) = some (.userSetting setting)
  · rcases hit with ⟨setting, cached⟩
    rw [SettingChange.obtains_hit cached, readUserSetting_hit cached]
    rw [cached] at rest
    rcases rest with ⟨rfl, rfl⟩
    exact ⟨rfl, fun _ => rfl, .inr ⟨rfl, rfl⟩⟩
  · have missed := fun setting same => hit ⟨setting, same⟩
    rw [changeSetting_miss missed] at rest
    have fromList : Pool.Executes (CacheEffect (Faulty faults)) state
        (change.obtainFromList codecs) result after := by
      rcases cached : state.cache (.userSetting change.userId change.key) with
        _ | user | setting | setting
      · rw [cached] at rest
        exact rest
      · rw [cached] at rest
        exact rest
      · exact absurd cached (missed setting)
      · rw [cached] at rest
        exact rest
    rw [SettingChange.obtains_miss missed, readUserSetting_miss missed]
    rcases executes_obtainFromList specified fromList with
      ⟨cause, rfl, rfl, unreadable⟩ | ⟨works, stored, found⟩
    · have nothing : (if faults (.listUserSettings ⟨some change.userId, change.key⟩) = none then
          match after.db.storedSetting codecs change.userId change.key with
          | .ok found => found
          | .error _ => none
        else none) = none := by
        split
        · rename_i works
          rw [unreadable works]
        · rfl
      rw [nothing]
      exact ⟨rfl, fun works => (unreadable works).symm, .inl ⟨rfl, cause, rfl⟩⟩
    · rw [if_pos works, ← stored]
      rcases found with ⟨rfl, rfl⟩ | ⟨setting, rfl, rfl⟩
      · exact ⟨rfl, fun _ => rfl, .inr ⟨rfl, rfl⟩⟩
      · exact ⟨rfl, fun _ => rfl, .inr ⟨rfl, rfl⟩⟩

theorem changeSetting_id : CachedValue.changeSetting id = id := by
  funext value
  cases value <;> rfl

/-- An operation that leaves the object alone obtains what `GetUserSetting`
returns. -/
theorem obtain_of_id (same : change.object = id) :
    change.obtain codecs = getUserSetting codecs ⟨some change.userId, change.key⟩ := by
  unfold SettingChange.obtain SettingChange.obtainFromList cacheGetChanging
  rw [same, changeSetting_id]
  rfl

/-- Without faults, `GetUserSetting` returns what is read from the entry or the
row. -/
theorem executes_getUserSetting (specified : key ≠ .unspecified)
    (ran : Pool.Executes (CacheEffect (Faulty fun _ => none)) state
      (getUserSetting codecs ⟨some userId, key⟩) result after) :
    result = readUserSetting codecs state userId key := by
  let reads : SettingChange := { userId := userId, key := key, compute := fun _ => .error "" }
  have specifiedKey : reads.key ≠ .unspecified := specified
  have obtains : Pool.Executes (CacheEffect (Faulty fun _ => none)) state (reads.obtain codecs)
      result after := by
    rw [obtain_of_id (rfl : reads.object = id)]
    exact ran
  exact (executes_obtain specifiedKey obtains).2.1 rfl

/-! ### The upsert -/

/-- What an upsert returns, and the row and the entry that it leaves. -/
theorem executes_upsertUserSetting {upsert : UserSettingMessage} {result : Except String UserSettingMessage}
    (ran : Pool.Executes (CacheEffect (Faulty faults)) state (upsertUserSetting codecs upsert) result
      after) :
    (Exists fun cause => result = .error cause ∧ after = state) ∨
      Exists fun raw => convertUserSettingToRaw codecs upsert = .ok raw ∧ result = .ok upsert ∧
        after = putEntry { state with db := state.db.putUserSetting raw } upsert.userId
          upsert.value.key upsert := by
  unfold upsertUserSetting at ran
  cases marshalled : convertUserSettingToRaw codecs upsert with
  | error cause =>
      rw [marshalled] at ran
      rcases ran with ⟨rfl, rfl⟩
      exact .inl ⟨cause, rfl, rfl⟩
  | ok raw =>
      rw [marshalled] at ran
      rcases ran with ⟨reply, ⟨db, cache⟩, ⟨sameCache, replied⟩, rest⟩
      cases (sameCache : cache = state.cache)
      cases reply with
      | error cause =>
          cases (replied.2 : db = state.db)
          rcases rest with ⟨rfl, rfl⟩
          exact .inl ⟨cause, rfl, rfl⟩
      | ok returned =>
          rcases replied with ⟨_, same, changed⟩
          cases (same : returned = raw)
          cases (changed : db = state.db.putUserSetting raw)
          have converted := convertUserSettingFromRaw_toRaw codecs marshalled
          change Pool.Executes _ _ (cacheUpserted codecs raw) _ _ at rest
          unfold cacheUpserted at rest
          rw [converted] at rest
          rcases rest with ⟨_, _, rfl, rfl, rfl⟩
          exact .inr ⟨raw, rfl, rfl, rfl⟩

/-- What an operation is meant to do to the stored settings. -/
def SettingChange.serial (codecs : SettingCodecs) (change : SettingChange)
    (tables : AccountTables) : Except String AccountTables := do
  let found ← tables.storedSetting codecs change.userId change.key
  let setting ← change.compute found
  let raw ← convertUserSettingToRaw codecs setting
  return tables.putUserSetting raw

/-- An operation alone: it fails after it has changed the object, or it upserts
what it has computed. -/
theorem executes_program {result : Except String Unit} (specified : change.key ≠ .unspecified)
    (ran : Pool.Executes (CacheEffect (Faulty faults)) state (change.program codecs) result after) :
    (Exists fun cause => result = .error cause ∧
      after = change.objectChanged codecs faults state) ∨
    Exists fun found => readUserSetting codecs state change.userId change.key = .ok found ∧
      Exists fun setting => change.compute found = .ok setting ∧
      Exists fun raw => convertUserSettingToRaw codecs setting = .ok raw ∧ result = .ok () ∧
        after = putEntry
          { change.objectChanged codecs faults state with db := state.db.putUserSetting raw }
          setting.userId setting.value.key setting := by
  rcases Pool.executes_bind.mp ran with ⟨obtained, between, obtains, rest⟩
  rcases executes_obtain specified obtains with ⟨rfl, _, ⟨_, cause, rfl⟩ | ⟨rfl, reads⟩⟩
  · rcases rest with ⟨rfl, rfl⟩
    exact .inl ⟨cause, rfl, rfl⟩
  · have sameDb : (change.objectChanged codecs faults state).db = state.db := by
      unfold SettingChange.objectChanged
      split <;> rfl
    change Pool.Executes _ _ (change.write codecs (change.obtains codecs faults state)) _ _ at rest
    unfold SettingChange.write at rest
    cases computed : change.compute (change.obtains codecs faults state) with
    | error cause =>
        rw [computed] at rest
        rcases rest with ⟨rfl, rfl⟩
        exact .inl ⟨cause, rfl, rfl⟩
    | ok setting =>
        rw [computed] at rest
        rcases Pool.executes_bind.mp rest with ⟨upserted, middle, upserts, ends⟩
        rcases executes_upsertUserSetting upserts with ⟨cause, rfl, rfl⟩ | ⟨raw, marshalled, rfl, rfl⟩
        · rcases ends with ⟨rfl, rfl⟩
          exact .inl ⟨cause, rfl, rfl⟩
        · rcases ends with ⟨rfl, rfl⟩
          rw [sameDb]
          exact .inr ⟨_, reads.symm, setting, computed, raw, marshalled, rfl, rfl⟩

end Caching
end Store
end Memos
