import Memos.Store.UserDelete

namespace Memos
namespace Store

open Library

/-!
# Settings

User and instance settings are messages in JSON columns.  The JSON codec is
third-party code: of a text that it wrote it reads the message again.  A
message holds the fields that the modelled functions use.
-/

/-- `protojson` for one kind of message. -/
structure MessageCodec (Message : Type) where
  marshal : Message -> Except String String
  unmarshal : String -> Except String Message
  unmarshal_marshal : ∀ message text, marshal message = .ok text ->
    unmarshal text = .ok message

/-- A codec that knows some messages and their texts. -/
def MessageCodec.ofTexts {Message : Type} [DecidableEq Message]
    (texts : List (Message × String)) : MessageCodec Message where
  marshal := fun message =>
    match texts.find? fun known => known.1 = message with
    | none => .error "proto: unknown message"
    | some (_, text) =>
        if (texts.find? fun known => known.2 = text).map Prod.fst = some message then .ok text
        else .error "proto: ambiguous text"
  unmarshal := fun text =>
    match texts.find? fun known => known.2 = text with
    | none => .error "proto: syntax error"
    | some (message, _) => .ok message
  unmarshal_marshal := by
    intro message text written
    split at written
    · cases written
    · split at written
      · rename_i readBack
        cases written
        rcases Option.map_eq_some_iff.mp readBack with ⟨found, hit, rfl⟩
        rw [hit]
      · cases written

/-! ## User settings -/

/-- `GeneralUserSetting` -/
structure GeneralUserSetting where
  locale : String := ""
  memoVisibility : String := ""
  theme : String := ""
deriving DecidableEq

structure Shortcut where
  id : String
  title : String
  filter : String
deriving DecidableEq

structure Webhook where
  id : String
  title : String
  url : String
deriving DecidableEq

structure RefreshToken where
  tokenId : String
  expiresAt : Option Int := none
  createdAt : Option Int := none
  description : String := ""
deriving DecidableEq

structure PersonalAccessToken where
  tokenId : String
  tokenHash : String
  description : String := ""
  expiresAt : Option Int := none
  createdAt : Option Int := none
  lastUsedAt : Option Int := none
deriving DecidableEq

/-- The value of a user setting.  Its key is the kind of the value. -/
inductive UserSettingValue where
  | general (setting : GeneralUserSetting)
  | shortcuts (shortcuts : List Shortcut)
  | webhooks (webhooks : List Webhook)
  | refreshTokens (tokens : List RefreshToken)
  | personalAccessTokens (tokens : List PersonalAccessToken)
deriving DecidableEq

def UserSettingValue.key : UserSettingValue -> UserSettingKey
  | .general _ => .general
  | .shortcuts _ => .shortcuts
  | .webhooks _ => .webhooks
  | .refreshTokens _ => .refreshTokens
  | .personalAccessTokens _ => .personalAccessTokens

/-- `storepb.UserSetting` -/
structure UserSettingMessage where
  userId : Nat
  value : UserSettingValue
deriving DecidableEq

/-- The lists in a setting, which are empty for a setting of another kind. -/
def UserSettingMessage.refreshTokens : UserSettingMessage -> List RefreshToken
  | ⟨_, .refreshTokens tokens⟩ => tokens
  | _ => []

def UserSettingMessage.personalAccessTokens : UserSettingMessage -> List PersonalAccessToken
  | ⟨_, .personalAccessTokens tokens⟩ => tokens
  | _ => []

def UserSettingMessage.webhooks : UserSettingMessage -> List Webhook
  | ⟨_, .webhooks webhooks⟩ => webhooks
  | _ => []

def UserSettingMessage.shortcuts : UserSettingMessage -> List Shortcut
  | ⟨_, .shortcuts shortcuts⟩ => shortcuts
  | _ => []

/-- `store.UserSetting`, whose key is the enumeration and not its name. -/
structure RawUserSetting where
  userId : Nat
  key : UserSettingKey
  value : String
deriving DecidableEq

/-! ## Instance settings -/

/-- `InstanceSettingKey` -/
inductive InstanceSettingKey where
  | basic
  | general
  | storage
  | memoRelated
  | tags
  | notification
  | ai
deriving DecidableEq

def InstanceSettingKey.string : InstanceSettingKey -> String
  | .basic => "BASIC"
  | .general => "GENERAL"
  | .storage => "STORAGE"
  | .memoRelated => "MEMO_RELATED"
  | .tags => "TAGS"
  | .notification => "NOTIFICATION"
  | .ai => "AI"

/-- The storage type of a new attachment. -/
inductive InstanceStorageType where
  | unspecified
  | database
  | fileSystem
  | s3
deriving DecidableEq

structure InstanceBasicSetting where
  secretKey : String := ""
  schemaVersion : String := ""
deriving DecidableEq

structure InstanceGeneralSetting where
  disallowUserRegistration : Bool := false
  disallowPasswordAuth : Bool := false
deriving DecidableEq

structure InstanceStorageSetting where
  storageType : InstanceStorageType := .unspecified
  filepathTemplate : String := ""
  uploadSizeLimitMb : Int := 0
deriving DecidableEq

structure InstanceMemoRelatedSetting where
  contentLengthLimit : Int := 0
  enableDoubleClickEdit : Bool := false
  reactions : List String := []
deriving DecidableEq

/-- The tag patterns, or no map. -/
structure InstanceTagsSetting where
  tags : Option (List String) := none
deriving DecidableEq

/-- The host of the mail server, or no settings for mail. -/
structure InstanceNotificationSetting where
  email : Option String := none
deriving DecidableEq

structure InstanceAISetting where
  providers : List String := []
deriving DecidableEq

/-- `storepb.InstanceSetting`.  Its key is the kind of the value. -/
inductive InstanceSetting where
  | basic (setting : InstanceBasicSetting)
  | general (setting : InstanceGeneralSetting)
  | storage (setting : InstanceStorageSetting)
  | memoRelated (setting : InstanceMemoRelatedSetting)
  | tags (setting : InstanceTagsSetting)
  | notification (setting : InstanceNotificationSetting)
  | ai (setting : InstanceAISetting)
deriving DecidableEq

def InstanceSetting.key : InstanceSetting -> InstanceSettingKey
  | .basic _ => .basic
  | .general _ => .general
  | .storage _ => .storage
  | .memoRelated _ => .memoRelated
  | .tags _ => .tags
  | .notification _ => .notification
  | .ai _ => .ai

/-- The empty message of a kind. -/
def InstanceSetting.empty : InstanceSettingKey -> InstanceSetting
  | .basic => .basic {}
  | .general => .general {}
  | .storage => .storage {}
  | .memoRelated => .memoRelated {}
  | .tags => .tags {}
  | .notification => .notification {}
  | .ai => .ai {}

/-- `DefaultContentLengthLimit` and `DefaultReactions` -/
def defaultContentLengthLimit : Int := 32 * 1024
def defaultReactions : List String := ["👍", "👎", "❤️", "🎉", "😄", "😕", "😢", "😡"]

def defaultInstanceUploadSizeLimitMb : Int := 30
def defaultInstanceFilepathTemplate : String := "assets/{timestamp}_{uuid}_{filename}"

/-- The defaults that the typed getters fill in. -/
def InstanceSetting.withDefaults : InstanceSetting -> InstanceSetting
  | .basic setting => .basic setting
  | .general setting => .general setting
  | .storage setting => .storage {
      storageType :=
        if setting.storageType = .unspecified then .fileSystem else setting.storageType
      uploadSizeLimitMb :=
        if setting.uploadSizeLimitMb = 0 then defaultInstanceUploadSizeLimitMb
        else setting.uploadSizeLimitMb
      filepathTemplate :=
        if setting.filepathTemplate = "" then defaultInstanceFilepathTemplate
        else setting.filepathTemplate }
  | .memoRelated setting => .memoRelated { setting with
      contentLengthLimit :=
        if setting.contentLengthLimit < defaultContentLengthLimit then defaultContentLengthLimit
        else setting.contentLengthLimit
      reactions := if setting.reactions = [] then defaultReactions else setting.reactions }
  | .tags setting => .tags ⟨some (setting.tags.getD [])⟩
  | .notification setting => .notification ⟨some (setting.email.getD "")⟩
  | .ai setting => .ai setting

/-- Filling in the defaults twice is filling them in once. -/
theorem InstanceSetting.withDefaults_withDefaults (setting : InstanceSetting) :
    setting.withDefaults.withDefaults = setting.withDefaults := by
  cases setting with
  | storage setting =>
      unfold withDefaults defaultInstanceUploadSizeLimitMb defaultInstanceFilepathTemplate
      simp only [storage.injEq, InstanceStorageSetting.mk.injEq]
      refine ⟨?_, ?_, ?_⟩ <;> grind
  | memoRelated setting =>
      unfold withDefaults defaultReactions
      simp only [memoRelated.injEq, InstanceMemoRelatedSetting.mk.injEq]
      refine ⟨?_, trivial, ?_⟩ <;> grind
  | _ => rfl

theorem InstanceSetting.key_withDefaults (setting : InstanceSetting) :
    setting.withDefaults.key = setting.key := by
  cases setting <;> rfl

theorem InstanceSetting.key_empty (key : InstanceSettingKey) :
    (InstanceSetting.empty key).key = key := by
  cases key <;> rfl

theorem InstanceSettingKey.string_ne_empty (key : InstanceSettingKey) : key.string ≠ "" := by
  cases key <;> decide

/-- `store.InstanceSetting` -/
structure RawInstanceSetting where
  name : String
  value : String
deriving DecidableEq

/-! ## Conversions -/

/-- The codecs of the messages. -/
structure SettingCodecs where
  generalUser : MessageCodec GeneralUserSetting
  shortcuts : MessageCodec (List Shortcut)
  webhooks : MessageCodec (List Webhook)
  refreshTokens : MessageCodec (List RefreshToken)
  personalAccessTokens : MessageCodec (List PersonalAccessToken)
  basic : MessageCodec InstanceBasicSetting
  general : MessageCodec InstanceGeneralSetting
  storage : MessageCodec InstanceStorageSetting
  memoRelated : MessageCodec InstanceMemoRelatedSetting
  tags : MessageCodec InstanceTagsSetting
  notification : MessageCodec InstanceNotificationSetting
  ai : MessageCodec InstanceAISetting

/-- Codecs that know the empty message of each kind. -/
def emptyCodecs : SettingCodecs where
  generalUser := .ofTexts [({}, "{}")]
  shortcuts := .ofTexts [([], "{}")]
  webhooks := .ofTexts [([], "{}")]
  refreshTokens := .ofTexts [([], "{}")]
  personalAccessTokens := .ofTexts [([], "{}")]
  basic := .ofTexts [({}, "{}")]
  general := .ofTexts [({}, "{}")]
  storage := .ofTexts [({}, "{}")]
  memoRelated := .ofTexts [({}, "{}")]
  tags := .ofTexts [({}, "{}")]
  notification := .ofTexts [({}, "{}")]
  ai := .ofTexts [({}, "{}")]

variable (codecs : SettingCodecs)

def convertUserSettingFromRaw (raw : RawUserSetting) : Except String (Option UserSettingMessage) :=
  match raw.key with
  | .shortcuts => do
      return some ⟨raw.userId, .shortcuts (← codecs.shortcuts.unmarshal raw.value)⟩
  | .general => do
      return some ⟨raw.userId, .general (← codecs.generalUser.unmarshal raw.value)⟩
  | .refreshTokens => do
      return some ⟨raw.userId, .refreshTokens (← codecs.refreshTokens.unmarshal raw.value)⟩
  | .personalAccessTokens => do
      return some ⟨raw.userId,
        .personalAccessTokens (← codecs.personalAccessTokens.unmarshal raw.value)⟩
  | .webhooks => do
      return some ⟨raw.userId, .webhooks (← codecs.webhooks.unmarshal raw.value)⟩
  | .unspecified => return none

/-- The text of a user setting. -/
def marshalUserSetting : UserSettingValue -> Except String String
  | .shortcuts shortcuts => codecs.shortcuts.marshal shortcuts
  | .general general => codecs.generalUser.marshal general
  | .refreshTokens tokens => codecs.refreshTokens.marshal tokens
  | .personalAccessTokens tokens => codecs.personalAccessTokens.marshal tokens
  | .webhooks webhooks => codecs.webhooks.marshal webhooks

def convertUserSettingToRaw (setting : UserSettingMessage) : Except String RawUserSetting := do
  let value ← marshalUserSetting codecs setting.value
  return ⟨setting.userId, setting.value.key, value⟩

/-- A message survives its column. -/
theorem convertUserSettingFromRaw_toRaw {setting : UserSettingMessage} {raw : RawUserSetting}
    (marshalled : convertUserSettingToRaw codecs setting = .ok raw) :
    convertUserSettingFromRaw codecs raw = .ok (some setting) := by
  rcases setting with ⟨userId, value⟩
  rcases bind_eq_ok.mp marshalled with ⟨text, written, finished⟩
  cases finished
  cases value <;>
    simp only [convertUserSettingFromRaw, UserSettingValue.key,
      MessageCodec.unmarshal_marshal _ _ _ written] <;> rfl

def convertInstanceSettingFromRaw (raw : RawInstanceSetting) :
    Except String (Option InstanceSetting) :=
  if raw.name = InstanceSettingKey.basic.string then
    some <$> InstanceSetting.basic <$> codecs.basic.unmarshal raw.value
  else if raw.name = InstanceSettingKey.general.string then
    some <$> InstanceSetting.general <$> codecs.general.unmarshal raw.value
  else if raw.name = InstanceSettingKey.storage.string then
    some <$> InstanceSetting.storage <$> codecs.storage.unmarshal raw.value
  else if raw.name = InstanceSettingKey.memoRelated.string then
    some <$> InstanceSetting.memoRelated <$> codecs.memoRelated.unmarshal raw.value
  else if raw.name = InstanceSettingKey.tags.string then
    some <$> InstanceSetting.tags <$> codecs.tags.unmarshal raw.value
  else if raw.name = InstanceSettingKey.notification.string then
    some <$> InstanceSetting.notification <$> codecs.notification.unmarshal raw.value
  else if raw.name = InstanceSettingKey.ai.string then
    some <$> InstanceSetting.ai <$> codecs.ai.unmarshal raw.value
  else .ok none

/-- The text of an instance setting. -/
def marshalInstanceSetting : InstanceSetting -> Except String String
  | .basic setting => codecs.basic.marshal setting
  | .general setting => codecs.general.marshal setting
  | .storage setting => codecs.storage.marshal setting
  | .memoRelated setting => codecs.memoRelated.marshal setting
  | .tags setting => codecs.tags.marshal setting
  | .notification setting => codecs.notification.marshal setting
  | .ai setting => codecs.ai.marshal setting

theorem convertInstanceSettingFromRaw_marshal {setting : InstanceSetting} {value : String}
    (marshalled : marshalInstanceSetting codecs setting = .ok value) :
    convertInstanceSettingFromRaw codecs ⟨setting.key.string, value⟩ = .ok (some setting) := by
  cases setting <;>
    simp only [convertInstanceSettingFromRaw, InstanceSetting.key, InstanceSettingKey.string,
      MessageCodec.unmarshal_marshal _ _ _ marshalled] <;> rfl

variable {codecs}

/-- A converted setting has the user and the key of its row. -/
theorem convertUserSettingFromRaw_key {raw : RawUserSetting} {setting : UserSettingMessage}
    (converted : convertUserSettingFromRaw codecs raw = .ok (some setting)) :
    setting.userId = raw.userId ∧ setting.value.key = raw.key := by
  rcases raw with ⟨userId, key, value⟩
  cases key <;> unfold convertUserSettingFromRaw at converted
  case unspecified => cases converted
  all_goals
    rcases bind_eq_ok.mp converted with ⟨message, _, finished⟩
    cases finished
    exact ⟨rfl, rfl⟩

theorem convertInstanceSettingFromRaw_key {raw : RawInstanceSetting} {setting : InstanceSetting}
    (converted : convertInstanceSettingFromRaw codecs raw = .ok (some setting)) :
    setting.key.string = raw.name := by
  unfold convertInstanceSettingFromRaw at converted
  repeat' split at converted
  case isFalse => cases converted
  all_goals
    rename_i name
    rcases map_eq_ok.mp converted with ⟨found, inner, same⟩
    cases same
    rcases map_eq_ok.mp inner with ⟨message, _, rfl⟩
    exact name.symm

/-- A setting of a known kind is not skipped. -/
theorem convertInstanceSettingFromRaw_ne_none (key : InstanceSettingKey) (value : String) :
    convertInstanceSettingFromRaw codecs ⟨key.string, value⟩ ≠ .ok none := by
  intro skipped
  cases key <;> rcases map_eq_ok.mp skipped with ⟨_, _, impossible⟩ <;> cases impossible

end Store
end Memos
