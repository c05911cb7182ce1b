import Memos.Filter.Engine
import Memos.Library.Ledger
import Memos.Service.Names

namespace Memos
namespace Service
namespace Secrets

open Filter (trimSpace)
open Library
open Store (Role)

/-!
# Write-only credentials

The instance stores an SMTP password, the secret of an S3 bucket, the keys of
AI providers and the client secrets of identity providers, each with the
address that it is sent to.  No response returns them, and an update that
leaves one empty keeps the stored one.
-/

/-! ## The settings

The messages of the API have the same fields as those of the store; the
conversions copy them one by one. -/

structure EmailSetting where
  enabled : Bool := false
  smtpHost : String := ""
  smtpPort : Int := 0
  smtpUsername : String := ""
  smtpPassword : String := ""
  fromEmail : String := ""
  fromName : String := ""
  replyTo : String := ""
  useTls : Bool := false
  useSsl : Bool := false
deriving DecidableEq

structure S3Config where
  accessKeyId : String
  accessKeySecret : String
  endpoint : String
  region : String
  bucket : String
  usePathStyle : Bool
deriving DecidableEq

/-- `AIProviderType` -/
inductive AIProviderType where
  | unspecified
  | openai
  | gemini
deriving DecidableEq

structure AIProviderConfig where
  id : String
  title : String
  type : AIProviderType
  endpoint : String
  apiKey : String
deriving DecidableEq

structure TranscriptionConfig where
  providerId : String
  model : String
  language : String
  prompt : String
deriving DecidableEq

structure AISetting where
  providers : List AIProviderConfig := []
  transcription : Option TranscriptionConfig := none
deriving DecidableEq

structure OAuth2Config where
  clientId : String
  clientSecret : String
  authUrl : String
  tokenUrl : String
  userInfoUrl : String
  scopes : List String
deriving DecidableEq

/-- A row of the table of identity providers; its uid is unique.  The column of
the configuration is read only if the type is OAuth2. -/
structure IdentityProvider where
  uid : String
  isOAuth2 : Bool
  config : Option OAuth2Config
deriving DecidableEq

def IdentityProvider.getOauth2Config (row : IdentityProvider) : Option OAuth2Config :=
  if row.isOAuth2 then row.config else none

/-- What is stored.  Of the notification and storage settings only the parts
with a secret are here. -/
structure Settings where
  notification : Option EmailSetting := none
  storage : Option S3Config := none
  ai : Option AISetting := none
  identityProviders : List IdentityProvider := []
deriving DecidableEq

/-! ## Requests -/

/-- A setting in a request, by the key in its name. -/
inductive SettingInput where
  | notification (email : Option EmailSetting)
  | storage (s3Config : Option S3Config)
  | ai (setting : Option AISetting)
  /-- The other keys. -/
  | other (valid : Bool)

inductive SettingKey where
  | notification
  | storage
  | ai
  | other
deriving DecidableEq

inductive Request where
  | updateInstanceSetting (setting : SettingInput)
  | testInstanceEmailSetting (email : Option EmailSetting) (recipientEmail userEmail : String)
  | getInstanceSetting (key : SettingKey)
  | batchGetInstanceSettings (keys : List SettingKey)
  | createIdentityProvider (uid : String) (isOAuth2 : Bool) (config : OAuth2Config)
  | updateIdentityProvider (uid : String) (paths : List String) (isOAuth2 : Bool) (config : OAuth2Config)
  | deleteIdentityProvider (uid : String)
  | getIdentityProvider (uid : String)
  | listIdentityProviders

/-- A request with its caller and what comes from outside while it is handled:
whether the database can be read and written, and the ids that are generated. -/
structure Event where
  request : Request
  caller : Option Role
  loads : Bool := true
  writes : Bool := true
  generated : Nat -> String

/-- The bytes of a string. -/
def bytes (text : String) : List UInt8 := text.toUTF8.toList

/-- A provider in a response. -/
structure ProviderMessage where
  id : String
  title : String
  type : AIProviderType
  endpoint : String
  apiKey : String
  apiKeySet : Bool
  apiKeyHint : List UInt8
deriving DecidableEq

/-- A message of a response. -/
inductive Message where
  | notification (email : Option EmailSetting)
  | storage (s3Config : Option S3Config)
  | ai (providers : List ProviderMessage) (transcription : Option TranscriptionConfig)
  | other
  | identityProvider (row : IdentityProvider)
deriving DecidableEq

/-! ## Responses -/

def convertEmailFromStore (email : EmailSetting) : EmailSetting := { email with smtpPassword := "" }

def convertS3ConfigFromStore (s3Config : S3Config) : S3Config := { s3Config with accessKeySecret := "" }

def maskAPIKey (apiKey : List UInt8) : List UInt8 :=
  if apiKey.isEmpty then []
  else if apiKey.length ≤ 8 then [46, 46, 46]
  else apiKey.take 4 ++ [46, 46, 46] ++ apiKey.drop (apiKey.length - 4)

def convertAIProviderFromStore (provider : AIProviderConfig) : ProviderMessage where
  id := provider.id
  title := provider.title
  type := provider.type
  endpoint := provider.endpoint
  apiKey := ""
  apiKeySet := provider.apiKey ≠ ""
  apiKeyHint := maskAPIKey (bytes provider.apiKey)

def convertInstanceAISettingFromStore (setting : AISetting) : Message :=
  .ai (setting.providers.map convertAIProviderFromStore) setting.transcription

def convertIdentityProviderFromStore (row : IdentityProvider) : Message :=
  .identityProvider
    { row with config := row.getOauth2Config.map fun config => { config with clientSecret := "" } }

/-! ## Checks -/

def requireAdmin (caller : Option Role) : Except Status Unit :=
  match caller with
  | none => .error ⟨.unauthenticated, "user not authenticated"⟩
  | some role => if role = .admin then .ok () else .error ⟨.permissionDenied, "permission denied"⟩

def failUnless (condition : Bool) (message : String) : Except Status Unit :=
  if condition then .ok () else .error ⟨.internal, message⟩

def sameSMTPConnectionIdentity (setting existing : EmailSetting) : Bool :=
  trimSpace setting.smtpHost = trimSpace existing.smtpHost && setting.smtpPort = existing.smtpPort &&
    trimSpace setting.smtpUsername = trimSpace existing.smtpUsername &&
    setting.useTls = existing.useTls && setting.useSsl = existing.useSsl

def passwordRequired : Status :=
  ⟨.invalidArgument, "smtp password is required when changing SMTP host, port, username, or encryption settings"⟩

/-- `Validate` of the SMTP configuration. -/
def validateEmailSetting (setting : EmailSetting) : Except Status Unit :=
  if setting.smtpHost = "" then
    .error ⟨.invalidArgument, "invalid notification email setting: SMTP host is required"⟩
  else if setting.smtpPort ≤ 0 ∨ 65535 < setting.smtpPort then
    .error ⟨.invalidArgument, "invalid notification email setting: SMTP port must be between 1 and 65535"⟩
  else if setting.fromEmail = "" then
    .error ⟨.invalidArgument, "invalid notification email setting: from email is required"⟩
  else .ok ()

/-! ## The AI setting -/

def defaultEndpoint (type : AIProviderType) (endpoint : String) : String :=
  if type = .openai ∧ endpoint = "" then "https://api.openai.com/v1"
  else if type = .gemini ∧ endpoint = "" then "https://generativelanguage.googleapis.com/v1beta"
  else endpoint

/-- A provider with its id, title and endpoint filled in. -/
def AIProviderConfig.normalized (generated : String) (provider : AIProviderConfig) : AIProviderConfig :=
  { provider with
    id := if trimSpace provider.id = "" then generated else trimSpace provider.id
    title := trimSpace provider.title
    endpoint := defaultEndpoint provider.type (trimSpace provider.endpoint) }

/-- The map of the stored providers; the last one with an id counts. -/
def existingProvider (existing : List AIProviderConfig) (id : String) : Option AIProviderConfig :=
  existing.reverse.find? fun provider => provider.id = id ∧ provider.id ≠ ""

/-- A provider keeps the stored key when it comes without one. -/
def keptKey (existing : List AIProviderConfig) (provider : AIProviderConfig) : String :=
  if provider.apiKey = "" then ((existingProvider existing provider.id).map AIProviderConfig.apiKey).getD ""
  else provider.apiKey

/-- The loop over the providers, with the ids seen so far. -/
def prepareProviders (existing : List AIProviderConfig) (generated : Nat -> String) :
    Nat -> List String -> List AIProviderConfig -> Except String (List AIProviderConfig)
  | _, _, [] => .ok []
  | index, seenIDs, provider :: providers =>
      let normalized := provider.normalized (generated index)
      if normalized.id ∈ seenIDs then .error ("duplicate provider ID \"" ++ normalized.id ++ "\"")
      else if normalized.title = "" then .error "provider title is required"
      else if normalized.type ≠ .openai ∧ normalized.type ≠ .gemini then
        .error ("provider \"" ++ normalized.id ++ "\" has unsupported type")
      else if keptKey existing normalized = "" then
        .error ("provider \"" ++ normalized.id ++ "\" API key is required")
      else
        (fun others => { normalized with apiKey := keptKey existing normalized } :: others) <$>
          prepareProviders existing generated (index + 1) (normalized.id :: seenIDs) providers

def trimTranscription (config : TranscriptionConfig) : TranscriptionConfig where
  providerId := trimSpace config.providerId
  model := trimSpace config.model
  language := trimSpace config.language
  prompt := trimSpace config.prompt

def checkTranscription (providers : List AIProviderConfig) (config : TranscriptionConfig) :
    Except String Unit :=
  if config.providerId ≠ "" ∧ !providers.any fun provider => provider.id = config.providerId then
    .error ("transcription provider_id \"" ++ config.providerId ++
      "\" does not reference any configured provider")
  else if 256 < config.model.utf8ByteSize then
    .error "transcription model is too long; maximum length is 256 characters"
  else if 32 < config.language.utf8ByteSize then
    .error "transcription language is too long; maximum length is 32 characters"
  else if 4096 < config.prompt.utf8ByteSize then
    .error "transcription prompt is too long; maximum length is 4096 characters"
  else .ok ()

def preparePersistedTranscriptionConfig (providers : List AIProviderConfig)
    (requested existing : Option TranscriptionConfig) : Except String (Option TranscriptionConfig) :=
  match requested.or existing with
  | none => .ok none
  | some config => do
      checkTranscription providers (trimTranscription config)
      return some (trimTranscription config)

def prepareInstanceAISettingForUpdate (event : Event) (existing : AISetting) (setting : Option AISetting) :
    Except String AISetting :=
  match setting with
  | none => .error "AI setting is required"
  | some setting =>
      if event.loads then do
        let providers ← prepareProviders existing.providers event.generated 0 [] setting.providers
        let transcription ← preparePersistedTranscriptionConfig providers setting.transcription
          existing.transcription
        return { providers := providers, transcription := transcription }
      else .error "failed to get existing AI setting"

/-! ## The handlers -/

variable (settings : Settings) (event : Event)

/-- A missing row counts as an empty setting. -/
def existingEmail : EmailSetting := settings.notification.getD {}

def existingAI : AISetting := settings.ai.getD {}

/-- The e-mail setting that an update stores. -/
def preserveEmail (email : EmailSetting) : Except Status EmailSetting :=
  if email.smtpPassword = "" ∧ event.loads then
    let existing := existingEmail settings
    if existing.smtpPassword ≠ "" ∧ !sameSMTPConnectionIdentity email existing then .error passwordRequired
    else .ok { email with smtpPassword := existing.smtpPassword }
  else .ok email

/-- The S3 configuration that an update stores. -/
def preserveS3Config (s3Config : S3Config) : S3Config :=
  if s3Config.accessKeySecret = "" ∧ event.loads then
    { s3Config with
      accessKeySecret := (settings.storage.map S3Config.accessKeySecret).getD s3Config.accessKeySecret }
  else s3Config

def failedUpsert : String := "failed to upsert instance setting"

def updateInstanceSetting (input : SettingInput) : Except Status (Settings × List Message) := do
  requireAdmin event.caller
  match input with
  | .notification none => do
      failUnless event.writes failedUpsert
      return ({ settings with notification := none }, [.notification none])
  | .notification (some email) => do
      let kept ← preserveEmail settings event email
      failUnless event.writes failedUpsert
      return ({ settings with notification := some kept }, [.notification (some (convertEmailFromStore kept))])
  | .storage none => do
      failUnless event.writes failedUpsert
      return ({ settings with storage := none }, [.storage none])
  | .storage (some s3Config) => do
      let kept := preserveS3Config settings event s3Config
      failUnless event.writes failedUpsert
      return ({ settings with storage := some kept }, [.storage (some (convertS3ConfigFromStore kept))])
  | .ai input => do
      match prepareInstanceAISettingForUpdate event (existingAI settings) input with
      | .error cause => .error ⟨.invalidArgument, "invalid AI setting: " ++ cause⟩
      | .ok setting => do
          failUnless event.writes failedUpsert
          return ({ settings with ai := some setting }, [convertInstanceAISettingFromStore setting])
  | .other valid => do
      failUnless (valid && event.writes) "invalid instance setting"
      return (settings, [.other])

/-- The setting that a test mail is sent with. -/
def resolveTestEmailSetting (requestEmail : Option EmailSetting) : Except Status EmailSetting :=
  match requestEmail with
  | none => do
      failUnless event.loads "failed to get notification setting"
      return existingEmail settings
  | some email =>
      if email.smtpPassword ≠ "" then .ok email
      else do
        failUnless event.loads "failed to get notification setting"
        let existing := existingEmail settings
        if existing.smtpPassword = "" then .ok email
        else if sameSMTPConnectionIdentity email existing then
          .ok { email with smtpPassword := existing.smtpPassword }
        else .error passwordRequired

/-- The setting with which the mail server is contacted. -/
def testInstanceEmailSetting (requestEmail : Option EmailSetting) (recipientEmail userEmail : String) :
    Except Status EmailSetting := do
  requireAdmin event.caller
  let setting ← resolveTestEmailSetting settings event requestEmail
  if trimSpace recipientEmail = "" ∧ trimSpace userEmail = "" then
    .error ⟨.invalidArgument, "recipient email is required"⟩
  else do
    validateEmailSetting setting
    return setting

/-- Callers who are no administrators only see the provider of the transcription. -/
def redactTranscription (caller : Option Role) (config : TranscriptionConfig) : TranscriptionConfig :=
  if caller = some .admin then config else { config with model := "", language := "", prompt := "" }

def getInstanceSetting (key : SettingKey) : Except Status Message := do
  failUnless event.loads "failed to get instance setting"
  match key with
  | .notification => do
      requireAdmin event.caller
      return .notification (some (convertEmailFromStore (existingEmail settings)))
  | .storage => do
      requireAdmin event.caller
      return .storage (settings.storage.map convertS3ConfigFromStore)
  | .ai =>
      if event.caller.isNone then .error ⟨.unauthenticated, "user not authenticated"⟩
      else
        .ok (.ai ((existingAI settings).providers.map convertAIProviderFromStore)
          ((existingAI settings).transcription.map (redactTranscription event.caller)))
  | .other => .ok .other

def maxBatchGetInstanceSettings : Nat := 100

def batchGetInstanceSettings (keys : List SettingKey) : Except Status (List Message) :=
  if maxBatchGetInstanceSettings < keys.length then
    .error ⟨.invalidArgument, "too many instance setting names (max 100)"⟩
  else keys.mapM (getInstanceSetting settings event)

def createIdentityProvider (uid : String) (isOAuth2 : Bool) (config : OAuth2Config) :
    Except Status (Settings × List Message) := do
  requireAdmin event.caller
  failUnless (event.writes && !settings.identityProviders.any fun row => row.uid = uid)
    "failed to create identity provider"
  let row : IdentityProvider := ⟨uid, isOAuth2, if isOAuth2 then some config else none⟩
  return ({ settings with identityProviders := settings.identityProviders ++ [row] },
    [convertIdentityProviderFromStore row])

def getIdentityProvider (uid : String) : Except Status IdentityProvider := do
  failUnless event.loads "failed to get identity provider"
  match settings.identityProviders.find? fun row => row.uid = uid with
  | none => .error ⟨.notFound, "identity provider not found"⟩
  | some row => return row

/-- The configuration that an update stores. -/
def preserveOAuth2 (existing : IdentityProvider) (config : OAuth2Config) : OAuth2Config :=
  if config.clientSecret = "" then
    { config with
      clientSecret := (existing.getOauth2Config.map OAuth2Config.clientSecret).getD config.clientSecret }
  else config

/-- The row that an update leaves. -/
def updatedRow (existing : IdentityProvider) (paths : List String) (isOAuth2 : Bool)
    (config : OAuth2Config) : IdentityProvider :=
  if "config" ∈ paths ∧ isOAuth2 then { existing with config := some (preserveOAuth2 existing config) }
  else existing

def updateIdentityProvider (uid : String) (paths : List String) (isOAuth2 : Bool) (config : OAuth2Config) :
    Except Status (Settings × List Message) := do
  requireAdmin event.caller
  if paths = [] then .error ⟨.invalidArgument, "update_mask is required"⟩
  else do
    let existing ← getIdentityProvider settings event uid
    failUnless event.writes "failed to update identity provider"
    let updated := updatedRow existing paths isOAuth2 config
    return ({ settings with
        identityProviders := settings.identityProviders.map fun row =>
          if row.uid = uid then updated else row },
      [convertIdentityProviderFromStore updated])

def deleteIdentityProvider (uid : String) : Except Status (Settings × List Message) := do
  requireAdmin event.caller
  let _ ← getIdentityProvider settings event uid
  failUnless event.writes "failed to delete identity provider"
  return ({ settings with
    identityProviders := settings.identityProviders.filter fun row => row.uid ≠ uid }, [])

/-! ## Credentials -/

/-- What a secret is sent to. -/
inductive Identity where
  | smtp (host : String) (port : Int) (username : String) (useTls useSsl : Bool)
  | s3 (endpoint : String)
  | ai (endpoint : String)
  | oauth2 (tokenUrl userInfoUrl : String)
deriving DecidableEq

/-- The places for a secret. -/
inductive Slot where
  | smtp
  | s3
  | ai (id : String)
  | oauth2 (uid : String)
deriving DecidableEq

structure Credential where
  slot : Slot
  secret : String
  identity : Identity
deriving DecidableEq

def EmailSetting.credential (email : EmailSetting) : Credential :=
  ⟨.smtp, email.smtpPassword, .smtp (trimSpace email.smtpHost) email.smtpPort
    (trimSpace email.smtpUsername) email.useTls email.useSsl⟩

def S3Config.credential (s3Config : S3Config) : Credential :=
  ⟨.s3, s3Config.accessKeySecret, .s3 s3Config.endpoint⟩

def AIProviderConfig.credential (provider : AIProviderConfig) : Credential :=
  ⟨.ai provider.id, provider.apiKey, .ai provider.endpoint⟩

def OAuth2Config.credential (uid : String) (config : OAuth2Config) : Credential :=
  ⟨.oauth2 uid, config.clientSecret, .oauth2 config.tokenUrl config.userInfoUrl⟩

def IdentityProvider.credentials (row : IdentityProvider) : List Credential :=
  (row.config.map (OAuth2Config.credential row.uid)).toList

def Settings.credentials (settings : Settings) : List Credential :=
  (settings.notification.map EmailSetting.credential).toList ++
    ((settings.storage.map S3Config.credential).toList ++
      ((existingAI settings).providers.map AIProviderConfig.credential ++
        settings.identityProviders.flatMap IdentityProvider.credentials))

/-- The providers of a request with their ids and endpoints. -/
def normalizedProviders (generated : Nat -> String) : Nat -> List AIProviderConfig -> List AIProviderConfig
  | _, [] => []
  | index, provider :: providers =>
      provider.normalized (generated index) :: normalizedProviders generated (index + 1) providers

/-- The credentials that a request names, with or without their secrets. -/
def Event.named (event : Event) : List Credential :=
  match event.request with
  | .updateInstanceSetting (.notification email) => (email.map EmailSetting.credential).toList
  | .updateInstanceSetting (.storage s3Config) => (s3Config.map S3Config.credential).toList
  | .updateInstanceSetting (.ai setting) =>
      (normalizedProviders event.generated 0 (setting.getD {}).providers).map AIProviderConfig.credential
  | .testInstanceEmailSetting email _ _ => (email.map EmailSetting.credential).toList
  | .createIdentityProvider uid isOAuth2 config => if isOAuth2 then [config.credential uid] else []
  | .updateIdentityProvider uid paths isOAuth2 config =>
      if "config" ∈ paths ∧ isOAuth2 then [config.credential uid] else []
  | _ => []

/-! ## Steps -/

/-- What is left after a request: the settings, the credentials that it used and
the messages of its response. -/
structure Outcome where
  settings : Settings
  used : List Credential := []
  response : List Message := []

/-- A request that fails changes nothing. -/
def written (settings : Settings) (result : Except Status (Settings × List Message)) : Outcome :=
  match result with
  | .error _ => { settings := settings }
  | .ok (after, response) => { settings := after, response := response }

/-- A request that reads. -/
def answered (settings : Settings) (result : Except Status (List Message)) : Outcome :=
  match result with
  | .error _ => { settings := settings }
  | .ok response => { settings := settings, response := response }

def perform (settings : Settings) (event : Event) : Outcome :=
  match event.request with
  | .updateInstanceSetting input => written settings (updateInstanceSetting settings event input)
  | .testInstanceEmailSetting email recipientEmail userEmail =>
      match testInstanceEmailSetting settings event email recipientEmail userEmail with
      | .error _ => { settings := settings }
      | .ok setting => { settings := settings, used := [setting.credential] }
  | .getInstanceSetting key =>
      answered settings ((fun message => [message]) <$> getInstanceSetting settings event key)
  | .batchGetInstanceSettings keys => answered settings (batchGetInstanceSettings settings event keys)
  | .createIdentityProvider uid isOAuth2 config =>
      written settings (createIdentityProvider settings event uid isOAuth2 config)
  | .updateIdentityProvider uid paths isOAuth2 config =>
      written settings (updateIdentityProvider settings event uid paths isOAuth2 config)
  | .deleteIdentityProvider uid => written settings (deleteIdentityProvider settings event uid)
  | .getIdentityProvider uid =>
      answered settings ((fun row => [convertIdentityProviderFromStore row]) <$>
        getIdentityProvider settings event uid)
  | .listIdentityProviders =>
      answered settings (.ok (settings.identityProviders.map convertIdentityProviderFromStore))

/-- The settings after some requests. -/
def run (settings : Settings) (events : List Event) : Settings :=
  events.foldl (fun settings event => (perform settings event).settings) settings

/-- What is stored or used with a secret. -/
def Outcome.Holds (outcome : Outcome) (credential : Credential) : Prop :=
  credential.secret ≠ "" ∧ (credential ∈ outcome.settings.credentials ∨ credential ∈ outcome.used)

/-- An administrator's request names the secret together with its address. -/
def Event.Supplies (event : Event) (credential : Credential) : Prop :=
  event.caller = some .admin ∧ credential.secret ≠ "" ∧ credential ∈ event.named

/-! ## What a step does to the credentials -/

variable {settings event}

/-- An administrator's request that reaches the database. -/
def Event.Effective (event : Event) : Prop :=
  event.caller = some .admin ∧ event.loads = true ∧ event.writes = true

/-- The secret of a slot goes on with an address that the request names without
a secret. -/
def Moves (settings : Settings) (event : Event) (credential : Credential) : Prop :=
  event.Effective ∧ credential.slot ≠ .smtp ∧ { credential with secret := "" } ∈ event.named ∧
    Exists fun old => old ∈ settings.credentials ∧ old.slot = credential.slot ∧
      old.secret = credential.secret

/-- A credential after a step is an old one, or supplied, or an old secret with
another address. -/
def Originates (settings : Settings) (event : Event) (credential : Credential) : Prop :=
  credential ∈ settings.credentials ∨ event.Supplies credential ∨ Moves settings event credential

/-- Where a request names one slot once. -/
def NamesOnce (event : Event) : Prop :=
  forall first second, first ∈ event.named -> second ∈ event.named -> first.slot = second.slot ->
    first = second

variable {credential : Credential} {after : Settings} {response : List Message} {uid : String}

theorem mem_credentials :
    credential ∈ settings.credentials ↔
      (Exists fun email => settings.notification = some email ∧ email.credential = credential) ∨
      (Exists fun s3Config => settings.storage = some s3Config ∧ s3Config.credential = credential) ∨
      (Exists fun provider => provider ∈ (existingAI settings).providers ∧ provider.credential = credential) ∨
      (Exists fun row => row ∈ settings.identityProviders ∧ Exists fun config =>
        row.config = some config ∧ config.credential row.uid = credential) := by
  simp [Settings.credentials, IdentityProvider.credentials]

theorem requireAdmin_eq_ok {caller : Option Role} : requireAdmin caller = .ok () ↔ caller = some .admin := by
  cases caller with
  | none => simp [requireAdmin]
  | some role => cases role <;> simp [requireAdmin]

theorem failUnless_eq_ok {condition : Bool} {message : String} :
    failUnless condition message = .ok () ↔ condition = true := by
  cases condition <;> simp [failUnless]

theorem sameSMTPConnectionIdentity_iff {setting existing : EmailSetting} :
    sameSMTPConnectionIdentity setting existing = true ↔
      setting.credential.identity = existing.credential.identity := by
  simp [sameSMTPConnectionIdentity, EmailSetting.credential, and_assoc]

/-- The password that an update or a test has is the one of the request, or the
stored one at the same address. -/
def KeepsEmail (settings : Settings) (email kept : EmailSetting) : Prop :=
  kept = email ∨ (email.smtpPassword = "" ∧ kept.credential = (existingEmail settings).credential)

theorem keepsEmail_of_same {email : EmailSetting} (empty : email.smtpPassword = "")
    (same : sameSMTPConnectionIdentity email (existingEmail settings) = true) :
    KeepsEmail settings email { email with smtpPassword := (existingEmail settings).smtpPassword } := by
  right
  refine ⟨empty, ?_⟩
  rw [sameSMTPConnectionIdentity_iff] at same
  have smtp : (existingEmail settings).credential =
      ⟨.smtp, (existingEmail settings).smtpPassword, (existingEmail settings).credential.identity⟩ := rfl
  rw [smtp, ← same]
  rfl

theorem preserveEmail_keeps {email kept : EmailSetting}
    (success : preserveEmail settings event email = .ok kept) : KeepsEmail settings email kept := by
  rw [preserveEmail] at success
  split at success
  case isTrue empty =>
    dsimp only at success
    split at success
    · cases success
    case isFalse fits =>
      cases success
      by_cases none_ : (existingEmail settings).smtpPassword = ""
      · left
        rw [none_, ← empty.1]
      · have same : sameSMTPConnectionIdentity email (existingEmail settings) = true := by
          simpa [none_] using fits
        exact keepsEmail_of_same empty.1 same
  · cases success
    exact Or.inl rfl

theorem resolveTestEmailSetting_keeps {email kept : EmailSetting}
    (success : resolveTestEmailSetting settings event (some email) = .ok kept) :
    KeepsEmail settings email kept := by
  rw [resolveTestEmailSetting] at success
  split at success
  · cases success
    exact Or.inl rfl
  case isFalse empty =>
    rw [ne_eq, not_not] at empty
    rcases bind_eq_ok.mp success with ⟨_, _, resolved⟩
    dsimp only at resolved
    split at resolved
    · cases resolved
      exact Or.inl rfl
    · split at resolved
      case isTrue same =>
        cases resolved
        exact keepsEmail_of_same empty same
      · cases resolved

/-- The stored e-mail setting has a password only if its row is there. -/
theorem existingEmail_stored (some_ : (existingEmail settings).smtpPassword ≠ "") :
    (existingEmail settings).credential ∈ settings.credentials := by
  rw [mem_credentials]
  left
  cases stored : settings.notification with
  | none => simp [existingEmail, stored] at some_
  | some email => exact ⟨email, rfl, by simp [existingEmail, stored]⟩

theorem KeepsEmail.originates {email kept : EmailSetting} (keeps : KeepsEmail settings email kept)
    (admin : event.caller = some .admin) (named : event.named = [email.credential])
    (some_ : kept.credential.secret ≠ "") : Originates settings event kept.credential := by
  rcases keeps with rfl | ⟨_, same⟩
  · right
    left
    exact ⟨admin, some_, by simp [named]⟩
  · left
    rw [same] at some_ ⊢
    exact existingEmail_stored some_

theorem namesOnce_of_length (short : event.named.length ≤ 1) : NamesOnce event := by
  intro first second firstNamed secondNamed _
  cases named : event.named with
  | nil => simp [named] at firstNamed
  | cons only rest =>
      rw [named, List.length_cons] at short
      have none_ : rest = [] := List.eq_nil_of_length_eq_zero (by omega)
      rw [named, none_, List.mem_singleton] at firstNamed secondNamed
      rw [firstNamed, secondNamed]

/-- A request that succeeds names every slot once, and whatever the settings
have then originates from it or from before. -/
def Accounts (settings : Settings) (event : Event) (after : Settings) : Prop :=
  NamesOnce event ∧ forall credential, credential.secret ≠ "" -> credential ∈ after.credentials ->
    Originates settings event credential

theorem preserveS3Config_originates {s3Config : S3Config} (admin : event.caller = some .admin)
    (writes : event.writes = true) (named : event.named = [s3Config.credential])
    (some_ : (preserveS3Config settings event s3Config).credential.secret ≠ "") :
    Originates settings event (preserveS3Config settings event s3Config).credential := by
  right
  rw [preserveS3Config] at some_ ⊢
  split at some_
  case isTrue empty =>
    rw [if_pos empty]
    cases stored : settings.storage with
    | none => simp [stored, S3Config.credential, empty.1] at some_
    | some old =>
        right
        refine ⟨⟨admin, empty.2, writes⟩, nofun, ?_, old.credential, ?_, rfl, rfl⟩
        · rw [named, List.mem_singleton]
          simp [S3Config.credential, empty.1]
        · rw [mem_credentials]
          exact Or.inr (Or.inl ⟨old, stored, rfl⟩)
  case isFalse given =>
    rw [if_neg given]
    exact Or.inl ⟨admin, some_, by simp [named]⟩

/-- What the loop over the providers makes of them. -/
theorem prepareProviders_eq_ok {existing : List AIProviderConfig} {generated : Nat -> String}
    {index : Nat} {seenIDs : List String} {providers prepared : List AIProviderConfig}
    (success : prepareProviders existing generated index seenIDs providers = .ok prepared) :
    prepared = (normalizedProviders generated index providers).map (fun normalized =>
        { normalized with apiKey := keptKey existing normalized }) ∧
      ((normalizedProviders generated index providers).map AIProviderConfig.id).Nodup ∧
      forall normalized, normalized ∈ normalizedProviders generated index providers ->
        normalized.id ∉ seenIDs := by
  induction providers generalizing index seenIDs prepared with
  | nil =>
      cases success
      exact ⟨rfl, List.nodup_nil, fun _ impossible => absurd impossible List.not_mem_nil⟩
  | cons provider rest ih =>
      rw [prepareProviders] at success
      split at success
      · cases success
      case isFalse fresh =>
        split at success
        · cases success
        · split at success
          · cases success
          · split at success
            · cases success
            · rcases map_eq_ok.mp success with ⟨others, ofRest, rfl⟩
              rcases ih ofRest with ⟨rfl, unique, unseen⟩
              rw [normalizedProviders, List.map_cons, List.map_cons, List.nodup_cons]
              refine ⟨rfl, ⟨?_, unique⟩, ?_⟩
              · intro again
                rcases List.mem_map.mp again with ⟨other, member, same⟩
                exact unseen other member (same ▸ List.mem_cons_self)
              · intro normalized member seen
                rcases List.mem_cons.mp member with rfl | later
                · exact fresh seen
                · exact unseen normalized later (List.mem_cons_of_mem _ seen)

theorem prepared_originates {setting : AISetting} {normalized : AIProviderConfig}
    (effective : event.Effective)
    (named : event.named =
      (normalizedProviders event.generated 0 setting.providers).map AIProviderConfig.credential)
    (member : normalized ∈ normalizedProviders event.generated 0 setting.providers)
    (some_ : keptKey (existingAI settings).providers normalized ≠ "") :
    Originates settings event
      { normalized with apiKey := keptKey (existingAI settings).providers normalized }.credential := by
  right
  have isNamed : normalized.credential ∈ event.named := by
    rw [named]
    exact List.mem_map_of_mem member
  by_cases empty : normalized.apiKey = ""
  · right
    rw [keptKey, if_pos empty] at some_
    cases found : existingProvider (existingAI settings).providers normalized.id with
    | none => simp [found] at some_
    | some old =>
        have matching := List.find?_some found
        have stored := List.mem_reverse.mp (List.mem_of_find?_eq_some found)
        have key : keptKey (existingAI settings).providers normalized = old.apiKey := by
          simp [keptKey, empty, found]
        rw [key]
        refine ⟨effective, nofun, ?_, old.credential, ?_, ?_, rfl⟩
        · rw [AIProviderConfig.credential, empty] at isNamed
          exact isNamed
        · rw [mem_credentials]
          exact Or.inr (Or.inr (Or.inl ⟨old, stored, rfl⟩))
        · rw [decide_eq_true_eq] at matching
          simp [AIProviderConfig.credential, matching.1]
  · left
    have key : keptKey (existingAI settings).providers normalized = normalized.apiKey := by
      simp [keptKey, empty]
    rw [key]
    exact ⟨effective.1, empty, isNamed⟩

theorem updateInstanceSetting_accounts {input : SettingInput}
    (requested : event.request = .updateInstanceSetting input)
    (success : updateInstanceSetting settings event input = .ok (after, response)) :
    Accounts settings event after := by
  rcases bind_eq_ok.mp success with ⟨_, isAdmin, handled⟩
  have admin := requireAdmin_eq_ok.mp isAdmin
  cases input with
  | notification email =>
      cases email with
      | none =>
          rcases bind_eq_ok.mp handled with ⟨_, _, finished⟩
          cases finished
          refine ⟨namesOnce_of_length (by simp [Event.named, requested]), fun credential _ held => Or.inl ?_⟩
          rw [mem_credentials] at held ⊢
          rcases held with ⟨_, impossible, _⟩ | others
          · cases impossible
          · exact Or.inr others
      | some email =>
          rcases bind_eq_ok.mp handled with ⟨kept, preserved, stored⟩
          rcases bind_eq_ok.mp stored with ⟨_, _, finished⟩
          cases finished
          have named : event.named = [email.credential] := by simp [Event.named, requested]
          refine ⟨namesOnce_of_length (by simp [named]), fun credential some_ held => ?_⟩
          rw [mem_credentials] at held
          rcases held with ⟨_, same, rfl⟩ | others
          · cases same
            exact (preserveEmail_keeps preserved).originates admin named some_
          · exact Or.inl (mem_credentials.mpr (Or.inr others))
  | storage s3Config =>
      cases s3Config with
      | none =>
          rcases bind_eq_ok.mp handled with ⟨_, _, finished⟩
          cases finished
          refine ⟨namesOnce_of_length (by simp [Event.named, requested]), fun credential _ held => Or.inl ?_⟩
          rw [mem_credentials] at held ⊢
          rcases held with email | ⟨_, impossible, _⟩ | others
          · exact Or.inl email
          · cases impossible
          · exact Or.inr (Or.inr others)
      | some s3Config =>
          rcases bind_eq_ok.mp handled with ⟨_, writes, finished⟩
          cases finished
          have named : event.named = [s3Config.credential] := by simp [Event.named, requested]
          refine ⟨namesOnce_of_length (by simp [named]), fun credential some_ held => ?_⟩
          rw [mem_credentials] at held
          rcases held with email | ⟨_, same, rfl⟩ | others
          · exact Or.inl (mem_credentials.mpr (Or.inl email))
          · cases same
            exact preserveS3Config_originates admin (failUnless_eq_ok.mp writes) named some_
          · exact Or.inl (mem_credentials.mpr (Or.inr (Or.inr others)))
  | ai setting =>
      dsimp only at handled
      split at handled
      · cases handled
      case h_2 kept prepared =>
        rcases bind_eq_ok.mp handled with ⟨_, writes, finished⟩
        cases finished
        cases setting with
        | none => cases prepared
        | some setting =>
            rw [prepareInstanceAISettingForUpdate] at prepared
            split at prepared
            case isTrue loads =>
              rcases bind_eq_ok.mp prepared with ⟨providers, ofProviders, continued⟩
              rcases bind_eq_ok.mp continued with ⟨transcription, _, built⟩
              cases built
              rcases prepareProviders_eq_ok ofProviders with ⟨rfl, unique, _⟩
              have named : event.named = (normalizedProviders event.generated 0 setting.providers).map
                  AIProviderConfig.credential := by simp [Event.named, requested]
              refine ⟨?_, fun credential some_ held => ?_⟩
              · intro first second firstNamed secondNamed same
                rw [named] at firstNamed secondNamed
                rcases List.mem_map.mp firstNamed with ⟨one, oneMember, rfl⟩
                rcases List.mem_map.mp secondNamed with ⟨other, otherMember, rfl⟩
                rw [List.inj_on_of_nodup_map unique oneMember otherMember (Slot.ai.inj same)]
              · rw [mem_credentials] at held
                rcases held with email | s3Config | ⟨provider, member, rfl⟩ | row
                · exact Or.inl (mem_credentials.mpr (Or.inl email))
                · exact Or.inl (mem_credentials.mpr (Or.inr (Or.inl s3Config)))
                · rcases List.mem_map.mp member with ⟨normalized, isNormalized, rfl⟩
                  exact prepared_originates ⟨admin, loads, failUnless_eq_ok.mp writes⟩ named isNormalized some_
                · exact Or.inl (mem_credentials.mpr (Or.inr (Or.inr (Or.inr row))))
            · cases prepared
  | other valid =>
      rcases bind_eq_ok.mp handled with ⟨_, _, finished⟩
      cases finished
      exact ⟨namesOnce_of_length (by simp [Event.named, requested]), fun _ _ held => Or.inl held⟩

variable {row : IdentityProvider} {isOAuth2 : Bool} {config : OAuth2Config}

theorem mem_rowCredentials :
    credential ∈ row.credentials ↔ Exists fun config =>
      row.config = some config ∧ config.credential row.uid = credential := by
  simp [IdentityProvider.credentials]

theorem row_stored (member : row ∈ settings.identityProviders) (held : credential ∈ row.credentials) :
    credential ∈ settings.credentials := by
  rw [mem_credentials]
  exact Or.inr (Or.inr (Or.inr ⟨row, member, mem_rowCredentials.mp held⟩))

/-- Other identity providers do not change the other settings. -/
theorem credentials_of_rows {rows : List IdentityProvider}
    (held : credential ∈ { settings with identityProviders := rows }.credentials) :
    credential ∈ settings.credentials ∨ Exists fun row => row ∈ rows ∧ credential ∈ row.credentials := by
  rw [mem_credentials] at held
  rcases held with email | s3Config | provider | ⟨row, member, config, same⟩
  · exact Or.inl (mem_credentials.mpr (Or.inl email))
  · exact Or.inl (mem_credentials.mpr (Or.inr (Or.inl s3Config)))
  · exact Or.inl (mem_credentials.mpr (Or.inr (Or.inr (Or.inl provider))))
  · exact Or.inr ⟨row, member, mem_rowCredentials.mpr ⟨config, same⟩⟩

theorem createIdentityProvider_accounts (requested : event.request = .createIdentityProvider uid isOAuth2 config)
    (success : createIdentityProvider settings event uid isOAuth2 config = .ok (after, response)) :
    Accounts settings event after := by
  rcases bind_eq_ok.mp success with ⟨_, isAdmin, handled⟩
  rcases bind_eq_ok.mp handled with ⟨_, _, finished⟩
  cases finished
  refine ⟨namesOnce_of_length ?_, fun credential some_ held => ?_⟩
  · rw [Event.named, requested]
    dsimp only
    split <;> simp
  · rcases credentials_of_rows held with old | ⟨row, member, inRow⟩
    · exact Or.inl old
    · rcases List.mem_append.mp member with before | new
      · exact Or.inl (row_stored before inRow)
      · rw [List.mem_singleton.mp new, mem_rowCredentials] at inRow
        rcases inRow with ⟨stored, isStored, rfl⟩
        rw [Option.ite_none_right_eq_some] at isStored
        rcases isStored with ⟨oauth2, same⟩
        cases same
        exact Or.inr (Or.inl ⟨requireAdmin_eq_ok.mp isAdmin, some_, by simp [Event.named, requested, oauth2]⟩)

theorem getIdentityProvider_eq_ok (success : getIdentityProvider settings event uid = .ok row) :
    event.loads = true ∧ row ∈ settings.identityProviders ∧ row.uid = uid := by
  rcases bind_eq_ok.mp success with ⟨_, loads, handled⟩
  split at handled
  · cases handled
  case h_2 found lookup =>
    cases handled
    have matching := List.find?_some lookup
    exact ⟨failUnless_eq_ok.mp loads, List.mem_of_find?_eq_some lookup, of_decide_eq_true matching⟩

theorem updatedRow_originates {existing : IdentityProvider} {paths : List String}
    (member : existing ∈ settings.identityProviders) (isUid : existing.uid = uid) (effective : event.Effective)
    (requested : event.request = .updateIdentityProvider uid paths isOAuth2 config) (some_ : credential.secret ≠ "")
    (held : credential ∈ (updatedRow existing paths isOAuth2 config).credentials) :
    Originates settings event credential := by
  rw [updatedRow] at held
  split at held
  case isFalse unchanged => exact Or.inl (row_stored member held)
  case isTrue changes =>
    right
    rcases mem_rowCredentials.mp held with ⟨stored, isStored, rfl⟩
    cases isStored
    have named : event.named = [config.credential uid] := by simp [Event.named, requested, changes]
    rw [isUid] at some_ ⊢
    rw [preserveOAuth2] at some_ ⊢
    split at some_
    case isTrue empty =>
      rw [if_pos empty]
      cases old : existing.getOauth2Config with
      | none => simp [old, OAuth2Config.credential, empty] at some_
      | some oldConfig =>
          right
          have oldStored : existing.config = some oldConfig := by
            rw [IdentityProvider.getOauth2Config, Option.ite_none_right_eq_some] at old
            exact old.2
          refine ⟨effective, nofun, ?_, oldConfig.credential uid, ?_, rfl, rfl⟩
          · rw [named, List.mem_singleton]
            simp [OAuth2Config.credential, empty]
          · exact row_stored member (mem_rowCredentials.mpr ⟨oldConfig, oldStored, by rw [isUid]⟩)
    case isFalse given =>
      rw [if_neg given]
      exact Or.inl ⟨effective.1, some_, by simp [named]⟩

theorem updateIdentityProvider_accounts {paths : List String}
    (requested : event.request = .updateIdentityProvider uid paths isOAuth2 config)
    (success : updateIdentityProvider settings event uid paths isOAuth2 config = .ok (after, response)) :
    Accounts settings event after := by
  rcases bind_eq_ok.mp success with ⟨_, isAdmin, masked⟩
  split at masked
  · cases masked
  · rcases bind_eq_ok.mp masked with ⟨existing, found, handled⟩
    rcases bind_eq_ok.mp handled with ⟨_, writes, finished⟩
    cases finished
    rcases getIdentityProvider_eq_ok found with ⟨loads, member, isUid⟩
    have effective : event.Effective :=
      ⟨requireAdmin_eq_ok.mp isAdmin, loads, failUnless_eq_ok.mp writes⟩
    refine ⟨namesOnce_of_length ?_, fun credential some_ held => ?_⟩
    · rw [Event.named, requested]
      dsimp only
      split <;> simp
    · rcases credentials_of_rows held with old | ⟨row, inRows, inRow⟩
      · exact Or.inl old
      · rcases List.mem_map.mp inRows with ⟨before, beforeMember, rfl⟩
        split at inRow
        · exact updatedRow_originates member isUid effective requested some_ inRow
        · exact Or.inl (row_stored beforeMember inRow)

theorem deleteIdentityProvider_accounts (requested : event.request = .deleteIdentityProvider uid)
    (success : deleteIdentityProvider settings event uid = .ok (after, response)) :
    Accounts settings event after := by
  rcases bind_eq_ok.mp success with ⟨_, _, handled⟩
  rcases bind_eq_ok.mp handled with ⟨_, _, continued⟩
  rcases bind_eq_ok.mp continued with ⟨_, _, finished⟩
  cases finished
  refine ⟨namesOnce_of_length (by simp [Event.named, requested]), fun credential _ held => Or.inl ?_⟩
  rcases credentials_of_rows held with old | ⟨row, member, inRow⟩
  · exact old
  · exact row_stored (List.mem_of_mem_filter member) inRow

/-- A step leaves the credentials as they are, or accounts for each of them. -/
def Sound (settings : Settings) (event : Event) (outcome : Outcome) : Prop :=
  (forall credential, outcome.Holds credential -> credential ∈ settings.credentials) ∨
    (NamesOnce event ∧ forall credential, outcome.Holds credential ->
      Originates settings event credential)

theorem written_sound {result : Except Status (Settings × List Message)}
    (accounts : forall after response, result = .ok (after, response) -> Accounts settings event after) :
    Sound settings event (written settings result) := by
  cases result with
  | error status =>
      refine Or.inl fun credential held => ?_
      exact held.2.resolve_right List.not_mem_nil
  | ok value =>
      have known := accounts value.1 value.2 rfl
      refine Or.inr ⟨known.1, fun credential held => known.2 credential held.1 ?_⟩
      exact held.2.resolve_right List.not_mem_nil

theorem answered_sound (result : Except Status (List Message)) :
    Sound settings event (answered settings result) := by
  refine Or.inl fun credential held => ?_
  cases result with
  | error status => exact held.2.resolve_right List.not_mem_nil
  | ok response => exact held.2.resolve_right List.not_mem_nil

theorem perform_sound (settings : Settings) (event : Event) :
    Sound settings event (perform settings event) := by
  rw [perform]
  split
  case h_1 input requested =>
    exact written_sound fun _ _ success => updateInstanceSetting_accounts requested success
  case h_2 email recipientEmail userEmail requested =>
    split
    · exact Or.inl fun credential held => held.2.resolve_right List.not_mem_nil
    case h_2 setting success =>
      rcases bind_eq_ok.mp success with ⟨_, isAdmin, continued⟩
      rcases bind_eq_ok.mp continued with ⟨kept, resolved, checked⟩
      have same : kept = setting := by
        split at checked
        · cases checked
        · rcases bind_eq_ok.mp checked with ⟨_, _, finished⟩
          exact Except.ok.inj finished
      subst same
      cases email with
      | none =>
          left
          rintro credential ⟨some_, stored | used⟩
          · exact stored
          · rcases bind_eq_ok.mp resolved with ⟨_, _, finished⟩
            rw [List.mem_singleton.mp used, ← Except.ok.inj finished] at some_ ⊢
            exact existingEmail_stored some_
      | some email =>
          right
          have named : event.named = [email.credential] := by simp [Event.named, requested]
          refine ⟨namesOnce_of_length (by simp [named]), ?_⟩
          rintro credential ⟨some_, stored | used⟩
          · exact Or.inl stored
          · rw [List.mem_singleton.mp used] at some_ ⊢
            exact (resolveTestEmailSetting_keeps resolved).originates (requireAdmin_eq_ok.mp isAdmin)
              named some_
  · exact answered_sound _
  · exact answered_sound _
  case h_5 requested =>
    exact written_sound fun _ _ success => createIdentityProvider_accounts requested success
  case h_6 requested =>
    exact written_sound fun _ _ success => updateIdentityProvider_accounts requested success
  case h_7 requested =>
    exact written_sound fun _ _ success => deleteIdentityProvider_accounts requested success
  · exact answered_sound _
  · exact answered_sound _

/-! ## Responses -/

/-- No key is its own hint. -/
def Unmasked (apiKey : String) : Prop := apiKey ≠ "" -> maskAPIKey (bytes apiKey) ≠ bytes apiKey

/-- A message has no secret: the fields for secrets are empty, and no hint is
the key of a provider. -/
def Message.Redacted (settings : Settings) : Message -> Prop
  | .notification email => forall setting, email = some setting -> setting.smtpPassword = ""
  | .storage s3Config => forall config, s3Config = some config -> config.accessKeySecret = ""
  | .ai providers _ => forall message, message ∈ providers -> message.apiKey = "" ∧
      forall provider, provider ∈ (existingAI settings).providers -> provider.apiKey ≠ "" ->
        message.apiKeyHint ≠ bytes provider.apiKey
  | .identityProvider row => forall config, row.config = some config -> config.clientSecret = ""
  | .other => True

/-- The hint of a hint is the hint. -/
theorem maskAPIKey_idem (apiKey : List UInt8) : maskAPIKey (maskAPIKey apiKey) = maskAPIKey apiKey := by
  by_cases empty : apiKey.isEmpty
  · simp [maskAPIKey, empty]
  · by_cases short : apiKey.length ≤ 8
    · have hint : maskAPIKey apiKey = [46, 46, 46] := by simp [maskAPIKey, empty, short]
      rw [hint]
      rfl
    · have long : 8 < apiKey.length := Nat.lt_of_not_le short
      have hint : maskAPIKey apiKey =
          apiKey.take 4 ++ [46, 46, 46] ++ apiKey.drop (apiKey.length - 4) := by
        simp [maskAPIKey, empty, short]
      have front : (apiKey.take 4).length = 4 := by rw [List.length_take]; omega
      have back : (apiKey.drop (apiKey.length - 4)).length = 4 := by rw [List.length_drop]; omega
      have length : (maskAPIKey apiKey).length = 11 := by
        rw [hint, List.length_append, List.length_append, front, back]
        rfl
      have some_ : (maskAPIKey apiKey).isEmpty = false := by
        rw [List.isEmpty_eq_false_iff]
        exact List.ne_nil_of_length_pos (by omega)
      have taken : (maskAPIKey apiKey).take 4 = apiKey.take 4 := by
        rw [hint, List.append_assoc, List.take_append_of_le_length (by omega), List.take_take,
          Nat.min_self]
      have dropped : (maskAPIKey apiKey).drop 7 = apiKey.drop (apiKey.length - 4) := by
        have seven : (apiKey.take 4 ++ [46, 46, 46]).length = 7 := by
          rw [List.length_append, front]
          rfl
        rw [hint, ← seven, List.drop_left]
      rw [maskAPIKey, some_, length, taken, dropped, hint]
      rfl

theorem convertAIProviders_redacted (settings : Settings) (transcription : Option TranscriptionConfig)
    (providers : List AIProviderConfig)
    (unmasked : forall provider, provider ∈ (existingAI settings).providers -> Unmasked provider.apiKey) :
    (Message.ai (providers.map convertAIProviderFromStore) transcription).Redacted settings := by
  intro message member
  rcases List.mem_map.mp member with ⟨from_, _, rfl⟩
  refine ⟨rfl, fun provider stored some_ hint => ?_⟩
  apply unmasked provider stored some_
  rw [← hint]
  exact maskAPIKey_idem _

theorem convertIdentityProviderFromStore_redacted (settings : Settings) (row : IdentityProvider) :
    (convertIdentityProviderFromStore row).Redacted settings := by
  intro config isConfig
  rcases Option.map_eq_some_iff.mp isConfig with ⟨stored, _, rfl⟩
  rfl

/-- Every message of the list is redacted. -/
def AllRedacted (settings : Settings) (response : List Message) : Prop :=
  forall message, message ∈ response -> message.Redacted settings

theorem allRedacted_singleton {message : Message} (redacted : message.Redacted settings) :
    AllRedacted settings [message] := by
  intro only member
  rw [List.mem_singleton.mp member]
  exact redacted

theorem getInstanceSetting_redacted
    (unmasked : forall provider, provider ∈ (existingAI settings).providers -> Unmasked provider.apiKey)
    {key : SettingKey} {message : Message}
    (success : getInstanceSetting settings event key = .ok message) : message.Redacted settings := by
  rcases bind_eq_ok.mp success with ⟨_, _, handled⟩
  cases key with
  | notification =>
      rcases bind_eq_ok.mp handled with ⟨_, _, finished⟩
      cases finished
      intro setting same
      cases same
      rfl
  | storage =>
      rcases bind_eq_ok.mp handled with ⟨_, _, finished⟩
      cases finished
      intro config same
      rcases Option.map_eq_some_iff.mp same with ⟨stored, _, rfl⟩
      rfl
  | ai =>
      dsimp only at handled
      split at handled
      · cases handled
      · cases handled
        exact convertAIProviders_redacted settings _ _ unmasked
  | other =>
      cases handled
      trivial

theorem updateInstanceSetting_redacted {input : SettingInput}
    (success : updateInstanceSetting settings event input = .ok (after, response))
    (unmasked : forall provider, provider ∈ (existingAI after).providers -> Unmasked provider.apiKey) :
    AllRedacted after response := by
  rcases bind_eq_ok.mp success with ⟨_, _, handled⟩
  cases input with
  | notification email =>
      cases email with
      | none =>
          rcases bind_eq_ok.mp handled with ⟨_, _, finished⟩
          cases finished
          exact allRedacted_singleton nofun
      | some email =>
          rcases bind_eq_ok.mp handled with ⟨_, _, stored⟩
          rcases bind_eq_ok.mp stored with ⟨_, _, finished⟩
          cases finished
          apply allRedacted_singleton
          intro setting same
          cases same
          rfl
  | storage s3Config =>
      cases s3Config with
      | none =>
          rcases bind_eq_ok.mp handled with ⟨_, _, finished⟩
          cases finished
          exact allRedacted_singleton nofun
      | some s3Config =>
          rcases bind_eq_ok.mp handled with ⟨_, _, finished⟩
          cases finished
          apply allRedacted_singleton
          intro config same
          cases same
          rfl
  | ai setting =>
      dsimp only at handled
      split at handled
      · cases handled
      · rcases bind_eq_ok.mp handled with ⟨_, _, finished⟩
        cases finished
        exact allRedacted_singleton (convertAIProviders_redacted _ _ _ unmasked)
  | other valid =>
      rcases bind_eq_ok.mp handled with ⟨_, _, finished⟩
      cases finished
      exact allRedacted_singleton trivial

theorem answered_redacted {result : Except Status (List Message)}
    (redacted : forall response, result = .ok response -> AllRedacted settings response) :
    AllRedacted (answered settings result).settings (answered settings result).response := by
  cases result with
  | error status => exact fun _ impossible => absurd impossible List.not_mem_nil
  | ok response => exact redacted response rfl

theorem written_redacted {result : Except Status (Settings × List Message)}
    (redacted : forall after response, result = .ok (after, response) -> AllRedacted after response) :
    AllRedacted (written settings result).settings (written settings result).response := by
  cases result with
  | error status => exact fun _ impossible => absurd impossible List.not_mem_nil
  | ok value => exact redacted value.1 value.2 rfl

theorem perform_redacted (settings : Settings) (event : Event)
    (unmasked : forall provider, provider ∈ (existingAI (perform settings event).settings).providers ->
      Unmasked provider.apiKey) :
    AllRedacted (perform settings event).settings (perform settings event).response := by
  revert unmasked
  rw [perform]
  split
  · intro unmasked
    apply written_redacted
    intro after response success
    rw [success] at unmasked
    exact updateInstanceSetting_redacted success unmasked
  · intro _
    split <;> exact fun _ impossible => absurd impossible List.not_mem_nil
  case h_3 key _ =>
    intro unmasked
    apply answered_redacted
    intro response success
    rcases map_eq_ok.mp success with ⟨message, read, rfl⟩
    rw [success] at unmasked
    exact allRedacted_singleton (getInstanceSetting_redacted unmasked read)
  case h_4 keys _ =>
    intro unmasked
    apply answered_redacted
    intro response success message member
    rw [success] at unmasked
    rw [batchGetInstanceSettings] at success
    split at success
    · cases success
    · rcases exists_of_mem_mapM success member with ⟨key, _, read⟩
      exact getInstanceSetting_redacted unmasked read
  · intro _
    apply written_redacted
    intro after response success
    rcases bind_eq_ok.mp success with ⟨_, _, handled⟩
    rcases bind_eq_ok.mp handled with ⟨_, _, finished⟩
    cases finished
    exact allRedacted_singleton (convertIdentityProviderFromStore_redacted _ _)
  · intro _
    apply written_redacted
    intro after response success
    rcases bind_eq_ok.mp success with ⟨_, _, masked⟩
    split at masked
    · cases masked
    · rcases bind_eq_ok.mp masked with ⟨_, _, handled⟩
      rcases bind_eq_ok.mp handled with ⟨_, _, finished⟩
      cases finished
      exact allRedacted_singleton (convertIdentityProviderFromStore_redacted _ _)
  · intro _
    apply written_redacted
    intro after response success
    rcases bind_eq_ok.mp success with ⟨_, _, handled⟩
    rcases bind_eq_ok.mp handled with ⟨_, _, continued⟩
    rcases bind_eq_ok.mp continued with ⟨_, _, finished⟩
    cases finished
    exact fun _ impossible => absurd impossible List.not_mem_nil
  · intro _
    apply answered_redacted
    intro response success
    rcases map_eq_ok.mp success with ⟨row, _, rfl⟩
    exact allRedacted_singleton (convertIdentityProviderFromStore_redacted _ _)
  · intro _
    apply answered_redacted
    intro response success message member
    cases success
    rcases List.mem_map.mp member with ⟨row, _, rfl⟩
    exact convertIdentityProviderFromStore_redacted _ _

/-! ## Runs -/

/-- An update without a secret keeps the address that the slot has with its
secret, and no key that is supplied is its own hint.  For the SMTP password the
service checks the address itself. -/
structure Careful (settings : Settings) (event : Event) : Prop where
  address : event.Effective -> forall asked, asked ∈ event.named -> asked.secret = "" ->
    asked.slot ≠ .smtp -> forall old, old ∈ settings.credentials -> old.slot = asked.slot ->
      old.secret ≠ "" -> old.identity = asked.identity
  keys : forall named, named ∈ event.named -> forall id, named.slot = .ai id -> Unmasked named.secret

/-- What a request does to the credentials: each that is stored or used was
supplied by one request, a secret that the request leaves empty is kept only
with the address that it had, and no response has a secret. -/
structure WriteOnlyStep (seen : List Event) (settings : Settings) (event : Event) : Prop where
  supplied : forall credential, (perform settings event).Holds credential ->
    Exists fun supplier => supplier ∈ seen ++ [event] ∧ supplier.Supplies credential
  kept : forall asked, asked ∈ event.named -> asked.secret = "" -> forall credential,
    (perform settings event).Holds credential -> credential.slot = asked.slot ->
      credential ∈ settings.credentials
  redacted : AllRedacted (perform settings event).settings (perform settings event).response

/-- Every request of a run from an empty instance is such a step. -/
def WriteOnly (events : List Event) : Prop :=
  forall before event after, events = before ++ event :: after ->
    WriteOnlyStep before (run {} before) event

/-- A careful request moves no secret. -/
theorem Careful.holds (careful : Careful settings event) (held : (perform settings event).Holds credential) :
    credential ∈ settings.credentials ∨ event.Supplies credential := by
  rcases perform_sound settings event with same | ⟨_, originates⟩
  · exact Or.inl (same credential held)
  · rcases originates credential held with old | supplied | ⟨effective, notSmtp, named, old, stored, slot, secret⟩
    · exact Or.inl old
    · exact Or.inr supplied
    · left
      have identity : old.identity = credential.identity :=
        careful.address effective _ named rfl notSmtp old stored slot (by rw [secret]; exact held.1)
      have same : old = credential := by
        cases old
        cases credential
        rw [Credential.mk.injEq]
        exact ⟨slot, secret, identity⟩
      rw [← same]
      exact stored

theorem Careful.kept (careful : Careful settings event) {asked : Credential} (isNamed : asked ∈ event.named)
    (empty : asked.secret = "") (held : (perform settings event).Holds credential)
    (slot : credential.slot = asked.slot) :
    credential ∈ settings.credentials := by
  rcases perform_sound settings event with same | ⟨once, _⟩
  · exact same credential held
  · rcases careful.holds held with old | supplied
    · exact old
    · have same := once credential asked supplied.2.2 isNamed slot
      rw [same] at supplied
      exact absurd empty supplied.2.1

/-- What a request supplies, with no AI key that is its own hint. -/
def SuppliesUnmasked (event : Event) (credential : Credential) : Prop :=
  event.Supplies credential ∧ forall id, credential.slot = .ai id -> Unmasked credential.secret

theorem empty_credentials (credential : Credential) : credential ∉ Settings.credentials {} := by
  simp [Settings.credentials, existingAI]

/-- In a run of careful requests no secret moves to another address and none is
read. -/
theorem careful_writeOnly {events : List Event}
    (careful : Along (fun settings event => (perform settings event).settings) Careful {} events) :
    WriteOnly events := by
  rintro before event after rfl
  rcases along_append.mp careful with ⟨carefulBefore, carefulEvent, _⟩
  have upTo : Along (fun settings event => (perform settings event).settings) Careful {}
      (before ++ [event]) := along_append.mpr ⟨carefulBefore, carefulEvent, trivial⟩
  let holds (settings : Settings) (credential : Credential) :=
    credential.secret ≠ "" ∧ credential ∈ settings.credentials
  have step : forall settings event, Careful settings event -> forall credential,
      holds (perform settings event).settings credential ->
        holds settings credential ∨ SuppliesUnmasked event credential := by
    rintro settings event careful credential ⟨some_, stored⟩
    rcases careful.holds ⟨some_, Or.inl stored⟩ with old | supplied
    · exact Or.inl ⟨some_, old⟩
    · exact Or.inr ⟨supplied, careful.keys credential supplied.2.2⟩
  have empty : forall credential, ¬ holds {} credential := fun credential held =>
    empty_credentials credential held.2
  refine ⟨fun credential held => ?_, ?_, ?_⟩
  · rcases carefulEvent.holds held with old | supplied
    · rcases carefulBefore.supplied step empty ⟨held.1, old⟩ with ⟨supplier, member, supplies⟩
      exact ⟨supplier, List.mem_append_left _ member, supplies.1⟩
    · exact ⟨event, List.mem_append_right _ (List.mem_singleton.mpr rfl), supplied⟩
  · intro asked isNamed nothing credential held slot
    exact carefulEvent.kept isNamed nothing held slot
  · apply perform_redacted
    intro provider stored some_
    have held : holds ((before ++ [event]).foldl (fun settings event => (perform settings event).settings) {})
        provider.credential := by
      rw [List.foldl_append]
      exact ⟨some_, mem_credentials.mpr (Or.inr (Or.inr (Or.inl ⟨provider, stored, rfl⟩)))⟩
    rcases upTo.supplied step empty held with ⟨_, _, supplies⟩
    exact supplies.2 provider.id rfl some_

/-! ## Another endpoint -/

/-- An administrator stores an S3 configuration. -/
def storeS3 (accessKeySecret endpoint : String) : Event where
  request := .updateInstanceSetting (.storage (some ⟨"id", accessKeySecret, endpoint, "", "", false⟩))
  caller := some .admin
  generated := fun _ => ""

theorem careful_writeOnly_sameEndpoint :
    WriteOnly [storeS3 "secret" "https://s3.example", storeS3 "" "https://s3.example"] := by
  apply careful_writeOnly
  refine ⟨⟨fun _ asked _ _ _ old stored => absurd stored (empty_credentials old), ?_⟩, ⟨?_, ?_⟩, trivial⟩
  · intro named member id slot
    rw [List.mem_singleton.mp member] at slot
    cases slot
  · intro _ asked member _ _ old stored _ _
    rw [List.mem_singleton.mp member, List.mem_singleton.mp stored]
    rfl
  · intro named member id slot
    rw [List.mem_singleton.mp member] at slot
    cases slot

/-- The secret goes on to the endpoint of a request that does not have it. -/
theorem secret_moves :
    ¬ WriteOnly [storeS3 "secret" "https://s3.example", storeS3 "" "https://other.example"] := by
  intro writeOnly
  have step := writeOnly [storeS3 "secret" "https://s3.example"] (storeS3 "" "https://other.example") [] rfl
  have kept := step.kept ⟨.s3, "", .s3 "https://other.example"⟩ (List.mem_singleton.mpr rfl) rfl
    ⟨.s3, "secret", .s3 "https://other.example"⟩ ⟨by decide, Or.inl (by decide)⟩ rfl
  exact absurd kept (by decide)

end Secrets
end Service
end Memos
