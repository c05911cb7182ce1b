import Memos.Store.SettingLists

namespace Memos
namespace Service

open Library Store Store.Caching

/-!
# Shortcuts

A shortcut is an element of a list in the settings of its user.  The handlers
work on the setting that the cache holds: they append to its list, take from it
and change its elements before they upsert it.
-/

/-- `validateFilter` compiles the filter with the engine of the server. -/
structure ShortcutBackend where
  codecs : SettingCodecs
  compileFilter : String -> Except String Unit

def ShortcutBackend.validateFilter (backend : ShortcutBackend) (filter : String) :
    Except String Unit :=
  if filter = "" then .error "filter cannot be empty"
  else
    match backend.compileFilter filter with
    | .error cause => .error ("failed to compile filter: " ++ cause)
    | .ok () => .ok ()

variable (backend : ShortcutBackend)

/-- A list of shortcuts in the setting. -/
def withShortcuts (setting : UserSettingMessage) (shortcuts : List Shortcut) :
    UserSettingMessage :=
  { setting with value := .shortcuts shortcuts }

/-! ## Create -/

/-- The title and the filter of a new shortcut. -/
def checkNewShortcut (shortcut : Shortcut) : Except String Unit :=
  if shortcut.title = "" then .error "title is required"
  else
    match backend.validateFilter shortcut.filter with
    | .error cause => .error ("invalid filter: " ++ cause)
    | .ok () => .ok ()

/-- The new shortcut is appended to the list in the cache. -/
def appendShortcut (userId : Nat) (shortcut : Shortcut) : SettingChange where
  userId := userId
  key := .shortcuts
  object := fun setting => withShortcuts setting (setting.shortcuts ++ [shortcut])
  compute := fun found =>
    let userSetting := found.getD ⟨userId, .shortcuts []⟩
    .ok (withShortcuts userSetting (userSetting.shortcuts ++ [shortcut]))

/-- The caller has resolved the user and the permission, which may fail. -/
def createShortcut (access : Except String Unit) (userId : Nat) (shortcut : Shortcut)
    (validateOnly : Bool) : StoreProgram (Except String Unit) :=
  match access with
  | .error cause => return .error cause
  | .ok () =>
      match checkNewShortcut backend shortcut with
      | .error cause => return .error cause
      | .ok () =>
          if validateOnly then return .ok ()
          else (appendShortcut userId shortcut).program backend.codecs

/-! ## Update -/

structure UpdateShortcutRequest where
  userId : Nat
  shortcutId : String
  mask : List String
  title : String
  filter : String

/-- The loop over the mask for one shortcut, with the error that ends it.  What
came before the error stays changed. -/
def applyMask (request : UpdateShortcutRequest) :
    List String -> Shortcut -> Shortcut × Option String
  | [], shortcut => (shortcut, none)
  | field :: fields, shortcut =>
      if field = "title" then
        if request.title = "" then (shortcut, some "title is required")
        else applyMask request fields { shortcut with title := request.title }
      else if field = "filter" then
        match backend.validateFilter request.filter with
        | .error cause => (shortcut, some ("invalid filter: " ++ cause))
        | .ok () => applyMask request fields { shortcut with filter := request.filter }
      else applyMask request fields shortcut

/-- The loop over the shortcuts, with the error that ends it. -/
def applyShortcuts (request : UpdateShortcutRequest) :
    List Shortcut -> List Shortcut × Option String
  | [] => ([], none)
  | shortcut :: rest =>
      if shortcut.id = request.shortcutId then
        match applyMask backend request request.mask shortcut with
        | (changed, some cause) => (changed :: rest, some cause)
        | (changed, none) =>
            let (others, fault) := applyShortcuts request rest
            (changed :: others, fault)
      else
        let (others, fault) := applyShortcuts request rest
        (shortcut :: others, fault)

/-- The shortcuts are changed in place, also when the request fails. -/
def changeShortcuts (request : UpdateShortcutRequest) : SettingChange where
  userId := request.userId
  key := .shortcuts
  object := fun setting =>
    match setting with
    | ⟨owner, .shortcuts shortcuts⟩ =>
        ⟨owner, .shortcuts (applyShortcuts backend request shortcuts).1⟩
    | other => other
  compute := fun found =>
    match found with
    | none => .error "shortcut not found"
    | some setting =>
        match applyShortcuts backend request setting.shortcuts with
        | (_, some cause) => .error cause
        | (newShortcuts, none) =>
            if setting.shortcuts.any fun shortcut => shortcut.id = request.shortcutId then
              .ok (withShortcuts setting newShortcuts)
            else .error "shortcut not found"

def updateShortcut (access : Except String Unit) (request : UpdateShortcutRequest) :
    StoreProgram (Except String Unit) :=
  match access with
  | .error cause => return .error cause
  | .ok () =>
      if request.mask = [] then return .error "update mask is required"
      else (changeShortcuts backend request).program backend.codecs

/-! ## Delete -/

/-- The list in the cache is replaced only when the shortcut is there. -/
def removeShortcut (userId : Nat) (shortcutId : String) : SettingChange where
  userId := userId
  key := .shortcuts
  object := fun setting =>
    if setting.shortcuts.any fun shortcut => shortcut.id = shortcutId then
      withShortcuts setting (setting.shortcuts.filter fun shortcut => shortcut.id ≠ shortcutId)
    else setting
  compute := fun found =>
    match found with
    | none => .error "shortcut not found"
    | some setting =>
        if setting.shortcuts.any fun shortcut => shortcut.id = shortcutId then
          .ok (withShortcuts setting
            (setting.shortcuts.filter fun shortcut => shortcut.id ≠ shortcutId))
        else .error "shortcut not found"

def deleteShortcut (access : Except String Unit) (userId : Nat) (shortcutId : String) :
    StoreProgram (Except String Unit) :=
  match access with
  | .error cause => return .error cause
  | .ok () => (removeShortcut userId shortcutId).program backend.codecs

/-! ## The operations on lists -/

/-- The operations that change a list in a user setting. -/
inductive ListCall where
  | addUserRefreshToken (userId : Nat) (token : RefreshToken)
  | removeUserRefreshToken (userId : Nat) (tokenId : String)
  | addUserPersonalAccessToken (userId : Nat) (token : PersonalAccessToken)
  | removeUserPersonalAccessToken (userId : Nat) (tokenId : String)
  | updatePATLastUsed (userId : Nat) (tokenId : String) (lastUsed : Option Int)
  | addUserWebhook (userId : Nat) (webhook : Webhook)
  | updateUserWebhook (userId : Nat) (webhook : Webhook)
  | removeUserWebhook (userId : Nat) (webhookId : String)
  | createShortcut (access : Except String Unit) (userId : Nat) (shortcut : Shortcut)
      (validateOnly : Bool)
  | updateShortcut (access : Except String Unit) (request : UpdateShortcutRequest)
  | deleteShortcut (access : Except String Unit) (userId : Nat) (shortcutId : String)

/-- What the operation does when it comes to the setting. -/
def ListCall.change : ListCall -> SettingChange
  | .addUserRefreshToken userId token => Caching.addUserRefreshToken userId token
  | .removeUserRefreshToken userId tokenId => Caching.removeUserRefreshToken userId tokenId
  | .addUserPersonalAccessToken userId token => Caching.addUserPersonalAccessToken userId token
  | .removeUserPersonalAccessToken userId tokenId =>
      Caching.removeUserPersonalAccessToken userId tokenId
  | .updatePATLastUsed userId tokenId lastUsed =>
      Caching.updatePATLastUsed userId tokenId lastUsed
  | .addUserWebhook userId webhook => Caching.addUserWebhook userId webhook
  | .updateUserWebhook userId webhook => Caching.updateUserWebhook userId webhook
  | .removeUserWebhook userId webhookId => Caching.removeUserWebhook userId webhookId
  | .createShortcut _ userId shortcut _ => appendShortcut userId shortcut
  | .updateShortcut _ request => changeShortcuts backend request
  | .deleteShortcut _ userId shortcutId => removeShortcut userId shortcutId

def ListCall.program : ListCall -> StoreProgram (Except String Unit)
  | .createShortcut access userId shortcut validateOnly =>
      Service.createShortcut backend access userId shortcut validateOnly
  | .updateShortcut access request => Service.updateShortcut backend access request
  | .deleteShortcut access userId shortcutId =>
      Service.deleteShortcut backend access userId shortcutId
  | call => (call.change backend).program backend.codecs

/-- The keys of the lists. -/
theorem ListCall.key_ne_unspecified (call : ListCall) :
    (call.change backend).key ≠ .unspecified := by
  intro unspecified
  cases call <;> cases unspecified

/-- What comes before the setting: `none` where the operation goes on to it. -/
def ListCall.early : ListCall -> Option (Except String Unit)
  | .createShortcut (.error cause) _ _ _ => some (.error cause)
  | .createShortcut (.ok ()) _ shortcut validateOnly =>
      match checkNewShortcut backend shortcut with
      | .error cause => some (.error cause)
      | .ok () => if validateOnly then some (.ok ()) else none
  | .updateShortcut (.error cause) _ => some (.error cause)
  | .updateShortcut (.ok ()) request =>
      if request.mask = [] then some (.error "update mask is required") else none
  | .deleteShortcut (.error cause) _ _ => some (.error cause)
  | _ => none

/-- An operation ends early or is its change of the setting. -/
theorem ListCall.program_eq (call : ListCall) : call.program backend =
    match call.early backend with
    | some result => pure result
    | none => (call.change backend).program backend.codecs := by
  cases call with
  | createShortcut access userId shortcut validateOnly =>
      cases access with
      | error cause => rfl
      | ok done =>
          simp only [ListCall.program, Service.createShortcut, ListCall.early, ListCall.change]
          cases checkNewShortcut backend shortcut with
          | error cause => rfl
          | ok done => cases validateOnly <;> rfl
  | updateShortcut access request =>
      cases access with
      | error cause => rfl
      | ok done =>
          simp only [ListCall.program, Service.updateShortcut, ListCall.early, ListCall.change]
          split <;> rfl
  | deleteShortcut access userId shortcutId => cases access <;> rfl
  | _ => rfl

end Service
end Memos
