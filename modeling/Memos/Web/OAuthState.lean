import Memos.Library.JsonText
import Mathlib.Data.List.Induction

namespace Memos
namespace Web
namespace OAuthState

open Library JsonText

/-!
# The state of an OAuth login

A login stores a random state and what belongs to it in the storage of the
session, under one key.  The callback presents a state, which is compared with
the stored one; whatever the outcome, the entry is removed.
-/

/-! ## What is stored -/

inductive OAuthFlowMode where
  | signin
  | link
deriving DecidableEq

/-- What a login is for, and the verifier that is generated when the browser
can. -/
structure Login where
  identityProviderName : JsString
  flowMode : OAuthFlowMode
  returnUrl : Option JsString := none
  linkingUserName : Option JsString := none
  codeVerifier : Option JsString := none
deriving DecidableEq

/-- `OAuthState` -/
structure StateData where
  state : JsString
  timestamp : Nat
  login : Login
deriving DecidableEq

def OAuthFlowMode.text : OAuthFlowMode -> JsString
  | .signin => js "signin"
  | .link => js "link"

def optionalField (name : String) (value : Option JsString) : List (JsString × Field) :=
  value.toList.map fun text => (js name, .text text)

/-- The properties of the record, without those that are undefined. -/
def StateData.fields (data : StateData) : List (JsString × Field) :=
  [(js "state", .text data.state),
    (js "identityProviderName", .text data.login.identityProviderName),
    (js "flowMode", .text data.login.flowMode.text), (js "timestamp", .number data.timestamp)] ++
  (optionalField "returnUrl" data.login.returnUrl ++
    (optionalField "linkingUserName" data.login.linkingUserName ++
      optionalField "codeVerifier" data.login.codeVerifier))

/-! ## Reading it back -/

def stringProperty (name : String) (value : Value) : Option JsString :=
  match value.property (js name) with
  | some (.string text) => some text
  | _ => none

def optionalProperty (name : String) (value : Value) : Option (Option JsString) :=
  match value.property (js name) with
  | none => some none
  | some (.string text) => some (some text)
  | _ => none

def timestampProperty (value : Value) : Option Nat :=
  match value.property (js "timestamp") with
  | some (.number timestamp) => if timestamp.den = 1 ∧ 0 ≤ timestamp.num then some timestamp.num.toNat else none
  | _ => none

/-- `stateData.flowMode || "signin"` -/
def flowModeProperty (value : Value) : Option OAuthFlowMode :=
  match value.property (js "flowMode") with
  | none => some .signin
  | some (.string text) =>
      if text = [] ∨ text = js "signin" then some .signin
      else if text = js "link" then some .link
      else none
  | _ => none

/-- `JSON.parse`, at the type of the record.  Nothing but `storeOAuthState`
writes the entry, so that no text of another type is read. -/
def readStateData (text : JsString) : Option StateData :=
  (parse text).bind fun value =>
    (stringProperty "state" value).bind fun state =>
    (timestampProperty value).bind fun timestamp =>
    (stringProperty "identityProviderName" value).bind fun identityProviderName =>
    (flowModeProperty value).bind fun flowMode =>
    (optionalProperty "returnUrl" value).bind fun returnUrl =>
    (optionalProperty "linkingUserName" value).bind fun linkingUserName =>
    (optionalProperty "codeVerifier" value).map fun codeVerifier =>
      { state, timestamp
        login := { identityProviderName, flowMode, returnUrl, linkingUserName, codeVerifier } }

/-! ## The operations -/

/-- The entry of the session storage, `oauth_state`. -/
abbrev Storage := Option JsString

/-- 10 minutes -/
def stateExpiryMs : Nat := 10 * 60 * 1000

def isExpired (now : Nat) (data : StateData) : Bool := stateExpiryMs < (now : Int) - data.timestamp

/-- `storeOAuthState` from the generated state and verifier on; nothing touches
the storage before.  The storage may refuse the entry, and the call then fails. -/
def storeOAuthState (now : Nat) (state : JsString) (login : Login) (accepted : Bool)
    (storage : Storage) : Storage :=
  if accepted then some (stringify { state, timestamp := now, login : StateData }.fields)
  else storage

def validateOAuthState (now : Nat) (stateParam : JsString) (storage : Storage) :
    Option Login × Storage :=
  match storage with
  | none => (none, none)
  | some storedData =>
      if storedData = [] then (none, storage)
      else
        match readStateData storedData with
        | none => (none, none)
        | some stateData =>
            if isExpired now stateData then (none, none)
            else if stateData.state ≠ stateParam then (none, none)
            else (some stateData.login, none)

def cleanupExpiredOAuthState (now : Nat) (storage : Storage) : Storage :=
  match storage with
  | none => none
  | some storedData =>
      if storedData = [] then storage
      else
        match readStateData storedData with
        | none => none
        | some stateData => if isExpired now stateData then none else storage

/-! ## Runs -/

inductive Call where
  | store (state : JsString) (login : Login) (accepted : Bool)
  | validate (stateParam : JsString)
  | cleanup
deriving DecidableEq

structure Event where
  now : Nat
  call : Call
deriving DecidableEq

def step (storage : Storage) (event : Event) : Storage :=
  match event.call with
  | .store state login accepted => storeOAuthState event.now state login accepted storage
  | .validate stateParam => (validateOAuthState event.now stateParam storage).2
  | .cleanup => cleanupExpiredOAuthState event.now storage

/-- The storage of a session after its calls so far. -/
def storageAfter (history : List Event) : Storage := history.foldl step none

/-- The call at this place of the history validates a state and returns what
belongs to it. -/
def ValidatesAt (history : List Event) (place : Nat) (stateParam : JsString) (login : Login) : Prop :=
  Exists fun now => history[place]? = some ⟨now, .validate stateParam⟩ ∧
    (validateOAuthState now stateParam (storageAfter (history.take place))).1 = some login

/-- The state that a call generates. -/
def Event.generated (event : Event) : Option JsString :=
  match event.call with
  | .store state _ _ => some state
  | _ => none

/-- The clock never goes back, and no state is generated twice. -/
structure Orderly (history : List Event) : Prop where
  clock : history.Pairwise fun earlier later => earlier.now ≤ later.now
  distinct : (history.filterMap Event.generated).Nodup

/-- The calls that replace or consume the entry. -/
def Call.Replaces : Call -> Prop
  | .store _ _ accepted => accepted = true
  | .validate _ => True
  | .cleanup => False

/-- The state was issued by the call at this place: at most ten minutes ago, and
neither replaced nor consumed since. -/
structure IssuedAt (history : List Event) (issue place : Nat) (state : JsString) (login : Login) :
    Prop where
  before : issue < place
  stored : Exists fun timestamp : Nat => Exists fun now : Nat =>
    history[issue]? = some ⟨timestamp, .store state login true⟩ ∧
      history[place]? = some ⟨now, .validate state⟩ ∧
        timestamp ≤ now ∧ now ≤ timestamp + stateExpiryMs
  current : ∀ (between : Nat) (event : Event), issue < between -> between < place ->
    history[between]? = some event -> ¬ event.call.Replaces

/-! ## What was stored is read -/

theorem readStateData_fields (data : StateData) :
    readStateData (stringify data.fields) = some data := by
  rcases data with ⟨state, timestamp, provider, flowMode, returnUrl, userName, verifier⟩
  rw [readStateData, JsonText.parse_stringify, Option.bind_some]
  cases flowMode <;> cases returnUrl <;> cases userName <;> cases verifier <;> rfl

theorem fields_nonempty (data : StateData) : stringify data.fields ≠ [] := by
  rw [StateData.fields, List.cons_append, stringify]
  exact List.cons_ne_nil _ _

theorem isExpired_iff (now : Nat) (data : StateData) :
    isExpired now data = true ↔ data.timestamp + stateExpiryMs < now := by
  rw [isExpired, decide_eq_true_eq]
  omega

/-! ## The operations on what was stored -/

/-- Validating consumes whatever was stored. -/
theorem validateOAuthState_consumes (now : Nat) (stateParam : JsString) (data : StateData) :
    (validateOAuthState now stateParam (some (stringify data.fields))).2 = none := by
  rw [validateOAuthState, if_neg (fields_nonempty data), readStateData_fields]
  dsimp only
  split
  · rfl
  · split <;> rfl

theorem validateOAuthState_stored {now : Nat} {stateParam : JsString} {data : StateData} {login : Login}
    (valid : (validateOAuthState now stateParam (some (stringify data.fields))).1 = some login) :
    data.state = stateParam ∧ data.login = login ∧ now ≤ data.timestamp + stateExpiryMs := by
  rw [validateOAuthState, if_neg (fields_nonempty data), readStateData_fields] at valid
  dsimp only at valid
  split at valid
  · contradiction
  · rename_i fresh
    rw [isExpired_iff] at fresh
    split at valid
    · contradiction
    · rename_i same
      exact ⟨not_not.mp same, Option.some.inj valid, by omega⟩

/-- Cleaning up keeps the entry or removes it. -/
theorem cleanupExpiredOAuthState_stored (now : Nat) (storage : Storage) :
    cleanupExpiredOAuthState now storage = storage ∨ cleanupExpiredOAuthState now storage = none := by
  cases storage with
  | none => exact Or.inl rfl
  | some storedData =>
      rw [cleanupExpiredOAuthState]
      split
      · exact Or.inl rfl
      · split
        · exact Or.inr rfl
        · split
          · exact Or.inr rfl
          · exact Or.inl rfl

/-! ## Every run -/

/-- The entry is what the last call that replaces or consumes it has stored. -/
def Current (history : List Event) (storage : Storage) : Prop :=
  storage = none ∨ Exists fun issue : Nat => Exists fun data : StateData =>
    history[issue]? = some ⟨data.timestamp, .store data.state data.login true⟩ ∧
      storage = some (stringify data.fields) ∧
      ∀ (between : Nat) (event : Event), issue < between -> history[between]? = some event ->
        ¬ event.call.Replaces

/-- A call that neither replaces nor consumes the entry. -/
theorem Current.append {history : List Event} {storage : Storage} (current : Current history storage)
    (event : Event) (keeps : ¬ event.call.Replaces) : Current (history ++ [event]) storage := by
  rcases current with none | ⟨issue, data, stored, storage_eq, last⟩
  · exact Or.inl none
  · have issueBound := (List.getElem?_eq_some_iff.mp stored).1
    refine Or.inr ⟨issue, data, ?_, storage_eq, ?_⟩
    · rw [List.getElem?_append_left issueBound]
      exact stored
    · intro between other later found
      rcases Nat.lt_or_ge between history.length with inside | outside
      · rw [List.getElem?_append_left inside] at found
        exact last between other later found
      · rw [List.getElem?_append_right outside] at found
        have isEvent := List.mem_of_getElem? found
        rw [List.mem_singleton.mp isEvent]
        exact keeps

theorem Current.step {history : List Event} {storage : Storage} (current : Current history storage)
    (event : Event) : Current (history ++ [event]) (step storage event) := by
  rcases event with ⟨now, call⟩
  cases call with
  | store state login accepted =>
      cases accepted with
      | false => exact current.append _ (by rw [Call.Replaces]; decide)
      | true =>
          refine Or.inr ⟨history.length, { state, timestamp := now, login }, ?_, rfl, ?_⟩
          · rw [List.getElem?_append_right (Nat.le_refl _), Nat.sub_self]
            rfl
          · intro between other later found
            have bound := (List.getElem?_eq_some_iff.mp found).1
            rw [List.length_append, List.length_singleton] at bound
            omega
  | validate stateParam =>
      refine Or.inl ?_
      rcases current with none | ⟨issue, data, _, storage_eq, _⟩
      · rw [none]
        rfl
      · rw [storage_eq]
        exact validateOAuthState_consumes now stateParam _
  | cleanup =>
      rcases cleanupExpiredOAuthState_stored now storage with kept | removed
      · have equal : OAuthState.step storage ⟨now, .cleanup⟩ = storage := kept
        rw [equal]
        exact current.append _ id
      · exact Or.inl removed

theorem current_storageAfter (history : List Event) : Current history (storageAfter history) := by
  induction history using List.reverseRecOn with
  | nil => exact Or.inl rfl
  | append_singleton history event ih =>
      rw [storageAfter, List.foldl_append]
      exact ih.step event

theorem pairwise_getElem? {α : Type} {relation : α -> α -> Prop} {items : List α}
    (pairwise : items.Pairwise relation) {first second : Nat} {earlier later : α}
    (before : first < second) (atFirst : items[first]? = some earlier)
    (atSecond : items[second]? = some later) : relation earlier later := by
  rcases List.getElem?_eq_some_iff.mp atFirst with ⟨firstBound, rfl⟩
  rcases List.getElem?_eq_some_iff.mp atSecond with ⟨secondBound, rfl⟩
  exact List.pairwise_iff_getElem.mp pairwise first second firstBound secondBound before

/-- A state that validates was issued. -/
theorem issuedAt_of_validatesAt {history : List Event} (orderly : Orderly history) {place : Nat}
    {stateParam : JsString} {login : Login} (valid : ValidatesAt history place stateParam login) :
    Exists fun issue => IssuedAt history issue place stateParam login := by
  rcases valid with ⟨now, called, valid⟩
  rcases current_storageAfter (history.take place) with
    none | ⟨issue, data, found, storage_eq, last⟩
  · rw [none] at valid
    contradiction
  · rw [storage_eq] at valid
    rcases validateOAuthState_stored valid with ⟨rfl, rfl, fresh⟩
    have before : issue < place := by
      have bound := (List.getElem?_eq_some_iff.mp found).1
      rw [List.length_take] at bound
      omega
    rw [List.getElem?_take_of_lt before] at found
    have order := pairwise_getElem? orderly.clock before found called
    refine ⟨issue, before, ⟨data.timestamp, now, found, called, order, fresh⟩, ?_⟩
    intro between event later earlier inHistory
    refine last between event later ?_
    rw [List.getElem?_take_of_lt earlier]
    exact inHistory

/-- A state validates at most once; it was issued at most ten minutes before,
was not replaced since, and what is returned was stored with it. -/
theorem validateOAuthState_once (history : List Event) (orderly : Orderly history) :
    (∀ first second stateParam login otherLogin,
      ValidatesAt history first stateParam login ->
        ValidatesAt history second stateParam otherLogin -> first = second) ∧
    ∀ place stateParam login, ValidatesAt history place stateParam login ->
      Exists fun issue => IssuedAt history issue place stateParam login := by
  refine ⟨?_, fun place stateParam login valid => issuedAt_of_validatesAt orderly valid⟩
  have never : ∀ first second stateParam login otherLogin, first < second ->
      ValidatesAt history first stateParam login ->
        ¬ ValidatesAt history second stateParam otherLogin := by
    intro first second stateParam login otherLogin before valid again
    rcases issuedAt_of_validatesAt orderly valid with ⟨issue, issued⟩
    rcases issuedAt_of_validatesAt orderly again with ⟨laterIssue, reissued⟩
    rcases issued.stored with ⟨_, _, found, called, _⟩
    rcases reissued.stored with ⟨_, _, foundAgain, _⟩
    -- The first validation consumes whatever was issued before it.
    have after : first ≤ laterIssue := by
      by_contra earlier
      exact reissued.current first _ (by omega) before called trivial
    have issuedBefore := issued.before
    have distinct := List.pairwise_filterMap.mp orderly.distinct
    exact pairwise_getElem? distinct (by omega) found foundAgain stateParam rfl stateParam rfl rfl
  intro first second stateParam login otherLogin valid again
  rcases Nat.lt_trichotomy first second with earlier | same | later
  · exact absurd again (never first second stateParam login otherLogin earlier valid)
  · exact same
  · exact absurd valid (never second first stateParam otherLogin login later again)

/-- Two logins; the state of the second one is presented in time. -/
def twoLogins : List Event :=
  [⟨0, .store (js "a") { identityProviderName := js "idp/1", flowMode := .signin } true⟩,
    ⟨5, .store (js "b") { identityProviderName := js "idp/2", flowMode := .link
                          codeVerifier := some (js "v") } true⟩,
    ⟨9, .cleanup⟩, ⟨600005, .validate (js "b")⟩, ⟨600006, .validate (js "b")⟩]

theorem twoLogins_once :
    ValidatesAt twoLogins 3 (js "b") { identityProviderName := js "idp/2", flowMode := .link
                                       codeVerifier := some (js "v") } ∧
    Exists fun issue => IssuedAt twoLogins issue 3 (js "b")
      { identityProviderName := js "idp/2", flowMode := .link, codeVerifier := some (js "v") } := by
  have orderly : Orderly twoLogins := ⟨by decide +kernel, by decide +kernel⟩
  have valid : ValidatesAt twoLogins 3 (js "b") { identityProviderName := js "idp/2"
                                                  flowMode := .link
                                                  codeVerifier := some (js "v") } :=
    ⟨600005, by decide +kernel, by decide +kernel⟩
  exact ⟨valid, (validateOAuthState_once twoLogins orderly).2 3 _ _ valid⟩

end OAuthState
end Web
end Memos
