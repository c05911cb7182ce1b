import Memos.Library.Labelled
import Memos.Library.Chronicle

namespace Memos
namespace Web
namespace TokenRefresh

open Library

/-!
# Shared token refreshes

The requests of a tab and its focus handler share one refresh of the access
token.  A step is what the tab does between two awaits: it starts a call, or goes
on after an answer or after a promise.  A promise that has its outcome may have
to wait for its turn, so a refresh that the server has answered is still the
shared one until its `finally` callback has run.
-/

/-! ## The state of the tokens -/

/-- `localStorage` and the variables of the module.  A stored instant is missing
as well when its text is no date. -/
structure AuthState where
  accessToken : Option String
  tokenExpiresAt : Option Int
  storedToken : Option String
  storedExpires : Option Int
  storageAvailable : Bool
  now : Int

/-- A text that is there and not empty. -/
def truthy (text : Option String) : Bool := text.any fun value => value ≠ ""

def REQUEST_TOKEN_EXPIRY_BUFFER_MS : Int := 30 * 1000

def FOCUS_TOKEN_EXPIRY_BUFFER_MS : Int := 2 * 60 * 1000

namespace AuthState

/-- The stored token is taken over while it has not expired. -/
def getAccessToken (auth : AuthState) : Option String × AuthState :=
  if truthy auth.accessToken then (auth.accessToken, auth)
  else if auth.storageAvailable ∧ truthy auth.storedToken then
    match auth.storedExpires with
    | some expiresAt =>
        if auth.now < expiresAt then
          (auth.storedToken, { auth with accessToken := auth.storedToken, tokenExpiresAt := some expiresAt })
        else (auth.accessToken, auth)
    | none => (auth.accessToken, auth)
  else (auth.accessToken, auth)

def setAccessToken (auth : AuthState) (token : Option String) (expiresAt : Option Int) : AuthState :=
  let held := { auth with accessToken := token, tokenExpiresAt := expiresAt }
  if !auth.storageAvailable then held
  else if truthy token ∧ expiresAt.isSome then
    { held with storedToken := token, storedExpires := expiresAt }
  else { held with storedToken := none, storedExpires := none }

def isTokenExpired (auth : AuthState) (bufferMs : Int) : Bool :=
  match auth.tokenExpiresAt with
  | none => true
  | some expiresAt => expiresAt - bufferMs ≤ auth.now

def hasStoredToken (auth : AuthState) : Bool :=
  truthy auth.accessToken || auth.storageAvailable && truthy auth.storedToken

def clearAccessToken (auth : AuthState) : AuthState := auth.setAccessToken none none

end AuthState

/-! ## Answers -/

/-- The codes of a `ConnectError`. -/
inductive Code where
  | canceled
  | unknown
  | invalidArgument
  | deadlineExceeded
  | notFound
  | alreadyExists
  | permissionDenied
  | resourceExhausted
  | failedPrecondition
  | aborted
  | outOfRange
  | unimplemented
  | internal
  | unavailable
  | dataLoss
  | unauthenticated
deriving DecidableEq

/-- What a promise is rejected with. -/
inductive Thrown where
  | connectError (message : String) (code : Code)
  | other

structure RefreshTokenResponse where
  accessToken : String
  expiresAt : Option Int

/-- `doRefreshAccessToken` after the answer of the server. -/
def doRefreshAccessToken (auth : AuthState) (answer : Except Thrown RefreshTokenResponse) :
    Except Thrown Unit × AuthState :=
  match answer with
  | .error cause => (.error cause, auth)
  | .ok response =>
      if response.accessToken = "" then
        (.error (.connectError "Refresh token response missing access token" .internal), auth)
      else (.ok (), auth.setAccessToken (some response.accessToken) response.expiresAt)

def shouldHandleUnauthenticatedRetry (error : Thrown) (isRetryAttempt : Bool) : Bool :=
  match error with
  | .connectError _ code => code = .unauthenticated && !isRetryAttempt
  | .other => false

def noTokenAvailable : Thrown :=
  .connectError "Token refresh succeeded but no token available" .internal

/-- `refreshAndGetAccessToken` after the refresh. -/
def refreshAndGetAccessToken (auth : AuthState) (outcome : Except Thrown Unit) :
    Except Thrown String × AuthState :=
  match outcome with
  | .error cause => (.error cause, auth)
  | .ok () =>
      match auth.getAccessToken with
      | (some token, auth) => (if token = "" then .error noTokenAvailable else .ok token, auth)
      | (none, auth) => (.error noTokenAvailable, auth)

/-! ## The tab -/

variable {Response : Type}

def RETRY_HEADER_VALUE : String := "true"

structure Headers where
  authorization : Option String
  xRetry : Option String

def setAuthorizationHeader (headers : Headers) (token : Option String) : Headers :=
  match token with
  | some value => if value = "" then headers else { headers with authorization := some ("Bearer " ++ value) }
  | none => headers

/-- A refresh, by how far its promise has come: the server has the request, the
promise of the call has an outcome, or the `finally` callback has run and the
shared promise has it as well. -/
inductive Phase where
  | requested
  | settled (outcome : Except Thrown Unit)
  | completed (outcome : Except Thrown Unit)

/-- What a call waits for, or where it has come to. -/
inductive Call (Response : Type) where
  | opened
  /-- `getRequestToken` waits for a refresh.  The token is what it returns when
  the refresh fails. -/
  | preflight (headers : Headers) (isRetryAttempt : Bool) (token : Option String) (promise : Nat)
  /-- The request has its token. -/
  | ready (headers : Headers) (isRetryAttempt : Bool) (token : Option String)
  | sent (headers : Headers) (isRetryAttempt : Bool)
  /-- The request was answered, and a refresh has been asked for. -/
  | retrying (headers : Headers) (promise : Nat)
  | retryReady (headers : Headers) (token : String)
  | resent (headers : Headers)
  | returned (result : Except Thrown Response)
  /-- A call of `refreshAccessToken` itself. -/
  | refreshing (promise : Nat)
  | refreshed (outcome : Except Thrown Unit)

/-- The promise that a call waits for. -/
def Call.promise : Call Response -> Option Nat
  | .preflight _ _ _ promise => some promise
  | .retrying _ promise => some promise
  | .refreshing promise => some promise
  | _ => none

/-- What has happened, for the statements about runs. -/
inductive Entry (Response : Type) where
  | started (promise : Nat)
  | asked (id promise : Nat)
  | completed (promise : Nat) (outcome : Except Thrown Unit)
  | received (id promise : Nat) (outcome : Except Thrown Unit)
  | sent (id : Nat)
  | answered (id : Nat) (answer : Except Thrown Response)

/-- The variables of `createTokenRefreshManager`. -/
structure TokenRefreshManager where
  isRefreshing : Bool
  refreshPromise : Option Nat

/-- The state of a tab.  The page may be one that `redirectOnAuthFailure` does
not leave. -/
structure Tab (Response : Type) where
  manager : TokenRefreshManager
  auth : AuthState
  refreshes : List Phase
  calls : List (Call Response)
  staysOnPage : Bool
  record : List (Entry Response)

namespace Tab

def log (tab : Tab Response) (entry : Entry Response) : Tab Response :=
  { tab with record := tab.record ++ [entry] }

def put (tab : Tab Response) (id : Nat) (call : Call Response) : Tab Response :=
  { tab with calls := tab.calls.set id call }

/-- `refresh` of the manager, with the promise that it returns. -/
def refresh (tab : Tab Response) : Nat × Tab Response :=
  match tab.manager with
  | ⟨true, some promise⟩ => (promise, tab)
  | _ =>
      let promise := tab.refreshes.length
      (promise,
        { tab with
          manager := ⟨true, some promise⟩
          refreshes := tab.refreshes ++ [.requested]
          record := tab.record ++ [.started promise] })

/-- A call waits for the shared refresh. -/
def refreshAccessToken (tab : Tab Response) (id : Nat) (wait : Nat -> Call Response) : Tab Response :=
  let (promise, shared) := tab.refresh
  (shared.log (.asked id promise)).put id (wait promise)

def opened (tab : Tab Response) : Tab Response := { tab with calls := tab.calls ++ [.opened] }

def callRefresh (tab : Tab Response) : Tab Response :=
  tab.opened.refreshAccessToken tab.calls.length .refreshing

/-- `getRequestToken` up to its await, or to its result. -/
def getRequestToken (tab : Tab Response) (id : Nat) (headers : Headers) (isRetryAttempt : Bool) :
    Tab Response :=
  let (token, auth) := tab.auth.getAccessToken
  let read := { tab with auth := auth }
  if !truthy token then
    if !auth.hasStoredToken then read.put id (.ready headers isRetryAttempt none)
    else read.refreshAccessToken id (.preflight headers isRetryAttempt none)
  else if auth.isTokenExpired REQUEST_TOKEN_EXPIRY_BUFFER_MS then
    read.refreshAccessToken id (.preflight headers isRetryAttempt token)
  else read.put id (.ready headers isRetryAttempt token)

def redirectOnAuthFailure (tab : Tab Response) : Tab Response :=
  if tab.staysOnPage then tab else { tab with auth := tab.auth.clearAccessToken }

/-- The interceptor after the answer to the first request. -/
def handleAnswer (tab : Tab Response) (id : Nat) (headers : Headers) (isRetryAttempt : Bool)
    (answer : Except Thrown Response) : Tab Response :=
  match answer with
  | .ok response => tab.put id (.returned (.ok response))
  | .error cause =>
      if !shouldHandleUnauthenticatedRetry cause isRetryAttempt then tab.put id (.returned (.error cause))
      else tab.refreshAccessToken id (.retrying headers)

/-- The interceptor after the answer to the second request. -/
def handleRetried (tab : Tab Response) (id : Nat) (answer : Except Thrown Response) : Tab Response :=
  match answer with
  | .ok response => tab.put id (.returned (.ok response))
  | .error cause => tab.redirectOnAuthFailure.put id (.returned (.error cause))

/-- A call goes on with the outcome of its refresh. -/
def handleRefreshed (tab : Tab Response) (id : Nat) (call : Call Response) (outcome : Except Thrown Unit) :
    Tab Response :=
  match call with
  | .preflight headers isRetryAttempt token _ =>
      match refreshAndGetAccessToken tab.auth outcome with
      | (.ok fresh, auth) => { tab with auth := auth }.put id (.ready headers isRetryAttempt (some fresh))
      | (.error _, auth) => { tab with auth := auth }.put id (.ready headers isRetryAttempt token)
  | .retrying headers _ =>
      match refreshAndGetAccessToken tab.auth outcome with
      | (.ok fresh, auth) => { tab with auth := auth }.put id (.retryReady headers fresh)
      | (.error cause, auth) =>
          { tab with auth := auth }.redirectOnAuthFailure.put id (.returned (.error cause))
  | .refreshing _ => tab.put id (.refreshed outcome)
  | _ => tab

end Tab

/-! ## Steps -/

/-- A call starts or goes on, a refresh advances, or other code and other tabs
change the tokens.  Besides the focus handler, the code of the session and of the
live updates calls `refreshAccessToken` itself. -/
inductive Event (Response : Type) where
  | call (headers : Headers)
  | focus
  | refresh
  | send (id : Nat)
  | answer (id : Nat) (answer : Except Thrown Response)
  | settle (promise : Nat) (answer : Except Thrown RefreshTokenResponse)
  | runFinally (promise : Nat)
  | resume (id : Nat)
  | outside (auth : AuthState) (staysOnPage : Bool)

namespace Tab

def step (tab : Tab Response) : Event Response -> Option (Tab Response)
  | .call headers =>
      let isRetryAttempt := headers.xRetry = some RETRY_HEADER_VALUE
      some (tab.opened.getRequestToken tab.calls.length headers isRetryAttempt)
  | .focus =>
      if !tab.auth.hasStoredToken then some tab
      else if tab.auth.isTokenExpired FOCUS_TOKEN_EXPIRY_BUFFER_MS then some tab.callRefresh
      else some tab
  | .refresh => some tab.callRefresh
  | .send id =>
      match tab.calls[id]? with
      | some (.ready headers isRetryAttempt token) =>
          some ((tab.log (.sent id)).put id (.sent (setAuthorizationHeader headers token) isRetryAttempt))
      | some (.retryReady headers token) =>
          let retried := { setAuthorizationHeader headers (some token) with xRetry := some RETRY_HEADER_VALUE }
          some ((tab.log (.sent id)).put id (.resent retried))
      | _ => none
  | .answer id answer =>
      match tab.calls[id]? with
      | some (.sent headers isRetryAttempt) =>
          some ((tab.log (.answered id answer)).handleAnswer id headers isRetryAttempt answer)
      | some (.resent _) => some ((tab.log (.answered id answer)).handleRetried id answer)
      | _ => none
  | .settle promise answer =>
      match tab.refreshes[promise]? with
      | some .requested =>
          let (outcome, auth) := doRefreshAccessToken tab.auth answer
          some { tab with auth := auth, refreshes := tab.refreshes.set promise (.settled outcome) }
      | _ => none
  | .runFinally promise =>
      match tab.refreshes[promise]? with
      | some (.settled outcome) =>
          some ({ tab with
            manager := ⟨false, none⟩
            refreshes := tab.refreshes.set promise (.completed outcome) }.log (.completed promise outcome))
      | _ => none
  | .resume id =>
      (tab.calls[id]?).bind fun call => call.promise.bind fun promise =>
        match tab.refreshes[promise]? with
        | some (.completed outcome) => some ((tab.log (.received id promise outcome)).handleRefreshed id call outcome)
        | _ => none
  | .outside auth staysOnPage => some { tab with auth, staysOnPage }

/-- A tab before its first call. -/
def fresh (auth : AuthState) (staysOnPage : Bool) : Tab Response where
  manager := ⟨false, none⟩
  auth := auth
  refreshes := []
  calls := []
  staysOnPage := staysOnPage
  record := []

end Tab

/-! ## Reasons -/

/-- The call that an entry is about. -/
def Entry.caller : Entry Response -> Option Nat
  | .asked id _ => some id
  | .received id _ _ => some id
  | .sent id => some id
  | .answered id _ => some id
  | _ => none

def Entry.isSend (id : Nat) : Entry Response -> Bool
  | .sent other => other == id
  | _ => false

/-- How often a request was sent. -/
def sends (id : Nat) (record : List (Entry Response)) : Nat := record.countP (Entry.isSend id)

/-- The answer was that the caller is not authenticated. -/
def Unauthenticated (id : Nat) (record : List (Entry Response)) : Prop :=
  Exists fun message => .answered id (.error (.connectError message .unauthenticated)) ∈ record

/-- A refresh has succeeded since a request was found not authenticated. -/
def RefreshedSince (id : Nat) (record : List (Entry Response)) : Prop :=
  Exists fun first => Exists fun message => Exists fun rest => Exists fun promise =>
    record = first ++ .answered id (.error (.connectError message .unauthenticated)) :: rest ∧
      .completed promise (.ok ()) ∈ rest

/-- The reasons of the entries.  A refresh starts when all others have their
outcome; a call has just started its refresh or joins one that has no outcome
yet, and receives the outcome of the refresh that it asked for last; and a request
is sent for the second time after a refresh that has succeeded in the meantime. -/
def Reason (before : List (Entry Response)) : Entry Response -> Prop
  | .started promise => .started promise ∉ before ∧
      ∀ earlier, .started earlier ∈ before -> Exists fun outcome => .completed earlier outcome ∈ before
  | .asked _ promise =>
      ((Exists fun rest => before = rest ++ [.started promise]) ∨ Exists fun caller => .asked caller promise ∈ before) ∧
        .started promise ∈ before ∧ ∀ outcome, .completed promise outcome ∉ before
  | .completed promise _ => .started promise ∈ before ∧ ∀ outcome, .completed promise outcome ∉ before
  | .received id promise outcome => Exists fun first => Exists fun rest =>
      before = first ++ .asked id promise :: rest ∧ (∀ other, .asked id other ∉ rest) ∧
        (∀ other earlier, .received id other earlier ∉ rest) ∧ .completed promise outcome ∈ rest
  | .sent id => sends id before = 0 ∨ sends id before = 1 ∧ RefreshedSince id before
  | .answered id _ => 0 < sends id before

/-! ## Where a call stands -/

/-- The call waits for the promise that it asked for last. -/
structure Awaits (record : List (Entry Response)) (id promise : Nat) (first rest : List (Entry Response)) :
    Prop where
  split : record = first ++ .asked id promise :: rest
  last : ∀ other, .asked id other ∉ rest
  waiting : ∀ other outcome, .received id other outcome ∉ rest
  unfinished : ∀ outcome, .completed promise outcome ∉ first

/-- What the record tells of a call. -/
def Kept (record : List (Entry Response)) (id : Nat) : Call Response -> Prop
  | .opened => sends id record = 0
  | .preflight _ _ _ promise => sends id record = 0 ∧
      Exists fun first => Exists fun rest => Awaits record id promise first rest
  | .ready _ _ _ => sends id record = 0
  | .sent _ _ => sends id record = 1
  | .retrying _ promise => sends id record = 1 ∧
      Exists fun first => Exists fun rest => Awaits record id promise first rest ∧ Unauthenticated id first
  | .retryReady _ _ => sends id record = 1 ∧ RefreshedSince id record
  | .resent _ => sends id record = 2
  | .returned _ => sends id record ≤ 2
  | .refreshing promise => sends id record = 0 ∧
      Exists fun first => Exists fun rest => Awaits record id promise first rest
  | .refreshed _ => sends id record = 0

theorem sends_append (id : Nat) (record more : List (Entry Response)) :
    sends id (record ++ more) = sends id record + sends id more :=
  List.countP_append

variable {id : Nat}

/-- The entries of other calls are no sends of this one. -/
theorem sends_of_others {more : List (Entry Response)} (others : ∀ entry, entry ∈ more -> entry.caller ≠ some id) :
    sends id more = 0 := by
  apply List.countP_eq_zero.mpr
  intro entry member isSend
  cases entry with
  | sent other =>
      have same : other = id := eq_of_beq isSend
      exact others _ member (congrArg some same)
  | started _ | asked _ _ | completed _ _ | received _ _ _ | answered _ _ => cases isSend

theorem RefreshedSince.append {record : List (Entry Response)} (refreshed : RefreshedSince id record)
    (more : List (Entry Response)) : RefreshedSince id (record ++ more) := by
  rcases refreshed with ⟨first, message, rest, promise, rfl, succeeded⟩
  refine ⟨first, message, rest ++ more, promise, ?_, List.mem_append_left _ succeeded⟩
  rw [List.append_assoc, List.cons_append]

theorem Awaits.append {record first rest more : List (Entry Response)} {id promise : Nat}
    (awaits : Awaits record id promise first rest)
    (others : ∀ entry, entry ∈ more -> entry.caller ≠ some id) :
    Awaits (record ++ more) id promise first (rest ++ more) where
  split := by rw [awaits.split, List.append_assoc, List.cons_append]
  last other member := by
    rcases List.mem_append.mp member with old | new
    · exact awaits.last other old
    · exact others _ new rfl
  waiting other outcome member := by
    rcases List.mem_append.mp member with old | new
    · exact awaits.waiting other outcome old
    · exact others _ new rfl
  unfinished := awaits.unfinished

/-- What the others do leaves a call where it stands. -/
theorem Kept.append {record more : List (Entry Response)} {call : Call Response} (kept : Kept record id call)
    (others : ∀ entry, entry ∈ more -> entry.caller ≠ some id) :
    Kept (record ++ more) id call := by
  have same : sends id (record ++ more) = sends id record := by
    rw [sends_append, sends_of_others others, Nat.add_zero]
  cases call with
  | preflight headers isRetryAttempt token promise =>
      rcases kept with ⟨count, first, rest, awaits⟩
      exact ⟨same.trans count, first, rest ++ more, awaits.append others⟩
  | refreshing promise =>
      rcases kept with ⟨count, first, rest, awaits⟩
      exact ⟨same.trans count, first, rest ++ more, awaits.append others⟩
  | retrying headers promise =>
      rcases kept with ⟨count, first, rest, awaits, refused⟩
      exact ⟨same.trans count, first, rest ++ more, awaits.append others, refused⟩
  | retryReady headers token => exact ⟨same.trans kept.1, kept.2.append more⟩
  | returned result =>
      change sends id (record ++ more) ≤ 2
      rw [same]
      exact kept
  | opened | ready _ _ _ | sent _ _ | resent _ | refreshed _ => exact same.trans kept

/-! ## The invariant -/

def Phase.isCompleted : Phase -> Bool
  | .completed _ => true
  | _ => false

/-- The variables of the manager tell whether a refresh is under way, and
which. -/
inductive Manages (refreshes : List Phase) : TokenRefreshManager -> Prop where
  | free
      (all : ∀ (index : Nat) (phase : Phase), refreshes[index]? = some phase ->
        phase.isCompleted = true) :
      Manages refreshes ⟨false, none⟩
  | busy (promise : Nat) (phase : Phase) (there : refreshes[promise]? = some phase)
      (unfinished : phase.isCompleted = false)
      (others : ∀ (index : Nat) (phase : Phase), index ≠ promise -> refreshes[index]? = some phase ->
        phase.isCompleted = true) :
      Manages refreshes ⟨true, some promise⟩

/-- The variables and the record agree. -/
structure Consistent (manager : TokenRefreshManager) (refreshes : List Phase) (calls : List (Call Response))
    (record : List (Entry Response)) : Prop where
  justified : Justified Reason record
  manages : Manages refreshes manager
  started : ∀ promise, .started promise ∈ record ↔ promise < refreshes.length
  asked : ∀ promise, promise < refreshes.length -> Exists fun caller => .asked caller promise ∈ record
  completed : ∀ promise outcome, .completed promise outcome ∈ record ↔
    refreshes[promise]? = some (.completed outcome)
  kept : ∀ (id : Nat) call, calls[id]? = some call -> Kept record id call
  unused : ∀ id, calls.length ≤ id -> ∀ entry, entry ∈ record -> entry.caller ≠ some id

abbrev Tab.Consistent (tab : Tab Response) : Prop :=
  TokenRefresh.Consistent tab.manager tab.refreshes tab.calls tab.record

section Lists

variable {α : Type} {items : List α} {item found : α} {index other : Nat}

theorem of_getElem?_set (there : (items.set index item)[other]? = some found) :
    other = index ∧ found = item ∨ other ≠ index ∧ items[other]? = some found := by
  by_cases same : index = other
  · subst same
    left
    by_cases bound : index < items.length
    · rw [List.getElem?_set_self bound] at there
      exact ⟨rfl, (Option.some.inj there).symm⟩
    · rw [List.getElem?_eq_none (by rw [List.length_set]; omega)] at there
      cases there
  · right
    rw [List.getElem?_set_ne same] at there
    exact ⟨Ne.symm same, there⟩

theorem of_getElem?_concat (there : (items ++ [item])[other]? = some found) :
    other = items.length ∧ found = item ∨ other < items.length ∧ items[other]? = some found := by
  by_cases bound : other < items.length
  · rw [List.getElem?_append_left bound] at there
    exact .inr ⟨bound, there⟩
  · have last : other = items.length := by
      have inside : other < (items ++ [item]).length := (List.getElem?_eq_some_iff.mp there).1
      rw [List.length_append, List.length_singleton] at inside
      omega
    subst last
    rw [List.getElem?_concat_length] at there
    exact .inl ⟨rfl, (Option.some.inj there).symm⟩

theorem lt_of_getElem? (there : items[index]? = some item) : index < items.length :=
  (List.getElem?_eq_some_iff.mp there).1

theorem set_of_getElem? (there : items[index]? = some item) : items.set index item = items := by
  rcases List.getElem?_eq_some_iff.mp there with ⟨bound, rfl⟩
  exact List.set_getElem_self bound

end Lists

section Steps

variable {manager : TokenRefreshManager} {refreshes : List Phase} {calls : List (Call Response)}
  {record : List (Entry Response)} {id : Nat} {call : Call Response}

/-- A call goes on without an entry. -/
theorem Consistent.put (consistent : Consistent manager refreshes calls record) (kept : Kept record id call) :
    Consistent manager refreshes (calls.set id call) record where
  justified := consistent.justified
  manages := consistent.manages
  started := consistent.started
  asked := consistent.asked
  completed := consistent.completed
  kept other found there := by
    rcases of_getElem?_set there with ⟨rfl, rfl⟩ | ⟨_, there⟩
    · exact kept
    · exact consistent.kept other found there
  unused other bound := by
    rw [List.length_set] at bound
    exact consistent.unused other bound

/-- A call goes on with an entry of its own. -/
theorem Consistent.log {entry : Entry Response} (consistent : Consistent manager refreshes calls record)
    (owner : entry.caller = some id) (there : id < calls.length) (reason : Reason record entry)
    (kept : Kept (record ++ [entry]) id call) :
    Consistent manager refreshes (calls.set id call) (record ++ [entry]) where
  justified := justified_append_singleton.mpr ⟨consistent.justified, reason⟩
  manages := consistent.manages
  started promise := by
    rw [← consistent.started promise, List.mem_append, List.mem_singleton]
    refine or_iff_left ?_
    rintro rfl
    cases owner
  asked promise bound := by
    rcases consistent.asked promise bound with ⟨caller, asked⟩
    exact ⟨caller, List.mem_append_left _ asked⟩
  completed promise outcome := by
    rw [← consistent.completed promise outcome, List.mem_append, List.mem_singleton]
    refine or_iff_left ?_
    rintro rfl
    cases owner
  kept other found isThere := by
    rcases of_getElem?_set isThere with ⟨rfl, rfl⟩ | ⟨different, isThere⟩
    · exact kept
    · apply (consistent.kept other found isThere).append
      intro made member same
      rw [List.mem_singleton.mp member, owner] at same
      exact different (Option.some.inj same).symm
  unused other bound made member := by
    rw [List.length_set] at bound
    rcases List.mem_append.mp member with old | new
    · exact consistent.unused other bound made old
    · rw [List.mem_singleton.mp new, owner]
      intro same
      rw [Option.some.inj same] at there
      exact absurd there (Nat.not_lt.mpr bound)

/-- A new call has no entry. -/
theorem Consistent.add (consistent : Consistent manager refreshes calls record)
    (kept : sends calls.length record = 0 -> Kept record calls.length call) :
    Consistent manager refreshes (calls ++ [call]) record where
  justified := consistent.justified
  manages := consistent.manages
  started := consistent.started
  asked := consistent.asked
  completed := consistent.completed
  kept id found there := by
    rcases of_getElem?_concat there with ⟨rfl, rfl⟩ | ⟨_, old⟩
    · exact kept (sends_of_others (consistent.unused calls.length (Nat.le_refl _)))
    · exact consistent.kept id found old
  unused id bound := by
    rw [List.length_append] at bound
    exact consistent.unused id (by omega)

variable {promise : Nat}

/-- The call joins a refresh that has not completed. -/
theorem Consistent.joins {phase : Phase} (consistent : Consistent manager refreshes calls record)
    (running : refreshes[promise]? = some phase) (unfinished : phase.isCompleted = false) (there : id < calls.length)
    (kept : Kept (record ++ [.asked id promise]) id call) :
    Consistent manager refreshes (calls.set id call) (record ++ [.asked id promise]) := by
  have bound := lt_of_getElem? running
  apply consistent.log rfl there ?_ kept
  refine ⟨.inr (consistent.asked promise bound), (consistent.started promise).mpr bound, ?_⟩
  intro outcome member
  rw [consistent.completed, running] at member
  cases Option.some.inj member
  cases unfinished

/-- The call starts a refresh when none is under way. -/
theorem Consistent.starts (consistent : Consistent ⟨false, none⟩ refreshes calls record)
    (there : id < calls.length)
    (kept : Kept (record ++ [.started refreshes.length] ++ [.asked id refreshes.length]) id call) :
    Consistent ⟨true, some refreshes.length⟩ (refreshes ++ [.requested]) (calls.set id call)
      (record ++ [.started refreshes.length] ++ [.asked id refreshes.length]) := by
  have all : ∀ (index : Nat) (phase : Phase), refreshes[index]? = some phase ->
      phase.isCompleted = true := by
    cases consistent.manages with
    | free all => exact all
  have isNew : .started refreshes.length ∉ record := by
    rw [consistent.started]
    exact Nat.lt_irrefl _
  have uncompleted : ∀ outcome, .completed refreshes.length outcome ∉ record := by
    intro outcome member
    rw [consistent.completed] at member
    exact Nat.lt_irrefl _ (lt_of_getElem? member)
  constructor
  case justified =>
    have reasonStarted : Reason record (.started refreshes.length) := by
      refine ⟨isNew, ?_⟩
      intro earlier member
      rw [consistent.started] at member
      have phaseThere := List.getElem?_eq_getElem member
      have isCompleted := all earlier _ phaseThere
      cases phase : refreshes[earlier] with
      | completed outcome =>
          rw [phase] at phaseThere
          exact ⟨outcome, (consistent.completed earlier outcome).mpr phaseThere⟩
      | requested | settled _ =>
          rw [phase] at isCompleted
          cases isCompleted
    have reasonAsked : Reason (record ++ [.started refreshes.length]) (.asked id refreshes.length) := by
      refine ⟨.inl ⟨record, rfl⟩, List.mem_append_right _ (List.mem_singleton.mpr rfl), ?_⟩
      intro outcome member
      rcases List.mem_append.mp member with old | new
      · exact uncompleted outcome old
      · cases List.mem_singleton.mp new
    have justifiedStarted := justified_append_singleton.mpr ⟨consistent.justified, reasonStarted⟩
    exact justified_append_singleton.mpr ⟨justifiedStarted, reasonAsked⟩
  case manages =>
    apply Manages.busy refreshes.length .requested List.getElem?_concat_length rfl
    intro index phase different phaseThere
    rcases of_getElem?_concat phaseThere with ⟨same, _⟩ | ⟨_, old⟩
    · exact absurd same different
    · exact all index phase old
  case started =>
    intro promise
    rw [List.length_append, List.length_singleton, Nat.lt_succ_iff_lt_or_eq, ← consistent.started]
    simp
  case asked =>
    intro promise bound
    rw [List.length_append, List.length_singleton, Nat.lt_succ_iff_lt_or_eq] at bound
    rcases bound with bound | rfl
    · rcases consistent.asked promise bound with ⟨caller, asked⟩
      exact ⟨caller, List.mem_append_left _ (List.mem_append_left _ asked)⟩
    · exact ⟨id, List.mem_append_right _ (List.mem_singleton.mpr rfl)⟩
  case completed =>
    intro promise outcome
    have same : .completed promise outcome ∈ record ++ [.started refreshes.length] ++ [.asked id refreshes.length] ↔
        .completed promise outcome ∈ record := by simp
    rw [same, consistent.completed]
    constructor
    · intro old
      rw [List.getElem?_append_left (lt_of_getElem? old)]
      exact old
    · intro found
      rcases of_getElem?_concat found with ⟨_, isRequested⟩ | ⟨_, old⟩
      · cases isRequested
      · exact old
  case kept =>
    intro other found isThere
    rcases of_getElem?_set isThere with ⟨rfl, rfl⟩ | ⟨different, isThere⟩
    · exact kept
    · rw [List.append_assoc]
      apply (consistent.kept other found isThere).append
      intro made member same
      rcases List.mem_cons.mp member with rfl | member
      · cases same
      · rw [List.mem_singleton.mp member] at same
        exact different (Option.some.inj same).symm
  case unused =>
    intro other bound made member same
    rw [List.length_set] at bound
    rcases List.mem_append.mp member with old | new
    · rcases List.mem_append.mp old with old | new
      · exact consistent.unused other bound made old same
      · rw [List.mem_singleton.mp new] at same
        cases same
    · rw [List.mem_singleton.mp new] at same
      have : id = other := Option.some.inj same
      omega

/-- The server has answered a refresh. -/
theorem Consistent.settles {outcome : Except Thrown Unit} (consistent : Consistent manager refreshes calls record)
    (requested : refreshes[promise]? = some .requested) :
    Consistent manager (refreshes.set promise (.settled outcome)) calls record where
  justified := consistent.justified
  manages := by
    cases consistent.manages with
    | free all => cases all promise _ requested
    | busy other phase there unfinished others =>
        have same : promise = other := by
          by_contra different
          cases others promise _ different requested
        subst same
        apply Manages.busy promise (.settled outcome) (List.getElem?_set_self (lt_of_getElem? there)) rfl
        intro index phase different found
        rw [List.getElem?_set_ne (Ne.symm different)] at found
        exact others index phase different found
  started other := by
    rw [List.length_set]
    exact consistent.started other
  asked other bound := by
    rw [List.length_set] at bound
    exact consistent.asked other bound
  completed other result := by
    rw [consistent.completed]
    constructor
    · intro old
      have different : promise ≠ other := by
        rintro rfl
        rw [requested] at old
        cases old
      rw [List.getElem?_set_ne different]
      exact old
    · intro found
      rcases of_getElem?_set found with ⟨_, isSettled⟩ | ⟨_, old⟩
      · cases isSettled
      · exact old
  kept := consistent.kept
  unused := consistent.unused

/-- The callback of the refresh frees the manager. -/
theorem Consistent.completes {outcome : Except Thrown Unit} (consistent : Consistent manager refreshes calls record)
    (settled : refreshes[promise]? = some (.settled outcome)) :
    Consistent ⟨false, none⟩ (refreshes.set promise (.completed outcome)) calls
      (record ++ [.completed promise outcome]) where
  justified := by
    have reason : Reason record (.completed promise outcome) := by
      refine ⟨(consistent.started promise).mpr (lt_of_getElem? settled), ?_⟩
      intro earlier member
      rw [consistent.completed, settled] at member
      cases member
    exact justified_append_singleton.mpr ⟨consistent.justified, reason⟩
  manages := by
    apply Manages.free
    intro index phase found
    rcases of_getElem?_set found with ⟨_, rfl⟩ | ⟨different, old⟩
    · rfl
    · cases consistent.manages with
      | free all => exact all index phase old
      | busy other running there unfinished others =>
          have same : promise = other := by
            by_contra distinct
            cases others promise _ distinct settled
          exact others index phase (same ▸ different) old
  started other := by
    rw [List.length_set, ← consistent.started]
    simp
  asked other bound := by
    rw [List.length_set] at bound
    rcases consistent.asked other bound with ⟨caller, asked⟩
    exact ⟨caller, List.mem_append_left _ asked⟩
  completed other result := by
    rw [List.mem_append, List.mem_singleton, consistent.completed]
    constructor
    · rintro (old | isNew)
      · have different : promise ≠ other := by
          rintro rfl
          rw [settled] at old
          cases old
        rw [List.getElem?_set_ne different]
        exact old
      · cases isNew
        exact List.getElem?_set_self (lt_of_getElem? settled)
    · intro found
      rcases of_getElem?_set found with ⟨rfl, same⟩ | ⟨_, old⟩
      · cases same
        exact .inr rfl
      · exact .inl old
  kept other found there := by
    apply (consistent.kept other found there).append
    intro made member same
    rw [List.mem_singleton.mp member] at same
    cases same
  unused other bound made member same := by
    rcases List.mem_append.mp member with old | new
    · exact consistent.unused other bound made old same
    · rw [List.mem_singleton.mp new] at same
      cases same

end Steps

/-! ## Steps of the tab -/

section Tab

variable {tab : Tab Response} {id promise : Nat}

variable {record : List (Entry Response)} {call : Call Response} {outcome : Except Thrown Unit} {next : Tab Response}

theorem awaits_asked (unfinished : ∀ outcome, .completed promise outcome ∉ record) :
    Awaits (record ++ [.asked id promise]) id promise record [] where
  split := rfl
  last _ member := absurd member List.not_mem_nil
  waiting _ _ member := absurd member List.not_mem_nil
  unfinished := unfinished

/-- The record of a call that has just asked for a refresh. -/
structure JustAsked (record final : List (Entry Response)) (id promise : Nat) : Prop where
  sends_eq : sends id final = sends id record
  awaits : Exists fun more => Awaits final id promise (record ++ more) []

theorem justAsked {record more : List (Entry Response)}
    (others : ∀ entry, entry ∈ more -> entry.caller ≠ some id)
    (unfinished : ∀ outcome, .completed promise outcome ∉ record ++ more) :
    JustAsked record (record ++ more ++ [.asked id promise]) id promise where
  sends_eq := by
    rw [sends_append, sends_append, sends_of_others others]
    rfl
  awaits := ⟨more, awaits_asked unfinished⟩

/-- A call asks for a refresh, and joins the one under way or starts one. -/
theorem Tab.Consistent.asks (consistent : tab.Consistent) (there : id < tab.calls.length)
    {wait : Nat -> Call Response}
    (kept : ∀ promise final, JustAsked tab.record final id promise -> Kept final id (wait promise)) :
    (tab.refreshAccessToken id wait).Consistent := by
  rcases tab with ⟨manager, auth, refreshes, calls, staysOnPage, record⟩
  have manages : Manages refreshes manager := consistent.manages
  cases manages with
  | free all =>
      apply TokenRefresh.Consistent.starts consistent there
      apply kept
      apply justAsked
      · intro entry member same
        rw [List.mem_singleton.mp member] at same
        cases same
      · intro outcome member
        rcases List.mem_append.mp member with old | new
        · have found := (consistent.completed _ _).mp old
          exact Nat.lt_irrefl _ (lt_of_getElem? found)
        · cases List.mem_singleton.mp new
  | busy promise phase running unfinished others =>
      apply TokenRefresh.Consistent.joins consistent running unfinished there
      apply kept
      have asked : JustAsked record (record ++ [] ++ [.asked id promise]) id promise := by
        apply justAsked
        · intro entry member
          cases member
        · intro outcome member
          rw [List.append_nil] at member
          have found := (consistent.completed _ _).mp member
          rw [running] at found
          cases Option.some.inj found
          cases unfinished
      rw [List.append_nil] at asked
      exact asked

theorem Tab.Consistent.getRequestToken (consistent : tab.Consistent) (there : id < tab.calls.length)
    (unsent : sends id tab.record = 0) (headers : Headers) (isRetryAttempt : Bool) :
    (tab.getRequestToken id headers isRetryAttempt).Consistent := by
  rcases read : tab.auth.getAccessToken with ⟨token, auth⟩
  have consistentRead : Tab.Consistent { tab with auth := auth } := consistent
  have waits (kept : Option String) : (Tab.refreshAccessToken { tab with auth := auth } id
      (.preflight headers isRetryAttempt kept)).Consistent := by
    apply consistentRead.asks there
    rintro promise final ⟨sends_eq, more, awaits⟩
    exact ⟨sends_eq.trans unsent, _, _, awaits⟩
  have goesOn (kept : Option String) : (Tab.put { tab with auth := auth } id
      (.ready headers isRetryAttempt kept)).Consistent := by
    apply consistentRead.put
    exact unsent
  simp only [Tab.getRequestToken, read]
  split_ifs
  · exact goesOn none
  · exact waits none
  · exact waits token
  · exact goesOn token

theorem redirectOnAuthFailure_eq (tab : Tab Response) :
    Exists fun auth => tab.redirectOnAuthFailure = { tab with auth := auth } := by
  rcases tab with ⟨manager, auth, refreshes, calls, staysOnPage, record⟩
  cases staysOnPage with
  | true => exact ⟨auth, rfl⟩
  | false => exact ⟨auth.clearAccessToken, rfl⟩

/-- The token that a call finds after its refresh. -/
def AuthState.token (auth : AuthState) : Option String := auth.getAccessToken.1.filter fun token => token ≠ ""

/-- What a call makes of the outcome of its refresh.  It goes on with the token
that it finds, and after a failure with the old one or not at all. -/
inductive GoesOn (found : Option String) : Call Response -> Except Thrown Unit -> Call Response -> Prop where
  | renewed (headers : Headers) (isRetryAttempt : Bool) (token : Option String) (promise : Nat) :
      GoesOn found (.preflight headers isRetryAttempt token promise) (.ok ())
        (.ready headers isRetryAttempt (found.or token))
  | kept (headers : Headers) (isRetryAttempt : Bool) (token : Option String) (promise : Nat) (cause : Thrown) :
      GoesOn found (.preflight headers isRetryAttempt token promise) (.error cause)
        (.ready headers isRetryAttempt token)
  | retry (headers : Headers) (promise : Nat) (token : String) : found = some token ->
      GoesOn found (.retrying headers promise) (.ok ()) (.retryReady headers token)
  | noToken (headers : Headers) (promise : Nat) : found = none ->
      GoesOn found (.retrying headers promise) (.ok ()) (.returned (.error noTokenAvailable))
  | fail (headers : Headers) (promise : Nat) (cause : Thrown) :
      GoesOn found (.retrying headers promise) (.error cause) (.returned (.error cause))
  | refreshed (promise : Nat) (outcome : Except Thrown Unit) :
      GoesOn found (.refreshing promise) outcome (.refreshed outcome)

theorem refreshAndGetAccessToken_ok (auth : AuthState) : Exists fun next =>
    refreshAndGetAccessToken auth (.ok ()) = (auth.token.elim (.error noTokenAvailable) .ok, next) := by
  unfold refreshAndGetAccessToken AuthState.token
  rcases auth.getAccessToken with ⟨_ | token, next⟩
  · exact ⟨next, rfl⟩
  · refine ⟨next, ?_⟩
    by_cases empty : token = ""
    · subst empty
      rfl
    · simp only [if_neg empty, Option.filter_some, decide_eq_true empty]
      rfl

theorem handleRefreshed_eq (tab : Tab Response) (id : Nat) (waits : call.promise = some promise)
    (outcome : Except Thrown Unit) :
    Exists fun auth => Exists fun next => GoesOn tab.auth.token call outcome next ∧
      tab.handleRefreshed id call outcome = { tab with auth := auth, calls := tab.calls.set id next } := by
  rcases refreshAndGetAccessToken_ok tab.auth with ⟨auth, run⟩
  cases call with
  | opened | ready _ _ _ | sent _ _ | retryReady _ _ | resent _ | returned _ | refreshed _ => cases waits
  | preflight headers isRetryAttempt token other =>
      cases outcome with
      | error cause => exact ⟨tab.auth, _, .kept headers isRetryAttempt token other cause, rfl⟩
      | ok done =>
          refine ⟨auth, _, .renewed headers isRetryAttempt token other, ?_⟩
          rw [Tab.handleRefreshed, run]
          cases tab.auth.token <;> rfl
  | retrying headers other =>
      cases outcome with
      | error cause =>
          rcases redirectOnAuthFailure_eq tab with ⟨left, redirected⟩
          refine ⟨left, _, .fail headers other cause, ?_⟩
          change tab.redirectOnAuthFailure.put id _ = _
          rw [redirected]
          rfl
      | ok done =>
          rw [Tab.handleRefreshed, run]
          cases found : tab.auth.token with
          | none =>
              rcases redirectOnAuthFailure_eq { tab with auth := auth } with ⟨left, redirected⟩
              refine ⟨left, _, .noToken headers other rfl, ?_⟩
              dsimp only [Option.elim]
              rw [redirected]
              rfl
          | some token => exact ⟨auth, _, .retry headers other token rfl, rfl⟩
  | refreshing other => exact ⟨tab.auth, _, .refreshed other outcome, rfl⟩

/-- The refresh that a call waits for has completed since the call asked. -/
theorem Awaits.completed_mem {record first rest : List (Entry Response)}
    (awaits : Awaits record id promise first rest) (completed : .completed promise outcome ∈ record) :
    .completed promise outcome ∈ rest := by
  rw [awaits.split] at completed
  rcases List.mem_append.mp completed with early | late
  · exact absurd early (awaits.unfinished outcome)
  · rcases List.mem_cons.mp late with same | late
    · cases same
    · exact late

theorem Kept.awaits (kept : Kept record id call) (waits : call.promise = some promise) :
    Exists fun first => Exists fun rest => Awaits record id promise first rest := by
  cases call with
  | opened | ready _ _ _ | sent _ _ | retryReady _ _ | resent _ | returned _ | refreshed _ => cases waits
  | preflight headers isRetryAttempt token other =>
      cases waits
      exact kept.2
  | retrying headers other =>
      cases waits
      rcases kept with ⟨_, first, rest, awaits, _⟩
      exact ⟨first, rest, awaits⟩
  | refreshing other =>
      cases waits
      exact kept.2

theorem refreshedSince_of_awaits {record first rest : List (Entry Response)}
    (awaits : Awaits record id promise first rest) (refused : Unauthenticated id first)
    (completed : .completed promise (.ok ()) ∈ record) : RefreshedSince id record := by
  rcases refused with ⟨message, answered⟩
  rcases List.append_of_mem answered with ⟨before, between, rfl⟩
  refine ⟨before, message, between ++ .asked id promise :: rest, promise, ?_, ?_⟩
  · rw [awaits.split, List.append_assoc, List.cons_append]
  · exact List.mem_append_right _ (List.mem_cons_of_mem _ (awaits.completed_mem completed))

/-- A call that has received its outcome goes on as the record allows. -/
theorem Kept.goesOn {call next : Call Response} {found : Option String} (kept : Kept record id call)
    (waits : call.promise = some promise) (completed : .completed promise outcome ∈ record)
    (goesOn : GoesOn found call outcome next) :
    Kept (record ++ [.received id promise outcome]) id next := by
  have same : sends id (record ++ [.received id promise outcome]) = sends id record := by
    rw [sends_append]
    rfl
  cases goesOn with
  | renewed _ _ _ _ | kept _ _ _ _ _ => exact same.trans kept.1
  | retry headers other token held =>
      cases waits
      rcases kept with ⟨count, first, rest, awaits, refused⟩
      refine ⟨same.trans count, ?_⟩
      exact (refreshedSince_of_awaits awaits refused completed).append _
  | noToken _ _ _ | fail _ _ _ =>
      change sends id _ ≤ 2
      rw [same, kept.1]
      decide
  | refreshed other outcome => exact same.trans kept.1

theorem Tab.Consistent.resumes (consistent : tab.Consistent) (there : tab.calls[id]? = some call)
    (waits : call.promise = some promise) (completed : tab.refreshes[promise]? = some (.completed outcome)) :
    ((tab.log (.received id promise outcome)).handleRefreshed id call outcome).Consistent := by
  have recorded := (consistent.completed promise outcome).mpr completed
  have kept := consistent.kept id call there
  rcases handleRefreshed_eq (tab.log (.received id promise outcome)) id waits outcome with
    ⟨auth, next, goesOn, same⟩
  rw [same]
  rcases kept.awaits waits with ⟨first, rest, awaits⟩
  apply TokenRefresh.Consistent.log consistent rfl (lt_of_getElem? there)
  · exact ⟨first, rest, awaits.split, awaits.last, awaits.waiting, awaits.completed_mem recorded⟩
  · exact kept.goesOn waits recorded goesOn

theorem sends_sent (id : Nat) : TokenRefresh.sends id [(.sent id : Entry Response)] = 1 := by
  rw [TokenRefresh.sends, List.countP_singleton]
  exact if_pos (beq_self_eq_true id)

/-- The request of a call leaves the tab. -/
theorem Tab.Consistent.sends {call next : Call Response} (consistent : tab.Consistent)
    (there : tab.calls[id]? = some call) (reason : Reason tab.record (.sent id))
    (kept : TokenRefresh.sends id tab.record + 1 = TokenRefresh.sends id (tab.record ++ [.sent id]) ->
      Kept (tab.record ++ [.sent id]) id next) :
    ((tab.log (.sent id)).put id next).Consistent := by
  apply TokenRefresh.Consistent.log consistent rfl (lt_of_getElem? there) reason
  apply kept
  rw [sends_append, sends_sent]

/-- An answer alone leaves the call where it stands. -/
theorem Tab.Consistent.answers (consistent : tab.Consistent) (there : tab.calls[id]? = some call)
    (sent : 0 < TokenRefresh.sends id tab.record) (answer : Except Thrown Response)
    (kept : TokenRefresh.sends id (tab.record ++ [.answered id answer]) = TokenRefresh.sends id tab.record ->
      Kept (tab.record ++ [.answered id answer]) id call) :
    (tab.log (.answered id answer)).Consistent := by
  have logged : TokenRefresh.Consistent tab.manager tab.refreshes (tab.calls.set id call)
      (tab.record ++ [.answered id answer]) := by
    have reason : Reason tab.record (.answered id answer) := sent
    apply TokenRefresh.Consistent.log consistent rfl (lt_of_getElem? there) reason
    apply kept
    rw [sends_append]
    rfl
  rw [set_of_getElem? there] at logged
  exact logged

theorem unauthenticated_of_retry {cause : Thrown} {isRetryAttempt : Bool}
    (retries : shouldHandleUnauthenticatedRetry cause isRetryAttempt = true) :
    Exists fun message => cause = .connectError message .unauthenticated := by
  cases cause with
  | other => cases retries
  | connectError message code =>
      have both := Bool.and_eq_true_iff.mp retries
      rw [of_decide_eq_true both.1]
      exact ⟨message, rfl⟩

theorem Tab.Consistent.handleAnswer {headers : Headers} {isRetryAttempt : Bool}
    {answer : Except Thrown Response} (consistent : (tab.log (.answered id answer)).Consistent)
    (there : id < tab.calls.length) (once : TokenRefresh.sends id (tab.log (.answered id answer)).record = 1) :
    ((tab.log (.answered id answer)).handleAnswer id headers isRetryAttempt answer).Consistent := by
  have returns (result : Except Thrown Response) :
      ((tab.log (.answered id answer)).put id (.returned result)).Consistent := by
    apply TokenRefresh.Consistent.put consistent
    change TokenRefresh.sends id _ ≤ 2
    rw [once]
    decide
  cases answer with
  | ok response => exact returns (.ok response)
  | error cause =>
      by_cases retries : shouldHandleUnauthenticatedRetry cause isRetryAttempt = true
      · rcases unauthenticated_of_retry retries with ⟨message, rfl⟩
        simp only [Tab.handleAnswer, retries, Bool.not_true, Bool.false_eq_true, if_false]
        apply consistent.asks there
        rintro promise final ⟨sends_eq, more, awaits⟩
        refine ⟨sends_eq.trans once, _, _, awaits, message, ?_⟩
        apply List.mem_append_left
        exact List.mem_append_right _ (List.mem_singleton.mpr rfl)
      · simp only [Tab.handleAnswer, retries, Bool.not_false, if_true]
        exact returns (.error cause)

theorem Tab.Consistent.handleRetried {answer : Except Thrown Response} (consistent : tab.Consistent)
    (bounded : TokenRefresh.sends id tab.record ≤ 2) : (tab.handleRetried id answer).Consistent := by
  cases answer with
  | ok response => exact TokenRefresh.Consistent.put consistent bounded
  | error cause =>
      rcases redirectOnAuthFailure_eq tab with ⟨auth, redirected⟩
      simp only [Tab.handleRetried, redirected]
      exact TokenRefresh.Consistent.put consistent bounded

theorem Tab.Consistent.opened (consistent : tab.Consistent) : tab.opened.Consistent :=
  consistent.add fun unsent => unsent

theorem Tab.opened_there (tab : Tab Response) : tab.calls.length < tab.opened.calls.length := by
  rw [Tab.opened, List.length_append]
  exact Nat.lt_succ_self _

theorem Tab.Consistent.unsent (consistent : tab.Consistent) : TokenRefresh.sends tab.calls.length tab.record = 0 :=
  sends_of_others (consistent.unused tab.calls.length (Nat.le_refl _))

theorem Tab.Consistent.callRefresh (consistent : tab.Consistent) : tab.callRefresh.Consistent := by
  apply consistent.opened.asks tab.opened_there
  rintro promise final ⟨sends_eq, more, awaits⟩
  exact ⟨sends_eq.trans consistent.unsent, _, _, awaits⟩

theorem Tab.Consistent.send (consistent : tab.Consistent) (steps : tab.step (.send id) = some next) :
    next.Consistent := by
  cases there : tab.calls[id]? with
  | none =>
      rw [Tab.step, there] at steps
      cases steps
  | some call =>
      have kept := consistent.kept id call there
      rw [Tab.step, there] at steps
      cases call with
      | ready headers isRetryAttempt token =>
          cases steps
          have unsent : TokenRefresh.sends id tab.record = 0 := kept
          apply consistent.sends there (.inl unsent)
          intro grown
          rw [unsent] at grown
          exact grown.symm
      | retryReady headers token =>
          cases steps
          apply consistent.sends there (.inr kept)
          intro grown
          rw [kept.1] at grown
          exact grown.symm
      | opened | preflight _ _ _ _ | sent _ _ | retrying _ _ | resent _ | returned _ | refreshing _ | refreshed _ =>
          cases steps

theorem Tab.Consistent.answer {answer : Except Thrown Response} (consistent : tab.Consistent)
    (steps : tab.step (.answer id answer) = some next) : next.Consistent := by
  cases there : tab.calls[id]? with
  | none =>
      rw [Tab.step, there] at steps
      cases steps
  | some call =>
      have kept := consistent.kept id call there
      rw [Tab.step, there] at steps
      cases call with
      | sent headers isRetryAttempt =>
          cases steps
          have once : TokenRefresh.sends id tab.record = 1 := kept
          have same : TokenRefresh.sends id (tab.log (.answered id answer)).record = 1 := by
            rw [Tab.log, sends_append, once]
            rfl
          apply Tab.Consistent.handleAnswer ?_ (lt_of_getElem? there) same
          apply consistent.answers there (by omega)
          intro unchanged
          exact unchanged.trans once
      | resent headers =>
          cases steps
          have twice : TokenRefresh.sends id tab.record = 2 := kept
          apply Tab.Consistent.handleRetried
          · apply consistent.answers there (by omega)
            intro unchanged
            exact unchanged.trans twice
          · rw [Tab.log, sends_append, twice]
            exact Nat.le_refl 2
      | opened | preflight _ _ _ _ | ready _ _ _ | retrying _ _ | retryReady _ _ | returned _ | refreshing _
      | refreshed _ =>
          cases steps

/-- Every step keeps the variables and the record in agreement. -/
theorem Tab.Consistent.step {event : Event Response} (consistent : tab.Consistent)
    (steps : tab.step event = some next) : next.Consistent := by
  cases event with
  | call headers =>
      cases steps
      exact consistent.opened.getRequestToken tab.opened_there consistent.unsent headers _
  | focus =>
      simp only [Tab.step] at steps
      split_ifs at steps
      · cases steps
        exact consistent
      · cases steps
        exact consistent.callRefresh
      · cases steps
        exact consistent
  | refresh =>
      cases steps
      exact consistent.callRefresh
  | send id => exact consistent.send steps
  | answer id answer => exact consistent.answer steps
  | settle promise answer =>
      simp only [Tab.step] at steps
      split at steps
      case h_1 phase requested =>
        cases steps
        exact TokenRefresh.Consistent.settles consistent requested
      case h_2 => cases steps
  | runFinally promise =>
      simp only [Tab.step] at steps
      split at steps
      case h_1 phase outcome settled =>
        cases steps
        exact TokenRefresh.Consistent.completes consistent settled
      case h_2 => cases steps
  | resume id =>
      simp only [Tab.step, Option.bind_eq_some_iff] at steps
      rcases steps with ⟨call, there, promise, waits, goesOn⟩
      split at goesOn
      case h_1 phase outcome completed =>
        cases goesOn
        exact consistent.resumes there waits completed
      case h_2 => cases goesOn
  | outside auth staysOnPage =>
      cases steps
      exact consistent

theorem consistent_fresh (auth : AuthState) (staysOnPage : Bool) :
    (Tab.fresh auth staysOnPage : Tab Response).Consistent where
  justified := justified_nil
  manages := .free fun index phase found => by cases found
  started promise := iff_of_false List.not_mem_nil (Nat.not_lt_zero promise)
  asked promise bound := absurd bound (Nat.not_lt_zero promise)
  completed promise outcome := by
    apply iff_of_false List.not_mem_nil
    intro found
    cases found
  kept id call found := by cases found
  unused id bound entry member := by cases member

end Tab

/-! ## What is shared -/

section Shared

variable {tab : Tab Response} {record : List (Entry Response)}

/-- Of two refreshes, the one that started first had completed when the other
started. -/
theorem completed_of_started_twice (justified : Justified Reason record) {first second : Nat}
    (firstStarted : .started first ∈ record) (secondStarted : .started second ∈ record)
    (different : first ≠ second) :
    (Exists fun outcome => .completed first outcome ∈ record) ∨
      Exists fun outcome => .completed second outcome ∈ record := by
  rcases List.append_of_mem firstStarted with ⟨before, after, rfl⟩
  rcases List.mem_append.mp secondStarted with early | late
  · rcases (justified before _ after rfl).2 second early with ⟨outcome, completed⟩
    exact .inr ⟨outcome, List.mem_append_left _ completed⟩
  · rcases List.mem_cons.mp late with same | late
    · cases same
      exact absurd rfl different
    · rcases List.append_of_mem late with ⟨between, rest, rfl⟩
      have reason := justified (before ++ .started first :: between) (.started second) rest (by simp)
      rcases reason.2 first (by simp) with ⟨outcome, completed⟩
      refine .inl ⟨outcome, ?_⟩
      rw [← List.cons_append, ← List.append_assoc]
      exact List.mem_append_left _ completed

/-- The first call that asks after a completion has started its refresh. -/
theorem starts_anew (justified : Justified Reason record) {first between after : List (Entry Response)}
    {promise other id : Nat} {outcome : Except Thrown Unit}
    (split : record = first ++ .completed promise outcome :: (between ++ .asked id other :: after))
    (next : ∀ caller earlier, .asked caller earlier ∉ between) :
    Exists fun rest => between = rest ++ [.started other] := by
  have firstJustified : Justified Reason first := by
    intro before entry rest same
    apply justified before entry (rest ++ .completed promise outcome :: (between ++ .asked id other :: after))
    rw [split, same, List.append_assoc, List.cons_append]
  have completes : Reason first (.completed promise outcome) := justified first _ _ split
  have asks : Reason (first ++ .completed promise outcome :: between) (.asked id other) := by
    apply justified _ _ after
    rw [split, List.append_assoc, List.cons_append]
  rcases asks with ⟨⟨rest, started⟩ | ⟨caller, asked⟩, _, unfinished⟩
  · rcases between.eq_nil_or_concat with rfl | ⟨middle, final, rfl⟩
    · cases (List.append_inj' started rfl).2
    · rw [List.concat_eq_append, ← List.cons_append, ← List.append_assoc] at started
      cases (List.append_inj' started rfl).2
      exact ⟨middle, List.concat_eq_append⟩
  · -- An earlier call has asked for the refresh, so two refreshes were under way at once.
    have askedFirst : .asked caller other ∈ first := by
      rcases List.mem_append.mp asked with early | late
      · exact early
      · rcases List.mem_cons.mp late with same | late
        · cases same
        · exact absurd late (next caller other)
    have otherStarted : .started other ∈ first := by
      rcases List.append_of_mem askedFirst with ⟨before, rest, rfl⟩
      exact List.mem_append_left _ (firstJustified before _ rest rfl).2.1
    have different : promise ≠ other := by
      rintro rfl
      exact unfinished outcome (List.mem_append_right _ List.mem_cons_self)
    rcases completed_of_started_twice firstJustified completes.1 otherStarted different with
      ⟨earlier, completed⟩ | ⟨earlier, completed⟩
    · exact absurd completed (completes.2 earlier)
    · exact absurd (List.mem_append_left _ completed) (unfinished earlier)

/-- What the calls of a tab may rely on.  At most one refresh is with the server;
every entry of the record has its reason; the next call that asks after a
completion has started its refresh; no request is sent more than twice; and a call
that waits for a refresh goes on with the outcome as soon as there is one. -/
structure SharesRefreshes (tab : Tab Response) : Prop where
  single : ∀ first second : Nat, tab.refreshes[first]? = some .requested ->
    tab.refreshes[second]? = some .requested -> first = second
  justified : Justified Reason tab.record
  renewed : ∀ first promise outcome between id other after,
    tab.record = first ++ .completed promise outcome :: (between ++ .asked id other :: after) ->
      (∀ caller earlier, .asked caller earlier ∉ between) ->
        Exists fun rest => between = rest ++ [.started other]
  bounded : ∀ id, sends id tab.record ≤ 2
  answered : ∀ (id : Nat) call promise, tab.calls[id]? = some call -> call.promise = some promise ->
    promise < tab.refreshes.length ∧
      ∀ outcome, tab.refreshes[promise]? = some (.completed outcome) ->
        Exists fun next => Exists fun received => tab.step (.resume id) = some next ∧
          next.record = tab.record ++ [.received id promise outcome] ∧
          GoesOn tab.auth.token call outcome received ∧ next.calls[id]? = some received

theorem Kept.bounded {id : Nat} {call : Call Response} (kept : Kept record id call) : sends id record ≤ 2 := by
  cases call with
  | opened | ready _ _ _ | sent _ _ | resent _ | refreshed _ =>
      have count : sends id record = _ := kept
      omega
  | preflight _ _ _ _ | retrying _ _ | retryReady _ _ | refreshing _ =>
      have count := kept.1
      omega
  | returned _ => exact kept

theorem Manages.single {manager : TokenRefreshManager} {refreshes : List Phase} (manages : Manages refreshes manager)
    {first second : Nat} (firstThere : refreshes[first]? = some .requested)
    (secondThere : refreshes[second]? = some .requested) : first = second := by
  cases manages with
  | free all => cases all first _ firstThere
  | busy promise phase there unfinished others =>
      have same (index : Nat) (requested : refreshes[index]? = some .requested) : index = promise := by
        by_contra different
        cases others index _ different requested
      exact (same first firstThere).trans (same second secondThere).symm

theorem Tab.Consistent.sharesRefreshes (consistent : tab.Consistent) : SharesRefreshes tab where
  single first second := consistent.manages.single
  justified := consistent.justified
  renewed first promise outcome between id other after split next := starts_anew consistent.justified split next
  bounded id := by
    cases there : tab.calls[id]? with
    | none =>
        have unused := consistent.unused id (List.getElem?_eq_none_iff.mp there)
        rw [sends_of_others unused]
        decide
    | some call => exact (consistent.kept id call there).bounded
  answered id call promise there waits := by
    rcases (consistent.kept id call there).awaits waits with ⟨first, rest, awaits⟩
    have asked : Reason first (.asked id promise) := consistent.justified first _ rest awaits.split
    constructor
    · rw [← consistent.started, awaits.split]
      exact List.mem_append_left _ asked.2.1
    · intro outcome completed
      rcases handleRefreshed_eq (tab.log (.received id promise outcome)) id waits outcome with
        ⟨auth, received, goesOn, same⟩
      refine ⟨_, received, ?_, congrArg Tab.record same, goesOn, ?_⟩
      · simp only [Tab.step, there, waits, completed, Option.bind_some]
      · rw [same]
        exact List.getElem?_set_self (lt_of_getElem? there)

/-- In every order of calls, answers and callbacks, the calls of a tab share
their refreshes, and no request is sent again but after one. -/
theorem refreshes_shared (auth : AuthState) (staysOnPage : Bool) (events : List (Event Response)) :
    Throughout Tab.step (fun _ _ next => SharesRefreshes next) (Tab.fresh auth staysOnPage) events := by
  refine throughout_of_kept ?_ ?_ (consistent_fresh auth staysOnPage) events
  · intro tab event next consistent steps
    exact consistent.step steps
  · intro tab event next consistent
    exact consistent.sharesRefreshes

end Shared

/-! ## Two requests with an old token -/

def oldToken : AuthState where
  accessToken := some "old"
  tokenExpiresAt := some 0
  storedToken := none
  storedExpires := none
  storageAvailable := false
  now := 1000

/-- Two requests find the token expired, and one refresh is answered. -/
def refreshedTwo (answer : Except Thrown RefreshTokenResponse) : List (Event Unit) :=
  [.call ⟨none, none⟩, .call ⟨none, none⟩, .settle 0 answer, .runFinally 0, .resume 0]

/-- Both requests have the token of the one refresh. -/
theorem refreshes_shared_two : Exists fun last : Tab Unit =>
    (refreshedTwo (.ok ⟨"new", none⟩) ++ [Event.resume 1]).foldlM Tab.step (.fresh oldToken false) = some last ∧
      SharesRefreshes last ∧ last.refreshes.length = 1 ∧
      last.calls = [.ready ⟨none, none⟩ false (some "new"), .ready ⟨none, none⟩ false (some "new")] :=
  ⟨_, rfl, throughout_last (refreshes_shared oldToken false
    (refreshedTwo (.ok ⟨"new", none⟩) ++ [Event.resume 1])) rfl rfl, rfl, rfl⟩

/-- When it fails, both go on with the token that they had. -/
example : ((refreshedTwo (.error .other) ++ [Event.resume 1]).foldlM Tab.step (.fresh oldToken false)).map Tab.calls =
    some [.ready ⟨none, none⟩ false (some "old"), .ready ⟨none, none⟩ false (some "old")] := rfl

end TokenRefresh
end Web
end Memos
