import Memos.Service.Authenticator
import Memos.Store.CacheRuns

namespace Memos
namespace Service
namespace Authentication

open Library Memos.Filter Store Store.Caching

/-!
# What credentials prove

The API, the event stream and the file server agree on the user of a header.
The user is active and the tokens are in force as far as the store can tell: it
answers from its cache, so an archived user and a revoked refresh token are
accepted as long as an outdated entry is there.
-/

variable {backend : AuthBackend} {store : AuthStore}

/-! ## Users -/

/-- The user of an id, unless archived. -/
def activeUser (backend : AuthBackend) (store : AuthStore) (id : Int) : Option User :=
  (viewerOf (getUser backend store id)).filter fun user => user.rowStatus ≠ .archived

/-- The row of the id is that of an active user. -/
def IsActive (store : AuthStore) (id : Nat) : Prop :=
  Exists fun row => store.state.db.users id = some row ∧ row.rowStatus ≠ .archived

variable {user : User} {pat : PersonalAccessToken} {token : String} {userId : Nat}

theorem getUser_cached {id : Nat} (cached : store.state.cache (.user id) = some (.user user)) :
    getUser backend store id = .ok (some user) := by
  rw [← Int.ofNat_eq_natCast, getUser]
  rw [cached]

theorem getUser_eq_ok {id : Int} (found : getUser backend store id = .ok (some user)) :
    id = user.id ∧ user.id ≠ 0 ∧ (store.state.cache (.user user.id) = some (.user user) ∨
      store.state.db.users user.id = some user) := by
  cases id with
  | negSucc id =>
      simp only [getUser] at found
      split at found
      · cases found
      · cases found
  | ofNat id =>
      simp only [getUser] at found
      split at found
      · rename_i other cached
        cases found
        have named := store.entries id user cached
        rw [named.1]
        exact ⟨rfl, named.2, .inl cached⟩
      · split at found
        · cases found
        · have row := Except.ok.inj found
          have named := store.rows id user row
          rw [named.1]
          exact ⟨rfl, named.2, .inr row⟩

/-- The rows with an id: the one under it. -/
theorem listsUsers_id (store : AuthStore) {id : Nat} {list : List User}
    (lists : ListsUsers store.state.db { id := some id } list) :
    list.head? = store.state.db.users id := by
  have named {user : User} (member : user ∈ list) : store.state.db.users id = some user := by
    rcases lists.found user member with ⟨row, finds⟩
    have same : user.id = id := by
      simp only [FindUser.finds, Option.all_some, Bool.and_eq_true, beq_iff_eq] at finds
      exact finds.1.1.1.1.1
    exact same ▸ row
  cases list with
  | nil =>
      cases row : store.state.db.users id with
      | none => rfl
      | some user =>
          have finds : FindUser.finds { id := some id } user = true := by
            simp [FindUser.finds, (store.rows id user row).1]
          cases lists.complete rfl id user row finds
  | cons user rest => exact (named List.mem_cons_self).symm

section Executes

variable {faults : Caching.Statement -> Option String} {id : Nat}
  {result : Except String (Option User)} {before after : Cached AccountTables CacheKey CachedValue}

theorem executes_getUserFromList (ran : Pool.Executes (CacheEffect (Faulty faults)) before
      (getUserFromList { id := some id }) result after) (same : before.db = store.state.db) :
    result = match faults (.listUsers { id := some id }) with
      | some cause => .error cause
      | none => .ok (store.state.db.users id) := by
  rcases Pool.executes_bind.mp ran with ⟨listed, between, lists, rest⟩
  rcases lists with ⟨reply, called, ⟨-, replied⟩, cached⟩
  cases reply with
  | error cause =>
      rcases cached with ⟨rfl, rfl⟩
      rcases rest with ⟨rfl, rfl⟩
      rw [replied.1]
  | ok list =>
      change Pool.Executes _ _ (cacheUsers list >>= fun _ => pure (Except.ok list)) _ _ at cached
      rcases Pool.executes_bind.mp cached with ⟨_, _, _, rfl, rfl⟩
      rcases replied with ⟨works, _, rows⟩
      rw [same] at rows
      rw [works, ← listsUsers_id store rows]
      cases list with
      | nil =>
          rcases rest with ⟨rfl, rfl⟩
          rfl
      | cons user others =>
          rcases rest with ⟨_, _, _, rfl, rfl⟩
          rfl

/-- `GetUser` of the store, which runs alone, returns this answer. -/
theorem executes_getUser (fault : backend.listUsersFault id = faults (.listUsers { id := some id }))
    (ran : Pool.Executes (CacheEffect (Faulty faults)) store.state
      (Caching.getUser { id := some id }) result after) :
    result = getUser backend store id := by
  rcases ran with ⟨reply, between, ⟨rfl, rfl⟩, rest⟩
  rw [← Int.ofNat_eq_natCast, getUser]
  rw [fault]
  rcases cached : store.state.cache (.user id) with _ | user | setting | setting
  · rw [cached] at rest
    exact executes_getUserFromList rest rfl
  · rw [cached] at rest
    rcases rest with ⟨rfl, rfl⟩
    rfl
  · rw [cached] at rest
    exact executes_getUserFromList rest rfl
  · rw [cached] at rest
    exact executes_getUserFromList rest rfl

/-- `GetUserSetting` of the store, which runs alone, returns this answer. -/
theorem executes_getUserSetting {key : UserSettingKey} (specified : key ≠ .unspecified)
    (works : backend.listUserSettingsFault id = none) {result : Except String (Option UserSettingMessage)}
    (ran : Pool.Executes (CacheEffect (Faulty fun _ => none)) store.state
      (Caching.getUserSetting backend.codecs ⟨some id, key⟩) result after) :
    result = getUserSetting backend store id key := by
  rw [← Int.ofNat_eq_natCast, getUserSetting]
  rw [works, Caching.executes_getUserSetting specified ran]
  rfl

end Executes

theorem activeUser_eq_some {id : Int} :
    activeUser backend store id = some user ↔
      getUser backend store id = .ok (some user) ∧ user.rowStatus ≠ .archived := by
  unfold activeUser viewerOf
  rw [Option.filter_eq_some_iff]
  cases getUser backend store id with
  | error cause => simp
  | ok found => simp

theorem activeUser_archived {id : Int} (found : getUser backend store id = .ok (some user))
    (archived : user.rowStatus = .archived) :
    activeUser backend store id = none := by
  unfold activeUser
  rw [found]
  exact Option.filter_eq_none_iff.mpr fun _ same => by cases same; simp [archived]

/-- An entry that stands for an active user stands for an active row. -/
def EntryCurrent (store : AuthStore) (id : Nat) : Prop :=
  forall user, store.state.cache (.user id) = some (.user user) -> user.rowStatus ≠ .archived ->
    IsActive store id

theorem activeUser_isActive {id : Int} (current : EntryCurrent store user.id)
    (active : activeUser backend store id = some user) : IsActive store user.id := by
  rcases activeUser_eq_some.mp active with ⟨found, notArchived⟩
  rcases (getUser_eq_ok found).2.2 with cached | row
  · exact current user cached notArchived
  · exact ⟨user, row, notArchived⟩

/-! ## Headers -/

/-- The id that the token of the header names, if the token is valid. -/
def bearerUserId (backend : AuthBackend) (store : AuthStore) (authHeader : String) : Option Int :=
  let token := extractBearerToken authHeader
  if token = "" then none
  else if !hasPrefix token personalAccessTokenPrefix then
    match authenticateByAccessTokenV2 backend token with
    | .error _ => none
    | .ok claims => some claims.userId
  else
    match findPAT backend store (backend.hashPersonalAccessToken token) with
    | .error _ => none
    | .ok (userId, pat) => if expired backend pat.expiresAt then none else some userId

/-- The active user that the header names. -/
def bearerUser (backend : AuthBackend) (store : AuthStore) (authHeader : String) : Option User :=
  (bearerUserId backend store authHeader).bind (activeUser backend store)

theorem getUserByPATHash_eq_ok {tokenHash : String} :
    getUserByPATHash backend store tokenHash = .ok (pat, user) ↔ Exists fun userId : Nat =>
      findPAT backend store tokenHash = .ok (userId, pat) ∧
        getUser backend store userId = .ok (some user) := by
  constructor
  · intro accepted
    rcases bind_eq_ok.mp accepted with ⟨⟨userId, found⟩, row, rest⟩
    rcases bind_eq_ok.mp rest with ⟨owner, read, last⟩
    cases owner with
    | none => cases last
    | some owner =>
        cases last
        exact ⟨userId, row, read⟩
  · rintro ⟨userId, row, read⟩
    exact bind_eq_ok.mpr ⟨(userId, pat), row, bind_eq_ok.mpr ⟨some user, read, rfl⟩⟩

/-- A personal access token is accepted for the active user of its row. -/
theorem authenticateByPAT_eq_ok :
    authenticateByPAT backend store token = .ok (user, pat) ↔
      hasPrefix token personalAccessTokenPrefix = true ∧ Exists fun userId : Nat =>
        findPAT backend store (backend.hashPersonalAccessToken token) = .ok (userId, pat) ∧
          expired backend pat.expiresAt = false ∧ activeUser backend store userId = some user := by
  constructor
  · intro accepted
    unfold authenticateByPAT at accepted
    split at accepted
    · cases accepted
    · rename_i named
      split at accepted
      · cases accepted
      · rename_i found owner read
        split at accepted
        · cases accepted
        · rename_i fresh
          split at accepted
          · cases accepted
          · rename_i notArchived
            cases accepted
            rcases getUserByPATHash_eq_ok.mp read with ⟨userId, row, found⟩
            exact ⟨by simpa using named, userId, row, by simpa using fresh,
              activeUser_eq_some.mpr ⟨found, notArchived⟩⟩
  · rintro ⟨named, userId, row, fresh, active⟩
    rcases activeUser_eq_some.mp active with ⟨found, notArchived⟩
    have read := getUserByPATHash_eq_ok.mpr ⟨userId, row, found⟩
    unfold authenticateByPAT
    rw [named, read]
    simp [fresh, notArchived]

section Header

variable {authHeader : String}

theorem bearerUser_missing (missing : extractBearerToken authHeader = "") :
    bearerUser backend store authHeader = none := by
  unfold bearerUser bearerUserId
  simp [missing]

theorem bearerUser_access (given : extractBearerToken authHeader ≠ "")
    (signed : hasPrefix (extractBearerToken authHeader) personalAccessTokenPrefix = false) :
    bearerUser backend store authHeader =
      match authenticateByAccessTokenV2 backend (extractBearerToken authHeader) with
      | .error _ => none
      | .ok claims => activeUser backend store claims.userId := by
  unfold bearerUser bearerUserId
  simp only [if_neg given, signed, Bool.not_false, if_true]
  cases authenticateByAccessTokenV2 backend (extractBearerToken authHeader) with
  | error cause => rfl
  | ok claims => rfl

theorem bearerUser_pat (given : extractBearerToken authHeader ≠ "")
    (named : hasPrefix (extractBearerToken authHeader) personalAccessTokenPrefix = true) {user : User} :
    bearerUser backend store authHeader = some user ↔ Exists fun pat =>
      authenticateByPAT backend store (extractBearerToken authHeader) = .ok (user, pat) := by
  unfold bearerUser bearerUserId
  simp only [if_neg given, named, Bool.not_true, Bool.false_eq_true, if_false,
    authenticateByPAT_eq_ok, true_and]
  cases findPAT backend store (backend.hashPersonalAccessToken (extractBearerToken authHeader)) with
  | error cause => simp
  | ok row =>
      rcases row with ⟨userId, pat⟩
      cases late : expired backend pat.expiresAt with
      | true =>
          simp only [late, if_true, Option.bind_none]
          constructor
          · intro impossible
            cases impossible
          · rintro ⟨other, owner, same, fresh, _⟩
            cases same
            rw [late] at fresh
            cases fresh
      | false =>
          simp only [late, Bool.false_eq_true, if_false, Option.bind_some]
          constructor
          · intro active
            exact ⟨pat, userId, rfl, late, active⟩
          · rintro ⟨other, owner, same, _, active⟩
            cases same
            exact active

theorem bearerUser_pat_error (given : extractBearerToken authHeader ≠ "")
    (named : hasPrefix (extractBearerToken authHeader) personalAccessTokenPrefix = true) {cause : String}
    (refused : authenticateByPAT backend store (extractBearerToken authHeader) = .error cause) :
    bearerUser backend store authHeader = none := by
  refine Option.eq_none_iff_forall_ne_some.mpr fun user accepted => ?_
  rcases (bearerUser_pat given named).mp accepted with ⟨pat, granted⟩
  rw [refused] at granted
  cases granted

end Header

theorem bearerUser_eq_some {authHeader : String} (bears : bearerUser backend store authHeader = some user) :
    bearerUserId backend store authHeader = some (user.id : Int) ∧
      activeUser backend store user.id = some user := by
  rcases Option.bind_eq_some_iff.mp bears with ⟨id, named, active⟩
  have same := (getUser_eq_ok (activeUser_eq_some.mp active).1).1
  rw [same] at named active
  exact ⟨named, active⟩

/-! ## The API and the event stream -/

/-- `Authenticate` identifies the active user that the header names. -/
theorem userIdOf_authenticate (backend : AuthBackend) (store : AuthStore) (authHeader : String) :
    userIdOf (authenticate backend store authHeader) =
      ((bearerUser backend store authHeader).map fun user => (user.id : Int)).getD 0 := by
  by_cases missing : extractBearerToken authHeader = ""
  · rw [bearerUser_missing missing]
    simp [authenticate, missing, userIdOf]
  · cases named : hasPrefix (extractBearerToken authHeader) personalAccessTokenPrefix with
    | false =>
        rw [bearerUser_access missing named]
        simp only [authenticate, if_neg missing, named, Bool.not_false, if_true]
        cases authenticateByAccessTokenV2 backend (extractBearerToken authHeader) with
        | error cause => rfl
        | ok claims =>
            dsimp only
            cases found : getUser backend store claims.userId with
            | error cause => simp [activeUser, found, viewerOf, userIdOf]
            | ok reply =>
                cases reply with
                | none => simp [activeUser, found, viewerOf, userIdOf]
                | some user =>
                    have same := (getUser_eq_ok found).1
                    by_cases archived : user.rowStatus = .archived
                    · rw [activeUser_archived found archived]
                      simp only [if_pos archived]
                      rfl
                    · rw [activeUser_eq_some.mpr ⟨found, archived⟩]
                      simp only [if_neg archived]
                      exact same
    | true =>
        simp only [authenticate, if_neg missing, named, Bool.not_true, Bool.false_eq_true, if_false]
        cases decided : authenticateByPAT backend store (extractBearerToken authHeader) with
        | error cause =>
            rw [bearerUser_pat_error missing named decided]
            rfl
        | ok accepted =>
            rcases accepted with ⟨user, pat⟩
            rw [(bearerUser_pat missing named).mpr ⟨pat, decided⟩]
            rfl

theorem viewerOf_apiUser (backend : AuthBackend) (store : AuthStore) (authHeader : String) :
    viewerOf (apiUser backend store authHeader) = bearerUser backend store authHeader := by
  unfold apiUser
  rw [userIdOf_authenticate]
  cases bears : bearerUser backend store authHeader with
  | none => rfl
  | some user =>
      rcases activeUser_eq_some.mp (bearerUser_eq_some bears).2 with ⟨found, notArchived⟩
      have notZero : (user.id : Int) ≠ 0 := Int.natCast_ne_zero.mpr (getUser_eq_ok found).2.1
      simp only [Option.map_some, Option.getD_some, fetchCurrentUser, if_neg notZero, found,
        if_neg notArchived, viewerOf]

/-! ## The file server -/

theorem authenticateByCookie_eq_some {cookieHeader : String}
    (accepted : viewerOf (authenticateByCookie backend store cookieHeader) = some user) :
    Exists fun tokenId => authenticateByRefreshToken backend store
      (extractRefreshTokenFromCookie cookieHeader) = .ok (user, tokenId) := by
  unfold authenticateByCookie at accepted
  split at accepted
  · cases accepted
  · dsimp only at accepted
    split at accepted
    · cases accepted
    · split at accepted
      · cases accepted
      · rename_i found tokenId decided
        cases accepted
        exact ⟨tokenId, decided⟩

/-- `AuthenticateToUser` asks the cookie unless the header decides. -/
theorem viewerOf_authenticateToUser (backend : AuthBackend) (store : AuthStore)
    (authHeader cookieHeader : String) :
    viewerOf (authenticateToUser backend store authHeader cookieHeader) =
        bearerUser backend store authHeader ∨
      bearerUser backend store authHeader = none ∧
        viewerOf (authenticateToUser backend store authHeader cookieHeader) =
          viewerOf (authenticateByCookie backend store cookieHeader) := by
  have token : (if authHeader = "" then "" else extractBearerToken authHeader) =
      extractBearerToken authHeader := by
    by_cases empty : authHeader = ""
    · rw [if_pos empty, empty]
      rfl
    · exact if_neg empty
  unfold authenticateToUser
  rw [token]
  by_cases missing : extractBearerToken authHeader = ""
  · refine .inr ⟨bearerUser_missing missing, ?_⟩
    simp only [if_pos missing]
  · simp only [if_neg missing]
    cases named : hasPrefix (extractBearerToken authHeader) personalAccessTokenPrefix with
    | false =>
        rw [bearerUser_access missing named]
        cases authenticateByAccessTokenV2 backend (extractBearerToken authHeader) with
        | error cause => exact .inr ⟨rfl, rfl⟩
        | ok claims =>
            refine .inl ?_
            dsimp only [Bool.not_false, if_true]
            cases found : getUser backend store claims.userId with
            | error cause => simp [activeUser, found, viewerOf]
            | ok reply =>
                cases reply with
                | none => simp [activeUser, found, viewerOf]
                | some user =>
                    by_cases archived : user.rowStatus = .archived
                    · rw [activeUser_archived found archived]
                      simp [archived, viewerOf]
                    · rw [activeUser_eq_some.mpr ⟨found, archived⟩]
                      simp [archived, viewerOf]
    | true =>
        cases decided : authenticateByPAT backend store (extractBearerToken authHeader) with
        | error cause => exact .inr ⟨bearerUser_pat_error missing named decided, rfl⟩
        | ok accepted =>
            rcases accepted with ⟨user, pat⟩
            rw [(bearerUser_pat missing named).mpr ⟨pat, decided⟩]
            exact .inl rfl

/-! ## Tokens -/

/-- The stored settings of a user, which no cache answers. -/
def storedRefreshTokens (backend : AuthBackend) (store : AuthStore) (userId : Nat) :
    List RefreshToken :=
  match store.state.db.storedSetting backend.codecs userId .refreshTokens with
  | .ok setting => getUserRefreshTokens setting
  | .error _ => []

def storedPersonalAccessTokens (backend : AuthBackend) (store : AuthStore) (userId : Nat) :
    List PersonalAccessToken :=
  match store.state.db.storedSetting backend.codecs userId .personalAccessTokens with
  | .ok setting => getUserPersonalAccessTokens setting
  | .error _ => []

/-- A refresh token with this id is stored for the user and has not expired. -/
def RefreshTokenInForce (backend : AuthBackend) (store : AuthStore) (userId : Nat)
    (tokenId : String) : Prop :=
  Exists fun token => token ∈ storedRefreshTokens backend store userId ∧ token.tokenId = tokenId ∧
    expired backend token.expiresAt = false

/-- A cached setting with an unexpired record of the token stands for a row that
has one. -/
def RefreshEntryCurrent (backend : AuthBackend) (store : AuthStore) (userId : Nat) (tokenId : String) : Prop :=
  forall setting token, store.state.cache (.userSetting userId .refreshTokens) = some (.userSetting setting) ->
    (getUserRefreshTokens (some setting)).find? (fun token => token.tokenId = tokenId) = some token ->
    expired backend token.expiresAt = false ->
      Exists fun row => store.state.db.storedSetting backend.codecs userId .refreshTokens = .ok row ∧
        Exists fun record => record ∈ getUserRefreshTokens row ∧ record.tokenId = tokenId ∧
          expired backend record.expiresAt = false

/-- A token that is read unexpired is in force, unless the entry is outdated. -/
theorem RefreshEntryCurrent.inForce {tokenId : String} {token : RefreshToken}
    (current : RefreshEntryCurrent backend store userId tokenId)
    (read : getUserRefreshTokenByID backend store userId tokenId = .ok (some token))
    (fresh : expired backend token.expiresAt = false) : RefreshTokenInForce backend store userId tokenId := by
  rcases bind_eq_ok.mp read with ⟨setting, obtained, searched⟩
  have found := Except.ok.inj searched
  unfold getUserSetting at obtained
  unfold RefreshTokenInForce storedRefreshTokens
  dsimp only at obtained
  split at obtained
  next cached entry =>
    cases obtained
    rcases current cached token entry found fresh with ⟨row, stored, record⟩
    rw [stored]
    exact record
  next =>
    split at obtained
    next => cases obtained
    next =>
      rw [obtained]
      exact ⟨token, List.mem_of_find?_eq_some found, by simpa using List.find?_some found, fresh⟩

def PATInForce (backend : AuthBackend) (store : AuthStore) (userId : Nat) (token : String) : Prop :=
  Exists fun pat => pat ∈ storedPersonalAccessTokens backend store userId ∧
    pat.tokenHash = backend.hashPersonalAccessToken token ∧ expired backend pat.expiresAt = false

theorem findPAT_eq_ok {tokenHash : String} (found : findPAT backend store tokenHash = .ok (userId, pat)) :
    pat ∈ storedPersonalAccessTokens backend store userId ∧ pat.tokenHash = tokenHash := by
  unfold findPAT at found
  split at found
  · cases found
  · dsimp only at found
    split at found
    · cases found
    · rename_i owner value row
      rcases List.exists_of_findSome?_eq_some row with ⟨candidate, -, matched⟩
      rcases Option.map_eq_some_iff.mp matched with ⟨text, filtered, same⟩
      cases same
      have stored := (Option.filter_eq_some_iff.mp filtered).1
      rcases bind_eq_ok.mp found with ⟨tokens, decoded, searched⟩
      split at searched
      · cases searched
      · rename_i first hit
        cases searched
        refine ⟨?_, by simpa using List.find?_some hit⟩
        have setting : store.state.db.storedSetting backend.codecs userId .personalAccessTokens =
            .ok (some ⟨userId, .personalAccessTokens tokens⟩) := by
          unfold AccountTables.storedSetting
          rw [stored]
          exact bind_eq_ok.mpr ⟨tokens, decoded, rfl⟩
        unfold storedPersonalAccessTokens
        rw [setting]
        exact List.mem_of_find?_eq_some hit

/-- What the check of a refresh token finds. -/
theorem authenticateByRefreshToken_eq_ok {refreshToken tokenId : String} :
    authenticateByRefreshToken backend store refreshToken = .ok (user, tokenId) ↔
      Exists fun claims => parseRefreshToken backend refreshToken = .ok claims ∧
        claims.tokenId = tokenId ∧ Exists fun userId =>
        convertStringToInt32 claims.registered.subject = .ok userId ∧ Exists fun token =>
        getUserRefreshTokenByID backend store userId claims.tokenId = .ok (some token) ∧
          expired backend token.expiresAt = false ∧ activeUser backend store userId = some user := by
  constructor
  · intro accepted
    unfold authenticateByRefreshToken at accepted
    split at accepted
    · cases accepted
    · rename_i claims parsed
      split at accepted
      · cases accepted
      · rename_i userId subject
        split at accepted
        · cases accepted
        · cases accepted
        · rename_i token read
          split at accepted
          · cases accepted
          · rename_i fresh
            split at accepted
            · cases accepted
            · cases accepted
            · rename_i owner found
              split at accepted
              · cases accepted
              · rename_i notArchived
                cases accepted
                exact ⟨claims, parsed, rfl, userId, subject, token, read, by simpa using fresh,
                  activeUser_eq_some.mpr ⟨found, notArchived⟩⟩
  · rintro ⟨claims, parsed, rfl, userId, subject, token, read, fresh, active⟩
    rcases activeUser_eq_some.mp active with ⟨found, notArchived⟩
    unfold authenticateByRefreshToken
    simp only [parsed, subject, read, fresh, found, notArchived, Bool.false_eq_true, if_false]

/-- A token that is parsed is signed with the secret, by the algorithm and the
key of the program, for the audience, and is in force. -/
theorem parseWithClaims_eq_ok {Claims : Type} {decode : JWT -> Except String Claims}
    {audience tokenString : String} {claims : Claims}
    (parsed : parseWithClaims backend decode audience tokenString = .ok claims) :
    Exists fun token => backend.jwt.parse tokenString = .ok token ∧ decode token = .ok claims ∧
      token.alg = "HS256" ∧ token.kid = .string keyId ∧
      backend.jwt.signed tokenString backend.secret = true ∧
      validClaims backend.now audience token.registered = true := by
  rcases bind_eq_ok.mp parsed with ⟨token, read, rest⟩
  rcases bind_eq_ok.mp rest with ⟨decoded, decodes, rest⟩
  rcases bind_eq_ok.mp rest with ⟨_, key, rest⟩
  unfold verifyJWTKeyFunc at key
  split at key
  · cases key
  · rename_i algorithm
    split at key
    · cases key
    · rename_i keyed
      split at rest
      · cases rest
      · rename_i signed
        split at rest
        · cases rest
        · rename_i valid
          cases rest
          exact ⟨token, read, decodes, not_not.mp algorithm, not_not.mp keyed,
            by simpa using signed, by simpa using valid⟩

theorem parseAccessTokenV2_type {claims : AccessTokenClaims} (parsed : parseAccessTokenV2 backend token = .ok claims) :
    Exists fun jwt =>
      backend.jwt.parse token = .ok jwt ∧ jwt.text "type" = .ok "access" := by
  rcases bind_eq_ok.mp parsed with ⟨decoded, library, rest⟩
  rcases parseWithClaims_eq_ok library with ⟨jwt, read, decodes, -⟩
  rcases bind_eq_ok.mp decodes with ⟨type, typed, rest'⟩
  rcases bind_eq_ok.mp rest' with ⟨role, -, rest'⟩
  rcases bind_eq_ok.mp rest' with ⟨status, -, rest'⟩
  rcases bind_eq_ok.mp rest' with ⟨username, -, last⟩
  cases last
  split at rest
  · cases rest
  · rename_i kind
    exact ⟨jwt, read, typed.trans (congrArg _ (not_not.mp kind))⟩

theorem parseRefreshToken_type {claims : RefreshTokenClaims} (parsed : parseRefreshToken backend token = .ok claims) :
    Exists fun jwt =>
      backend.jwt.parse token = .ok jwt ∧ jwt.text "type" = .ok "refresh" := by
  rcases bind_eq_ok.mp parsed with ⟨decoded, library, rest⟩
  rcases parseWithClaims_eq_ok library with ⟨jwt, read, decodes, -⟩
  rcases bind_eq_ok.mp decodes with ⟨type, typed, others⟩
  rcases bind_eq_ok.mp others with ⟨tokenId, -, last⟩
  cases last
  split at rest
  · cases rest
  · rename_i kind
    exact ⟨jwt, read, typed.trans (congrArg _ (not_not.mp kind))⟩

/-! ## Soundness -/

/-- Whom a request with these headers is resolved to by some path. -/
def ResolvesTo (backend : AuthBackend) (store : AuthStore) (authHeader cookieHeader : String)
    (userId : Nat) : Prop :=
  userIdOf (authenticate backend store authHeader) = userId ∧ userId ≠ 0 ∨
  Exists fun user => user.id = userId ∧
    (viewerOf (apiUser backend store authHeader) = some user ∨
      viewerOf (authenticateToUser backend store authHeader cookieHeader) = some user ∨
      Exists fun tokenId => authenticateByRefreshToken backend store
        (extractRefreshTokenFromCookie cookieHeader) = .ok (user, tokenId))

/-- What the two headers of a request prove. -/
structure Sound (backend : AuthBackend) (store : AuthStore) (authHeader cookieHeader : String) :
    Prop where
  /-- Without a cookie, the API, the file server and the event stream agree. -/
  agree : (viewerOf (apiUser backend store authHeader)).map User.id =
    (viewerOf (authenticateToUser backend store authHeader "")).map User.id
  agreeStream : userIdOf (authenticate backend store authHeader) =
    ((viewerOf (authenticateToUser backend store authHeader "")).map
      fun user => (user.id : Int)).getD 0
  active : forall userId, ResolvesTo backend store authHeader cookieHeader userId ->
    IsActive store userId
  personalAccessToken : forall user pat,
    authenticateByPAT backend store (extractBearerToken authHeader) = .ok (user, pat) ->
    PATInForce backend store user.id (extractBearerToken authHeader)
  refreshToken : forall user tokenId,
    authenticateByRefreshToken backend store (extractRefreshTokenFromCookie cookieHeader) =
      .ok (user, tokenId) -> RefreshTokenInForce backend store user.id tokenId
  /-- No token is accepted as an access token and as a refresh token. -/
  kinds : forall token access refresh, parseAccessTokenV2 backend token = .ok access ->
    parseRefreshToken backend token ≠ .ok refresh

/-- The entries that the two headers lead to do not accept what the tables no
longer accept. -/
structure Current (backend : AuthBackend) (store : AuthStore) (authHeader cookieHeader : String) :
    Prop where
  bearer : forall userId : Nat, bearerUserId backend store authHeader = some (userId : Int) ->
    EntryCurrent store userId
  cookie : forall claims, parseRefreshToken backend (extractRefreshTokenFromCookie cookieHeader) =
      .ok claims -> forall userId : Nat,
    convertStringToInt32 claims.registered.subject = .ok (userId : Int) ->
      (forall token, getUserRefreshTokenByID backend store userId claims.tokenId = .ok (some token) ->
        expired backend token.expiresAt = false -> EntryCurrent store userId) ∧
      (activeUser backend store userId ≠ none -> RefreshEntryCurrent backend store userId claims.tokenId)

variable {authHeader cookieHeader : String}

theorem viewerOf_withoutCookie (backend : AuthBackend) (store : AuthStore) (authHeader : String) :
    viewerOf (authenticateToUser backend store authHeader "") =
      bearerUser backend store authHeader := by
  rcases viewerOf_authenticateToUser backend store authHeader "" with same | ⟨missing, same⟩
  · exact same
  · rw [same, missing]
    rfl

theorem bearerUser_resolves (bears : bearerUser backend store authHeader = some user) :
    ResolvesTo backend store authHeader cookieHeader user.id :=
  .inr ⟨user, rfl, .inl ((viewerOf_apiUser backend store authHeader).trans bears)⟩

/-- Every path goes by the header or by the cookie. -/
theorem ResolvesTo.cases (resolves : ResolvesTo backend store authHeader cookieHeader userId) :
    Exists fun user => user.id = userId ∧ (bearerUser backend store authHeader = some user ∨
      Exists fun tokenId => authenticateByRefreshToken backend store
        (extractRefreshTokenFromCookie cookieHeader) = .ok (user, tokenId)) := by
  rcases resolves with ⟨identified, notZero⟩ | ⟨user, rfl, api | file | token⟩
  · rw [userIdOf_authenticate] at identified
    cases bears : bearerUser backend store authHeader with
    | none =>
        rw [bears] at identified
        exact absurd (Int.natCast_eq_zero.mp identified.symm) notZero
    | some user =>
        rw [bears] at identified
        exact ⟨user, Int.ofNat.inj identified, .inl rfl⟩
  · exact ⟨user, rfl, .inl ((viewerOf_apiUser backend store authHeader).symm.trans api)⟩
  · rcases viewerOf_authenticateToUser backend store authHeader cookieHeader with same | ⟨-, same⟩
    · exact ⟨user, rfl, .inl (same.symm.trans file)⟩
    · exact ⟨user, rfl, .inr (authenticateByCookie_eq_some (same.symm.trans file))⟩
  · exact ⟨user, rfl, .inr token⟩

theorem Current.isActive (current : Current backend store authHeader cookieHeader)
    (resolves : ResolvesTo backend store authHeader cookieHeader userId) : IsActive store userId := by
  rcases resolves.cases with ⟨user, rfl, bears | ⟨tokenId, accepted⟩⟩
  · have named := bearerUser_eq_some bears
    exact activeUser_isActive (current.bearer user.id named.1) named.2
  · rcases authenticateByRefreshToken_eq_ok.mp accepted with
      ⟨claims, parsed, -, userId, subject, token, read, fresh, active⟩
    have same := (getUser_eq_ok (activeUser_eq_some.mp active).1).1
    rw [same] at subject read active
    exact activeUser_isActive ((current.cookie claims parsed user.id subject).1 token read fresh) active

theorem Current.refreshToken (current : Current backend store authHeader cookieHeader) {tokenId : String}
    (accepted : authenticateByRefreshToken backend store
      (extractRefreshTokenFromCookie cookieHeader) = .ok (user, tokenId)) :
    RefreshTokenInForce backend store user.id tokenId := by
  rcases authenticateByRefreshToken_eq_ok.mp accepted with
    ⟨claims, parsed, rfl, userId, subject, token, read, fresh, active⟩
  have same := (getUser_eq_ok (activeUser_eq_some.mp active).1).1
  rw [same] at subject read active
  refine ((current.cookie claims parsed user.id subject).2 ?_).inForce read fresh
  rw [active]
  exact Option.some_ne_none user

theorem Sound.current (sound : Sound backend store authHeader cookieHeader) :
    Current backend store authHeader cookieHeader where
  bearer := by
    intro userId named user cached notArchived
    have active : activeUser backend store userId = some user :=
      activeUser_eq_some.mpr ⟨getUser_cached cached, notArchived⟩
    have bears : bearerUser backend store authHeader = some user :=
      Option.bind_eq_some_iff.mpr ⟨userId, named, active⟩
    have same := (store.entries userId user cached).1
    exact same ▸ sound.active user.id (bearerUser_resolves bears)
  cookie := by
    intro claims parsed userId subject
    have accepted {token : RefreshToken} {user : User}
        (read : getUserRefreshTokenByID backend store userId claims.tokenId = .ok (some token))
        (fresh : expired backend token.expiresAt = false) (active : activeUser backend store userId = some user) :
        authenticateByRefreshToken backend store (extractRefreshTokenFromCookie cookieHeader) =
          .ok (user, claims.tokenId) :=
      authenticateByRefreshToken_eq_ok.mpr
        ⟨claims, parsed, rfl, userId, subject, token, read, fresh, active⟩
    constructor
    · intro token read fresh user cached notArchived
      have active : activeUser backend store userId = some user :=
        activeUser_eq_some.mpr ⟨getUser_cached cached, notArchived⟩
      have same := (store.entries userId user cached).1
      exact same ▸ sound.active user.id
        (.inr ⟨user, rfl, .inr (.inr ⟨claims.tokenId, accepted read fresh active⟩)⟩)
    · intro active setting token cached listed fresh
      rcases Option.ne_none_iff_exists'.mp active with ⟨user, active⟩
      have same := (getUser_eq_ok (activeUser_eq_some.mp active).1).1
      have obtained : getUserSetting backend store userId .refreshTokens = .ok (some setting) := by
        unfold getUserSetting
        dsimp only
        rw [cached]
      have read : getUserRefreshTokenByID backend store userId claims.tokenId = .ok (some token) :=
        bind_eq_ok.mpr ⟨some setting, obtained, congrArg Except.ok listed⟩
      rcases sound.refreshToken user claims.tokenId (accepted read fresh active) with ⟨record, stored, inForce⟩
      rw [← Int.ofNat.inj same] at stored
      unfold storedRefreshTokens at stored
      split at stored
      next row decoded => exact ⟨row, decoded, record, stored, inForce⟩
      next => exact absurd stored List.not_mem_nil

/-- The headers of a request prove what they should exactly when the entries
that they lead to are not outdated. -/
theorem credentials_sound_iff (backend : AuthBackend) (store : AuthStore) (authHeader cookieHeader : String) :
    Sound backend store authHeader cookieHeader ↔
      Current backend store authHeader cookieHeader := by
  refine ⟨Sound.current, fun current => ?_⟩
  refine ⟨?_, ?_, fun userId => current.isActive, ?_, fun user tokenId => current.refreshToken, ?_⟩
  · rw [viewerOf_apiUser, viewerOf_withoutCookie]
  · rw [userIdOf_authenticate, viewerOf_withoutCookie]
  · intro user pat accepted
    rcases authenticateByPAT_eq_ok.mp accepted with ⟨-, userId, found, fresh, active⟩
    have stored := findPAT_eq_ok found
    have same := (getUser_eq_ok (activeUser_eq_some.mp active).1).1
    rw [Int.ofNat.inj same] at stored
    exact ⟨pat, stored.1, stored.2, fresh⟩
  · intro token access refresh accepted parsed
    rcases parseAccessTokenV2_type accepted with ⟨jwt, read, typed⟩
    rcases parseRefreshToken_type parsed with ⟨other, readAgain, retyped⟩
    cases read.symm.trans readAgain
    have kinds := typed.symm.trans retyped
    revert kinds
    decide

/-! ## An outdated entry -/

/-- Tokens that the program has signed: the texts `1`, `2`, ... are access
tokens of the users with these ids. -/
def signedTokens : JWTLibrary where
  parse := fun text => .ok {
    alg := "HS256"
    kid := .string keyId
    claim := fun name => if name = "type" then .string "access" else .absent
    registered := ⟨issuer, text, [accessTokenAudienceName], some 900, none⟩ }
  signed := fun _ _ => true

def quietAuth : AuthBackend where
  codecs := emptyCodecs
  jwt := signedTokens
  secret := "memos"
  hashPersonalAccessToken := id
  now := 0
  patRows := []
  hasTokenHash := fun _ _ => false
  listUsersFault := fun _ => none
  listUserSettingsFault := fun _ => none
  patFault := none

/-- The user is archived, and a read that came before has put the active user
into the cache. -/
def staleStore : AuthStore where
  state := {
    db := oneUser.putUser 1 (some archivedUser)
    cache := Function.update (fun _ => none) (.user 1) (some (.user Caching.activeUser)) }
  rows := by
    intro id user stored
    change Function.update oneUser.users 1 (some archivedUser) id = some user at stored
    rcases update_eq_some stored with ⟨rfl, same⟩ | ⟨other, known⟩
    · cases same
      decide
    · change Function.update (fun _ => none) 1 (some Caching.activeUser) id = some user at known
      rcases update_eq_some known with ⟨rfl, same⟩ | ⟨_, impossible⟩
      · exact absurd rfl other
      · cases impossible
  entries := by
    intro id user cached
    change Function.update (fun _ => none) (CacheKey.user 1)
      (some (CachedValue.user Caching.activeUser)) (CacheKey.user id) =
        some (CachedValue.user user) at cached
    rcases update_eq_some cached with ⟨same, entry⟩ | ⟨_, impossible⟩
    · cases same
      cases entry
      decide
    · cases impossible

theorem archived_accepted : ¬ forall (backend : AuthBackend) (store : AuthStore)
    (authHeader cookieHeader : String), Sound backend store authHeader cookieHeader := by
  intro claim
  have sound := claim quietAuth staleStore "Bearer 1" ""
  have named : userIdOf (authenticate quietAuth staleStore "Bearer 1") = 1 := by decide +kernel
  rcases sound.active 1 (.inl ⟨named, by decide⟩) with ⟨row, stored, notArchived⟩
  have archived : staleStore.state.db.users 1 = some archivedUser := rfl
  rw [archived] at stored
  cases stored
  exact notArchived rfl

end Authentication
end Service
end Memos
