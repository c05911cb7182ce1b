import Memos.Service.AttachmentAccess
import Memos.Store.SettingLists

namespace Memos
namespace Service
namespace Authentication

open Library Memos.Filter Store Store.Caching

/-!
# The authenticator

A request carries an access token or a personal access token in its
`Authorization` header and may carry a refresh token in a cookie.  The API, the
event stream and the file server resolve them to a user.  Parsing a token and
checking its signature is third-party code, and so is the hash of a personal
access token.
-/

/-! ## Headers -/

def personalAccessTokenPrefix : String := "memos_pat_"
def refreshTokenCookieName : String := "memos_refresh"

/-- `strings.Fields` -/
def fields (text : String) : List String :=
  ((text.toList.splitOnP isSpace).filter fun field => !field.isEmpty).map String.ofList

/-- `ExtractBearerToken` -/
def extractBearerToken (authHeader : String) : String :=
  if authHeader = "" then ""
  else
    match fields authHeader with
    | [scheme, token] => if scheme.toLower = "bearer" then token else ""
    | _ => ""

/-- `textproto.TrimString` -/
def trimString (text : List Char) : List Char :=
  let blank := fun c => c ∈ [' ', '\t', '\n', '\r']
  ((text.dropWhile blank).reverse.dropWhile blank).reverse

/-- `isToken` of the name of a cookie. -/
def isToken (name : List Char) : Bool :=
  !name.isEmpty && name.all fun c => c.isAlphanum || c ∈ "!#$%&'*+-.^_|~".toList || c.toNat = 96

/-- `validCookieValueByte` -/
def validCookieValueByte (c : Char) : Bool :=
  0x20 ≤ c.toNat && c.toNat < 0x7f && c ≠ '"' && c ≠ ';' && c ≠ '\\'

/-- `parseCookieValue`: quotes around the value are dropped. -/
def parseCookieValue (raw : List Char) : Option (List Char) :=
  let quoted := raw.length > 1 && raw.head? = some '"' && raw.getLast? = some '"'
  let value := if quoted then raw.tail.dropLast else raw
  if value.all validCookieValueByte then some value else none

/-- One pair of a cookie header. -/
def readCookie (part : List Char) : Option (String × String) :=
  let part := trimString part
  let name := trimString (part.takeWhile (· ≠ '='))
  if isToken name then
    (parseCookieValue ((part.dropWhile (· ≠ '=')).drop 1)).map fun value =>
      (String.ofList name, String.ofList value)
  else none

/-- `ExtractRefreshTokenFromCookie`: the first cookie of the name. -/
def extractRefreshTokenFromCookie (cookieHeader : String) : String :=
  if cookieHeader = "" then ""
  else
    let cookies := ((trimString cookieHeader.toList).splitOn ';').filterMap readCookie
    match cookies.find? fun cookie => cookie.1 = refreshTokenCookieName with
    | none => ""
    | some cookie => cookie.2

/-! ## Signed tokens -/

/-- A member of the claims or of the header of a token, `null` being absent. -/
inductive JsonMember where
  | absent
  | string (text : String)
  | other
deriving DecidableEq

structure RegisteredClaims where
  issuer : String
  subject : String
  audience : List String
  expiresAt : Option Int := none
  notBefore : Option Int := none
deriving DecidableEq

/-- A token that was parsed but not verified. -/
structure JWT where
  alg : String
  kid : JsonMember
  claim : String -> JsonMember
  registered : RegisteredClaims

/-- The library: the parser, and whether a token is signed with the secret. -/
structure JWTLibrary where
  parse : String -> Except String JWT
  signed : String -> String -> Bool

/-- What the authenticator works with.  The rows of personal access tokens are
searched in the order of `patRows`, with a query on their JSON. -/
structure AuthBackend where
  codecs : SettingCodecs
  jwt : JWTLibrary
  secret : String
  hashPersonalAccessToken : String -> String
  now : Int
  patRows : List Nat
  hasTokenHash : String -> String -> Bool
  listUsersFault : Int -> Option String
  listUserSettingsFault : Int -> Option String
  patFault : Option String

def issuer : String := "memos"
def keyId : String := "v1"
def accessTokenAudienceName : String := "user.access-token"
def refreshTokenAudienceName : String := "user.refresh-token"

/-- A member that is read into a string. -/
def JWT.text (token : JWT) (name : String) : Except String String :=
  match token.claim name with
  | .absent => .ok ""
  | .string text => .ok text
  | .other => .error "token is malformed: could not JSON decode claim"

structure AccessTokenClaims where
  type : String
  role : String
  status : String
  username : String
  registered : RegisteredClaims
deriving DecidableEq

structure RefreshTokenClaims where
  type : String
  tokenId : String
  registered : RegisteredClaims
deriving DecidableEq

def accessTokenClaims (token : JWT) : Except String AccessTokenClaims := do
  let type ← token.text "type"
  let role ← token.text "role"
  let status ← token.text "status"
  let username ← token.text "username"
  return { type, role, status, username, registered := token.registered }

def refreshTokenClaims (token : JWT) : Except String RefreshTokenClaims := do
  let type ← token.text "type"
  let tokenId ← token.text "tid"
  return { type, tokenId, registered := token.registered }

/-- `verifyJWTKeyFunc` -/
def verifyJWTKeyFunc (token : JWT) : Except String Unit :=
  if token.alg ≠ "HS256" then .error ("unexpected signing method: " ++ token.alg)
  else if token.kid ≠ .string keyId then .error "unexpected kid"
  else .ok ()

/-- The validator of the library with an issuer and an audience. -/
def validClaims (now : Int) (audience : String) (registered : RegisteredClaims) : Bool :=
  registered.expiresAt.all (now < ·) && registered.notBefore.all (· ≤ now) &&
    registered.audience.contains audience && registered.issuer = issuer

/-- `jwt.ParseWithClaims` -/
def parseWithClaims {Claims : Type} (backend : AuthBackend) (decode : JWT -> Except String Claims)
    (audience tokenString : String) : Except String Claims := do
  let token ← backend.jwt.parse tokenString
  let claims ← decode token
  verifyJWTKeyFunc token
  if !backend.jwt.signed tokenString backend.secret then
    .error "token signature is invalid: signature is invalid"
  else if !validClaims backend.now audience token.registered then .error "token has invalid claims"
  else return claims

variable (backend : AuthBackend)

/-- `ParseAccessTokenV2` -/
def parseAccessTokenV2 (tokenString : String) : Except String AccessTokenClaims := do
  let claims ← parseWithClaims backend accessTokenClaims accessTokenAudienceName tokenString
  if claims.type ≠ "access" then .error "invalid token type: expected access token"
  else return claims

/-- `ParseRefreshToken` -/
def parseRefreshToken (tokenString : String) : Except String RefreshTokenClaims := do
  let claims ← parseWithClaims backend refreshTokenClaims refreshTokenAudienceName tokenString
  if claims.type ≠ "refresh" then .error "invalid token type: expected refresh token"
  else return claims

/-! ## The store -/

/-- The accounts and their caches.  The ids of users are positive, and rows and
entries are kept under the ids that they carry. -/
structure AuthStore where
  state : Cached AccountTables CacheKey CachedValue
  rows : forall id user, state.db.users id = some user -> user.id = id ∧ id ≠ 0
  entries : forall id user, state.cache (.user id) = some (.user user) -> user.id = id ∧ id ≠ 0

variable (store : AuthStore)

/-- `GetUser` by id, which the cache answers when it can. -/
def getUser (id : Int) : Except String (Option User) :=
  match id with
  | .ofNat id =>
      match store.state.cache (.user id) with
      | some (.user user) => .ok (some user)
      | _ =>
          match backend.listUsersFault id with
          | some cause => .error cause
          | none => .ok (store.state.db.users id)
  | .negSucc id =>
      match backend.listUsersFault (.negSucc id) with
      | some cause => .error cause
      | none => .ok none

/-- `GetUserSetting` -/
def getUserSetting (userId : Int) (key : UserSettingKey) :
    Except String (Option UserSettingMessage) :=
  match userId with
  | .ofNat id =>
      match store.state.cache (.userSetting id key) with
      | some (.userSetting setting) => .ok (some setting)
      | _ =>
          match backend.listUserSettingsFault id with
          | some cause => .error cause
          | none => store.state.db.storedSetting backend.codecs id key
  | .negSucc id =>
      match backend.listUserSettingsFault (.negSucc id) with
      | some cause => .error cause
      | none => .ok none

/-- `GetUserRefreshTokenByID` -/
def getUserRefreshTokenByID (userId : Int) (tokenId : String) :
    Except String (Option RefreshToken) := do
  let tokens := getUserRefreshTokens (← getUserSetting backend store userId .refreshTokens)
  return tokens.find? fun token => token.tokenId = tokenId

/-- `GetUserByPATHash` of the driver, which does not use the cache. -/
def findPAT (tokenHash : String) : Except String (Nat × PersonalAccessToken) :=
  match backend.patFault with
  | some cause => .error cause
  | none =>
      let found := backend.patRows.findSome? fun userId =>
        ((store.state.db.userSettings userId .personalAccessTokens).filter fun value =>
          backend.hasTokenHash value tokenHash).map fun value => (userId, value)
      match found with
      | none => .error "sql: no rows in result set"
      | some (userId, value) => do
          let tokens ← backend.codecs.personalAccessTokens.unmarshal value
          match tokens.find? fun pat => pat.tokenHash = tokenHash with
          | none => .error "PAT not found"
          | some pat => return (userId, pat)

/-- `GetUserByPATHash` -/
def getUserByPATHash (tokenHash : String) : Except String (PersonalAccessToken × User) := do
  let (userId, pat) ← findPAT backend store tokenHash
  match ← getUser backend store userId with
  | none => .error "user not found for PAT"
  | some user => return (pat, user)

/-! ## Tokens -/

/-- `UserClaims` -/
structure UserClaims where
  userId : Int
  username : String
  role : String
  status : String
deriving DecidableEq

/-- `AuthenticateByAccessTokenV2` -/
def authenticateByAccessTokenV2 (accessToken : String) : Except String UserClaims :=
  match parseAccessTokenV2 backend accessToken with
  | .error cause => .error ("invalid access token: " ++ cause)
  | .ok claims =>
      match convertStringToInt32 claims.registered.subject with
      | .error cause => .error ("invalid user ID in token: " ++ cause)
      | .ok userId => .ok ⟨userId, claims.username, claims.role, claims.status⟩

/-- `ExpiresAt` lies before the clock. -/
def expired (expiresAt : Option Int) : Bool := expiresAt.any (· < backend.now)

/-- `AuthenticateByRefreshToken` -/
def authenticateByRefreshToken (refreshToken : String) : Except String (User × String) :=
  match parseRefreshToken backend refreshToken with
  | .error cause => .error ("invalid refresh token: " ++ cause)
  | .ok claims =>
      match convertStringToInt32 claims.registered.subject with
      | .error cause => .error ("invalid user ID in token: " ++ cause)
      | .ok userId =>
          match getUserRefreshTokenByID backend store userId claims.tokenId with
          | .error cause => .error ("failed to get refresh token: " ++ cause)
          | .ok none => .error "refresh token revoked"
          | .ok (some token) =>
              if expired backend token.expiresAt then .error "refresh token expired"
              else
                match getUser backend store userId with
                | .error cause => .error ("failed to get user: " ++ cause)
                | .ok none => .error "user not found"
                | .ok (some user) =>
                    if user.rowStatus = .archived then .error "user is archived"
                    else .ok (user, claims.tokenId)

def hasPrefix (token tokenPrefix : String) : Bool := tokenPrefix.toList.isPrefixOf token.toList

/-- `AuthenticateByPAT` -/
def authenticateByPAT (token : String) : Except String (User × PersonalAccessToken) :=
  if !hasPrefix token personalAccessTokenPrefix then .error "invalid PAT format"
  else
    match getUserByPATHash backend store (backend.hashPersonalAccessToken token) with
    | .error cause => .error ("invalid PAT: " ++ cause)
    | .ok (pat, user) =>
        if expired backend pat.expiresAt then .error "PAT expired"
        else if user.rowStatus = .archived then .error "user is archived"
        else .ok (user, pat)

/-! ## Requests -/

/-- The cookie, which is asked when the header does not decide. -/
def authenticateByCookie (cookieHeader : String) : Except String (Option User) :=
  if cookieHeader = "" then .ok none
  else
    let refreshToken := extractRefreshTokenFromCookie cookieHeader
    if refreshToken = "" then .ok none
    else
      match authenticateByRefreshToken backend store refreshToken with
      | .error cause => .error cause
      | .ok (user, _) => .ok (some user)

/-- `AuthenticateToUser` -/
def authenticateToUser (authHeader cookieHeader : String) : Except String (Option User) :=
  let token := if authHeader = "" then "" else extractBearerToken authHeader
  if token = "" then authenticateByCookie backend store cookieHeader
  else if !hasPrefix token personalAccessTokenPrefix then
    match authenticateByAccessTokenV2 backend token with
    | .error _ => authenticateByCookie backend store cookieHeader
    | .ok claims =>
        match getUser backend store claims.userId with
        | .error cause => .error cause
        | .ok none => .ok none
        | .ok (some user) => if user.rowStatus = .archived then .ok none else .ok (some user)
  else
    match authenticateByPAT backend store token with
    | .error _ => authenticateByCookie backend store cookieHeader
    | .ok (user, _) => .ok (some user)

/-- `AuthResult` -/
inductive AuthResult where
  | claims (claims : UserClaims) (accessToken : String)
  | user (user : User) (accessToken : String)

/-- `Authenticate` -/
def authenticate (authHeader : String) : Option AuthResult :=
  let token := extractBearerToken authHeader
  if token = "" then none
  else if !hasPrefix token personalAccessTokenPrefix then
    match authenticateByAccessTokenV2 backend token with
    | .error _ => none
    | .ok claims =>
        match getUser backend store claims.userId with
        | .error _ => none
        | .ok none => none
        | .ok (some user) =>
            if user.rowStatus = .archived then none else some (.claims claims token)
  else
    match authenticateByPAT backend store token with
    | .error _ => none
    | .ok (user, _) => some (.user user token)

/-- `ApplyToContext` and `GetUserID`; the identity of a client of the event
stream is the same. -/
def userIdOf : Option AuthResult -> Int
  | none => 0
  | some (.claims claims _) => claims.userId
  | some (.user user _) => user.id

/-- `fetchCurrentUser` -/
def fetchCurrentUser (userId : Int) : Except String (Option User) :=
  if userId = 0 then .ok none
  else
    match getUser backend store userId with
    | .error cause => .error cause
    | .ok none => .error ("user " ++ toString userId ++ " not found")
    | .ok (some user) => if user.rowStatus = .archived then .ok none else .ok (some user)

/-- The user of a request to the API. -/
def apiUser (authHeader : String) : Except String (Option User) :=
  fetchCurrentUser backend store (userIdOf (authenticate backend store authHeader))

end Authentication
end Service
end Memos
