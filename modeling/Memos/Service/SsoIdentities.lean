import Memos.Library.Knowledge
import Memos.Service.Requests

namespace Memos
namespace Service
namespace SsoIdentities

open Library Store

/-!
# Accounts of an identity provider

A first login through an identity provider creates a local user and then links
the external account to it.  The database refuses a second link of the account,
and a second one of the user with the provider.  A login that loses the race
deletes the user that it created and goes on with the user of the winner.  MySQL
reads a row back after it has written it, so that a creation may be made and yet
be reported as failed.
-/

/-! ## The steps -/

/-- The columns of a new user. -/
structure NewUser where
  username : String
  role : Role
  nickname : String
  email : String
  avatarUrl : String
  passwordHash : String
deriving DecidableEq

structure LocalUser extends NewUser where
  id : Nat
deriving DecidableEq

structure GeneralSetting where
  disallowUserRegistration : Bool := false
deriving DecidableEq

/-- `FindUserIdentity` -/
structure FindUserIdentity where
  userId : Option Nat := none
  provider : Option String := none
  externUid : Option String := none
deriving DecidableEq

def FindUserIdentity.selects (find : FindUserIdentity) (identity : UserIdentity) : Bool :=
  find.userId.all (· = identity.userId) && find.provider.all (· = identity.provider) &&
    find.externUid.all (· = identity.externUid)

/-- What a call has done about a user of its own. -/
inductive Own where
  | none
  | provisional (id : Nat)
  | linked (id : Nat)
  | deleted (id : Nat)
  | stranded (id : Nat)
deriving DecidableEq

/-- The user that a call has been given as created. -/
def Own.created : Own -> Option Nat
  | .none => Option.none
  | .provisional id | .linked id | .deleted id | .stranded id => some id

/-- A provisional user is given another mark. -/
def Own.settle (own : Own) (id : Nat) (mark : Own) : Own :=
  if own = .provisional id then mark else own

/-- The tables of users and identities, the last key of a user, what each call
has done about a user of its own, and the links of provisional users that were
made and reported as failed.  A user whose creation is reported as failed is
nobody's own. -/
structure Accounts (ι : Type) where
  users : List LocalUser
  identities : List UserIdentity
  sequence : Nat
  own : ι -> Own := fun _ => .none
  lost : List UserIdentity := []

/-- The steps of a call. -/
inductive SsoOperation (ι : Type) where
  | getCurrentUser (id : Nat)
  | getUserIdentity (find : FindUserIdentity)
  | createUserIdentity (call : ι) (userId : Nat) (provider externUid : String)
  | getUser (id : Nat)
  | createUser (call : ι) (create : NewUser)
  | deleteUser (call : ι) (id : Nat)
  | getInstanceGeneralSetting
  | randomString (length : Nat)
  | generateFromPassword (password : String)
  | deriveSsoUsername

def SsoReply {ι : Type} : SsoOperation ι -> Type
  | .getCurrentUser _ => Except String (Option LocalUser)
  | .getUserIdentity _ => Except String (Option UserIdentity)
  | .createUserIdentity _ _ _ _ => Except String UserIdentity
  | .getUser _ => Except String (Option LocalUser)
  | .createUser _ _ => Except String LocalUser
  | .deleteUser _ _ => Except String Unit
  | .getInstanceGeneralSetting => Except String GeneralSetting
  | .randomString _ => Except String String
  | .generateFromPassword _ => Except String String
  | .deriveSsoUsername => Except String String

abbrev SsoProgram (ι α : Type) : Type := Program (SsoOperation ι) SsoReply α

/-- `isUniqueConstraintViolation` -/
def isUniqueConstraintViolation (cause : String) : Bool :=
  ["UNIQUE constraint failed", "duplicate key", "Duplicate entry"].any fun text =>
    text.toList <:+: cause.toList

/-- Two identities that the table does not hold together. -/
def Conflicts (first second : UserIdentity) : Prop :=
  first.provider = second.provider ∧
    (first.externUid = second.externUid ∨ first.userId = second.userId)

instance (first second : UserIdentity) : Decidable (Conflicts first second) :=
  inferInstanceAs (Decidable (_ ∧ _))

variable {ι : Type} [DecidableEq ι]

/-- The call has done something about its provisional user. -/
def Accounts.mark (accounts : Accounts ι) (call : ι) (id : Nat) (mark : Own) : ι -> Own :=
  Function.update accounts.own call ((accounts.own call).settle id mark)

/-- Nobody acts as a user before the call that creates it is done with it. -/
def Settled (accounts : Accounts ι) (id : Nat) : Prop :=
  id ≤ accounts.sequence ∧ forall call, accounts.own call ≠ .provisional id

/-- The row of a new user. -/
structure NewUserRow (accounts : Accounts ι) (create : NewUser) (row : LocalUser) : Prop where
  columns : row.toNewUser = create
  fresh : accounts.sequence < row.id
  named : forall other, other ∈ accounts.users -> other.username ≠ row.username

/-- The row of a new link. -/
structure NewLinkRow (accounts : Accounts ι) (userId : Nat) (provider externUid : String)
    (row : UserIdentity) : Prop where
  userId : row.userId = userId
  provider : row.provider = provider
  externUid : row.externUid = externUid
  free : forall other, other ∈ accounts.identities -> other.id < row.id ∧ ¬Conflicts other row

/-- What a step does.  A statement that fails changes nothing, or the row that
it created could not be read back; users are read through a cache, which may
hold a user that is no longer in the table. -/
def SsoEffect : Pool.Effect (Accounts ι) (SsoOperation ι) SsoReply
  | before, .getCurrentUser id, reply, after => after = before ∧
      forall user, reply = .ok (some user) -> user.id = id ∧ Settled before id
  | before, .getUserIdentity find, reply, after => after = before ∧
      forall found, reply = .ok found -> found = before.identities.find? find.selects
  | before, .createUserIdentity call userId provider externUid, .ok row, after =>
      NewLinkRow before userId provider externUid row ∧ after = { before with
        identities := before.identities ++ [row], own := before.mark call userId (.linked userId) }
  | before, .createUserIdentity call userId provider externUid, .error cause, after =>
      (after = before ∧ (isUniqueConstraintViolation cause = true ->
        Exists fun other : UserIdentity => other ∈ before.identities ∧
          Conflicts other ⟨0, userId, provider, externUid⟩)) ∨
      isUniqueConstraintViolation cause = false ∧ Exists fun row : UserIdentity =>
        NewLinkRow before userId provider externUid row ∧ after = { before with
          identities := before.identities ++ [row]
          lost := before.lost ++ if before.own call = .provisional userId then [row] else [] }
  | before, .getUser id, reply, after => after = before ∧
      (forall user, reply = .ok (some user) -> user.id = id) ∧
      (reply = .ok none -> forall user, user ∈ before.users -> user.id ≠ id)
  | before, .createUser call create, .ok row, after =>
      NewUserRow before create row ∧ after = { before with
        users := before.users ++ [row], sequence := row.id,
        own := Function.update before.own call (.provisional row.id) }
  | before, .createUser _ create, .error _, after => after = before ∨
      Exists fun row => NewUserRow before create row ∧
        after = { before with users := before.users ++ [row], sequence := row.id }
  | before, .deleteUser call id, .ok (), after => after = { before with
      users := before.users.filter fun user => user.id ≠ id
      identities := before.identities.filter fun identity => identity.userId ≠ id
      own := before.mark call id (.deleted id) }
  | before, .deleteUser call id, .error _, after => after = { before with
      own := before.mark call id (.stranded id) }
  | before, .getInstanceGeneralSetting, _, after => after = before
  | before, .randomString _, _, after => after = before
  | before, .generateFromPassword _, _, after => after = before
  | before, .deriveSsoUsername, _, after => after = before

omit [DecidableEq ι]

def step (operation : SsoOperation ι) : SsoProgram ι (SsoReply operation) :=
  .perform operation .done

/-! ## The service -/

/-- The part of `IdentityProviderUserInfo` that makes a user. -/
structure UserInfo where
  identifier : String
  displayName : String := ""
  email : String := ""
  avatarUrl : String := ""
deriving DecidableEq

/-- The identity of an external account. -/
def linkOf (provider externUid : String) : FindUserIdentity where
  provider := some provider
  externUid := some externUid

/-- The identity of a user with a provider. -/
def linkWith (userId : Nat) (provider : String) : FindUserIdentity where
  userId := some userId
  provider := some provider

def getLinkedSsoUser (provider externUid : String) :
    SsoProgram ι (Except Status (Option LocalUser)) := do
  match ← step (.getUserIdentity (linkOf provider externUid)) with
  | .error cause => return .error ⟨.internal, "failed to get user identity, error: " ++ cause⟩
  | .ok none => return .ok none
  | .ok (some identity) =>
      match ← step (.getUser identity.userId) with
      | .error cause => return .error ⟨.internal, "failed to get user, error: " ++ cause⟩
      | .ok none =>
          return .error ⟨.internal, "linked user " ++ toString identity.userId ++
            " not found for identity " ++ toString identity.id⟩
      | .ok (some user) => return .ok (some user)

def linkedElsewhere : Status :=
  ⟨.alreadyExists, "identity provider account is already linked to another user"⟩

def linkedToAnother : Status :=
  ⟨.alreadyExists, "identity provider is already linked to another external account for this user"⟩

/-- The end of `bindSSOIdentityToUser` after a conflict. -/
def afterBindConflict (currentUser : LocalUser) (provider externUid : String) :
    SsoProgram ι (Except Status LocalUser) := do
  match ← getLinkedSsoUser provider externUid with
  | .error status => return .error status
  | .ok (some winner) =>
      if winner.id ≠ currentUser.id then return .error linkedElsewhere
      else return .ok currentUser
  | .ok none =>
      match ← step (.getUserIdentity (linkWith currentUser.id provider)) with
      | .error cause =>
          return .error ⟨.internal, "failed to reload linked identity after race, error: " ++ cause⟩
      | .ok (some existing) =>
          if existing.externUid = externUid then return .ok currentUser
          else return .error linkedToAnother
      | .ok none => return .error ⟨.internal, "user identity conflict reported but no winning row found"⟩

/-- `bindSSOIdentityToUser` -/
def bindSsoIdentityToUser (call : ι) (currentUser : LocalUser) (provider externUid : String) :
    SsoProgram ι (Except Status LocalUser) := do
  match ← step (.getUserIdentity (linkWith currentUser.id provider)) with
  | .error cause =>
      return .error ⟨.internal, "failed to get existing linked identity, error: " ++ cause⟩
  | .ok (some existing) =>
      if existing.externUid = externUid then return .ok currentUser
      else return .error linkedToAnother
  | .ok none =>
      match ← step (.createUserIdentity call currentUser.id provider externUid) with
      | .ok _ => return .ok currentUser
      | .error cause =>
          if isUniqueConstraintViolation cause then afterBindConflict currentUser provider externUid
          else return .error ⟨.internal, "failed to create user identity, error: " ++ cause⟩

/-- The user of the call that won the race. -/
def loadWinner (provider externUid : String) : SsoProgram ι (Except Status LocalUser) := do
  match ← step (.getUserIdentity (linkOf provider externUid)) with
  | .error cause =>
      return .error ⟨.internal, "failed to reload user identity after race, error: " ++ cause⟩
  | .ok none => return .error ⟨.internal, "user identity conflict reported but no winning row found"⟩
  | .ok (some winner) =>
      match ← step (.getUser winner.userId) with
      | .error cause =>
          return .error ⟨.internal, "failed to get user after race, error: " ++ cause⟩
      | .ok none =>
          return .error ⟨.internal, "linked user " ++ toString winner.userId ++ " not found after race"⟩
      | .ok (some winnerUser) => return .ok winnerUser

/-- The link of a user that has just been created.  If it fails, the user is
deleted, whether or not that succeeds. -/
def linkCreatedUser (call : ι) (user : LocalUser) (provider externUid : String) :
    SsoProgram ι (Except Status LocalUser) := do
  match ← step (.createUserIdentity call user.id provider externUid) with
  | .ok _ => return .ok user
  | .error cause =>
      let _ ← step (.deleteUser call user.id)
      if isUniqueConstraintViolation cause then loadWinner provider externUid
      else return .error ⟨.internal, "failed to create user identity, error: " ++ cause⟩

/-- The registration gate. -/
def checkRegistration : SsoProgram ι (Except Status Unit) := do
  match ← step .getInstanceGeneralSetting with
  | .error cause =>
      return .error ⟨.internal, "failed to get instance general setting, error: " ++ cause⟩
  | .ok setting =>
      if setting.disallowUserRegistration then
        return .error ⟨.permissionDenied, "user registration is not allowed"⟩
      else return .ok ()

/-- The columns of the user that is created for an external account. -/
def newSsoUser (userInfo : UserInfo) : SsoProgram ι (Except Status NewUser) := do
  match ← step (.randomString 20) with
  | .error cause =>
      return .error ⟨.internal, "failed to generate random password, error: " ++ cause⟩
  | .ok password =>
      match ← step (.generateFromPassword password) with
      | .error cause =>
          return .error ⟨.internal, "failed to generate password hash, error: " ++ cause⟩
      | .ok passwordHash =>
          match ← step .deriveSsoUsername with
          | .error cause => return .error ⟨.internal, "failed to derive username, error: " ++ cause⟩
          | .ok username =>
              return .ok ⟨username, .user, userInfo.displayName, userInfo.email, userInfo.avatarUrl,
                passwordHash⟩

/-- The miss path of `resolveSSOUser` without a current user. -/
def registerSsoUser (call : ι) (provider : String) (userInfo : UserInfo) :
    SsoProgram ι (Except Status LocalUser) := do
  match ← checkRegistration with
  | .error status => return .error status
  | .ok () =>
      match ← newSsoUser userInfo with
      | .error status => return .error status
      | .ok create =>
          match ← step (.createUser call create) with
          | .error cause => return .error ⟨.internal, "failed to create user, error: " ++ cause⟩
          | .ok user => linkCreatedUser call user provider userInfo.identifier

/-- `resolveSSOUser` -/
def resolveSsoUser (call : ι) (currentUser : Option LocalUser) (provider : String)
    (userInfo : UserInfo) : SsoProgram ι (Except Status LocalUser) := do
  match ← getLinkedSsoUser provider userInfo.identifier with
  | .error status => return .error status
  | .ok (some user) =>
      if currentUser.any fun current => current.id ≠ user.id then return .error linkedElsewhere
      else return .ok user
  | .ok none =>
      match currentUser with
      | some current => bindSsoIdentityToUser call current provider userInfo.identifier
      | none => registerSsoUser call provider userInfo

/-! ## Calls -/

/-- A login, or a signed-in user who resolves or binds an external account. -/
inductive SsoCall where
  | signIn (provider : String) (userInfo : UserInfo)
  | resolve (currentUserId : Nat) (provider : String) (userInfo : UserInfo)
  | bind (currentUserId : Nat) (provider externUid : String)
deriving DecidableEq

/-- The external account that a call is about. -/
def SsoCall.account : SsoCall -> String × String
  | .signIn provider userInfo => (provider, userInfo.identifier)
  | .resolve _ provider userInfo => (provider, userInfo.identifier)
  | .bind _ provider externUid => (provider, externUid)

/-- The rest of a call once its current user is known. -/
def withCurrentUser (id : Nat) (rest : LocalUser -> SsoProgram ι (Except Status LocalUser)) :
    SsoProgram ι (Except Status LocalUser) := do
  match ← step (.getCurrentUser id) with
  | .error cause => return .error ⟨.internal, "failed to get current user: " ++ cause⟩
  | .ok none => return .error ⟨.unauthenticated, "user not authenticated"⟩
  | .ok (some currentUser) => rest currentUser

def SsoCall.program (call : ι) : SsoCall -> SsoProgram ι (Except Status LocalUser)
  | .signIn provider userInfo => resolveSsoUser call none provider userInfo
  | .resolve currentUserId provider userInfo =>
      withCurrentUser currentUserId fun currentUser =>
        resolveSsoUser call (some currentUser) provider userInfo
  | .bind currentUserId provider externUid =>
      withCurrentUser currentUserId fun currentUser =>
        bindSsoIdentityToUser call currentUser provider externUid

/-- The tables as the database keeps them. -/
structure AccountTables where
  users : List LocalUser
  identities : List UserIdentity
  sequence : Nat
  usersBounded : forall user, user ∈ users -> user.id ≤ sequence
  identitiesBounded : forall identity, identity ∈ identities -> identity.userId ≤ sequence
  consistent : forall first, first ∈ identities -> forall second, second ∈ identities ->
    Conflicts first second -> first = second

abbrev SsoPool (ι : Type) : Type :=
  Pool (Accounts ι) ι (SsoOperation ι) SsoReply (Except Status LocalUser)

/-- Calls of which none has begun. -/
def pending (calls : ι -> SsoCall) (tables : AccountTables) : SsoPool ι where
  shared := { users := tables.users, identities := tables.identities, sequence := tables.sequence }
  programs := fun call => (calls call).program call

end SsoIdentities
end Service
end Memos
