import Memos.Library.Interleaving
import Memos.Service.Viewer
import Memos.Store.Writes

namespace Memos
namespace Service
namespace FirstUser

open Library Store

/-!
# The first user

Whoever registers while there are no users becomes an administrator.  The
store makes this decision under a lock, in which it looks again whether there
are users.  The steps of several requests interleave, and so do other changes
of the user table, as long as it does not become empty again.
-/

/-! ## The steps -/

/-- `User_Role` of the API. -/
inductive UserRole where
  | unspecified
  | admin
  | user
deriving DecidableEq

def convertUserRoleToStore : UserRole -> Role
  | .admin => .admin
  | _ => .user

def convertUserRoleFromStore : Role -> UserRole
  | .admin => .admin
  | .user => .user

/-- The columns of a new user. -/
structure NewUser where
  username : String
  role : Role
  email : String
  nickname : String
  passwordHash : String
deriving DecidableEq

structure UserRow extends NewUser where
  id : Nat
deriving DecidableEq

structure GeneralSetting where
  disallowUserRegistration : Bool := false
  disallowPasswordAuth : Bool := false

/-- The user table, the lock, and the users that requests have created. -/
structure UserTable (ι : Type) where
  users : List UserRow
  userCreateMu : Option ι := none
  created : List (ι × UserRow) := []

/-- The steps of a request. -/
inductive UserOperation (ι : Type) where
  | lock (request : ι)
  | unlock (request : ι)
  | listUsers (limit : Nat)
  | createUser (request : ι) (create : NewUser)
  | generateFromPassword (password : String)
  | getInstanceGeneralSetting

def UserReply {ι : Type} : UserOperation ι -> Type
  | .lock _ => Unit
  | .unlock _ => Unit
  | .listUsers _ => Except String (List UserRow)
  | .createUser _ _ => Except String UserRow
  | .generateFromPassword _ => Except String String
  | .getInstanceGeneralSetting => Except String GeneralSetting

abbrev UserProgram (ι α : Type) : Type := Program (UserOperation ι) UserReply α

/-- A new row for a request. -/
def Inserts {ι : Type} (before : UserTable ι) (request : ι) (create : NewUser) (row : UserRow)
    (after : UserTable ι) : Prop :=
  row.toNewUser = create ∧
    (forall other, other ∈ before.users -> other.id ≠ row.id ∧ other.username ≠ row.username) ∧
    after = { before with
      users := before.users ++ [row], created := before.created ++ [(request, row)] }

/-- A list has the rows in any order, as many as the limit allows.  A user
that cannot be inserted changes nothing, and one that cannot be read back
afterwards (MySQL) is there. -/
def UserEffect {ι : Type} : Pool.Effect (UserTable ι) (UserOperation ι) UserReply
  | before, .lock request, _, after =>
      before.userCreateMu = none ∧ after = { before with userCreateMu := some request }
  | before, .unlock _, _, after => after = { before with userCreateMu := none }
  | before, .listUsers limit, reply, after =>
      after = before ∧ forall users, reply = .ok users ->
        users ⊆ before.users ∧ users.length = min limit before.users.length
  | before, .createUser request create, .ok row, after => Inserts before request create row after
  | before, .createUser request create, .error _, after =>
      after = before ∨ Exists fun row => Inserts before request create row after
  | before, .generateFromPassword _, _, after => after = before
  | before, .getInstanceGeneralSetting, _, after => after = before

theorem effect_createUser {ι : Type} {before after : UserTable ι} {request : ι} {create : NewUser}
    {reply : Except String UserRow} (effective : UserEffect before (.createUser request create) reply after) :
    after = before ∨ Exists fun row => Inserts before request create row after := by
  cases reply with
  | error cause => exact effective
  | ok row => exact Or.inr ⟨row, effective⟩

/-- What happens beside the requests: the last user is not deleted. -/
def Background {ι : Type} (before after : UserTable ι) : Prop :=
  (before.users ≠ [] -> after.users ≠ []) ∧ after.userCreateMu = before.userCreateMu ∧
    after.created = before.created

variable {ι : Type}

def step (operation : UserOperation ι) : UserProgram ι (UserReply operation) :=
  .perform operation .done

/-! ## The handler -/

/-- What `CreateUserIfNoUsers` does while it holds the lock. -/
def createUserLocked (request : ι) (create : NewUser) :
    UserProgram ι (Except String (Option UserRow)) := do
  match ← step (.listUsers 1) with
  | .error cause => return .error cause
  | .ok (_ :: _) => return .ok none
  | .ok [] =>
      match ← step (.createUser request create) with
      | .error cause => return .error cause
      | .ok user => return .ok (some user)

def createUserIfNoUsers (request : ι) (create : NewUser) :
    UserProgram ι (Except String (Option UserRow)) := do
  step (.lock request)
  let result ← createUserLocked request create
  step (.unlock request)
  return result

structure UserInput where
  username : String
  password : String
  email : String := ""
  displayName : String := ""
  role : UserRole := .unspecified

structure CreateUserRequest where
  user : Option UserInput
  validateOnly : Bool := false

/-- The part of the response that comes from the request and the role. -/
structure UserMessage where
  username : String
  email : String
  displayName : String
  role : UserRole
deriving DecidableEq

def convertUserFromStore (user : NewUser) : UserMessage where
  username := user.username
  email := user.email
  displayName := user.nickname
  role := convertUserRoleFromStore user.role

def isNumericUsername (username : String) : Bool :=
  username ≠ "" && username.toList.all fun char => '0' ≤ char && char ≤ '9'

def validateWritableUsername (username : String) : Bool :=
  username ≠ "" && !isNumericUsername username && uidMatches username

/-- The user that an input asks for. -/
def UserInput.create (input : UserInput) (role : Role) (passwordHash : String) : NewUser where
  username := input.username
  role := role
  email := input.email
  nickname := input.displayName
  passwordHash := passwordHash

/-- The registration gate. -/
def checkRegistration : UserProgram ι (Except Status Unit) := do
  match ← step .getInstanceGeneralSetting with
  | .error cause =>
      return .error ⟨.internal, "failed to get instance general setting, error: " ++ cause⟩
  | .ok setting =>
      if setting.disallowUserRegistration then
        return .error ⟨.permissionDenied, "user registration is not allowed"⟩
      else if setting.disallowPasswordAuth then
        return .error ⟨.permissionDenied, "password signup is not allowed"⟩
      else return .ok ()

/-- What is decided about a registration: its role, or that the first user has
been created. -/
inductive Registration where
  | role (role : Role)
  | first (user : UserRow)

/-- The branch of an empty user table. -/
def registerFirst (request : ι) (input : UserInput) :
    UserProgram ι (Except Status Registration) := do
  match ← step (.generateFromPassword input.password) with
  | .error cause => return .error ⟨.internal, "failed to generate password hash: " ++ cause⟩
  | .ok passwordHash =>
      match ← createUserIfNoUsers request (input.create .admin passwordHash) with
      | .error cause => return .error ⟨.internal, "failed to create first user: " ++ cause⟩
      | .ok (some user) => return .ok (.first user)
      | .ok none => return .ok (.role .user)

/-- The role of a caller who is no administrator. -/
def registrationRole (request : ι) (input : UserInput) (validateOnly : Bool) :
    UserProgram ι (Except Status Registration) := do
  match ← step (.listUsers 1) with
  | .error cause => return .error ⟨.internal, "failed to list users: " ++ cause⟩
  | .ok (_ :: _) => return .ok (.role .user)
  | .ok [] => if validateOnly then return .ok (.role .admin) else registerFirst request input

/-- The rest of `CreateUser` for a role. -/
def createWithRole (request : ι) (input : UserInput) (validateOnly : Bool) (role : Role) :
    UserProgram ι (Except Status UserMessage) := do
  if validateOnly then
    return .ok ⟨input.username, input.email, input.displayName, convertUserRoleFromStore role⟩
  else
    match ← step (.generateFromPassword input.password) with
    | .error cause => return .error ⟨.internal, "failed to generate password hash: " ++ cause⟩
    | .ok passwordHash =>
        match ← step (.createUser request (input.create role passwordHash)) with
        | .error cause => return .error ⟨.internal, "failed to create user: " ++ cause⟩
        | .ok user => return .ok (convertUserFromStore user.toNewUser)

/-- `CreateUser` behind the validation of the input. -/
def registerUser (request : ι) (input : UserInput) (validateOnly : Bool) :
    UserProgram ι (Except Status UserMessage) := do
  match ← registrationRole request input validateOnly with
  | .error status => return .error status
  | .ok (.first user) => return .ok (convertUserFromStore user.toNewUser)
  | .ok (.role .admin) => createWithRole request input validateOnly .admin
  | .ok (.role .user) =>
      match ← checkRegistration with
      | .error status => return .error status
      | .ok () => createWithRole request input validateOnly .user

/-- `CreateUser`.  An administrator chooses the role. -/
def createUser (request : ι) (currentUser : Option UserRow) (body : CreateUserRequest) :
    UserProgram ι (Except Status UserMessage) :=
  match body.user with
  | none => return .error ⟨.invalidArgument, "user is required"⟩
  | some input =>
      if validateWritableUsername input.username = false then
        return .error ⟨.invalidArgument, "invalid username: " ++ input.username⟩
      else if input.password = "" then
        return .error ⟨.invalidArgument, "password must not be empty"⟩
      else if currentUser.any fun user => user.role = .admin then
        createWithRole request input body.validateOnly
          (if input.role = .unspecified then .user else convertUserRoleToStore input.role)
      else registerUser request input body.validateOnly

/-! ## The discipline of the requests -/

/-- A reply under the lock says that there are no users. -/
def saysEmpty (held : Bool) (limit : Nat) : Except String (List UserRow) -> Bool
  | .ok [] => held && decide (0 < limit)
  | _ => false

/-- A program takes the lock at most once at a time and creates an
administrator only while it holds the lock and has seen, since it took the
lock, that there are no users.  The flags at the end are as wanted. -/
def Careful {α : Type} (request : ι) (wanted : α -> Bool -> Bool -> Prop) :
    Bool -> Bool -> UserProgram ι α -> Prop
  | held, empty, .done result => wanted result held empty
  | held, _, .perform (.lock owner) next => owner = request ∧ held = false ∧
      forall reply, Careful request wanted true false (next reply)
  | held, _, .perform (.unlock owner) next => owner = request ∧ held = true ∧
      forall reply, Careful request wanted false false (next reply)
  | held, _, .perform (.listUsers limit) next =>
      forall reply, Careful request wanted held (saysEmpty held limit reply) (next reply)
  | held, empty, .perform (.createUser owner create) next => owner = request ∧
      (create.role = .admin -> held = true ∧ empty = true) ∧
      forall reply, Careful request wanted held false (next reply)
  | held, empty, .perform (.generateFromPassword _) next =>
      forall reply, Careful request wanted held empty (next reply)
  | held, empty, .perform .getInstanceGeneralSetting next =>
      forall reply, Careful request wanted held empty (next reply)

variable {request : ι} {held empty : Bool}

theorem careful_bind {α β : Type} {between : α -> Bool -> Bool -> Prop}
    {wanted : β -> Bool -> Bool -> Prop} {program : UserProgram ι α}
    {next : α -> UserProgram ι β} (first : Careful request between held empty program)
    (rest : forall result held empty, between result held empty ->
      Careful request wanted held empty (next result)) :
    Careful request wanted held empty (program >>= next) := by
  induction program generalizing held empty with
  | done result => exact rest result held empty first
  | perform operation following ih =>
      cases operation with
      | lock owner =>
          rcases first with ⟨own, free, continues⟩
          exact ⟨own, free, fun reply => ih reply (continues reply)⟩
      | unlock owner =>
          rcases first with ⟨own, taken, continues⟩
          exact ⟨own, taken, fun reply => ih reply (continues reply)⟩
      | listUsers limit => exact fun reply => ih reply (first reply)
      | createUser owner create =>
          rcases first with ⟨own, guarded, continues⟩
          exact ⟨own, guarded, fun reply => ih reply (continues reply)⟩
      | generateFromPassword password => exact fun reply => ih reply (first reply)
      | getInstanceGeneralSetting => exact fun reply => ih reply (first reply)

/-- The lock is free at the end. -/
def released {α : Type} (_ : α) (held _ : Bool) : Prop := held = false

theorem careful_listUsers (limit : Nat) :
    Careful request (fun reply after seen => after = held ∧ seen = saysEmpty held limit reply)
      held empty (step (.listUsers limit)) := fun _ => ⟨rfl, rfl⟩

theorem careful_hash (password : String) :
    Careful request (fun _ after _ => after = held) held empty
      (step (.generateFromPassword password)) := fun _ => rfl

theorem careful_setting :
    Careful request (fun _ after _ => after = held) held empty
      (step .getInstanceGeneralSetting) := fun _ => rfl

theorem careful_create {create : NewUser} (guarded : create.role = .admin -> held = true ∧ empty = true) :
    Careful request (fun _ after _ => after = held) held empty
      (step (.createUser request create)) := ⟨rfl, guarded, fun _ => rfl⟩

theorem careful_createUserLocked (create : NewUser) :
    Careful request (fun _ after _ => after = true) true empty
      (createUserLocked request create) := by
  refine careful_bind (careful_listUsers 1) ?_
  rintro reply after seen ⟨rfl, rfl⟩
  match reply with
  | .error cause => exact rfl
  | .ok (_ :: _) => exact rfl
  | .ok [] =>
      refine careful_bind (careful_create fun _ => ⟨rfl, rfl⟩) ?_
      rintro outcome after _ rfl
      cases outcome <;> exact rfl

theorem careful_createUserIfNoUsers (create : NewUser) :
    Careful request released false empty (createUserIfNoUsers request create) := by
  have locked : Careful request (fun _ after _ => after = true) false empty
      (step (.lock request)) := ⟨rfl, rfl, fun _ => rfl⟩
  refine careful_bind locked ?_
  rintro _ after _ rfl
  refine careful_bind (careful_createUserLocked create) ?_
  rintro result after _ rfl
  have unlocked : forall seen, Careful request (fun _ after _ => after = false) true seen
      (step (.unlock request)) := fun _ => ⟨rfl, rfl, fun _ => rfl⟩
  exact careful_bind (unlocked _) fun _ _ _ free => free

theorem careful_createWithRole (input : UserInput) {validateOnly : Bool} {role : Role}
    (chosen : role = .admin -> validateOnly = true) :
    Careful request released false empty (createWithRole request input validateOnly role) := by
  unfold createWithRole
  cases validateOnly with
  | true => exact rfl
  | false =>
      refine careful_bind (careful_hash input.password) ?_
      rintro hashed after _ rfl
      cases hashed with
      | error cause => exact rfl
      | ok passwordHash =>
          refine careful_bind (careful_create ?_) ?_
          · exact fun isAdmin => absurd (chosen isAdmin) Bool.false_ne_true
          · rintro outcome after _ rfl
            cases outcome <;> exact rfl

theorem careful_checkRegistration :
    Careful request released false empty checkRegistration := by
  refine careful_bind careful_setting ?_
  rintro reply after _ rfl
  cases reply with
  | error cause => exact rfl
  | ok setting =>
      dsimp only
      split
      · exact rfl
      · split <;> exact rfl

/-- The lock is free, and the role is not that of an administrator unless the
user is not created. -/
def roleWanted (validateOnly : Bool) (result : Except Status Registration) (held _ : Bool) : Prop :=
  held = false ∧ (result = .ok (.role .admin) -> validateOnly = true)

theorem careful_registerFirst (input : UserInput) :
    Careful request (roleWanted false) false empty (registerFirst request input) := by
  refine careful_bind (careful_hash input.password) ?_
  rintro hashed after _ rfl
  cases hashed with
  | error cause => exact ⟨rfl, fun impossible => by cases impossible⟩
  | ok passwordHash =>
      refine careful_bind (careful_createUserIfNoUsers _) ?_
      rintro outcome after _ free
      match outcome with
      | .error cause => exact ⟨free, fun impossible => by cases impossible⟩
      | .ok none => exact ⟨free, fun impossible => by cases impossible⟩
      | .ok (some user) => exact ⟨free, fun impossible => by cases impossible⟩

theorem careful_registrationRole (input : UserInput) (validateOnly : Bool) :
    Careful request (roleWanted validateOnly) false empty
      (registrationRole request input validateOnly) := by
  refine careful_bind (careful_listUsers 1) ?_
  rintro reply after _ ⟨rfl, _⟩
  match reply with
  | .error cause => exact ⟨rfl, fun impossible => by cases impossible⟩
  | .ok (_ :: _) => exact ⟨rfl, fun impossible => by cases impossible⟩
  | .ok [] =>
      cases validateOnly with
      | true => exact ⟨rfl, fun _ => rfl⟩
      | false => exact careful_registerFirst input

theorem careful_registerUser (input : UserInput) (validateOnly : Bool) :
    Careful request released false empty (registerUser request input validateOnly) := by
  refine careful_bind (careful_registrationRole input validateOnly) ?_
  rintro result after _ ⟨rfl, chosen⟩
  match result with
  | .error status => exact rfl
  | .ok (.first user) => exact rfl
  | .ok (.role .admin) => exact careful_createWithRole input fun _ => chosen rfl
  | .ok (.role .user) =>
      refine careful_bind careful_checkRegistration ?_
      rintro outcome after _ free
      subst free
      cases outcome with
      | error status => exact rfl
      | ok _ => exact careful_createWithRole input fun impossible => by cases impossible

/-- Requests of callers who are no administrators are careful. -/
theorem careful_createUser {currentUser : Option UserRow}
    (ordinary : (currentUser.any fun user => user.role = .admin) = false) (body : CreateUserRequest) :
    Careful request released false empty (createUser request currentUser body) := by
  unfold createUser
  cases body.user with
  | none => exact rfl
  | some input =>
      dsimp only
      split
      · exact rfl
      · split
        · exact rfl
        · rw [ordinary]
          exact careful_registerUser input body.validateOnly

/-! ## Runs -/

variable {α : Type}

/-- The administrators among created users. -/
def administrators (created : List (ι × UserRow)) : List (ι × UserRow) :=
  created.filter fun entry => entry.2.role = .admin

theorem administrators_append (created : List (ι × UserRow)) (entry : ι × UserRow) :
    administrators (created ++ [entry]) =
      administrators created ++ if entry.2.role = .admin then [entry] else [] := by
  unfold administrators
  rw [List.filter_append]
  by_cases isAdmin : entry.2.role = .admin <;> simp [isAdmin]

/-- What is known of a request: it holds the lock or not, and what it has seen
under the lock is still right about administrators. -/
structure Watched (table : UserTable ι) (request : ι) (program : UserProgram ι α)
    (held empty : Bool) : Prop where
  careful : Careful request released held empty program
  lock : held = true ↔ table.userCreateMu = some request
  empty : held = true -> empty = true -> administrators table.created = []

/-- The other requests are watched still when the lock and the administrators
are as before. -/
theorem Watched.same {table after : UserTable ι} {program : UserProgram ι α}
    (watched : Watched table request program held empty) (lock : after.userCreateMu = table.userCreateMu)
    (admins : administrators table.created = [] -> administrators after.created = []) :
    Watched after request program held empty :=
  ⟨watched.careful, by rw [lock]; exact watched.lock,
    fun taken seen => admins (watched.empty taken seen)⟩

/-- The list of a table that is not empty is not empty. -/
theorem not_saysEmpty {table : UserTable ι} {limit : Nat}
    {reply : UserReply (.listUsers limit : UserOperation ι)} {after : UserTable ι}
    (effective : UserEffect table (.listUsers limit) reply after) (some : table.users ≠ [])
    (held : Bool) : saysEmpty held limit reply = false := by
  match reply with
  | .error cause => rfl
  | .ok (_ :: _) => rfl
  | .ok [] =>
      have count := (effective.2 [] rfl).2
      have positive := List.length_pos_iff.mpr some
      have none : limit = 0 := by
        rw [List.length_nil] at count
        omega
      rw [none]
      exact Bool.and_false held

/-- At most one administrator has been created, and none while the table is
empty. -/
structure Guarded (pool : Pool (UserTable ι) ι (UserOperation ι) UserReply α) : Prop where
  watched : forall request, Exists fun held => Exists fun empty =>
    Watched pool.shared request (pool.programs request) held empty
  single : (administrators pool.shared.created).length ≤ 1
  present : pool.shared.users = [] -> administrators pool.shared.created = []

/-- Unauthenticated requests, none of which has begun, on a user table. -/
def registrations (requests : ι -> CreateUserRequest) (users : List UserRow) :
    Pool (UserTable ι) ι (UserOperation ι) UserReply (Except Status UserMessage) where
  shared := { users := users }
  programs := fun request => createUser request none (requests request)

theorem registrations_guarded (requests : ι -> CreateUserRequest) (users : List UserRow) :
    Guarded (registrations requests users) where
  watched := fun request => ⟨false, false, careful_createUser rfl (requests request),
    ⟨(fun impossible => by cases impossible), (fun impossible => by cases impossible)⟩,
    fun impossible => by cases impossible⟩
  single := Nat.zero_le 1
  present := fun _ => rfl

variable [DecidableEq ι]

/-- A run of requests, in which every step may be taken. -/
def Run (start last : Pool (UserTable ι) ι (UserOperation ι) UserReply α) : Prop :=
  Pool.Run UserEffect Background (fun _ _ _ _ _ => True) start last

theorem guarded_step {pool after : Pool (UserTable ι) ι (UserOperation ι) UserReply α}
    (guarded : Guarded pool) (stepped : Pool.Step UserEffect Background (fun _ _ _ _ _ => True) pool after) :
    Guarded after := by
  rcases guarded with ⟨watched, single, present⟩
  cases stepped with
  | background change =>
      rcases change with ⟨nonempty, sameLock, sameCreated⟩
      refine ⟨fun request => ?_, ?_, fun none => ?_⟩
      · rcases watched request with ⟨held, empty, known⟩
        refine ⟨held, empty, known.same sameLock ?_⟩
        rw [sameCreated]
        exact id
      · rw [sameCreated]
        exact single
      · rw [sameCreated]
        exact present (by_contra fun some => nonempty some none)
  | @operation index operation next reply shared current effective _ =>
      rcases watched index with ⟨held, empty, own⟩
      have careful := own.careful
      rw [current] at careful
      -- What the step leaves to the other requests.
      have others : forall now : Bool, forall seen : Bool,
          Watched shared index (next reply) now seen ->
          (forall other, other ≠ index -> forall flag empty,
            Watched pool.shared other (pool.programs other) flag empty ->
              Watched shared other (pool.programs other) flag empty) ->
          forall request, Exists fun held => Exists fun empty => Watched shared request
            (Function.update pool.programs index (next reply) request) held empty := by
        intro now seen mine rest request
        by_cases same : request = index
        · subst same
          rw [Function.update_self]
          exact ⟨now, seen, mine⟩
        · rw [Function.update_of_ne same]
          rcases watched request with ⟨flag, empty, known⟩
          exact ⟨flag, empty, rest request same flag empty known⟩
      cases operation with
      | lock owner =>
          rcases careful with ⟨rfl, _, continues⟩
          rcases effective with ⟨free, rfl⟩
          refine ⟨others true false ⟨continues reply, ⟨fun _ => rfl, fun _ => rfl⟩,
            fun _ impossible => by cases impossible⟩ ?_, single, present⟩
          intro other apart flag empty known
          have notHeld : flag ≠ true := by
            intro taken
            have holds := known.lock.mp taken
            rw [free] at holds
            cases holds
          refine ⟨known.careful, ⟨fun taken => absurd taken notHeld, fun taken => ?_⟩,
            fun taken => absurd taken notHeld⟩
          exact absurd (Option.some.inj taken).symm apart
      | unlock owner =>
          rcases careful with ⟨rfl, taken, continues⟩
          cases effective
          refine ⟨others false false ⟨continues reply,
            ⟨(fun impossible => by cases impossible), (fun impossible => by cases impossible)⟩,
            fun impossible => by cases impossible⟩ ?_, single, present⟩
          intro other apart flag empty known
          have mine := own.lock.mp taken
          have notHeld : flag ≠ true := by
            intro holding
            have holds := known.lock.mp holding
            rw [mine] at holds
            exact apart (Option.some.inj holds).symm
          exact ⟨known.careful, ⟨fun holding => absurd holding notHeld,
            fun impossible => by cases impossible⟩, fun holding => absurd holding notHeld⟩
      | listUsers limit =>
          rcases effective with ⟨rfl, listed⟩
          refine ⟨others held (saysEmpty held limit reply) ⟨careful reply, own.lock, ?_⟩
            (fun _ _ _ _ known => known), single, present⟩
          intro _ seen
          apply present
          by_contra some
          have notEmpty := not_saysEmpty ⟨rfl, listed⟩ some held
          exact absurd (seen.symm.trans notEmpty) Bool.false_ne_true.symm
      | generateFromPassword password =>
          cases effective
          exact ⟨others held empty ⟨careful reply, own.lock, own.empty⟩
            (fun _ _ _ _ known => known), single, present⟩
      | getInstanceGeneralSetting =>
          cases effective
          exact ⟨others held empty ⟨careful reply, own.lock, own.empty⟩
            (fun _ _ _ _ known => known), single, present⟩
      | createUser owner create =>
          rcases careful with ⟨rfl, allowed, continues⟩
          rcases effect_createUser effective with rfl | ⟨row, asked, _, rfl⟩
          · exact ⟨others held false ⟨continues _, own.lock,
              fun _ impossible => by cases impossible⟩ (fun _ _ _ _ known => known), single,
              present⟩
          · by_cases isAdmin : row.role = .admin
            · have createsAdmin : create.role = .admin := by rw [← asked]; exact isAdmin
              rcases allowed createsAdmin with ⟨taken, seen⟩
              have none := own.empty taken seen
              refine ⟨others held false ⟨continues _, own.lock,
                fun _ impossible => by cases impossible⟩ ?_, ?_, ?_⟩
              · intro other apart flag empty known
                have notHeld : flag ≠ true := by
                  intro holding
                  have holds := known.lock.mp holding
                  rw [own.lock.mp taken] at holds
                  exact apart (Option.some.inj holds).symm
                exact ⟨known.careful, known.lock, fun holding => absurd holding notHeld⟩
              · rw [administrators_append, none, if_pos isAdmin]
                exact Nat.le_refl 1
              · intro impossible
                exact absurd impossible (List.append_ne_nil_of_right_ne_nil _ (List.cons_ne_nil _ _))
            · have kept : administrators (pool.shared.created ++ [(owner, row)]) =
                  administrators pool.shared.created := by
                rw [administrators_append, if_neg isAdmin, List.append_nil]
              refine ⟨others held false ⟨continues _, own.lock,
                fun _ impossible => by cases impossible⟩ ?_, ?_, ?_⟩
              · intro other apart flag empty known
                exact known.same rfl fun none => kept.trans none
              · rw [kept]
                exact single
              · intro impossible
                exact absurd impossible (List.append_ne_nil_of_right_ne_nil _ (List.cons_ne_nil _ _))

theorem guarded_run {start last : Pool (UserTable ι) ι (UserOperation ι) UserReply α}
    (run : Run start last) (guarded : Guarded start) : Guarded last :=
  Pool.Run.induction run guarded fun _ _ => guarded_step

/-- What a request does that begins when there are users: it never sees an
empty table, and creates no administrator. -/
structure Late (request : ι) (start pool : Pool (UserTable ι) ι (UserOperation ι) UserReply α) :
    Prop where
  users : pool.shared.users ≠ []
  unseen : Exists fun held => Careful request released held false (pool.programs request)
  created : Exists fun added => pool.shared.created = start.shared.created ++ added ∧
    forall entry, entry ∈ added -> entry.1 = request -> entry.2.role ≠ .admin

theorem late_step {start pool after : Pool (UserTable ι) ι (UserOperation ι) UserReply α}
    (guarded : Guarded pool) (late : Late request start pool)
    (stepped : Pool.Step UserEffect Background (fun _ _ _ _ _ => True) pool after) :
    Late request start after := by
  rcases late with ⟨users, ⟨held, careful⟩, added, created, ordinary⟩
  cases stepped with
  | background change =>
      rcases change with ⟨nonempty, _, sameCreated⟩
      exact ⟨nonempty users, ⟨held, careful⟩, added, sameCreated.trans created, ordinary⟩
  | @operation index operation next reply shared current effective _ =>
      -- What the step does to the table, whoever makes it.
      have table : shared.users ≠ [] ∧ Exists fun new => shared.created = pool.shared.created ++ new ∧
          forall entry, entry ∈ new -> Exists fun create =>
            operation = .createUser entry.1 create ∧ entry.2.toNewUser = create := by
        cases operation with
        | lock owner =>
            rcases effective with ⟨_, rfl⟩
            exact ⟨users, [], (List.append_nil _).symm,
              fun _ impossible => absurd impossible List.not_mem_nil⟩
        | unlock owner =>
            cases effective
            exact ⟨users, [], (List.append_nil _).symm,
              fun _ impossible => absurd impossible List.not_mem_nil⟩
        | listUsers limit =>
            rcases effective with ⟨rfl, _⟩
            exact ⟨users, [], (List.append_nil _).symm,
              fun _ impossible => absurd impossible List.not_mem_nil⟩
        | generateFromPassword password =>
            cases effective
            exact ⟨users, [], (List.append_nil _).symm,
              fun _ impossible => absurd impossible List.not_mem_nil⟩
        | getInstanceGeneralSetting =>
            cases effective
            exact ⟨users, [], (List.append_nil _).symm,
              fun _ impossible => absurd impossible List.not_mem_nil⟩
        | createUser owner create =>
            rcases effect_createUser effective with rfl | ⟨row, asked, _, rfl⟩
            · exact ⟨users, [], (List.append_nil _).symm,
                fun _ impossible => absurd impossible List.not_mem_nil⟩
            · refine ⟨List.append_ne_nil_of_left_ne_nil users _, [(owner, row)], rfl, ?_⟩
              intro entry member
              rcases List.mem_singleton.mp member with rfl
              exact ⟨create, rfl, asked⟩
      rcases table with ⟨stillUsers, new, grown, made⟩
      -- What the request goes on with, and that it makes no administrator.
      have own : (Exists fun held => Careful request released held false
            (Function.update pool.programs index (next reply) request)) ∧
          forall create, operation = .createUser request create -> create.role ≠ .admin := by
        by_cases same : request = index
        · subst same
          rw [Function.update_self]
          rw [current] at careful
          cases operation with
          | lock owner => exact ⟨⟨true, careful.2.2 reply⟩, fun _ impossible => by cases impossible⟩
          | unlock owner => exact ⟨⟨false, careful.2.2 reply⟩, fun _ impossible => by cases impossible⟩
          | listUsers limit =>
              have continues := careful reply
              rw [not_saysEmpty effective users held] at continues
              exact ⟨⟨held, continues⟩, fun _ impossible => by cases impossible⟩
          | generateFromPassword password =>
              exact ⟨⟨held, careful reply⟩, fun _ impossible => by cases impossible⟩
          | getInstanceGeneralSetting =>
              exact ⟨⟨held, careful reply⟩, fun _ impossible => by cases impossible⟩
          | createUser owner create =>
              refine ⟨⟨held, careful.2.2 reply⟩, ?_⟩
              intro other sameCreate isAdmin
              cases sameCreate
              exact absurd (careful.2.1 isAdmin).2 Bool.false_ne_true
        · rw [Function.update_of_ne same]
          refine ⟨⟨held, careful⟩, ?_⟩
          intro create sameCreate
          rcases guarded.watched index with ⟨flag, empty, known⟩
          have others := known.careful
          subst sameCreate
          rw [current] at others
          exact absurd others.1 same
      refine ⟨stillUsers, own.1, added ++ new, by rw [grown, created, List.append_assoc], ?_⟩
      intro entry member byRequest
      rcases List.mem_append.mp member with old | fresh
      · exact ordinary entry old byRequest
      · rcases made entry fresh with ⟨create, operated, asked⟩
        rw [byRequest] at operated
        have notAdmin := own.2 create operated
        rw [← asked] at notAdmin
        exact notAdmin

theorem late_run {start last : Pool (UserTable ι) ι (UserOperation ι) UserReply α}
    (run : Run start last) (guarded : Guarded start) (users : start.shared.users ≠ [])
    (careful : Careful request released false false (start.programs request)) :
    Late request start last := by
  have here : Late request start start := ⟨users, ⟨false, careful⟩, [],
    (List.append_nil _).symm, fun _ impossible => absurd impossible List.not_mem_nil⟩
  have both : Guarded last ∧ Late request start last := by
    apply Pool.Run.induction run ⟨guarded, here⟩
    intro pool after known stepped
    exact ⟨guarded_step known.1 stepped, late_step known.1 known.2 stepped⟩
  exact both.2

/-- However the steps of any number of registrations interleave, at most one
of them creates an administrator, and a registration that begins when there
are users creates none. -/
theorem first_administrator (requests : ι -> CreateUserRequest) (users : List UserRow)
    {pool last : Pool (UserTable ι) ι (UserOperation ι) UserReply (Except Status UserMessage)}
    (before : Run (registrations requests users) pool) (after : Run pool last) :
    (administrators last.shared.created).length ≤ 1 ∧
    forall request, pool.programs request = createUser request none (requests request) ->
      pool.shared.users ≠ [] ->
      Exists fun added => last.shared.created = pool.shared.created ++ added ∧
        forall entry, entry ∈ added -> entry.1 = request -> entry.2.role ≠ .admin := by
  have guarded := guarded_run before (registrations_guarded requests users)
  refine ⟨(guarded_run after guarded).single, ?_⟩
  intro request fresh some
  have careful : Careful request released false false (pool.programs request) := by
    rw [fresh]
    exact careful_createUser rfl (requests request)
  exact (late_run after guarded some careful).created

/-! ## Two registrations -/

/-- Two people who register on a new instance. -/
def twoRequests : Bool -> CreateUserRequest
  | false => { user := some { username := "ada", password := "x" } }
  | true => { user := some { username := "bob", password := "y" } }

def firstRow : UserRow := ⟨⟨"ada", .admin, "", "", "hash"⟩, 1⟩

/-- The first request is done before the second begins. -/
theorem first_administrator_ada :
    Exists fun last : Pool (UserTable Bool) Bool (UserOperation Bool) UserReply
        (Except Status UserMessage) =>
      last.shared.created = [(false, firstRow)] ∧
        (administrators last.shared.created).length ≤ 1 ∧
        Exists fun added => last.shared.created = [(false, firstRow)] ++ added ∧
          forall entry, entry ∈ added -> entry.1 = true -> entry.2.role ≠ .admin := by
  have begun : Run (registrations twoRequests []) (registrations twoRequests []) := .refl
  have listed := begun.operation false rfl (.ok []) ⟨[], none, []⟩
    ⟨rfl, fun users same => by cases same; exact ⟨List.nil_subset _, rfl⟩⟩ trivial
  have hashed := listed.operation false rfl (.ok "hash") ⟨[], none, []⟩ rfl trivial
  have locked := hashed.operation false rfl () ⟨[], some false, []⟩ ⟨rfl, rfl⟩ trivial
  have again := locked.operation false rfl (.ok []) ⟨[], some false, []⟩
    ⟨rfl, fun users same => by cases same; exact ⟨List.nil_subset _, rfl⟩⟩ trivial
  have inserted := again.operation false rfl (.ok firstRow)
    ⟨[firstRow], some false, [(false, firstRow)]⟩
    ⟨rfl, (fun _ impossible => absurd impossible List.not_mem_nil), rfl⟩ trivial
  have unlocked := inserted.operation false rfl () ⟨[firstRow], none, [(false, firstRow)]⟩ rfl
    trivial
  have both := first_administrator twoRequests [] unlocked .refl
  exact ⟨_, rfl, both.1, both.2 true rfl (List.cons_ne_nil _ _)⟩

end FirstUser
end Service
end Memos
