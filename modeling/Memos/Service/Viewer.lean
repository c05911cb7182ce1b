import Memos.Store.Tables

namespace Memos
namespace Service

open Store

/-!
# The caller of a request

A request carries a user id, zero when it is not authenticated.  The service
looks the user up again for every decision.
-/

/-- The status codes of the service. -/
inductive Code where
  | unknown
  | invalidArgument
  | notFound
  | alreadyExists
  | permissionDenied
  | unauthenticated
  | internal
deriving DecidableEq

/-- `status.Errorf` -/
structure Status where
  code : Code
  message : String
deriving DecidableEq

/-- `GetUser` by id. -/
def userById (db : Database) (id : Nat) : Option User :=
  db.users.find? fun user => user.id = id

/-- `fetchCurrentUser`: an archived user counts as not authenticated. -/
def fetchCurrentUser (db : Database) (userId : Nat) : Except String (Option User) :=
  if userId = 0 then .ok none
  else
    match userById db userId with
    | none => .error ("user " ++ toString userId ++ " not found")
    | some user => if user.rowStatus = .archived then .ok none else .ok (some user)

/-- The caller, or the internal error of the handlers. -/
def currentUser (db : Database) (userId : Nat) : Except Status (Option User) :=
  match fetchCurrentUser db userId with
  | .ok user => .ok user
  | .error _ => .error ⟨.internal, "failed to get user"⟩

theorem currentUser_eq_ok {db : Database} {userId : Nat} {viewer : Option User} :
    currentUser db userId = .ok viewer ↔ fetchCurrentUser db userId = .ok viewer := by
  unfold currentUser
  cases fetchCurrentUser db userId with
  | error cause =>
      constructor
      · intro impossible
        cases impossible
      · intro impossible
        cases impossible
  | ok user => exact ⟨fun same => congrArg _ (Except.ok.inj same), fun same => congrArg _ (Except.ok.inj same)⟩

end Service
end Memos
