import Memos.Service.Disclosure

namespace Memos
namespace Service

open Library Memos.Filter Store

/-!
# The gates of an attachment

The API and the file server decide on their own who may read an attachment.
They identify the caller differently, answer with different errors and agree
on whom they let through: the creator and administrators for an attachment
without a memo, and whomever the visibility of the memo admits otherwise.
-/

/-! ## Who is calling -/

/-- The bearer token of a request, after its verification. -/
inductive Bearer where
  | absent
  /-- An access token with a valid signature and the user id of its claims. -/
  | accessToken (userId : Nat)
  /-- A personal access token that is stored for the user. -/
  | personalAccessToken (userId : Nat) (expired : Bool)
  /-- A token that names nobody. -/
  | invalid

/-- The refresh token in the cookie of a request, after its verification. -/
inductive RefreshCookie where
  | absent
  | stored (userId : Nat)
  | invalid

/-- What a request says about its caller. -/
structure Credentials where
  bearer : Bearer
  cookie : RefreshCookie

/-- The user of an id, unless archived. -/
def activeUserById (db : Database) (id : Nat) : Option User :=
  (userById db id).filter fun user => user.rowStatus ≠ .archived

/-- `AuthenticateByPAT` -/
def authenticateByPAT (db : Database) (userId : Nat) (expired : Bool) : Option User :=
  if expired then none else activeUserById db userId

/-- `Authenticate`: the user id that the API handlers find in the context of
the request. -/
def authenticate (db : Database) : Bearer -> Nat
  | .accessToken userId => ((activeUserById db userId).map fun _ => userId).getD 0
  | .personalAccessToken userId expired =>
      ((authenticateByPAT db userId expired).map User.id).getD 0
  | .absent => 0
  | .invalid => 0

/-- `AuthenticateByRefreshToken` -/
def authenticateByRefreshToken (db : Database) : RefreshCookie -> Except String (Option User)
  | .absent => .ok none
  | .invalid => .error "invalid refresh token"
  | .stored userId =>
      match userById db userId with
      | none => .error "user not found"
      | some user => if user.rowStatus = .archived then .error "user is archived" else .ok (some user)

/-- `AuthenticateToUser`: a valid access token decides alone, every other
bearer token falls back to the cookie. -/
def authenticateToUser (db : Database) (credentials : Credentials) :
    Except String (Option User) :=
  match credentials.bearer with
  | .accessToken userId => .ok (activeUserById db userId)
  | .personalAccessToken userId expired =>
      match authenticateByPAT db userId expired with
      | some user => .ok (some user)
      | none => authenticateByRefreshToken db credentials.cookie
  | .absent => authenticateByRefreshToken db credentials.cookie
  | .invalid => authenticateByRefreshToken db credentials.cookie

/-- A caller who cannot be looked up counts as anonymous. -/
def viewerOf {ε : Type} : Except ε (Option User) -> Option User
  | .ok viewer => viewer
  | .error _ => none

/-- The file server and the API handlers take the request for the same
viewer's. -/
def SameViewer (db : Database) (userId : Nat) (credentials : Credentials) : Prop :=
  viewerOf (fetchCurrentUser db userId) = viewerOf (authenticateToUser db credentials)

/-! ## The gates -/

variable (env : Environment) (now : Int) (db : Database)

/-- `checkAttachmentAccess`: the visibility test of the handlers, for a caller
whose lookup errors are dropped. -/
def checkAttachmentAccess (userId : Nat) (attachment : Attachment) : Except Status Unit :=
  let caller := viewerOf (fetchCurrentUser db userId)
  match attachment.memoId with
  | none =>
      match caller with
      | none => .error ⟨.unauthenticated, "user not authenticated"⟩
      | some user =>
          if attachment.creatorId ≠ user.id ∧ !isSuperUser user then
            .error ⟨.permissionDenied, "permission denied"⟩
          else .ok ()
  | some memoId =>
      match Store.getMemo env.engine env.rules now db { id := some memoId } with
      | .error cause => .error ⟨.internal, "failed to get memo: " ++ cause⟩
      | .ok none => .error ⟨.notFound, "memo not found"⟩
      | .ok (some joined) =>
          checkVisibility (.ok caller) (refusedUnlessSuperUser joined.memo) joined.memo

/-- An error of the file server. -/
structure HttpError where
  code : Nat
  message : String
deriving DecidableEq

/-- The caller of the file server. -/
def getCurrentUser (credentials : Credentials) : Except HttpError User :=
  match authenticateToUser db credentials with
  | .error _ => .error ⟨500, "failed to get current user"⟩
  | .ok none => .error ⟨401, "unauthorized access"⟩
  | .ok (some user) => .ok user

/-- `checkAttachmentPermission` of a request without a share token. -/
def checkAttachmentPermission (credentials : Credentials) (attachment : Attachment) :
    Except HttpError Unit :=
  match attachment.memoId with
  | none => do
      let user ← getCurrentUser db credentials
      if user.id ≠ attachment.creatorId ∧ user.role ≠ .admin then
        .error ⟨403, "forbidden access"⟩
      else .ok ()
  | some memoId =>
      match Store.getMemo env.engine env.rules now db { id := some memoId } with
      | .error _ => .error ⟨500, "failed to find memo"⟩
      | .ok none => .error ⟨404, "memo not found"⟩
      | .ok (some joined) =>
          if joined.memo.visibility = .isPublic then .ok ()
          else do
            let user ← getCurrentUser db credentials
            if joined.memo.visibility = .isPrivate ∧ user.id ≠ joined.memo.creatorId ∧
                user.role ≠ .admin then
              .error ⟨403, "forbidden access"⟩
            else .ok ()

/-! ## Whom a gate admits -/

/-- The policy of both gates. -/
def AttachmentAdmits (viewer : Option User) (attachment : Attachment) : Prop :=
  match attachment.memoId with
  | none => Exists fun user =>
      viewer = some user ∧ (attachment.creatorId = user.id ∨ user.role = .admin)
  | some memoId => Exists fun joined => memoById db memoId = some joined ∧
      (joined.memo.visibility = .isPublic ∨ Exists fun user => viewer = some user ∧
        (joined.memo.visibility = .isPrivate ->
          joined.memo.creatorId = user.id ∨ user.role = .admin))

variable {env now db}

variable {user : User} {attachment : Attachment} {id : Nat}

theorem getCurrentUser_eq_ok {credentials : Credentials} :
    getCurrentUser db credentials = .ok user ↔
      viewerOf (authenticateToUser db credentials) = some user := by
  unfold getCurrentUser viewerOf
  cases authenticateToUser db credentials with
  | error cause =>
      constructor
      · intro impossible
        cases impossible
      · intro impossible
        cases impossible
  | ok viewer =>
      cases viewer with
      | none =>
          constructor
          · intro impossible
            cases impossible
          · intro impossible
            cases impossible
      | some found =>
          constructor
          · intro same
            cases same
            rfl
          · intro same
            cases same
            rfl

theorem checkAttachmentAccess_eq_ok (keyed : db.Keyed) {userId : Nat} :
    checkAttachmentAccess env now db userId attachment = .ok () ↔
      AttachmentAdmits db (viewerOf (fetchCurrentUser db userId)) attachment := by
  unfold checkAttachmentAccess AttachmentAdmits
  generalize viewerOf (fetchCurrentUser db userId) = viewer
  cases attachment.memoId with
  | none =>
      cases viewer with
      | none =>
          constructor
          · intro impossible
            cases impossible
          · rintro ⟨user, impossible, _⟩
            cases impossible
      | some user =>
          simp [isSuperUser, Decidable.or_iff_not_imp_left]
  | some memoId =>
      simp only [getMemo_id _ _ _ keyed]
      cases memoById db memoId with
      | none =>
          constructor
          · intro impossible
            cases impossible
          · rintro ⟨joined, impossible, _⟩
            cases impossible
      | some joined =>
          simp only [checkVisibility_eq_ok, refusedUnlessSuperUser_eq_false, Except.ok.injEq,
            Option.some.injEq, exists_eq_left']

theorem checkAttachmentPermission_eq_ok (keyed : db.Keyed) {credentials : Credentials} :
    checkAttachmentPermission env now db credentials attachment = .ok () ↔
      AttachmentAdmits db (viewerOf (authenticateToUser db credentials)) attachment := by
  unfold checkAttachmentPermission AttachmentAdmits
  cases attachment.memoId with
  | none =>
      constructor
      · intro success
        rcases bind_eq_ok.mp success with ⟨user, caller, decided⟩
        refine ⟨user, getCurrentUser_eq_ok.mp caller, ?_⟩
        by_contra refused
        have forbidden : user.id ≠ attachment.creatorId ∧ user.role ≠ .admin :=
          ⟨fun same => refused (.inl same.symm), fun admin => refused (.inr admin)⟩
        rw [if_pos forbidden] at decided
        cases decided
      · rintro ⟨user, caller, accepted⟩
        refine bind_eq_ok.mpr ⟨user, getCurrentUser_eq_ok.mpr caller, if_neg ?_⟩
        rintro ⟨notCreator, notAdmin⟩
        rcases accepted with creator | admin
        · exact notCreator creator.symm
        · exact notAdmin admin
  | some memoId =>
      simp only [getMemo_id _ _ _ keyed]
      cases memoById db memoId with
      | none =>
          constructor
          · intro impossible
            cases impossible
          · rintro ⟨joined, impossible, _⟩
            cases impossible
      | some joined =>
          simp only [Option.some.injEq, exists_eq_left']
          by_cases isPublic : joined.memo.visibility = .isPublic
          · rw [if_pos isPublic]
            exact ⟨fun _ => .inl isPublic, fun _ => rfl⟩
          · rw [if_neg isPublic]
            constructor
            · intro success
              rcases bind_eq_ok.mp success with ⟨user, caller, decided⟩
              refine .inr ⟨user, getCurrentUser_eq_ok.mp caller, ?_⟩
              intro isPrivate
              by_contra refused
              have forbidden : joined.memo.visibility = .isPrivate ∧
                  user.id ≠ joined.memo.creatorId ∧ user.role ≠ .admin :=
                ⟨isPrivate, fun same => refused (.inl same.symm), fun admin => refused (.inr admin)⟩
              rw [if_pos forbidden] at decided
              cases decided
            · rintro (impossible | ⟨user, caller, accepted⟩)
              · exact absurd impossible isPublic
              · refine bind_eq_ok.mpr ⟨user, getCurrentUser_eq_ok.mpr caller, if_neg ?_⟩
                rintro ⟨isPrivate, notCreator, notAdmin⟩
                rcases accepted isPrivate with creator | admin
                · exact notCreator creator.symm
                · exact notAdmin admin

/-! ## The same caller -/

theorem userById_eq_some (found : userById db id = some user) :
    user.id = id := by
  have kept := List.find?_some found
  exact of_decide_eq_true kept

theorem activeUserById_eq_some (active : activeUserById db id = some user) :
    userById db id = some user ∧ user.rowStatus ≠ .archived := by
  rcases Option.filter_eq_some_iff.mp active with ⟨found, kept⟩
  exact ⟨found, of_decide_eq_true kept⟩

/-- The context of a request without a valid token has the user id zero. -/
theorem viewerOf_zero : viewerOf (fetchCurrentUser db 0) = none := rfl

theorem viewerOf_active (nonzero : userById db 0 = none) (active : activeUserById db id = some user) :
    viewerOf (fetchCurrentUser db id) = some user := by
  rcases activeUserById_eq_some active with ⟨found, notArchived⟩
  have notZero : id ≠ 0 := by
    intro zero
    rw [zero, nonzero] at found
    cases found
  unfold fetchCurrentUser
  rw [if_neg notZero, found]
  simp only [if_neg notArchived]
  rfl

/-- Without a cookie, both sides take every bearer token for the same
viewer's. -/
theorem sameViewer_bearer (nonzero : userById db 0 = none) (bearer : Bearer) :
    SameViewer db (authenticate db bearer) ⟨bearer, .absent⟩ := by
  unfold SameViewer
  cases bearer with
  | absent => rfl
  | invalid => rfl
  | accessToken userId =>
      cases active : activeUserById db userId with
      | none =>
          simp only [authenticate, authenticateToUser, active]
          exact viewerOf_zero
      | some user =>
          simp only [authenticate, authenticateToUser, active]
          exact viewerOf_active nonzero active
  | personalAccessToken userId expired =>
      cases accepted : authenticateByPAT db userId expired with
      | none =>
          simp only [authenticate, authenticateToUser, accepted]
          exact viewerOf_zero
      | some user =>
          have active : activeUserById db userId = some user := by
            unfold authenticateByPAT at accepted
            split at accepted
            · cases accepted
            · exact accepted
          have sameId := userById_eq_some (activeUserById_eq_some active).1
          rw [← sameId] at active
          simp only [authenticate, authenticateToUser, accepted]
          exact viewerOf_active nonzero active

/-! ## Agreement with `GetMemo` -/

variable (env now db)

/-- The checks of `GetMemo` on a memo and on its parent pass. -/
structure GetMemoAllows (userId : Nat) (joined : JoinedMemo) : Prop where
  self : checkMemoReadAccess db userId joined.memo = .ok ()
  parent : checkParent env now db userId joined.parentUid = .ok ()

/-- The linked memo is there and `GetMemo` on it would be allowed. -/
def LinkedMemoAllows (userId : Nat) (attachment : Attachment) : Prop :=
  Exists fun memoId => attachment.memoId = some memoId ∧
    Exists fun joined => memoById db memoId = some joined ∧
      GetMemoAllows env now db userId joined

/-- Neither the archive rule nor the parent of the linked memo stands against
the caller. -/
def LinkedMemoCurrent (userId : Nat) (attachment : Attachment) : Prop :=
  forall memoId joined, attachment.memoId = some memoId -> memoById db memoId = some joined ->
    (joined.memo.rowStatus = .archived -> OwnedBy db userId joined.memo) ∧
      checkParent env now db userId joined.parentUid = .ok ()

variable {env now db}

theorem viewerOf_eq_some {ε : Type} {caller : Except ε (Option User)} (viewer : viewerOf caller = some user) :
    caller = .ok (some user) := by
  cases caller with
  | error cause => cases viewer
  | ok found =>
      have same : found = some user := viewer
      rw [same]

/-- Whom the policy admits, `GetMemo` admits as well, the creator of the
attachment and administrators apart. -/
theorem linkedMemoAllows_of_admits {userId : Nat} (current : LinkedMemoCurrent env now db userId attachment)
    (admits : AttachmentAdmits db (viewerOf (fetchCurrentUser db userId)) attachment) :
    LinkedMemoAllows env now db userId attachment ∨ Exists fun user =>
      fetchCurrentUser db userId = .ok (some user) ∧
        (attachment.creatorId = user.id ∨ user.role = .admin) := by
  unfold AttachmentAdmits at admits
  cases linked : attachment.memoId with
  | none =>
      rw [linked] at admits
      rcases admits with ⟨user, viewer, accepted⟩
      exact .inr ⟨user, viewerOf_eq_some viewer, accepted⟩
  | some memoId =>
      rw [linked] at admits
      rcases admits with ⟨joined, stored, visible⟩
      rcases current memoId joined linked stored with ⟨archived, parent⟩
      have allowsIf : (joined.memo.visibility = .isPublic ∨ Exists fun user =>
          fetchCurrentUser db userId = .ok (some user) ∧
            (joined.memo.visibility = .isPrivate -> joined.memo.creatorId = user.id)) ->
          LinkedMemoAllows env now db userId attachment := fun readable =>
        ⟨memoId, linked, joined, stored, checkMemoReadAccess_eq_ok.mpr ⟨archived, readable⟩, parent⟩
      rcases visible with isPublic | ⟨user, viewer, accepted⟩
      · exact .inl (allowsIf (.inl isPublic))
      · have caller := viewerOf_eq_some viewer
        by_cases admin : user.role = .admin
        · exact .inr ⟨user, caller, .inr admin⟩
        · exact .inl (allowsIf (.inr ⟨user, caller, fun isPrivate =>
            (accepted isPrivate).resolve_right admin⟩))

/-- The gates let the same viewers through, and only those whom `GetMemo` on
the linked memo admits, the creator of the attachment and administrators. -/
theorem attachmentGates_agree (keyed : db.Keyed) {userId : Nat} {credentials : Credentials}
    (same : SameViewer db userId credentials) (attachment : Attachment) :
    (checkAttachmentAccess env now db userId attachment = .ok () ↔
      checkAttachmentPermission env now db credentials attachment = .ok ()) ∧
    (checkAttachmentAccess env now db userId attachment = .ok () ->
      LinkedMemoCurrent env now db userId attachment ->
        LinkedMemoAllows env now db userId attachment ∨ Exists fun user =>
          fetchCurrentUser db userId = .ok (some user) ∧
            (attachment.creatorId = user.id ∨ user.role = .admin)) := by
  constructor
  · rw [checkAttachmentAccess_eq_ok keyed, checkAttachmentPermission_eq_ok keyed]
    rw [SameViewer] at same
    rw [same]
  · intro allowed current
    exact linkedMemoAllows_of_admits current ((checkAttachmentAccess_eq_ok keyed).mp allowed)

/-! ## An administrator -/

def administrator : User := ⟨2, .normal, "root", .admin⟩

/-- An attachment of the private memo, by the author of the memo. -/
def privateAttachment : Attachment where
  id := 1
  uid := "picture"
  creatorId := 1
  updatedTs := 0
  memoId := some 1

def administratorDatabase : Database where
  users := [alice, administrator]
  memos := [privateMemo]
  attachments := [privateAttachment]

theorem administratorDatabase_keyed : administratorDatabase.Keyed :=
  ⟨by decide, by decide⟩

theorem administratorDatabase_nonzero : userById administratorDatabase 0 = none := by
  decide

/-- An administrator reads the attachment of a memo that `GetMemo` refuses. -/
theorem attachment_administrator :
    ¬ forall (env : Environment) (now : Int) (db : Database) (userId : Nat)
        (credentials : Credentials) (attachment : Attachment),
      db.Keyed -> SameViewer db userId credentials ->
      (checkAttachmentAccess env now db userId attachment = .ok () ↔
        checkAttachmentPermission env now db credentials attachment = .ok ()) ∧
      (checkAttachmentAccess env now db userId attachment = .ok () ->
        LinkedMemoAllows env now db userId attachment ∨ Exists fun user =>
          fetchCurrentUser db userId = .ok (some user) ∧ attachment.creatorId = user.id) := by
  intro claimed
  have same := sameViewer_bearer administratorDatabase_nonzero (.accessToken 2)
  have caller : fetchCurrentUser administratorDatabase 2 = .ok (some administrator) := rfl
  have stored : memoById administratorDatabase 1 = some privateMemoRow := rfl
  have allowed : checkAttachmentAccess anonymousEnvironment 0 administratorDatabase 2
      privateAttachment = .ok () := by
    apply (checkAttachmentAccess_eq_ok administratorDatabase_keyed).mpr
    exact ⟨privateMemoRow, stored, .inr ⟨administrator, rfl, fun _ => .inr rfl⟩⟩
  rcases (claimed anonymousEnvironment 0 administratorDatabase 2 _ privateAttachment
    administratorDatabase_keyed same).2 allowed with ⟨memoId, linked, joined, found, allows⟩ |
      ⟨user, sameCaller, creator⟩
  · cases linked
    rw [stored] at found
    cases found
    rcases (checkMemoReadAccess_eq_ok.mp allows.self).2 with impossible | ⟨user, reader, creator⟩
    · cases impossible
    · rw [caller] at reader
      cases reader
      exact absurd (creator rfl) (by decide)
  · rw [caller] at sameCaller
    cases sameCaller
    exact absurd creator (by decide)

/-- Both gates let the author of a private memo through to its attachment, and
`GetMemo` admits the author as well. -/
theorem attachmentGates_agree_author :
    checkAttachmentAccess anonymousEnvironment 0 administratorDatabase 1 privateAttachment = .ok () ∧
      checkAttachmentPermission anonymousEnvironment 0 administratorDatabase ⟨.accessToken 1, .absent⟩
        privateAttachment = .ok () ∧
      (LinkedMemoAllows anonymousEnvironment 0 administratorDatabase 1 privateAttachment ∨
        Exists fun user => fetchCurrentUser administratorDatabase 1 = .ok (some user) ∧
          (privateAttachment.creatorId = user.id ∨ user.role = .admin)) := by
  have agree := @attachmentGates_agree anonymousEnvironment 0 _ administratorDatabase_keyed _ _
    (sameViewer_bearer administratorDatabase_nonzero (.accessToken 1)) privateAttachment
  have stored : memoById administratorDatabase 1 = some privateMemoRow := rfl
  have allowed : checkAttachmentAccess anonymousEnvironment 0 administratorDatabase 1 privateAttachment = .ok () := by
    apply (checkAttachmentAccess_eq_ok administratorDatabase_keyed).mpr
    exact ⟨privateMemoRow, stored, .inr ⟨alice, rfl, fun _ => .inl rfl⟩⟩
  have current : LinkedMemoCurrent anonymousEnvironment 0 administratorDatabase 1 privateAttachment := by
    intro memoId joined linked found
    cases linked
    cases stored.symm.trans found
    exact ⟨nofun, rfl⟩
  exact ⟨allowed, agree.1.mp allowed, agree.2 allowed current⟩

end Service
end Memos
