import Memos.Service.Runs
import Memos.Service.Disclosure
import Memos.Service.SSEHub
import Memos.Library.Interleaving

namespace Memos
namespace Service
namespace Broadcasts

open Library Memos.Filter Store Handler

/-!
# Who hears of a memo

The handlers that change a memo announce it to the hub of server-sent events.
The event carries a visibility and a creator for the hub to go by, which the
handler takes from the rows that it has read, some of them before the change.
The hub does not see the row status of the memo nor the parent of a comment.
-/

/-! ## The events -/

/-- `resolveSSECreatorID`: events of a comment go by the creator of the
parent. -/
def resolveSSECreatorID (memo : Option Memo) (parentMemo : Option Memo) : Nat :=
  match memo with
  | none => 0
  | some memo => (parentMemo.getD memo).creatorId

def parentName (joined : JoinedMemo) : String := (joined.parentUid.map buildMemoName).getD ""

/-- `buildMemoReactionSSEEvent` -/
def buildMemoReactionSSEEvent (type : SSEEventType) (contentId : String)
    (memo parentMemo : Option JoinedMemo) : SSEEvent where
  type := type
  name := contentId
  parent := (memo.map parentName).getD ""
  visibility := (memo.map fun joined => joined.memo.visibility.string).getD ""
  creatorId := resolveSSECreatorID (memo.map JoinedMemo.memo) (parentMemo.map JoinedMemo.memo)

/-- The calls of `Broadcast`, with the rows in the hands of the handler. -/
inductive Broadcast where
  | memoCreated (memo : Memo)
  | memoUpdated (joined : JoinedMemo) (parentMemo : Option JoinedMemo)
  | memoDeleted (name : String) (joined : JoinedMemo)
  | memoCommentCreated (name : String) (related : JoinedMemo)
  | reactionUpserted (contentId : String) (joined : JoinedMemo) (parentMemo : Option JoinedMemo)
  | reactionDeleted (contentId : String) (joined parentMemo : Option JoinedMemo)

def Broadcast.event : Broadcast -> SSEEvent
  | .memoCreated memo => {
      type := .memoCreated
      name := buildMemoName memo.uid
      visibility := memo.visibility.string
      creatorId := resolveSSECreatorID (some memo) none }
  | .memoUpdated joined parentMemo => {
      type := .memoUpdated
      name := buildMemoName joined.memo.uid
      parent := parentName joined
      visibility := joined.memo.visibility.string
      creatorId := resolveSSECreatorID (some joined.memo) (parentMemo.map JoinedMemo.memo) }
  | .memoDeleted name joined => {
      type := .memoDeleted
      name := name
      visibility := joined.memo.visibility.string
      creatorId := resolveSSECreatorID (some joined.memo) none }
  | .memoCommentCreated name related => {
      type := .memoCommentCreated
      name := name
      visibility := related.memo.visibility.string
      creatorId := related.memo.creatorId }
  | .reactionUpserted contentId joined parentMemo =>
      buildMemoReactionSSEEvent .reactionUpserted contentId (some joined) parentMemo
  | .reactionDeleted contentId joined parentMemo =>
      buildMemoReactionSSEEvent .reactionDeleted contentId joined parentMemo

/-- The memo that the event is about, as the handler has read it. -/
def Broadcast.snapshot : Broadcast -> Option JoinedMemo
  | .memoCreated memo => some ⟨memo, none, none⟩
  | .memoUpdated joined _ => some joined
  | .memoDeleted _ joined => some joined
  | .memoCommentCreated _ related => some related
  | .reactionUpserted _ joined _ => some joined
  | .reactionDeleted _ joined _ => joined

/-- The parent by which the event goes, as the handler has read it. -/
def Broadcast.parentSnapshot : Broadcast -> Option JoinedMemo
  | .memoUpdated _ parentMemo => parentMemo
  | .reactionUpserted _ _ parentMemo => parentMemo
  | .reactionDeleted _ _ parentMemo => parentMemo
  | _ => none

/-- The memo that the event is about, as it is stored, or as it was last read
if it is deleted. -/
def Broadcast.subject (db : Database) (broadcast : Broadcast) : Option JoinedMemo :=
  broadcast.snapshot.map fun joined => (memoById db joined.memo.id).getD joined

/-! ## The handlers step by step -/

/-- What a client was sent, with the state at that time.  This record is not in
the source. -/
structure Delivery where
  db : Database
  broadcast : Broadcast
  client : SSEClient

structure EventState where
  db : Database
  hub : SSEHub := {}
  deliveries : List Delivery := []

/-- The kinds of replies of the calls that a handler makes. -/
inductive Kind where
  | unit
  | uid
  | user
  | memo
  | joined
  | optionalJoined
  | updating
  | reaction
  | ids

@[reducible] def Kind.type : Kind -> Type
  | .unit => Unit
  | .uid => String
  | .user => User
  | .memo => Memo
  | .joined => JoinedMemo
  | .optionalJoined => Option JoinedMemo
  | .updating => Updating
  | .reaction => Reaction
  | .ids => List Nat

inductive EventOperation where
  | call (kind : Kind) (request : Request kind.type)
  | broadcast (broadcast : Broadcast)

def EventReply : EventOperation -> Type
  | .call kind _ => Except Status kind.type
  | .broadcast _ => Unit

/-- A client whose channel takes the event. -/
def receives (event : SSEEvent) (client : SSEClient) : Bool :=
  client.canReceive event && client.events.buffer.length < sseBufferSize

/-- The clients that an event reaches. -/
def reached (state : EventState) (broadcast : Broadcast) : List Delivery :=
  ((state.hub.clients.map state.hub.heap).filter (receives broadcast.event)).map
    fun client => ⟨state.db, broadcast, client⟩

def EventEffect : Pool.Effect EventState EventOperation EventReply
  | before, .call _ request, reply, after => Exists fun plans =>
      reply = (request ⟨before.db, plans⟩).1 ∧
        after = { before with db := (request ⟨before.db, plans⟩).2.state }
  | before, .broadcast broadcast, _, after => Exists fun hub =>
      before.hub.broadcast broadcast.event = .ok hub ∧
        after = { before with hub := hub, deliveries := before.deliveries ++ reached before broadcast }

abbrev EventHandler (α : Type) : Type := ExceptT Status (Program EventOperation EventReply) α

/-- Calls of the store, which no other handler interrupts. -/
def request (kind : Kind) (body : Request kind.type) : EventHandler kind.type :=
  ExceptT.mk (.perform (.call kind body) .done)

def announce (broadcast : Broadcast) : EventHandler Unit :=
  ExceptT.mk (.perform (.broadcast broadcast) fun _ => .done (.ok ()))

def ofExcept {α : Type} (value : Except Status α) : EventHandler α := ExceptT.mk (.done value)

/-- `GetMemo`, whose error the handler drops. -/
def parentOf (joined : JoinedMemo) : EventHandler (Option JoinedMemo) :=
  match joined.parentUid with
  | none => pure none
  | some uid => ExceptT.mk (.perform
      (.call .optionalJoined (read (fun db => memoByUid db uid) (internal "")))
      fun reply => .done (.ok (match reply with
        | .ok parent => parent
        | .error _ => none)))

section Handlers

variable (backend : Backend) (userId : Nat)

/-- The part of `CreateMemo` that ends with the row of the memo. -/
def insertMemo (user : User) (memoId : String) (input : MemoInput) : Request Memo := do
  let uid ← lift (validateAndGenerateUID backend memoId) id
  let limit ← lift backend.contentLengthLimit fun _ =>
    ⟨.internal, "failed to get content length limit"⟩
  require (input.content.utf8ByteSize ≤ limit)
    ⟨.invalidArgument, "content too long (max " ++ toString limit ++ " characters)"⟩
  let payload ← lift (backend.rebuildMemoPayload input.content)
    (internal "failed to rebuild memo payload: ")
  call (Store.createMemo backend.now
      { uid := uid, creatorId := user.id, content := input.content
        visibility := input.visibility, payload := payload
        createdTs := input.createTime.getD 0, updatedTs := input.updateTime.getD 0 })
    (createMemoStatus uid)

/-- `CreateMemo`, which is silent within `CreateMemoComment`. -/
def createMemo (suppressSSE : Bool) (memoId : String) (input : MemoInput) : EventHandler Memo := do
  let user ← request .user (authenticated userId "failed to get user")
  let memo ← request .memo (insertMemo backend user memoId input)
  request .unit (setGivenAttachments backend user memo input.attachments)
  request .unit (setGivenRelations memo input.relations)
  request .unit (respond backend memo "failed to convert memo")
  if suppressSSE then return memo
  else
    announce (.memoCreated memo)
    return memo

/-- The paths of the mask, one after the other. -/
def updateEach (user : User) (parentUid : Option String) (input : MemoInput) :
    List String -> Updating -> EventHandler Updating
  | [], state => pure state
  | path :: paths, state => do
      let next ← request .updating (updatePath backend backend.moment user parentUid input state path)
      updateEach user parentUid input paths next

/-- `GetMemo` by id, after an update. -/
def memoOfId (id : Nat) : Request JoinedMemo := do
  let joined ← read (fun db => memoById db id) (internal "failed to get memo: ")
  found joined ⟨.unknown, "failed to build updated memo state: memo not found"⟩

/-- `buildUpdatedMemoState` and `dispatchMemoUpdatedSideEffects` -/
def announceUpdate (id : Nat) : EventHandler Unit := do
  let updated ← request .joined (memoOfId id)
  request .unit (respond backend updated.memo "failed to build updated memo state")
  let parentMemo ← parentOf updated
  announce (.memoUpdated updated parentMemo)

def updateMemo (name : String) (mask : List String) (input : MemoInput) : EventHandler Unit := do
  let uid ← request .uid (memoUidOf name)
  request .unit (require (mask ≠ []) ⟨.invalidArgument, "update mask is required"⟩)
  let joined ← request .joined
    (memoOfUid uid (internal "failed to get memo: ") ⟨.notFound, "memo not found"⟩)
  let user ← request .user (authenticated userId "failed to get current user")
  request .unit (require (canModifyMemo user joined.memo) permissionDenied)
  let state ← updateEach backend user joined.parentUid input mask
    { update := { id := joined.memo.id }, memo := joined.memo }
  request .unit (call (Store.updateMemo state.update) (internal "failed to update memo"))
  let updated ← request .joined (memoOfId joined.memo.id)
  announceUpdate backend updated.memo.id

def setMemoAttachments (name : String) (attachments : List String) : EventHandler Unit := do
  let user ← request .user (authenticated userId "failed to get current user: ")
  let joined ← request .joined (memoByName name)
  request .unit (require (canModifyMemo user joined.memo) permissionDenied)
  request .unit (setMemoAttachmentsInternal backend user joined.memo attachments)
  request .unit (touchMemoUpdatedTimestamp backend joined.memo.id)
  announceUpdate backend joined.memo.id

def setMemoRelations (name : String) (relations : List RelationInput) : EventHandler Unit := do
  let user ← request .user (authenticated userId "failed to get current user: ")
  let joined ← request .joined (memoByName name)
  request .unit (require (canModifyMemo user joined.memo) permissionDenied)
  request .unit (setMemoRelationsInternal joined.memo relations)
  request .unit (touchMemoUpdatedTimestamp backend joined.memo.id)
  announceUpdate backend joined.memo.id

/-- The store deletes the memos one by one. -/
def deleteEach (context : String) : List Nat -> EventHandler Unit
  | [] => pure ()
  | id :: ids => do
      request .unit (call (Store.deleteMemo backend.storageFault id) (internal context))
      deleteEach context ids

def deleteMemo (name : String) : EventHandler Unit := do
  let joined ← request .joined (memoByName name fun cause => ⟨.unknown, cause⟩)
  let user ← request .user (authenticated userId "failed to get current user")
  request .unit (require (canModifyMemo user joined.memo) permissionDenied)
  let comments ← request .ids do
    let _ ← read (fun db => listReactions db name) (internal "failed to list reactions")
    let _ ← read (fun db => listAttachments db joined.memo.id)
      (internal "failed to list attachments")
    read (fun db => commentIds db joined.memo.id) (internal "failed to list memo comments")
  deleteEach backend "failed to delete memo comment" comments
  deleteEach backend "failed to delete memo" [joined.memo.id]
  announce (.memoDeleted name joined)

/-- What `CreateMemoComment` does once the comment is there. -/
def relateComment (created : Memo) (related : JoinedMemo) : Request Unit := do
  let joined ← read (fun db => memoByUid db created.uid) (internal "failed to get memo")
  let memo ← found joined ⟨.internal, "nil memo"⟩
  call (upsertMemoRelation ⟨memo.memo.id, related.memo.id, .comment⟩)
    (internal "failed to create memo relation")
  let owner ← read (fun db => userById db created.creatorId) fun _ =>
    ⟨.invalidArgument, "invalid memo creator"⟩
  let creator ← found owner ⟨.notFound, "memo creator not found"⟩
  notifyCommented backend memo.memo related.memo creator

def createMemoComment (name commentId : String) (input : Option MemoInput) : EventHandler Memo := do
  let related ← request .joined (memoByName name)
  let user ← request .user (authenticated userId "failed to get user")
  request .unit (require
    (¬ (related.memo.visibility = .isPrivate ∧ refusedUnlessSuperUser related.memo user))
    permissionDenied)
  match input with
  | none => ofExcept (.error ⟨.invalidArgument, "comment is required"⟩)
  | some comment =>
      let created ← ExceptT.adapt (fun _ => ⟨.internal, "failed to create memo"⟩)
        (createMemo backend userId true commentId { comment with visibility := related.memo.visibility })
      request .unit (relateComment backend created related)
      announce (.memoCommentCreated name related)
      return created

def upsertMemoReaction (contentId reactionType : String) : EventHandler Unit := do
  let user ← request .user (authenticated userId "failed to get current user")
  let joined ← request .joined (memoByName contentId (internal "failed to get memo: "))
  request .unit (require
    (¬ (joined.memo.visibility = .isPrivate ∧ refusedUnlessSuperUser joined.memo user))
    permissionDenied)
  let _ ← request .reaction (call (createReaction user.id contentId reactionType)
    (internal "failed to upsert reaction"))
  request .unit (respond backend joined.memo "failed to convert reaction")
  let parentMemo ← parentOf joined
  announce (.reactionUpserted contentId joined parentMemo)

/-- The reaction that a name refers to, which the caller may delete. -/
def ownReaction (user : User) (name : String) : Request Reaction := do
  let (_, reactionId) ← lift (extractMemoReactionIDFromName name) fun cause =>
    ⟨.invalidArgument, "invalid reaction name: " ++ cause⟩
  let row ← read (fun db => db.reactions.find? fun reaction => (reaction.id : Int) = reactionId)
    (internal "failed to get reaction")
  let reaction ← found row permissionDenied
  require (reaction.creatorId = user.id ∨ isSuperUser user) permissionDenied
  return reaction

/-- The memo of a reaction, if it still exists. -/
def memoOfContent (contentId : String) : Request (Option JoinedMemo) := do
  let uid ← lift (extractMemoUIDFromName contentId) fun cause =>
    ⟨.invalidArgument, "invalid memo name: " ++ cause⟩
  read (fun db => memoByUid db uid) (internal "failed to get memo")

def deleteMemoReaction (name : String) : EventHandler Unit := do
  let user ← request .user (authenticated userId "failed to get current user: ")
  let reaction ← request .reaction (ownReaction user name)
  request .unit (call (deleteReaction reaction.id) (internal "failed to delete reaction"))
  let joined ← request .optionalJoined (memoOfContent reaction.contentId)
  let parentMemo ← (joined.map parentOf).getD (pure none)
  announce (.reactionDeleted reaction.contentId joined parentMemo)

end Handlers

/-- The requests that are announced. -/
inductive BroadcastCall where
  | createMemo (memoId : String) (input : MemoInput)
  | updateMemo (name : String) (mask : List String) (input : MemoInput)
  | setMemoAttachments (name : String) (attachments : List String)
  | setMemoRelations (name : String) (relations : List RelationInput)
  | deleteMemo (name : String)
  | createMemoComment (name commentId : String) (input : Option MemoInput)
  | upsertMemoReaction (contentId reactionType : String)
  | deleteMemoReaction (name : String)

/-- Only what a handler does matters here. -/
def ending {α : Type} (handler : EventHandler α) : Program EventOperation EventReply Unit :=
  handler.run >>= fun _ => pure ()

def BroadcastCall.program (backend : Backend) (userId : Nat) :
    BroadcastCall -> Program EventOperation EventReply Unit
  | .createMemo memoId input => ending (Broadcasts.createMemo backend userId false memoId input)
  | .updateMemo name mask input => ending (Broadcasts.updateMemo backend userId name mask input)
  | .setMemoAttachments name attachments =>
      ending (Broadcasts.setMemoAttachments backend userId name attachments)
  | .setMemoRelations name relations =>
      ending (Broadcasts.setMemoRelations backend userId name relations)
  | .deleteMemo name => ending (Broadcasts.deleteMemo backend userId name)
  | .createMemoComment name commentId input =>
      ending (Broadcasts.createMemoComment backend userId name commentId input)
  | .upsertMemoReaction contentId reactionType =>
      ending (Broadcasts.upsertMemoReaction backend userId contentId reactionType)
  | .deleteMemoReaction name => ending (Broadcasts.deleteMemoReaction userId name)

/-! ## Runs -/

variable {ι : Type} [DecidableEq ι]

abbrev EventPool (ι : Type) : Type := Pool EventState ι EventOperation EventReply Unit

/-- A request with its backend and its caller. -/
structure Caller where
  backend : Backend
  userId : Nat
  call : BroadcastCall

/-- Any number of requests, none of which has started. -/
def start (db : Database) (hub : SSEHub) (callers : ι -> Caller) : EventPool ι where
  shared := { db := db, hub := hub }
  programs := fun index => (callers index).call.program (callers index).backend (callers index).userId

/-- What else happens: clients come, read and go, and the database changes in
any way. -/
def Elsewhere (before after : EventState) : Prop :=
  (Exists fun db => after = { before with db := db }) ∨
  Exists fun action => (forall event, action ≠ .broadcast event) ∧ Exists fun hub =>
    before.hub.step action = .ok hub ∧ after = { before with hub := hub }

/-- Every broadcast meets a condition. -/
def Conditioned (condition : EventState -> Broadcast -> Prop) (pool : EventPool ι) (_ : ι) :
    (operation : EventOperation) -> EventReply operation -> EventState -> Prop
  | .call _ _, _, _ => True
  | .broadcast broadcast, _, _ => condition pool.shared broadcast

def Reaches (condition : EventState -> Broadcast -> Prop) : EventPool ι -> EventPool ι -> Prop :=
  Pool.Run EventEffect Elsewhere (Conditioned condition)

def AnyTime (_ : EventState) (_ : Broadcast) : Prop := True

/-! ## Who may hear of a memo -/

/-- The user may read the memo and, if it is a comment, its parent. -/
def MayRead (db : Database) (userId : Nat) (joined : JoinedMemo) : Prop :=
  checkMemoReadAccess db userId joined.memo = .ok () ∧
    forall uid, joined.parentUid = some uid -> Exists fun parentMemo =>
      memoByUid db uid = some parentMemo ∧
        checkMemoReadAccess db userId parentMemo.memo = .ok ()

def IsAdmin (db : Database) (userId : Nat) : Prop :=
  Exists fun user => userById db userId = some user ∧ user.role = .admin

def IsCreator (subject : Option JoinedMemo) (userId : Nat) : Prop :=
  Exists fun joined => subject = some joined ∧ joined.memo.creatorId = userId

/-- The claim of an event on its receiver. -/
def MayHear (db : Database) (broadcast : Broadcast) (userId : Nat) : Prop :=
  IsAdmin db userId ∨ IsCreator (broadcast.subject db) userId ∨
    Exists fun joined => broadcast.subject db = some joined ∧ MayRead db userId joined

/-! ## When only readers hear of it -/

variable {db : Database} {userId : Nat} {broadcast : Broadcast} {snapshot joined : JoinedMemo}
  {client : SSEClient}

/-- The account is there and not archived. -/
def HasAccount (db : Database) (userId : Nat) : Prop :=
  Exists fun user => fetchCurrentUser db userId = .ok (some user)

/-- The rows hide the memo neither by its status nor by its visibility. -/
structure Open (db : Database) (userId : Nat) (memo : Memo) : Prop where
  normal : memo.rowStatus = .archived -> memo.creatorId = userId
  notPrivate : memo.visibility = .isPrivate -> memo.creatorId = userId
  account : memo.visibility ≠ .isPublic ∨ memo.rowStatus = .archived -> HasAccount db userId

theorem fetchCurrentUser_id {user : User} (found : fetchCurrentUser db userId = .ok (some user)) :
    user.id = userId := by
  unfold fetchCurrentUser at found
  split at found
  · cases found
  · split at found
    · cases found
    · rename_i row known
      split at found
      · cases found
      · cases found
        exact by simpa using List.find?_some known

theorem ownedBy_iff {memo : Memo} :
    OwnedBy db userId memo ↔ HasAccount db userId ∧ memo.creatorId = userId := by
  constructor
  · rintro ⟨user, found, creator⟩
    exact ⟨⟨user, found⟩, creator.trans (fetchCurrentUser_id found)⟩
  · rintro ⟨⟨user, found⟩, creator⟩
    exact ⟨user, found, creator.trans (fetchCurrentUser_id found).symm⟩

theorem open_iff {memo : Memo} :
    checkMemoReadAccess db userId memo = .ok () ↔ Open db userId memo := by
  rw [checkMemoReadAccess_eq_ok, ownedBy_iff]
  constructor
  · rintro ⟨archived, isPublic | ⟨user, found, ownPrivate⟩⟩
    · refine ⟨fun status => (archived status).2, fun isPrivate => ?_, ?_⟩
      · rw [isPublic] at isPrivate
        cases isPrivate
      · rintro (notPublic | status)
        · exact absurd isPublic notPublic
        · exact (archived status).1
    · exact ⟨fun status => (archived status).2,
        fun isPrivate => (ownPrivate isPrivate).trans (fetchCurrentUser_id found),
        fun _ => ⟨user, found⟩⟩
  · rintro ⟨normal, notPrivate, account⟩
    refine ⟨fun status => ⟨account (.inr status), normal status⟩, ?_⟩
    by_cases isPublic : memo.visibility = .isPublic
    · exact .inl isPublic
    · rcases account (.inl isPublic) with ⟨user, found⟩
      exact .inr ⟨user, found, fun isPrivate =>
        (notPrivate isPrivate).trans (fetchCurrentUser_id found).symm⟩

/-- What must be the case for a client that is neither an administrator nor the
creator of the memo: `snapshot` and `parentSnapshot` are what the handler has
read, `joined` is stored. -/
structure Discreet (db : Database) (parentSnapshot : Option JoinedMemo)
    (snapshot joined : JoinedMemo) (client : SSEClient) : Prop where
  creator : snapshot.memo.creatorId = joined.memo.creatorId
  /-- Nobody has made the memo private since the handler read it. -/
  narrowed : joined.memo.visibility = .isPrivate -> snapshot.memo.visibility = .isPrivate
  /-- The client has not subscribed as an administrator who it no longer is. -/
  demoted : snapshot.memo.visibility = .isPrivate -> client.role ≠ .admin
  /-- The client's memo has no private comment of somebody else. -/
  comment : snapshot.memo.visibility = .isPrivate -> forall parentMemo,
    parentSnapshot = some parentMemo -> parentMemo.memo.creatorId ≠ client.userId
  archived : snapshot.memo.visibility ≠ .isPrivate -> joined.memo.rowStatus ≠ .archived
  account : snapshot.memo.visibility ≠ .isPrivate -> joined.memo.visibility ≠ .isPublic ->
    HasAccount db client.userId
  parent : snapshot.memo.visibility ≠ .isPrivate -> forall uid, joined.parentUid = some uid ->
    Exists fun parentMemo => memoByUid db uid = some parentMemo ∧
      Open db client.userId parentMemo.memo

/-- Every handler fills the event from what it has read. -/
theorem event_eq (read : broadcast.snapshot = some snapshot) :
    broadcast.event.visibility = snapshot.memo.visibility.string ∧
      broadcast.event.creatorId = (broadcast.parentSnapshot.getD snapshot).memo.creatorId := by
  cases broadcast with
  | memoCreated memo => cases read; exact ⟨rfl, rfl⟩
  | memoUpdated memo parentMemo =>
      cases read
      cases parentMemo <;> exact ⟨rfl, rfl⟩
  | memoDeleted name memo => cases read; exact ⟨rfl, rfl⟩
  | memoCommentCreated name related => cases read; exact ⟨rfl, rfl⟩
  | reactionUpserted contentId memo parentMemo =>
      cases read
      cases parentMemo <;> exact ⟨rfl, rfl⟩
  | reactionDeleted contentId memo parentMemo =>
      cases read
      cases parentMemo <;> exact ⟨rfl, rfl⟩

theorem canReceive_iff (read : broadcast.snapshot = some snapshot) :
    client.canReceive broadcast.event = true ↔
      (snapshot.memo.visibility = .isPrivate ->
        client.userId = (broadcast.parentSnapshot.getD snapshot).memo.creatorId ∨
          client.role = .admin) := by
  rcases event_eq read with ⟨visibility, creator⟩
  unfold SSEClient.canReceive
  rw [visibility, creator]
  cases seen : snapshot.memo.visibility with
  | isPublic => simp [Visibility.string]
  | isProtected => simp [Visibility.string]
  | isPrivate => simp [Visibility.string]

/-- A client that is neither an administrator nor the creator. -/
structure Bystander (db : Database) (broadcast : Broadcast) (userId : Nat) : Prop where
  notAdmin : ¬ IsAdmin db userId
  notCreator : ¬ IsCreator (broadcast.subject db) userId

theorem Bystander.mayHear_iff (bystander : Bystander db broadcast userId)
    (subject : broadcast.subject db = some joined) :
    MayHear db broadcast userId ↔ MayRead db userId joined := by
  constructor
  · rintro (admin | creator | ⟨other, same, reads⟩)
    · exact absurd admin bystander.notAdmin
    · exact absurd creator bystander.notCreator
    · rw [subject] at same
      cases same
      exact reads
  · intro reads
    exact .inr (.inr ⟨joined, subject, reads⟩)

section Conditions

variable (read : broadcast.snapshot = some snapshot) (subject : broadcast.subject db = some joined)
  (bystander : Bystander db broadcast client.userId)

include read subject bystander

theorem Discreet.mayHear (discreet : Discreet db broadcast.parentSnapshot snapshot joined client)
    (received : client.canReceive broadcast.event = true) : MayHear db broadcast client.userId := by
  have other : joined.memo.creatorId ≠ client.userId :=
    fun same => bystander.notCreator ⟨joined, subject, same⟩
  have addressed := (canReceive_iff read).mp received
  by_cases isPrivate : snapshot.memo.visibility = .isPrivate
  · exfalso
    rcases addressed isPrivate with addressee | admin
    · cases parentRead : broadcast.parentSnapshot with
      | none =>
          rw [parentRead] at addressee
          exact other (discreet.creator.symm.trans addressee.symm)
      | some parentMemo =>
          rw [parentRead] at addressee
          exact discreet.comment isPrivate parentMemo parentRead addressee.symm
    · exact discreet.demoted isPrivate admin
  · have normal := discreet.archived isPrivate
    refine (bystander.mayHear_iff subject).mpr ⟨open_iff.mpr ⟨fun archived => absurd archived normal,
      fun hidden => absurd (discreet.narrowed hidden) isPrivate, ?_⟩, ?_⟩
    · rintro (notPublic | archived)
      · exact discreet.account isPrivate notPublic
      · exact absurd archived normal
    · intro uid isParent
      rcases discreet.parent isPrivate uid isParent with ⟨parentMemo, stored, isOpen⟩
      exact ⟨parentMemo, stored, open_iff.mpr isOpen⟩

/-- The conditions are necessary, unless the memo was private when the handler
read it and is not any longer. -/
theorem discreet_iff (creator : snapshot.memo.creatorId = joined.memo.creatorId)
    (widened : snapshot.memo.visibility = .isPrivate -> joined.memo.visibility = .isPrivate) :
    Discreet db broadcast.parentSnapshot snapshot joined client ↔
      (client.canReceive broadcast.event = true -> MayHear db broadcast client.userId) := by
  refine ⟨Discreet.mayHear read subject bystander, fun hears => ?_⟩
  have other : joined.memo.creatorId ≠ client.userId :=
    fun same => bystander.notCreator ⟨joined, subject, same⟩
  rw [bystander.mayHear_iff subject, canReceive_iff read] at hears
  by_cases isPrivate : snapshot.memo.visibility = .isPrivate
  · have silent : ¬ (client.userId = (broadcast.parentSnapshot.getD snapshot).memo.creatorId ∨
        client.role = .admin) := by
      intro addressed
      have reads := hears fun _ => addressed
      exact other ((open_iff.mp reads.1).notPrivate (widened isPrivate))
    refine ⟨creator, fun _ => isPrivate, fun _ admin => silent (.inr admin), ?_,
      absurd isPrivate, absurd isPrivate, absurd isPrivate⟩
    intro _ parentMemo parentRead same
    refine silent (.inl ?_)
    rw [parentRead]
    exact same.symm
  · have reads := hears fun impossible => absurd impossible isPrivate
    have isOpen := open_iff.mp reads.1
    refine ⟨creator, fun hidden => absurd (isOpen.notPrivate hidden) other,
      fun impossible => absurd impossible isPrivate, fun impossible => absurd impossible isPrivate,
      fun _ archived => other (isOpen.normal archived),
      fun _ notPublic => isOpen.account (.inl notPublic), fun _ uid isParent => ?_⟩
    rcases reads.2 uid isParent with ⟨parentMemo, stored, readable⟩
    exact ⟨parentMemo, stored, open_iff.mp readable⟩

end Conditions

/-- A public memo that is neither archived nor a comment is announced to
everybody. -/
theorem discreet_public (creator : snapshot.memo.creatorId = joined.memo.creatorId)
    (seen : snapshot.memo.visibility = .isPublic) (isPublic : joined.memo.visibility = .isPublic)
    (normal : joined.memo.rowStatus = .normal) (topLevel : joined.parentUid = none)
    (parentSnapshot : Option JoinedMemo) : Discreet db parentSnapshot snapshot joined client where
  creator := creator
  narrowed := fun hidden => by rw [isPublic] at hidden; cases hidden
  demoted := fun hidden => by rw [seen] at hidden; cases hidden
  comment := fun hidden => by rw [seen] at hidden; cases hidden
  archived := fun _ archived => by rw [normal] at archived; cases archived
  account := fun _ notPublic => absurd isPublic notPublic
  parent := fun _ uid isParent => by rw [topLevel] at isParent; cases isParent

/-- The broadcast is discreet towards every subscribed bystander. -/
def DiscreetAt (state : EventState) (broadcast : Broadcast) : Prop :=
  forall address, address ∈ state.hub.clients ->
    Bystander state.db broadcast (state.hub.heap address).userId ->
    Exists fun snapshot => Exists fun joined => broadcast.snapshot = some snapshot ∧
      broadcast.subject state.db = some joined ∧
      Discreet state.db broadcast.parentSnapshot snapshot joined (state.hub.heap address)

/-- Whoever was sent an event may hear of it. -/
def SentToReaders (state : EventState) : Prop :=
  forall delivery, delivery ∈ state.deliveries ->
    MayHear delivery.db delivery.broadcast delivery.client.userId

theorem reached_mayHear {state : EventState} (discreet : DiscreetAt state broadcast)
    {delivery : Delivery} (member : delivery ∈ reached state broadcast) :
    MayHear delivery.db delivery.broadcast delivery.client.userId := by
  rcases List.mem_map.mp member with ⟨client, receiver, rfl⟩
  rcases List.mem_filter.mp receiver with ⟨subscribed, received⟩
  rcases List.mem_map.mp subscribed with ⟨address, registered, rfl⟩
  have canReceive := (Bool.and_eq_true_iff.mp received).1
  by_cases bystander : Bystander state.db broadcast (state.hub.heap address).userId
  · rcases discreet address registered bystander with ⟨snapshot, joined, read, subject, meets⟩
    exact meets.mayHear read subject bystander canReceive
  · by_cases admin : IsAdmin state.db (state.hub.heap address).userId
    · exact .inl admin
    · refine .inr (.inl ?_)
      by_contra notCreator
      exact bystander ⟨admin, notCreator⟩

theorem sentToReaders_step {before after : EventPool ι} (sent : SentToReaders before.shared)
    (step : Pool.Step EventEffect Elsewhere (Conditioned DiscreetAt) before after) :
    SentToReaders after.shared := by
  cases step with
  | @operation index operation next reply changed current effective allowed =>
      cases operation with
      | call kind body =>
          rcases effective with ⟨plans, -, rfl⟩
          exact sent
      | broadcast announced =>
          rcases effective with ⟨hub, -, rfl⟩
          intro delivery member
          rcases List.mem_append.mp member with earlier | new
          · exact sent delivery earlier
          · exact reached_mayHear allowed new
  | background change =>
      rcases change with ⟨db, same⟩ | ⟨action, -, hub, -, same⟩
      · rw [same]
        exact sent
      · rw [same]
        exact sent

/-- In every run of the handlers whose broadcasts are discreet, the events are
sent only to those who may hear of the memo at that time. -/
theorem events_reach_readers (db : Database) (hub : SSEHub) (callers : ι -> Caller)
    (last : EventPool ι) (run : Reaches DiscreetAt (start db hub callers) last) :
    SentToReaders last.shared := by
  have silent : SentToReaders (start db hub callers).shared :=
    fun _ impossible => absurd impossible List.not_mem_nil
  have holds : (fun pool : EventPool ι => SentToReaders pool.shared) last :=
    Pool.Run.induction run silent fun _ _ => sentToReaders_step
  exact holds

/-! ### A request alone -/

/-- The reply to an operation, and the state after it, when nothing fails. -/
def answer (state : EventState) : (operation : EventOperation) ->
    EventReply operation × EventState
  | .call _ body =>
      ((body ⟨state.db, []⟩).1, { state with db := (body ⟨state.db, []⟩).2.state })
  | .broadcast broadcast =>
      ((), { state with
        hub := (state.hub.broadcast broadcast.event).toOption.getD state.hub
        deliveries := state.deliveries ++ reached state broadcast })

/-- The state after a program that runs alone. -/
def alone : Program EventOperation EventReply Unit -> EventState -> EventState
  | .done _, state => state
  | .perform operation next, state => alone (next (answer state operation).1) (answer state operation).2

/-- The broadcasts of a program that runs alone. -/
def announced : Program EventOperation EventReply Unit -> EventState -> List (EventState × Broadcast)
  | .done _, _ => []
  | .perform operation next, state =>
      (match operation with
        | .call _ _ => []
        | .broadcast broadcast => [(state, broadcast)]) ++
      announced (next (answer state operation).1) (answer state operation).2

theorem effect_answer {state : EventState} (valid : state.hub.Valid) (operation : EventOperation) :
    EventEffect state operation (answer state operation).1 (answer state operation).2 ∧
      (answer state operation).2.hub.Valid := by
  cases operation with
  | call kind body => exact ⟨⟨[], rfl, rfl⟩, valid⟩
  | broadcast announced =>
      rcases SSEHub.broadcast_outcome valid announced.event with ⟨hub, sent, outcome⟩
      have same : (state.hub.broadcast announced.event).toOption.getD state.hub = hub := by
        rw [sent]
        rfl
      refine ⟨⟨hub, sent, ?_⟩, ?_⟩
      · simp only [answer, same]
      · simp only [answer, same]
        exact outcome.valid

/-- A pool of one program gets to where the program gets alone. -/
theorem reaches_alone {condition : EventState -> Broadcast -> Prop} {start pool : EventPool Unit}
    (reached : Reaches condition start pool) (valid : pool.shared.hub.Valid)
    (meets : forall entry, entry ∈ announced (pool.programs ()) pool.shared ->
      condition entry.1 entry.2) :
    Exists fun last => Reaches condition start last ∧
      last.shared = alone (pool.programs ()) pool.shared := by
  rcases pool with ⟨state, programs⟩
  have program : Exists fun program => programs () = program := ⟨_, rfl⟩
  rcases program with ⟨program, current⟩
  dsimp only at valid meets ⊢
  rw [current] at meets ⊢
  induction program generalizing state programs with
  | done result => exact ⟨_, reached, rfl⟩
  | perform operation next ih =>
      have effective := effect_answer valid operation
      refine ih _ _ (Function.update programs () (next (answer state operation).1))
        (reached.operation () current _ _ effective.1 ?_) effective.2 ?_ ?_
      · cases operation with
        | call kind body => trivial
        | broadcast announced => exact meets (state, announced) List.mem_cons_self
      · intro entry member
        exact meets entry (List.mem_append_right _ member)
      · exact Function.update_self _ _ _

/-! ### An archived memo -/

/-- Two users, the first of whom has archived a public memo. -/
def archivedNote : Database := runFrom {} [
  .changeAccounts [⟨1, .normal, "ada", .user⟩, ⟨2, .normal, "bob", .user⟩] [] [],
  .createMemo "note" { content := "", visibility := .isPublic },
  .updateMemo "memos/note" ["state"] { content := "", visibility := .isPublic, state := .archived }]

/-- The second user listens. -/
def listening : SSEHub where
  clients := [0]
  allocated := 1
  heap := Function.update (fun _ => { userId := 0, role := .user }) 0 { userId := 2, role := .user }

theorem listening_valid : listening.Valid := by
  rcases SSEHub.subscribe_outcome SSEHub.valid_empty 2 .user with ⟨hub, subscribed, outcome, _⟩
  cases (subscribed : Except.ok listening = .ok hub)
  exact outcome.valid

def pinNote (_ : Unit) : Caller where
  backend := quietBackend
  userId := 1
  call := .updateMemo "memos/note" ["pinned"] { content := "", visibility := .isPublic, pinned := true }

/-- The facts that make a delivery a leak. -/
def leaks (delivery : Delivery) : Bool :=
  (userById delivery.db delivery.client.userId).all (fun user => user.role ≠ .admin) &&
    (delivery.broadcast.subject delivery.db).all fun joined =>
      joined.memo.creatorId ≠ delivery.client.userId &&
        !(checkMemoReadAccess delivery.db delivery.client.userId joined.memo).toBool

theorem not_mayHear_of_leaks {delivery : Delivery} (leak : leaks delivery = true) :
    ¬ MayHear delivery.db delivery.broadcast delivery.client.userId := by
  rcases Bool.and_eq_true_iff.mp leak with ⟨noAdmin, unreadable⟩
  rintro (⟨user, found, admin⟩ | ⟨joined, subject, creator⟩ | ⟨joined, subject, readable, _⟩)
  · rw [found] at noAdmin
    exact of_decide_eq_true noAdmin admin
  · rw [subject] at unreadable
    exact of_decide_eq_true (Bool.and_eq_true_iff.mp unreadable).1 creator
  · rw [subject] at unreadable
    have refused := (Bool.and_eq_true_iff.mp unreadable).2
    rw [readable] at refused
    cases refused

theorem archived_announced : ¬ forall (db : Database) (hub : SSEHub) (callers : Unit -> Caller)
    (last : EventPool Unit), Reaches AnyTime (start db hub callers) last ->
      SentToReaders last.shared := by
  intro claim
  have begun : Reaches AnyTime (start archivedNote listening pinNote)
      (start archivedNote listening pinNote) := .refl
  rcases reaches_alone begun listening_valid fun _ _ => trivial with ⟨last, reached, same⟩
  have sent := claim archivedNote listening pinNote last reached
  rw [same] at sent
  have leaked : ((alone ((start archivedNote listening pinNote).programs ())
      (start archivedNote listening pinNote).shared).deliveries.any leaks) = true := by
    decide +kernel
  rcases List.any_eq_true.mp leaked with ⟨delivery, member, leak⟩
  exact not_mayHear_of_leaks leak (sent delivery member)

/-! ### A new public memo -/

def twoUsers : Database := runFrom {} [
  .changeAccounts [⟨1, .normal, "ada", .user⟩, ⟨2, .normal, "bob", .user⟩] [] []]

def createNote (_ : Unit) : Caller where
  backend := quietBackend
  userId := 1
  call := .createMemo "note" { content := "", visibility := .isPublic }

/-- The broadcast of a public memo, and that it is one. -/
def announcesPublic (entry : EventState × Broadcast) : Bool :=
  entry.2.snapshot.any fun snapshot => (entry.2.subject entry.1.db).any fun joined =>
    snapshot.memo.creatorId = joined.memo.creatorId && snapshot.memo.visibility = .isPublic &&
      joined.memo.visibility = .isPublic && joined.memo.rowStatus = .normal &&
      joined.parentUid = none

theorem discreetAt_public {entry : EventState × Broadcast} (isPublic : announcesPublic entry = true) :
    DiscreetAt entry.1 entry.2 := by
  intro address _ _
  rcases (Option.any_eq_true _ _).mp isPublic with ⟨snapshot, read, rest⟩
  rcases (Option.any_eq_true _ _).mp rest with ⟨joined, subject, facts⟩
  simp only [Bool.and_eq_true, decide_eq_true_eq] at facts
  rcases facts with ⟨⟨⟨⟨creator, seen⟩, isPublic⟩, normal⟩, topLevel⟩
  exact ⟨snapshot, joined, read, subject,
    discreet_public creator seen isPublic normal topLevel _⟩

theorem events_reach_readers_public : Exists fun last : EventPool Unit =>
    Reaches DiscreetAt (start twoUsers listening createNote) last ∧ SentToReaders last.shared ∧
      (last.shared.deliveries.map fun delivery => delivery.client.userId) = [2] := by
  have begun : Reaches DiscreetAt (start twoUsers listening createNote)
      (start twoUsers listening createNote) := .refl
  have allPublic : (announced ((start twoUsers listening createNote).programs ())
      (start twoUsers listening createNote).shared).all announcesPublic = true := by
    decide +kernel
  rcases reaches_alone begun listening_valid fun entry member =>
    discreetAt_public (List.all_eq_true.mp allPublic entry member) with ⟨last, reached, same⟩
  refine ⟨last, reached, events_reach_readers twoUsers listening createNote last reached, ?_⟩
  rw [same]
  decide +kernel

end Broadcasts
end Service
end Memos
