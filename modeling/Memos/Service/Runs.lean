import Memos.Service.Steps

namespace Memos
namespace Service

open Library Memos.Filter Store Handler

/-!
# Runs

The database starts empty and operations change it one after the other.  Any
call of an operation may fail, and what is outside of the model is chosen
anew for each operation.
-/

/-- What changes the tables: the requests, the background runners, and the
changes of accounts that touch no memo. -/
inductive Operation where
  | createMemo (memoId : String) (input : MemoInput)
  | createMemoComment (name commentId : String) (input : Option MemoInput)
  | updateMemo (name : String) (mask : List String) (input : MemoInput)
  | deleteMemo (name : String)
  | setMemoAttachments (name : String) (attachments : List String)
  | setMemoRelations (name : String) (relations : List RelationInput)
  | createAttachment (attachmentId : String) (memoName : Option String)
  | updateAttachment (name : String)
  | deleteAttachment (name : String)
  | batchDeleteAttachments (names : List String)
  | upsertMemoReaction (contentId reactionType : String)
  | deleteMemoReaction (name : String)
  | createMemoShare (parent : String) (expireTime : Option Int)
  | deleteMemoShare (memoUid shareToken : String)
  | deleteUser (username : String)
  | deleteProvisionalUser (id : Nat)
  | deleteUserNotification (inboxId : Nat)
  | rebuildMemoPayload (memoId : Nat) (payload : MemoPayload)
  | presignAttachment (attachmentId : Nat) (reference payload : String)
  | changeAccounts (users : List User) (identities : List UserIdentity)
      (settings : List UserSetting)

/-- Only the effect of a request matters here. -/
def effect {α : Type} (request : Request α) : Request Unit := do
  let _ ← request
  return ()

def perform (backend : Backend) (userId : Nat) : Operation -> Request Unit
  | .createMemo memoId input => effect (createMemo backend userId memoId input)
  | .createMemoComment name commentId input =>
      effect (createMemoComment backend userId name commentId input)
  | .updateMemo name mask input => updateMemo backend userId name mask input
  | .deleteMemo name => deleteMemo backend userId name
  | .setMemoAttachments name attachments => setMemoAttachments backend userId name attachments
  | .setMemoRelations name relations => setMemoRelations backend userId name relations
  | .createAttachment attachmentId memoName =>
      createAttachment backend userId attachmentId memoName
  | .updateAttachment name => updateAttachment backend userId name
  | .deleteAttachment name => deleteAttachment backend userId name
  | .batchDeleteAttachments names => batchDeleteAttachments backend userId names
  | .upsertMemoReaction contentId reactionType =>
      upsertMemoReaction backend userId contentId reactionType
  | .deleteMemoReaction name => deleteMemoReaction userId name
  | .createMemoShare parent expireTime => createMemoShare backend userId parent expireTime
  | .deleteMemoShare memoUid shareToken => deleteMemoShare userId memoUid shareToken
  | .deleteUser username => deleteUser backend userId username
  | .deleteProvisionalUser id =>
      effect (call (deleteUserTransaction backend.protojson id backend.deleteUserFailpoint)
        (internal ""))
  | .deleteUserNotification inboxId =>
      call (Store.deleteInbox inboxId) (internal "failed to delete inbox: ")
  | .rebuildMemoPayload memoId payload =>
      call (Store.updateMemo { id := memoId, payload := some payload })
        (internal "failed to update memo")
  | .presignAttachment attachmentId reference payload =>
      call (Store.updateAttachment
          { id := attachmentId, reference := some reference, payload := some payload })
        (internal "Failed to update attachment")
  | .changeAccounts users identities settings =>
      call (Transaction.statement fun db =>
          if (users.map User.id).Nodup ∧ (users.map User.username).Nodup then
            .ok ((), { db with users := users, identities := identities, settings := settings })
          else .error "UNIQUE constraint failed: user")
        (internal "")

/-- One operation, permitted in the state before it. -/
def Step (permitted : Database -> Operation -> Prop) (db after : Database) : Prop :=
  Exists fun backend => Exists fun userId => Exists fun operation => Exists fun plans =>
    permitted db operation ∧ (perform backend userId operation ⟨db, plans⟩).2.state = after

def Reaches (permitted : Database -> Operation -> Prop) : Database -> Database -> Prop :=
  Relation.ReflTransGen (Step permitted)

/-! ## Operations are sequences of writes -/

variable {may : Database -> Guarded -> Prop} {permitted : Database -> Operation -> Prop}
  {backend : Backend} {userId : Nat} {db after : Database}

/-- The operation makes writes that are allowed. -/
def Operation.Writes (may : Database -> Guarded -> Prop) (db : Database) (operation : Operation) :
    Prop :=
  forall backend userId, Follows (Write may) db (fun state => state = db)
    (perform backend userId operation) (fun _ _ => True)

/-- The operations whose writes need a permission. -/
def Operation.guarded : Operation -> Bool
  | .createMemoComment _ _ _ => true
  | .updateMemo _ _ _ => true
  | .deleteMemo _ => true
  | _ => false

/-- The memos that the operation deletes one by one may be deleted. -/
def Operation.Deletes (mayDelete : Database -> Nat -> Prop) (db : Database) : Operation -> Prop
  | .deleteMemo name => forall memo, memo ∈ db.memos ->
      extractMemoUIDFromName name = .ok memo.uid ->
      forall earlier id later, deletedIds db memo.id = earlier ++ id :: later ->
        mayDelete (db.deletedMemos earlier) id
  | _ => True

theorem follows_effect {α : Type} {request : Request α} {facts : Database -> Prop}
    {known : α -> Database -> Prop} (valid : Follows (Write may) db facts request known) :
    Follows (Write may) db facts (effect request) (fun _ _ => True) :=
  follows_bind valid fun _ => follows_pure fun _ _ => trivial

/-- A request that is a sequence of writes from any facts is one from the
start. -/
theorem follows_anywhere {request : Request Unit}
    (valid : Follows (Write may) db (fun _ => True) request (fun _ _ => True)) :
    Follows (Write may) db (fun state => state = db) request (fun _ _ => True) :=
  follows_weaken valid (fun _ _ => trivial) fun _ _ _ => trivial

theorem Operation.writes_of_unguarded {operation : Operation} (liberal : Liberal may)
    (sound : db.Sound) (unguarded : operation.guarded = false) : operation.Writes may db := by
  intro backend userId
  cases operation with
  | createMemoComment name commentId input => cases unguarded
  | updateMemo name mask input => cases unguarded
  | deleteMemo name => cases unguarded
  | createMemo memoId input =>
      exact follows_anywhere (follows_effect (follows_createMemo_writes liberal sound))
  | setMemoAttachments name attachments =>
      exact follows_anywhere (follows_setMemoAttachments liberal)
  | setMemoRelations name relations =>
      exact follows_anywhere (follows_setMemoRelations liberal sound)
  | createAttachment attachmentId memoName =>
      exact follows_anywhere follows_createAttachment_request
  | updateAttachment name => exact follows_anywhere follows_updateAttachment_request
  | deleteAttachment name => exact follows_anywhere follows_deleteAttachment_request
  | batchDeleteAttachments names => exact follows_anywhere follows_batchDeleteAttachments
  | upsertMemoReaction contentId reactionType => exact follows_anywhere follows_upsertMemoReaction
  | deleteMemoReaction name => exact follows_anywhere follows_deleteMemoReaction
  | createMemoShare parent expireTime => exact follows_anywhere follows_createMemoShare_request
  | deleteMemoShare memoUid shareToken => exact follows_anywhere follows_deleteMemoShare_request
  | deleteUser username => exact follows_anywhere (follows_deleteUser_request sound)
  | deleteProvisionalUser id => exact follows_anywhere (follows_effect (follows_deleteUser sound))
  | deleteUserNotification inboxId => exact follows_anywhere follows_deleteInbox
  | rebuildMemoPayload memoId payload =>
      exact follows_updateMemo fun state _ => liberal.update state _ rfl
  | presignAttachment attachmentId reference payload => exact follows_updateAttachment rfl
  | changeAccounts users identities settings =>
      apply follows_call
      intro before value last _ _ leads
      have success := Transaction.leads_statement leads
      split at success
      · next keys =>
          cases success
          exact ⟨.inr (.others users identities settings keys.1), trivial⟩
      · cases success

/-- Where only deletions are restricted, only deletions have to be checked. -/
theorem Operation.Deletes.writes {mayDelete : Database -> Nat -> Prop} {operation : Operation}
    (deletes : operation.Deletes mayDelete db) (sound : db.Sound) :
    operation.Writes (deleting mayDelete) db := by
  intro backend userId
  have liberal : Liberal (deleting mayDelete) := liberal_deleting
  cases operation with
  | deleteMemo name =>
      exact follows_weaken (follows_deleteMemo_request deletes) (fun _ same => same)
        fun _ _ _ => trivial
  | createMemoComment name commentId input =>
      exact follows_anywhere (follows_effect
        (follows_createMemoComment liberal sound fun _ _ _ _ _ => trivial))
  | updateMemo name mask input =>
      exact follows_updateMemo_request liberal sound fun _ _ _ _ _ _ _ => trivial
  | _ => exact Operation.writes_of_unguarded liberal sound rfl backend userId

/-- An operation takes the database from write to write. -/
theorem Step.writes (step : Step permitted db after)
    (permits : forall operation, permitted db operation -> operation.Writes may db) :
    Relation.ReflTransGen (Write may) db after := by
  rcases step with ⟨backend, userId, operation, plans, allowed, rfl⟩
  exact (permits operation allowed backend userId).steps rfl rfl rfl

/-- What every write keeps is kept along a run. -/
theorem Reaches.induction {invariant : Database -> Prop} {start last : Database}
    (reaches : Reaches permitted start last)
    (permits : forall db operation, db.Sound -> invariant db -> permitted db operation ->
      operation.Writes may db)
    (kept : forall db after, db.Sound -> invariant db -> Write may db after -> invariant after)
    (sound : start.Sound) (holds : invariant start) : last.Sound ∧ invariant last := by
  induction reaches with
  | refl => exact ⟨sound, holds⟩
  | tail _ step ih =>
      rcases ih with ⟨soundBefore, holdsBefore⟩
      have writes := step.writes fun operation => permits _ operation soundBefore holdsBefore
      exact ⟨sound_of_steps soundBefore writes, kept_of_steps kept soundBefore holdsBefore writes⟩

/-! ## Running operations without faults -/

/-- A backend in which nothing fails. -/
def quietBackend : Backend where
  now := 1
  generatedUid := "memo"
  generatedShareUid := "share"
  contentLengthLimit := .ok 100
  rebuildMemoPayload := fun _ => .ok ⟨none, []⟩
  motionGroup := fun _ => ""
  storageFault := fun _ => none
  checkUpload := .ok ()
  respond := fun _ _ => .ok ()
  commentMessage := fun _ _ => ""
  protojson := ⟨fun _ => .error "no message", fun _ => .error "no payload"⟩
  deleteUserFailpoint := false

/-- The state after the operations, all of them by the first user. -/
def runFrom (start : Database) (operations : List Operation) : Database :=
  operations.foldl (fun db operation => (perform quietBackend 1 operation ⟨db, []⟩).2.state) start

theorem step_runFrom {start : Database} {operations : List Operation} {operation : Operation}
    (allowed : permitted (runFrom start operations) operation) :
    Step permitted (runFrom start operations) (runFrom start (operations ++ [operation])) := by
  refine ⟨quietBackend, 1, operation, [], allowed, ?_⟩
  unfold runFrom
  rw [List.foldl_append]
  rfl

theorem reaches_runFrom {start : Database} {operations : List Operation}
    (all : forall state operation, operation ∈ operations -> permitted state operation) :
    Reaches permitted start (runFrom start operations) := by
  induction operations generalizing start with
  | nil => exact .refl
  | cons operation rest ih =>
      have step : Step permitted start (runFrom start [operation]) :=
        ⟨quietBackend, 1, operation, [], all start operation List.mem_cons_self, rfl⟩
      exact .head step (ih fun state other member =>
        all state other (List.mem_cons_of_mem _ member))

end Service
end Memos
