import Memos.Library.Handler
import Memos.Store.Transitions

namespace Memos
namespace Store

open Library Handler

/-!
# The calls of the store are steps

For each call what a handler must know before it and what it knows after it.
-/

variable {before after : Database}

/-! ## What a committed call has done -/

theorem leads_createMemo {now : Int} {create : CreateMemo} {memo : Memo}
    (leads : (createMemo now create).Leads before memo after) :
    memo = create.row now (before.sequences.memo + 1) ∧ after = before.insertMemo memo ∧
      ∀ other, other ∈ before.memos -> other.uid ≠ memo.uid := by
  have success := Transaction.leads_statement leads
  split at success
  · split at success
    · cases success
    · next unused =>
        cases success
        refine ⟨rfl, rfl, ?_⟩
        intro other member same
        exact unused (List.any_eq_true.mpr ⟨other, member, decide_eq_true same⟩)
  · cases success

theorem leads_createAttachment {attachment created : Attachment}
    (leads : (createAttachment attachment).Leads before created after) :
    created = { attachment with id := before.sequences.attachment + 1 } ∧
      after = before.insertAttachment created := by
  have success := Transaction.leads_statement leads
  split at success
  · split at success
    · cases success
    · cases success
      exact ⟨rfl, rfl⟩
  · cases success

variable {storageFault : Attachment -> Option String} {value : Unit}

theorem leads_deleteAttachment {id : Nat} (leads : (deleteAttachment storageFault id).Leads before value after) :
    after = before.withoutAttachments [id] := by
  rcases Transaction.leads_bind leads with ⟨attachment, _, looking, afterLooking⟩
  rcases Transaction.leads_query looking with ⟨_, rfl⟩
  rcases Transaction.leads_bind afterLooking with ⟨_, _, removing, deleting⟩
  rcases Transaction.leads_query removing with ⟨_, rfl⟩
  exact Transaction.leads_execute deleting

theorem leads_deleteAttachmentList {attachments : List Attachment}
    (leads : (deleteAttachmentList storageFault attachments).Leads before value after) :
    after = before.withoutAttachments (attachments.map Attachment.id) := by
  induction attachments generalizing before with
  | nil =>
      rw [(Transaction.leads_pure leads).2]
      simp [Database.withoutAttachments]
  | cons attachment rest ih =>
      rcases Transaction.leads_bind leads with ⟨_, _, first, others⟩
      rw [ih others, leads_deleteAttachment first]
      exact (Database.withoutAttachments_append [attachment.id] (rest.map Attachment.id) before).symm

theorem leads_deleteMemo {id : Nat} (leads : (deleteMemo storageFault id).Leads before value after) :
    after = before.deletedMemo id := by
  rcases Transaction.leads_bind leads with ⟨_, withoutSources, sources, afterSources⟩
  rcases Transaction.leads_bind afterSources with ⟨_, _, targets, afterTargets⟩
  rcases Transaction.leads_bind afterTargets with ⟨attachments, withoutEnds, listing, afterListing⟩
  rcases Transaction.leads_query listing with ⟨listed, rfl⟩
  rcases Transaction.leads_bind afterListing with ⟨_, withoutFiles, files, memo⟩
  have relations : withoutEnds = { before with
      relations := before.relations.filter fun row => row.memoId ≠ id ∧ row.relatedMemoId ≠ id } := by
    rw [Transaction.leads_execute targets, Transaction.leads_execute sources]
    dsimp only
    rw [List.filter_filter]
    congr 1
    apply List.filter_congr
    intro relation _
    simp [DeleteMemoRelation.selects, Bool.and_comm]
  have ids : attachments = listAttachments before id := by
    rw [← Except.ok.inj listed, relations]
    rfl
  rw [Transaction.leads_execute memo, leads_deleteAttachmentList files, relations, ids]
  simp [Database.withoutMemos, Database.withoutAttachments, Database.deletedMemo]

/-! ## Calls in a handler -/

section Calls

variable {step : Database -> Database -> Prop} {start : Database} {facts : Database -> Prop}
  {ε α : Type} {status : String -> ε}

/-- A call that only writes one step. -/
theorem follows_execute {write : Database -> Database} (steps : ∀ db, facts db -> step db (write db))
    (kept : ∀ db, facts db -> facts (write db)) :
    Follows step start facts (call (Transaction.execute write) status) (fun _ => facts) := by
  apply follows_call
  intro before value after _ given leads
  rw [Transaction.leads_execute leads]
  exact ⟨.inr (steps before given), kept before given⟩

/-- The memo gets an id and a uid that no stored memo has. -/
theorem follows_createMemo {now : Int} {create : CreateMemo} {known : Memo -> Database -> Prop}
    (inserted : ∀ db memo, Along step start facts db ->
      memo = create.row now (db.sequences.memo + 1) ->
      (∀ other, other ∈ db.memos -> other.uid ≠ memo.uid) ->
      step db (db.insertMemo memo) ∧ known memo (db.insertMemo memo)) :
    Follows step start facts (call (createMemo now create) status) known := by
  apply follows_call
  intro before memo after steps given leads
  rcases leads_createMemo leads with ⟨row, rfl, unused⟩
  rcases inserted before memo ⟨steps, given⟩ row unused with ⟨stepped, holds⟩
  exact ⟨.inr stepped, holds⟩

theorem follows_upsertMemoRelation {relation : MemoRelation} {known : Database -> Prop}
    (already : ∀ db, facts db -> relation ∈ db.relations -> known db)
    (inserted : ∀ db, Along step start facts db -> relation ∉ db.relations ->
      step db { db with relations := db.relations ++ [relation] } ∧
        known { db with relations := db.relations ++ [relation] }) :
    Follows step start facts (call (upsertMemoRelation relation) status) (fun _ => known) := by
  apply follows_call
  intro before value after steps given leads
  have written := Transaction.leads_execute leads
  split at written
  · next present =>
      rw [written]
      exact ⟨.inl rfl, already before given present⟩
  · next absent =>
      rw [written]
      rcases inserted before ⟨steps, given⟩ absent with ⟨stepped, holds⟩
      exact ⟨.inr stepped, holds⟩

theorem follows_clearReferences {source : MemoRef} {memoId : Nat} (same : memoId = source.id)
    (permits : Permits step start facts (ReferenceWrite source)) :
    Follows step start facts
      (call (deleteMemoRelation { memoId := some memoId, type := some .reference }) status)
      (fun _ => facts) := by
  rw [same]
  apply follows_change permits
  intro before value after _ leads
  right
  have cleared : after = { before with relations := before.relations.filter fun relation =>
      ¬ (relation.memoId = source.id ∧ relation.type = .reference) } := by
    rw [Transaction.leads_execute leads]
    congr 1
    apply List.filter_congr
    intro relation _
    simp [DeleteMemoRelation.selects]
  rw [cleared]
  exact .clear

theorem follows_linkAttachment {update : UpdateAttachment} {memoId : Nat}
    (permits : Permits step start facts (AttachmentWrite memoId)) (linked : update.memoId = some memoId) :
    Follows step start facts (call (updateAttachment update) status) (fun _ => facts) := by
  apply follows_change permits
  intro before value after _ leads
  rw [Transaction.leads_execute leads]
  exact .inr (.link update linked)

theorem follows_dropAttachment {storageFault : Attachment -> Option String} {id memoId : Nat}
    (permits : Permits step start facts (AttachmentWrite memoId)) :
    Follows step start facts (call (deleteAttachment storageFault id) status)
      (fun _ => facts) := by
  apply follows_change permits
  intro before value after _ leads
  rw [leads_deleteAttachment leads]
  exact .inr (.delete [id])

end Calls

/-! ## Calls as writes -/

section Writes

variable {may : Database -> Guarded -> Prop} {start : Database} {facts : Database -> Prop}
  {ε α : Type} {status : String -> ε}

/-- Steps keep a database well-formed. -/
theorem sound_of_steps (sound : start.Sound)
    (steps : Relation.ReflTransGen (Write may) start before) : before.Sound := by
  induction steps with
  | refl => exact sound
  | tail _ write ih => exact write.sound ih

/-- What every write keeps holds wherever the writes lead. -/
theorem kept_of_steps {invariant : Database -> Prop}
    (kept : ∀ db last, db.Sound -> invariant db -> Write may db last -> invariant last)
    (sound : start.Sound) (holds : invariant start)
    (steps : Relation.ReflTransGen (Write may) start before) : invariant before := by
  induction steps with
  | refl => exact holds
  | tail earlier write ih =>
      exact kept _ _ (sound_of_steps sound earlier) ih write

/-- The facts are about stored memos and their comments only, so that calls
that leave these alone keep them. -/
def Steady (facts : Database -> Prop) : Prop :=
  ∀ first second : Database, second.memos = first.memos -> second.comments = first.comments ->
    facts first -> facts second

theorem steady_true : Steady fun _ => True := fun _ _ _ _ _ => trivial

theorem steady_hasRef (ref : MemoRef) : Steady fun db => db.HasRef ref := by
  intro first second memos _ stored
  unfold Database.HasRef
  rw [memos]
  exact stored

theorem Steady.and {first second : Database -> Prop} (left : Steady first)
    (right : Steady second) : Steady fun db => first db ∧ second db :=
  fun before after memos comments holds =>
    ⟨left before after memos comments holds.1, right before after memos comments holds.2⟩

/-- Steady facts about a stored memo admit the writes to its attachments. -/
theorem Steady.attachments {memoId : Nat} (steady : Steady facts)
    (stored : ∀ db, facts db -> db.HasMemo memoId) :
    Permits (Write may) start facts (AttachmentWrite memoId) := by
  intro before after along write
  refine ⟨write.write (stored before along.2), ?_⟩
  apply steady before after write.memos _ along.2
  unfold Database.comments
  rw [write.relations]

theorem Steady.references {source : MemoRef} (steady : Steady facts) (liberal : Liberal may)
    (sound : start.Sound) (stored : ∀ db, facts db -> db.HasRef source) :
    Permits (Write may) start facts (ReferenceWrite source) := by
  intro before after along write
  exact ⟨write.write liberal (sound_of_steps sound along.1) (stored before along.2),
    steady before after write.memos write.comments along.2⟩

theorem follows_updateMemo {update : UpdateMemo}
    (allowed : ∀ db, facts db -> may db (.updateMemo update)) :
    Follows (Write may) start facts (call (updateMemo update) status) (fun _ _ => True) := by
  apply follows_call
  intro before value after _ given leads
  rw [Transaction.leads_execute leads]
  exact ⟨.inr (.updateMemo update (allowed before given)), trivial⟩

theorem follows_createAttachment {attachment : Attachment}
    (linked : ∀ db, facts db -> ∀ id, attachment.memoId = some id -> db.HasMemo id) :
    Follows (Write may) start facts (call (createAttachment attachment) status)
      (fun _ _ => True) := by
  apply follows_call
  intro before created after _ given leads
  rcases leads_createAttachment leads with ⟨row, rfl⟩
  refine ⟨.inr (.insertAttachment created (by rw [row]) ?_), trivial⟩
  rw [row]
  exact linked before given

theorem follows_updateAttachment {update : UpdateAttachment} (unlinked : update.memoId = none) :
    Follows (Write may) start facts (call (updateAttachment update) status) (fun _ _ => True) := by
  apply follows_call
  intro before value after _ _ leads
  rw [Transaction.leads_execute leads]
  refine ⟨.inr (.updateAttachment update ?_), trivial⟩
  intro id impossible
  rw [unlinked] at impossible
  cases impossible

variable {id : Nat}

theorem follows_deleteAttachment {storageFault : Attachment -> Option String} :
    Follows (Write may) start facts (call (deleteAttachment storageFault id) status)
      (fun _ _ => True) := by
  apply follows_call
  intro before value after _ _ leads
  rw [leads_deleteAttachment leads]
  exact ⟨.inr (.deleteAttachments [id]), trivial⟩

theorem follows_deleteAttachments {attachments : List Attachment} :
    Follows (Write may) start (fun _ => True) (call (deleteAttachments attachments) status)
      (fun _ _ => True) :=
  follows_execute (fun _ _ => .deleteAttachments _) fun _ _ => trivial

theorem follows_createReaction {creatorId : Nat} {contentId reactionType : String}
    (named : ∀ db, facts db -> Exists fun memo =>
      memo ∈ db.memos ∧ contentId = "memos/" ++ memo.uid) :
    Follows (Write may) start facts
      (call (createReaction creatorId contentId reactionType) status) (fun _ _ => True) := by
  apply follows_call
  intro before reaction after _ given leads
  have success := Transaction.leads_statement leads
  split at success
  · cases success
  · cases success
    exact ⟨.inr (.insertReaction _ _ rfl (named before given)), trivial⟩

theorem follows_deleteReaction :
    Follows (Write may) start (fun _ => True) (call (deleteReaction id) status)
      (fun _ _ => True) :=
  follows_execute (fun _ _ => .deleteReactions _) fun _ _ => trivial

theorem follows_createMemoShare {uid : String} {memoId creatorId : Nat} {expiresTs : Option Int}
    (linked : ∀ db, facts db -> db.HasMemo memoId) :
    Follows (Write may) start facts
      (call (createMemoShare uid memoId creatorId expiresTs) status) (fun _ _ => True) := by
  apply follows_call
  intro before share after _ given leads
  have success := Transaction.leads_statement leads
  split at success
  · cases success
  · cases success
    exact ⟨.inr (.insertShare _ _ rfl (linked before given)), trivial⟩

theorem follows_deleteMemoShare {uid : String} :
    Follows (Write may) start (fun _ => True) (call (deleteMemoShare uid) status)
      (fun _ _ => True) :=
  follows_execute (fun _ _ => .deleteShares _) fun _ _ => trivial

theorem follows_createInbox {senderId receiverId : Nat} {message : String}
    (kept : ∀ db inbox sequences, facts db ->
      facts { db with inbox := inbox, sequences := sequences }) :
    Follows (Write may) start facts (call (createInbox senderId receiverId message) status)
      (fun _ => facts) :=
  follows_execute (fun _ _ => .insertInbox _ rfl) fun db given => kept db _ _ given

theorem follows_deleteInbox :
    Follows (Write may) start (fun _ => True) (call (deleteInbox id) status) (fun _ _ => True) :=
  follows_execute (fun _ _ => .deleteInboxes _) fun _ _ => trivial

theorem follows_deleteUser {protojson : Protojson} {userId : Nat} {failpoint : Bool} (sound : start.Sound) :
    Follows (Write may) start facts
      (call (deleteUserTransaction protojson userId failpoint) status) (fun _ _ => True) := by
  apply follows_call
  intro before result after steps _ leads
  refine ⟨.inr (.deleteUser protojson userId after ?_), trivial⟩
  exact deleteUserTransaction_removes (sound_of_steps sound steps).toPrimaryKeys leads

end Writes

end Store
end Memos
