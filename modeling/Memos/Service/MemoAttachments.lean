import Mathlib
import Memos.Service.AttachmentPages
import Memos.Service.MotionGroups

namespace Memos
namespace Service
namespace MemoAttachments

open Library Memos.Filter Store Handler
open AttachmentPages (MayChoose)

/-!
# Setting the attachments of a memo

The order of the attachments is kept in their timestamps: the list is walked
from its end, and each attachment gets the time of the clock and its index in
the walk.  What is linked already is read through a query that returns a
hundred rows at most, and the permission to remove an attachment is looked at
when its turn comes.
-/

/-! ## The handler that reads -/

section Reader

variable (order : List Attachment -> List Attachment) (userId : Nat)

def listMemoAttachments (db : Database) (name : String) : Except Status (List Attachment) := do
  let uid ← orStatus .invalidArgument "invalid memo name: " (extractMemoUIDFromName name)
  match memoByUid db uid with
  | none => .error ⟨.notFound, "memo not found"⟩
  | some joined => do
      checkVisibility (orStatus .internal "failed to get user: " (fetchCurrentUser db userId))
        (refusedUnlessSuperUser joined.memo) joined.memo
      return listAttachments order db joined.memo.id

end Reader

/-! ## Removing -/

section Removing

variable {backend : Backend} {user : User} {base : Database}

/-- The walk over the dropped attachments removes them all, or stops at the
first that the user must not remove. -/
theorem ends_removeAttachments {dropped : List Attachment} :
    Ends (fun state => state = base) (forEach dropped (removeAttachment backend user))
      (fun _ state => state = base.withoutAttachments (dropped.map Attachment.id) ∧
        forall attachment, attachment ∈ dropped -> MayAttach user attachment)
      (fun status state => status.code = .permissionDenied ->
        Exists fun removed => Exists fun first => Exists fun rest =>
          dropped = removed ++ first :: rest ∧
          (forall attachment, attachment ∈ removed -> MayAttach user attachment) ∧
          ¬ MayAttach user first ∧
          state = base.withoutAttachments (removed.map Attachment.id)) := by
  induction dropped generalizing base with
  | nil =>
      refine ends_pure fun state same => ⟨?_, fun other member => by cases member⟩
      rw [same]
      simp [Database.withoutAttachments]
  | cons attachment rest ih =>
      have removes : Ends (fun state => state = base) (removeAttachment backend user attachment)
          (fun _ state => state = base.withoutAttachments [attachment.id] ∧ MayAttach user attachment)
          (fun status state => status.code = .permissionDenied ->
            state = base ∧ ¬ MayAttach user attachment) := by
        refine ends_bind (ends_require fun state same refused _ => ⟨same, refused⟩) fun _ => ?_
        refine ends_call ?_ fun cause state _ denied => by cases denied
        intro before value after given leads
        rw [← given.1]
        exact ⟨leads_deleteAttachment leads, given.2⟩
      by_cases own : MayAttach user attachment
      · refine ends_bind (ends_weaken removes (fun _ same => same) (fun _ _ given => given.1)
          fun status state refused denied => absurd own (refused denied).2) fun _ => ?_
        refine ends_weaken ih (fun _ same => same) ?_ ?_
        · rintro _ state ⟨same, others⟩
          refine ⟨?_, ?_⟩
          · rw [same]
            exact (Database.withoutAttachments_append [attachment.id] _ base).symm
          · intro other member
            rcases List.mem_cons.mp member with rfl | later
            · exact own
            · exact others other later
        · intro status state refused denied
          rcases refused denied with ⟨removed, first, others, split, permitted, foreign, same⟩
          refine ⟨attachment :: removed, first, others, by rw [split]; rfl, ?_, foreign, ?_⟩
          · intro other member
            rcases List.mem_cons.mp member with rfl | later
            · exact own
            · exact permitted other later
          · rw [same]
            exact (Database.withoutAttachments_append [attachment.id] _ base).symm
      · have never : Ends (fun state => state = base) (removeAttachment backend user attachment)
            (fun _ _ => False) (fun status state => status.code = .permissionDenied ->
              Exists fun removed => Exists fun first => Exists fun others =>
                attachment :: rest = removed ++ first :: others ∧
                (forall attachment, attachment ∈ removed -> MayAttach user attachment) ∧
                ¬ MayAttach user first ∧
                state = base.withoutAttachments (removed.map Attachment.id)) := by
          refine ends_weaken removes (fun _ same => same) (fun _ _ given => own given.2) ?_
          intro status state refused denied
          refine ⟨[], attachment, rest, rfl, fun _ member => absurd member List.not_mem_nil, own, ?_⟩
          rw [(refused denied).1]
          simp [Database.withoutAttachments]
        exact ends_bind never fun _ _ impossible => impossible.elim

/-- A stored attachment whose file can be removed is deleted. -/
theorem deleteAttachment_quiet (quiet : forall attachment, backend.storageFault attachment = none)
    {attachment : Attachment} (stored : attachment ∈ base.attachments) :
    Store.deleteAttachment backend.storageFault attachment.id ⟨base, []⟩ =
      .ok ((), ⟨base.withoutAttachments [attachment.id], []⟩) := by
  cases found : base.attachments.find? fun row => row.id = attachment.id with
  | none =>
      have missing := List.find?_eq_none.mp found attachment stored
      exact absurd (decide_eq_true rfl) missing
  | some row =>
      have removable : deleteAttachmentStorage backend.storageFault row = .ok () := by
        unfold deleteAttachmentStorage
        rw [quiet]
      have removing : Transaction.query (fun _ : Database =>
          deleteAttachmentStorage backend.storageFault row) ⟨base, []⟩ = .ok ((), ⟨base, []⟩) :=
        query_quiet removable
      unfold Store.deleteAttachment
      refine (Transaction.bind_of_ok (query_quiet (by rw [found]))).trans ?_
      exact (Transaction.bind_of_ok removing).trans (execute_quiet _)

/-- Without faults the attachments go. -/
theorem removeAttachments_quiet (quiet : forall attachment, backend.storageFault attachment = none)
    {removed : List Attachment} (distinct : (removed.map Attachment.id).Nodup)
    (stored : forall attachment, attachment ∈ removed -> attachment ∈ base.attachments)
    (permitted : forall attachment, attachment ∈ removed -> MayAttach user attachment) :
    forEach removed (removeAttachment backend user) ⟨base, []⟩ =
      (.ok (), ⟨base.withoutAttachments (removed.map Attachment.id), []⟩) := by
  induction removed generalizing base with
  | nil =>
      have same : base.withoutAttachments [] = base := by simp [Database.withoutAttachments]
      rw [List.map_nil, same]
      rfl
  | cons attachment rest ih =>
      rcases List.nodup_cons.mp distinct with ⟨fresh, others⟩
      have own : attachment.creatorId = user.id ∨ isSuperUser user = true :=
        permitted attachment List.mem_cons_self
      have removes : removeAttachment backend user attachment ⟨base, []⟩ =
          (.ok (), ⟨base.withoutAttachments [attachment.id], []⟩) := by
        unfold removeAttachment
        rw [require_of own, pure_bind]
        exact call_quiet (deleteAttachment_quiet quiet (stored attachment List.mem_cons_self))
      have remaining : forall other, other ∈ rest ->
          other ∈ (base.withoutAttachments [attachment.id]).attachments := by
        intro other member
        refine List.mem_filter.mpr ⟨stored other (List.mem_cons_of_mem _ member), ?_⟩
        rw [decide_eq_true_eq, List.mem_singleton]
        intro same
        exact fresh (List.mem_map.mpr ⟨other, member, same⟩)
      unfold forEach
      rw [bind_of_ok removes, ih others remaining fun other member =>
        permitted other (List.mem_cons_of_mem _ member)]
      rw [← Database.withoutAttachments_append]
      rfl

theorem forEach_append {first second : List Attachment} {body : Attachment -> Request Unit}
    {world middle : World Database} (done : forEach first body world = (.ok (), middle)) :
    forEach (first ++ second) body world = forEach second body middle := by
  induction first generalizing world with
  | nil =>
      cases done
      rfl
  | cons attachment rest ih =>
      rw [forEach, bind_run] at done
      rw [List.cons_append, forEach, bind_run]
      rcases ran : body attachment world with ⟨_ | _, last⟩
      · rw [ran] at done
        cases done
      · rw [ran] at done
        exact ih done

/-- The walk stops at a foreign attachment, and what it has removed is gone. -/
theorem removeAttachments_denied (quiet : forall attachment, backend.storageFault attachment = none)
    {removed rest : List Attachment} {first : Attachment} (distinct : (removed.map Attachment.id).Nodup)
    (stored : forall attachment, attachment ∈ removed -> attachment ∈ base.attachments)
    (permitted : forall attachment, attachment ∈ removed -> MayAttach user attachment)
    (foreign : ¬ MayAttach user first) :
    forEach (removed ++ first :: rest) (removeAttachment backend user) ⟨base, []⟩ =
      (.error ⟨.permissionDenied, "cannot remove another user's attachment"⟩,
        ⟨base.withoutAttachments (removed.map Attachment.id), []⟩) := by
  have refused : ¬ (first.creatorId = user.id ∨ isSuperUser user = true) := foreign
  rw [forEach_append (removeAttachments_quiet quiet distinct stored permitted), forEach,
    removeAttachment, require_of_not refused]
  rfl

end Removing

/-! ## Linking -/

section Linking

variable {clock : Nat -> Int} {memoId : Nat} {base : Database}

/-- The linked row at an index of the walk. -/
def linkedAt (clock : Nat -> Int) (memoId index : Nat) (attachment : Attachment) : Attachment :=
  { attachment with memoId := some memoId, updatedTs := clock index + index }

/-- A row after the walk over the attachments. -/
def relink (clock : Nat -> Int) (memoId : Nat) :
    List Attachment -> Nat -> Attachment -> Attachment
  | [], _, row => row
  | attachment :: rest, index, row =>
      relink clock memoId rest (index + 1)
        (if row.id = attachment.id then linkedAt clock memoId index row else row)

def relinked (clock : Nat -> Int) (memoId : Nat) (list : List Attachment) (index : Nat)
    (db : Database) : Database :=
  { db with attachments := db.attachments.map (relink clock memoId list index) }

variable {index : Nat} {list : List Attachment}

theorem relinked_nil : relinked clock memoId [] index base = base := by
  unfold relinked
  have same : relink clock memoId [] index = id := rfl
  rw [same, List.map_id]

theorem relinked_cons {attachment : Attachment} {rest : List Attachment} :
    relinked clock memoId rest (index + 1) { base with
        attachments := base.attachments.map (UpdateAttachment.apply
          { id := attachment.id, memoId := some memoId, updatedTs := some (clock index + index) }) } =
      relinked clock memoId (attachment :: rest) index base := by
  unfold relinked
  dsimp only
  rw [List.map_map]
  rfl

theorem ends_linkAttachments :
    Ends (fun state => state = base) (linkAttachments clock memoId list index)
      (fun _ state => state = relinked clock memoId list index base)
      (fun status _ => status.code ≠ .permissionDenied) := by
  induction list generalizing index base with
  | nil => exact ends_pure fun _ same => same.trans relinked_nil.symm
  | cons attachment rest ih =>
      refine ends_bind (ends_execute fun _ _ _ => nofun) fun _ => ?_
      refine ends_weaken ih ?_ (fun _ _ same => same.trans relinked_cons)
        fun _ _ given => given
      rintro state ⟨before, rfl, same⟩
      exact same

theorem linkAttachments_quiet :
    linkAttachments clock memoId list index ⟨base, []⟩ =
      (.ok (), ⟨relinked clock memoId list index base, []⟩) := by
  induction list generalizing index base with
  | nil =>
      rw [relinked_nil]
      rfl
  | cons attachment rest ih =>
      rw [← relinked_cons]
      exact (bind_of_ok (call_quiet (execute_quiet _))).trans ih

theorem relink_id (list : List Attachment) (index : Nat) (row : Attachment) :
    (relink clock memoId list index row).id = row.id := by
  induction list generalizing index row with
  | nil => rfl
  | cons attachment rest ih =>
      rw [relink, ih]
      split <;> rfl

/-- A row that is not in the list stays as it is. -/
theorem relink_other {row : Attachment} (other : row.id ∉ list.map Attachment.id) :
    relink clock memoId list index row = row := by
  induction list generalizing index with
  | nil => rfl
  | cons attachment rest ih =>
      rw [List.map_cons, List.mem_cons, not_or] at other
      rw [relink, if_neg other.1, ih other.2]

/-- A row of the list is linked at its index. -/
theorem relink_at {start index : Nat} {row : Attachment} (distinct : (list.map Attachment.id).Nodup)
    (there : list[index]? = some row) :
    relink clock memoId list start row = linkedAt clock memoId (start + index) row := by
  induction list generalizing start index with
  | nil => cases there
  | cons attachment rest ih =>
      rcases List.nodup_cons.mp distinct with ⟨fresh, others⟩
      cases index with
      | zero =>
          cases there
          have gone : (linkedAt clock memoId start row).id ∉ rest.map Attachment.id := fresh
          rw [relink, if_pos rfl, relink_other gone]
          rfl
      | succ index =>
          rw [List.getElem?_cons_succ] at there
          have inRest := List.mem_of_getElem? there
          have different : row.id ≠ attachment.id := by
            intro same
            exact fresh (List.mem_map.mpr ⟨row, inRest, same⟩)
          rw [relink, if_neg different, ih others there]
          congr 1
          omega

end Linking

/-! ## The request as a whole -/

section Request

variable {backend : Backend} {order : List Attachment -> List Attachment} {clock : Nat -> Int}
  {db : Database} {userId : Nat} {name : String} {names : List String} {user : User}
  {joined : JoinedMemo} {requested : List Attachment}

/-- The caller may edit the memo and attach what is requested. -/
structure Admitted (db : Database) (userId : Nat) (name : String) (names : List String)
    (user : User) (joined : JoinedMemo) (requested : List Attachment) : Prop where
  caller : fetchCurrentUser db userId = .ok (some user)
  named : extractMemoUIDFromName name = .ok joined.memo.uid
  found : memoByUid db joined.memo.uid = some joined
  allowed : canModifyMemo user joined.memo = true
  requests : Requests db names requested
  permitted : forall attachment, attachment ∈ requested -> MayAttach user attachment

/-- The normalised request. -/
def normalizedFor (backend : Backend) (order : List Attachment -> List Attachment) (db : Database)
    (memoId : Nat) (requested : List Attachment) : List Attachment :=
  normalizeAttachments backend (listAttachments order db memoId) requested requested [] []

/-- The linked attachments that the request does not keep, as far as they are
listed. -/
def droppedFor (backend : Backend) (order : List Attachment -> List Attachment) (db : Database)
    (memoId : Nat) (requested : List Attachment) : List Attachment :=
  droppedFrom (listAttachments order db memoId) (normalizedFor backend order db memoId requested)

/-- The tables after a request that succeeds. -/
def settled (backend : Backend) (order : List Attachment -> List Attachment) (clock : Nat -> Int)
    (db : Database) (memoId : Nat) (requested : List Attachment) : Database :=
  relinked clock memoId (normalizedFor backend order db memoId requested).reverse 0
    (db.withoutAttachments ((droppedFor backend order db memoId requested).map Attachment.id))

/-- The request stops at an attachment that the caller must not remove. -/
def Refused (backend : Backend) (order : List Attachment -> List Attachment) (db : Database)
    (userId : Nat) (name : String) (names : List String) (state : Database) : Prop :=
  Exists fun user => Exists fun joined => Exists fun requested =>
    Admitted db userId name names user joined requested ∧
    Exists fun removed => Exists fun first => Exists fun rest =>
      droppedFor backend order db joined.memo.id requested = removed ++ first :: rest ∧
      (forall attachment, attachment ∈ removed -> MayAttach user attachment) ∧
      ¬ MayAttach user first ∧
      state = db.withoutAttachments (removed.map Attachment.id)

/-- The memo is marked as updated. -/
def touched (backend : Backend) (memoId : Nat) (db : Database) : Database :=
  let update : UpdateMemo := { id := memoId, updatedTs := some backend.now }
  { db with memos := db.memos.map update.apply }

section Admission

variable {failed : Status -> Database -> Prop}

theorem ends_authenticated {context : String} (unchanged : forall status, failed status db) :
    Ends (fun state => state = db) (authenticated userId context)
      (fun user state => state = db ∧ fetchCurrentUser db userId = .ok (some user)) failed := by
  have same : forall {status : Status} {state : Database}, state = db -> failed status state := by
    intro status state same
    rw [same]
    exact unchanged status
  refine ends_bind (ends_query fun _ _ given => same given) fun viewer => ?_
  refine ends_weaken (ends_found fun _ given _ => same given.1) (fun _ given => given) ?_
    fun _ _ given => given
  rintro user state ⟨⟨atStart, found⟩, viewer⟩
  rw [← atStart, ← viewer]
  exact ⟨rfl, found⟩

theorem ends_memoUidOf (unchanged : forall status, failed status db) :
    Ends (fun state => state = db) (memoUidOf name)
      (fun uid state => state = db ∧ extractMemoUIDFromName name = .ok uid) failed :=
  ends_lift fun _ _ given _ => given ▸ unchanged _

variable {failing : String -> Status} {missing : Status}

theorem ends_memoOfUid {uid : String} (unchanged : forall status, failed status db) :
    Ends (fun state => state = db) (memoOfUid uid failing missing)
      (fun joined state => state = db ∧ joined.memo.uid = uid ∧
        memoByUid db joined.memo.uid = some joined) failed := by
  have same : forall {status : Status} {state : Database}, state = db -> failed status state := by
    intro status state same
    rw [same]
    exact unchanged status
  refine ends_bind (ends_query fun _ _ given => same given) fun row => ?_
  refine ends_weaken (ends_found fun _ given _ => same given.1) (fun _ given => given) ?_
    fun _ _ given => given
  rintro joined state ⟨⟨atStart, found⟩, row⟩
  rw [row] at found
  have lookup := Except.ok.inj found
  rw [atStart] at lookup
  have ofUid := (memoByUid_eq_some lookup).2
  rw [ofUid]
  exact ⟨atStart, rfl, lookup⟩

theorem ends_memoByName (unchanged : forall status, failed status db) :
    Ends (fun state => state = db) (memoByName name failing missing)
      (fun joined state => state = db ∧ extractMemoUIDFromName name = .ok joined.memo.uid ∧
        memoByUid db joined.memo.uid = some joined) failed := by
  refine ends_bind (ends_memoUidOf unchanged) fun uid => ends_given (fun _ given => given.2) fun named => ?_
  refine ends_weaken (ends_memoOfUid unchanged) (fun _ given => given.1) ?_ fun _ _ given => given
  rintro joined state ⟨atStart, sameUid, lookup⟩
  exact ⟨atStart, by rw [named, sameUid], lookup⟩

/-- The memo of an update, whose mask is looked at between the name and the
row. -/
theorem ends_masked {α : Type} {mask : List String} {refusal : Status} {handler : JoinedMemo -> Request α}
    {post : α -> Database -> Prop} (unchanged : forall status, failed status db)
    (valid : forall joined, extractMemoUIDFromName name = .ok joined.memo.uid ->
      memoByUid db joined.memo.uid = some joined ->
      Ends (fun state => state = db) (handler joined) post failed) :
    Ends (fun state => state = db) (do
      let uid ← memoUidOf name
      require (mask ≠ []) refusal
      let joined ← memoOfUid uid failing missing
      handler joined) post failed := by
  refine ends_bind (ends_memoUidOf unchanged) fun uid => ends_given (fun _ given => given.2) fun named => ?_
  refine ends_bind (ends_require fun state given _ => given.1 ▸ unchanged _) fun _ => ?_
  refine ends_bind (ends_weaken (ends_memoOfUid unchanged) (fun _ given => given.1.1)
    (fun _ _ given => given) fun _ _ given => given) fun joined => ?_
  refine ends_given (fun _ given => given.2) fun memo => ?_
  refine ends_weaken (valid joined (by rw [named, memo.1]) memo.2) (fun _ given => given.1)
    (fun _ _ given => given) fun _ _ given => given

/-- The handler finds the caller and the memo that it may edit. -/
theorem ends_admission {α : Type} {handler : User -> JoinedMemo -> Request α}
    {post : α -> Database -> Prop} (unchanged : forall status, failed status db)
    (valid : forall user joined, fetchCurrentUser db userId = .ok (some user) ->
      extractMemoUIDFromName name = .ok joined.memo.uid ->
      memoByUid db joined.memo.uid = some joined -> canModifyMemo user joined.memo = true ->
      Ends (fun state => state = db) (handler user joined) post failed) :
    Ends (fun state => state = db) (do
      let user ← authenticated userId "failed to get current user: "
      let joined ← memoByName name
      require (canModifyMemo user joined.memo) permissionDenied
      handler user joined) post failed := by
  refine ends_bind (ends_authenticated unchanged) fun user =>
    ends_given (fun _ given => given.2) fun isCaller => ?_
  refine ends_bind (ends_weaken (ends_memoByName unchanged) (fun _ given => given.1)
    (fun _ _ given => given) fun _ _ given => given) fun joined => ?_
  refine ends_bind (ends_require ?_) fun _ => ?_
  · intro state given _
    rw [given.1]
    exact unchanged _
  refine ends_given (fun _ given => And.intro given.1.2 given.2) fun known => ?_
  exact ends_weaken (valid user joined isCaller known.1.1 known.1.2 known.2)
    (fun _ given => given.1.1) (fun _ _ given => given) fun _ _ given => given

end Admission

theorem ends_setMemoAttachmentsInternal {memo : Memo} :
    Ends (fun state => state = db) (setMemoAttachmentsInternal backend order clock user memo names)
      (fun _ state => Exists fun requested => Requests db names requested ∧
        (forall attachment, attachment ∈ requested -> MayAttach user attachment) ∧
        (forall attachment, attachment ∈ droppedFor backend order db memo.id requested ->
          MayAttach user attachment) ∧
        state = settled backend order clock db memo.id requested)
      (fun status state => status.code = .permissionDenied -> state = db ∨
        Exists fun requested => Requests db names requested ∧
          (forall attachment, attachment ∈ requested -> MayAttach user attachment) ∧
          Exists fun removed => Exists fun first => Exists fun rest =>
            droppedFor backend order db memo.id requested = removed ++ first :: rest ∧
            (forall attachment, attachment ∈ removed -> MayAttach user attachment) ∧
            ¬ MayAttach user first ∧
            state = db.withoutAttachments (removed.map Attachment.id)) := by
  refine ends_bind (ends_query fun _ _ same _ => .inl same) fun current => ?_
  have listed : forall state, state = db ∧
      (.ok (listAttachments order state memo.id) : Except String (List Attachment)) = .ok current ->
        current = listAttachments order db memo.id := by
    rintro state ⟨rfl, same⟩
    exact (Except.ok.inj same).symm
  refine ends_given listed fun isCurrent => ?_
  refine ends_bind (ends_weaken ends_normalizeMemoAttachmentRequest (fun _ given => given.1)
    (fun _ _ given => given) fun _ _ same _ => .inl same) fun normalized => ?_
  refine ends_given (fun _ given => given.2) ?_
  rintro ⟨requested, requests, permitted, rfl⟩
  have removes := @ends_removeAttachments backend user db
    (droppedFor backend order db memo.id requested)
  rw [isCurrent]
  refine ends_bind (ends_weaken removes (fun _ given => given.1) (fun _ _ given => given)
    fun _ _ refused denied => .inr ⟨requested, requests, permitted, refused denied⟩) fun _ => ?_
  refine ends_given (fun _ given => given.2) fun own => ?_
  refine ends_weaken ends_linkAttachments (fun _ given => given.1) ?_
    fun _ _ other denied => absurd denied other
  intro _ state same
  exact ⟨requested, requests, permitted, own, same⟩

theorem ends_setMemoAttachments :
    Ends (fun state => state = db) (setMemoAttachments backend order clock userId name names)
      (fun _ state => Exists fun user => Exists fun joined => Exists fun requested =>
        Admitted db userId name names user joined requested ∧
        (forall attachment, attachment ∈ droppedFor backend order db joined.memo.id requested ->
          MayAttach user attachment) ∧
        state = touched backend joined.memo.id
          (settled backend order clock db joined.memo.id requested))
      (fun status state => status.code = .permissionDenied ->
        state = db ∨ Refused backend order db userId name names state) := by
  refine ends_admission (fun _ _ => .inl rfl) fun user joined caller named found allowed => ?_
  refine ends_bind (ends_weaken ends_setMemoAttachmentsInternal (fun _ same => same)
    (fun _ _ given => given) ?_) fun _ => ?_
  · intro status state refused denied
    rcases refused denied with same | ⟨requested, requests, permitted, stopped⟩
    · exact .inl same
    · exact .inr ⟨user, joined, requested, ⟨caller, named, found, allowed, requests, permitted⟩,
        stopped⟩
  · refine ends_bind (ends_execute fun _ _ _ => nofun) fun _ => ?_
    refine ends_weaken (ends_query fun _ _ _ => nofun) (fun _ given => given) ?_
      fun _ _ given => given
    rintro _ state ⟨⟨before, ⟨requested, requests, permitted, own, rfl⟩, same⟩, _⟩
    exact ⟨user, joined, requested, ⟨caller, named, found, allowed, requests, permitted⟩, own, same⟩

/-! ### Without faults -/

/-- Nothing outside the database fails. -/
structure Quiet (backend : Backend) : Prop where
  storage : forall attachment, backend.storageFault attachment = none
  respond : forall db memo, backend.respond db memo = .ok ()

theorem authenticated_quiet {context : String} (caller : fetchCurrentUser db userId = .ok (some user)) :
    authenticated userId context ⟨db, []⟩ = (.ok user, ⟨db, []⟩) := by
  have viewer : call (Transaction.query fun db => fetchCurrentUser db userId) (internal context)
      ⟨db, []⟩ = (.ok (some user), ⟨db, []⟩) := call_quiet (query_quiet caller)
  exact bind_of_ok viewer

theorem memoOfUid_quiet {failing : String -> Status} {missing : Status}
    (found : memoByUid db joined.memo.uid = some joined) :
    memoOfUid joined.memo.uid failing missing ⟨db, []⟩ = (.ok joined, ⟨db, []⟩) := by
  unfold memoOfUid
  rw [bind_of_ok (read_quiet _ _ _), found]
  rfl

theorem memoByName_quiet {failing : String -> Status} {missing : Status}
    (named : extractMemoUIDFromName name = .ok joined.memo.uid)
    (found : memoByUid db joined.memo.uid = some joined) :
    memoByName name failing missing ⟨db, []⟩ = (.ok joined, ⟨db, []⟩) := by
  unfold memoByName memoUidOf
  rw [named, lift_ok, pure_bind, memoOfUid_quiet found]

/-- The linked attachments, whatever their order, are stored under different
ids. -/
theorem droppedFor_stored (keys : db.PrimaryKeys) (chosen : MayChoose order) {memoId : Nat} :
    ((droppedFor backend order db memoId requested).map Attachment.id).Nodup ∧
      forall attachment, attachment ∈ droppedFor backend order db memoId requested ->
        attachment ∈ db.attachments := by
  have perm := (chosen (linkedTo db memoId)).perm
  have sublist : (droppedFor backend order db memoId requested).Sublist (order (linkedTo db memoId)) :=
    List.filter_sublist.trans (List.take_sublist _ _)
  constructor
  · have linked : ((linkedTo db memoId).map Attachment.id).Nodup :=
      nodup_map_of_sublist keys.attachmentIds List.filter_sublist
    have ordered : ((order (linkedTo db memoId)).map Attachment.id).Nodup :=
      (perm.map Attachment.id).nodup_iff.mpr linked
    exact nodup_map_of_sublist ordered sublist
  · intro attachment member
    exact (List.mem_filter.mp (perm.mem_iff.mp (sublist.subset member))).1

/-- The handler up to the walk over the dropped attachments. -/
theorem setMemoAttachments_run (admitted : Admitted db userId name names user joined requested) :
    setMemoAttachments backend order clock userId name names ⟨db, []⟩ =
      (do
        forEach (droppedFor backend order db joined.memo.id requested) (removeAttachment backend user)
        linkAttachments clock joined.memo.id
          (normalizedFor backend order db joined.memo.id requested).reverse 0
        touchMemoUpdatedTimestamp backend joined.memo.id
        respond backend joined.memo "failed to build updated memo state" : Request Unit)
        ⟨db, []⟩ := by
  have allowed : canModifyMemo user joined.memo = true := admitted.allowed
  unfold setMemoAttachments
  rw [bind_of_ok (authenticated_quiet admitted.caller),
    bind_of_ok (memoByName_quiet admitted.named admitted.found), require_of allowed, pure_bind]
  unfold setMemoAttachmentsInternal
  rw [bind_assoc, bind_of_ok (read_quiet _ _ _), bind_assoc,
    bind_of_ok (normalizeMemoAttachmentRequest_quiet admitted.requests admitted.permitted), bind_assoc]
  rfl

theorem setMemoAttachments_quiet (quiet : Quiet backend) (keys : db.PrimaryKeys)
    (chosen : MayChoose order) (admitted : Admitted db userId name names user joined requested)
    (own : forall attachment, attachment ∈ droppedFor backend order db joined.memo.id requested ->
      MayAttach user attachment) :
    setMemoAttachments backend order clock userId name names ⟨db, []⟩ =
      (.ok (), ⟨touched backend joined.memo.id
        (settled backend order clock db joined.memo.id requested), []⟩) := by
  rcases @droppedFor_stored backend order db requested keys chosen joined.memo.id with
    ⟨distinct, stored⟩
  rw [setMemoAttachments_run admitted,
    bind_of_ok (removeAttachments_quiet quiet.storage distinct stored own),
    bind_of_ok linkAttachments_quiet, touchMemoUpdatedTimestamp]
  refine (bind_of_ok (call_quiet (execute_quiet _))).trans ?_
  exact call_quiet (query_quiet (quiet.respond _ _))

theorem setMemoAttachments_denied (quiet : Quiet backend) (keys : db.PrimaryKeys)
    (chosen : MayChoose order) (admitted : Admitted db userId name names user joined requested)
    {removed rest : List Attachment} {first : Attachment}
    (split : droppedFor backend order db joined.memo.id requested = removed ++ first :: rest)
    (own : forall attachment, attachment ∈ removed -> MayAttach user attachment)
    (foreign : ¬ MayAttach user first) :
    setMemoAttachments backend order clock userId name names ⟨db, []⟩ =
      (.error ⟨.permissionDenied, "cannot remove another user's attachment"⟩,
        ⟨db.withoutAttachments (removed.map Attachment.id), []⟩) := by
  rcases @droppedFor_stored backend order db requested keys chosen joined.memo.id with
    ⟨distinct, stored⟩
  rw [split] at distinct stored
  rw [List.map_append] at distinct
  rw [setMemoAttachments_run admitted, split]
  exact bind_of_error (removeAttachments_denied quiet.storage (List.nodup_append.mp distinct).1
    (fun attachment member => stored attachment (List.mem_append_left _ member)) own foreign)

end Request

/-! ## What is listed afterwards -/

section Listing

variable {backend : Backend} {order : List Attachment -> List Attachment} {clock : Nat -> Int}
  {db : Database} {userId : Nat} {name : String} {names : List String} {user : User}
  {joined : JoinedMemo} {requested : List Attachment} {memoId : Nat}

/-- Everything that is linked to the memo is in the normalised request, apart
from what is dropped. -/
def Complete (backend : Backend) (order : List Attachment -> List Attachment) (db : Database)
    (memoId : Nat) (requested : List Attachment) : Prop :=
  forall attachment, attachment ∈ (order (linkedTo db memoId)).drop defaultAttachmentLimit ->
    attachment ∈ normalizedFor backend order db memoId requested

theorem normalizes_of_requests (requests : Requests db names requested) :
    Normalizes backend (listAttachments order db memoId) requested
      (normalizedFor backend order db memoId requested) := by
  have unique : ByUid requested := fun _ _ left right => requests.eq_of_uid left right
  unfold normalizedFor
  rw [normalizeAttachments_arrange unique]
  exact normalizes_arrange unique

theorem stored_of_requests (requests : Requests db names requested) {attachment : Attachment}
    (member : attachment ∈ normalizedFor backend order db memoId requested) :
    attachment ∈ db.attachments :=
  List.mem_of_find?_eq_some
    (requests.find ((normalizes_of_requests requests).asked attachment member)).2

theorem mem_droppedFor (keys : db.PrimaryKeys) (chosen : MayChoose order)
    (requests : Requests db names requested) {attachment : Attachment} :
    attachment ∈ droppedFor backend order db memoId requested ↔
      attachment ∈ listAttachments order db memoId ∧
        attachment ∉ normalizedFor backend order db memoId requested := by
  unfold droppedFor droppedFrom
  rw [List.mem_filter, Bool.not_eq_true', Bool.eq_false_iff, Ne, List.any_eq_true]
  refine and_congr_right fun listed => not_congr ?_
  have inTable : attachment ∈ db.attachments :=
    (List.mem_filter.mp ((chosen (linkedTo db memoId)).perm.mem_iff.mp
      (List.mem_of_mem_take listed))).1
  constructor
  · rintro ⟨other, member, same⟩
    have rows := eq_of_nodup_map keys.attachmentIds (stored_of_requests requests member) inTable
      (of_decide_eq_true same)
    rw [← rows]
    exact member
  · exact fun member => ⟨attachment, member, decide_eq_true rfl⟩

/-- The request in its order, as the walk has linked it. -/
def linkedList (clock : Nat -> Int) (memoId : Nat) (normalized : List Attachment) :
    List Attachment :=
  (normalized.reverse.mapIdx (linkedAt clock memoId)).reverse

theorem forall₂_linkedList (normalized : List Attachment) :
    List.Forall₂ (fun row attachment =>
      row = { attachment with memoId := some memoId, updatedTs := row.updatedTs })
      (linkedList clock memoId normalized) normalized := by
  unfold linkedList
  rw [← List.forall₂_reverse_iff, List.reverse_reverse, List.forall₂_iff_get]
  refine ⟨List.length_mapIdx, fun index left right => ?_⟩
  rw [List.get_eq_getElem, List.get_eq_getElem, List.getElem_mapIdx]
  rfl

/-- The timestamps fall from the first of the list to the last. -/
theorem linkedList_descending (forwards : Monotone clock) (normalized : List Attachment) :
    (linkedList clock memoId normalized).Pairwise fun first second =>
      second.updatedTs < first.updatedTs := by
  unfold linkedList
  rw [List.pairwise_reverse, List.pairwise_iff_getElem]
  intro first second left right before
  rw [List.getElem_mapIdx, List.getElem_mapIdx]
  have later := forwards (Nat.le_of_lt before)
  change clock first + first < clock second + second
  omega

theorem mem_linkedList {normalized : List Attachment} {row : Attachment} :
    row ∈ linkedList clock memoId normalized ↔ Exists fun index => Exists fun attachment =>
      normalized.reverse[index]? = some attachment ∧ linkedAt clock memoId index attachment = row := by
  unfold linkedList
  rw [List.mem_reverse, List.mem_mapIdx]
  constructor
  · rintro ⟨index, bound, same⟩
    exact ⟨index, _, List.getElem?_eq_getElem bound, same⟩
  · rintro ⟨index, attachment, found, same⟩
    rcases List.getElem?_eq_some_iff.mp found with ⟨bound, rfl⟩
    exact ⟨index, bound, same⟩

/-- What the walk does with a row of the table. -/
theorem mem_settled {row : Attachment} :
    row ∈ (settled backend order clock db memoId requested).attachments ↔
      Exists fun attachment => attachment ∈ db.attachments ∧
        attachment.id ∉ (droppedFor backend order db memoId requested).map Attachment.id ∧
        relink clock memoId (normalizedFor backend order db memoId requested).reverse 0 attachment =
          row := by
  unfold settled relinked Database.withoutAttachments
  dsimp only
  rw [List.mem_map]
  constructor
  · rintro ⟨attachment, member, same⟩
    rcases List.mem_filter.mp member with ⟨stored, kept⟩
    exact ⟨attachment, stored, of_decide_eq_true kept, same⟩
  · rintro ⟨attachment, stored, kept, same⟩
    exact ⟨attachment, List.mem_filter.mpr ⟨stored, decide_eq_true kept⟩, same⟩

section Requested

variable (keys : db.PrimaryKeys) (requests : Requests db names requested)

include keys requests

theorem normalizedFor_ids :
    ((normalizedFor backend order db memoId requested).map Attachment.id).Nodup := by
  have distinct : (normalizedFor backend order db memoId requested).Nodup :=
    List.Nodup.of_map _ (normalizes_of_requests requests).distinct
  refine List.Nodup.map_on ?_ distinct
  intro first left second right same
  exact eq_of_nodup_map keys.attachmentIds (stored_of_requests requests left) (stored_of_requests requests right) same

variable {attachment : Attachment}

theorem not_dropped_of_normalized (chosen : MayChoose order)
    (member : attachment ∈ normalizedFor backend order db memoId requested) :
    attachment.id ∉ (droppedFor backend order db memoId requested).map Attachment.id := by
  intro inDropped
  rcases List.mem_map.mp inDropped with ⟨other, dropped, same⟩
  have both := (mem_droppedFor keys chosen requests).mp dropped
  have stored := (@droppedFor_stored backend order db requested keys chosen memoId).2 other dropped
  have rows := eq_of_nodup_map keys.attachmentIds stored (stored_of_requests requests member) same
  rw [rows] at both
  exact both.2 member

/-- A row that the request does not keep is untouched or gone. -/
theorem relink_not_normalized (stored : attachment ∈ db.attachments)
    (other : attachment ∉ normalizedFor backend order db memoId requested) (index : Nat) :
    relink clock memoId (normalizedFor backend order db memoId requested).reverse index attachment =
      attachment := by
  refine relink_other fun inList => other ?_
  rcases List.mem_map.mp inList with ⟨row, member, same⟩
  have inNormalized := List.mem_reverse.mp member
  have rows := eq_of_nodup_map keys.attachmentIds (stored_of_requests requests inNormalized) stored same
  rw [← rows]
  exact inNormalized

theorem relink_normalized {index : Nat}
    (there : (normalizedFor backend order db memoId requested).reverse[index]? = some attachment) :
    relink clock memoId (normalizedFor backend order db memoId requested).reverse 0 attachment =
      linkedAt clock memoId index attachment := by
  have distinct : ((normalizedFor backend order db memoId requested).reverse.map
      Attachment.id).Nodup := by
    rw [List.map_reverse, List.nodup_reverse]
    exact normalizedFor_ids keys requests
  have linked := @relink_at clock memoId _ 0 index attachment distinct there
  rw [Nat.zero_add] at linked
  exact linked

omit requests in
theorem settled_ids :
    ((settled backend order clock db memoId requested).attachments.map Attachment.id).Nodup := by
  unfold settled relinked Database.withoutAttachments
  dsimp only
  rw [List.map_map]
  have ids : Attachment.id ∘ relink clock memoId
      (normalizedFor backend order db memoId requested).reverse 0 = Attachment.id :=
    funext fun row => relink_id _ _ row
  rw [ids]
  exact nodup_map_of_sublist keys.attachmentIds List.filter_sublist

/-- The attachments of the memo are those of the request. -/
theorem linkedTo_settled (chosen : MayChoose order) (forwards : Monotone clock)
    (complete : Complete backend order db memoId requested) :
    (linkedList clock memoId (normalizedFor backend order db memoId requested)).Perm
      (linkedTo (settled backend order clock db memoId requested) memoId) := by
  have distinct : (linkedTo (settled backend order clock db memoId requested) memoId).Nodup :=
    (List.Nodup.of_map _ (settled_ids keys)).filter _
  have ordered := @linkedList_descending clock memoId forwards
    (normalizedFor backend order db memoId requested)
  refine (List.perm_ext_iff_of_nodup (ordered.imp fun below same => ?_) distinct).mpr fun row => ?_
  · rw [same] at below
    exact absurd below (lt_irrefl _)
  rw [linkedTo, List.mem_filter, mem_linkedList, mem_settled, decide_eq_true_eq]
  constructor
  · rintro ⟨index, attachment, there, rfl⟩
    have member := List.mem_reverse.mp (List.mem_of_getElem? there)
    refine ⟨⟨attachment, stored_of_requests requests member,
      not_dropped_of_normalized keys requests chosen member, ?_⟩, rfl⟩
    exact relink_normalized keys requests there
  · rintro ⟨⟨attachment, stored, kept, same⟩, linked⟩
    have member : attachment ∈ normalizedFor backend order db memoId requested := by
      by_contra other
      rw [relink_not_normalized keys requests stored other] at same
      rw [← same] at linked
      have inOrder : attachment ∈ order (linkedTo db memoId) :=
        (chosen _).perm.mem_iff.mpr (List.mem_filter.mpr ⟨stored, decide_eq_true linked⟩)
      rw [← List.take_append_drop defaultAttachmentLimit (order (linkedTo db memoId)),
        List.mem_append] at inOrder
      rcases inOrder with early | late
      · exact kept (List.mem_map.mpr
          ⟨attachment, (mem_droppedFor keys chosen requests).mpr ⟨early, other⟩, rfl⟩)
      · exact other (complete attachment late)
    rcases List.getElem?_of_mem (List.mem_reverse.mpr member) with ⟨index, there⟩
    rw [relink_normalized keys requests there] at same
    exact ⟨index, attachment, there, same⟩

/-- `ListAttachments` afterwards, whatever order the database chooses. -/
theorem listAttachments_settled (chosen : MayChoose order) (forwards : Monotone clock)
    (complete : Complete backend order db memoId requested)
    (few : (normalizedFor backend order db memoId requested).length ≤ defaultAttachmentLimit)
    {later : List Attachment -> List Attachment} (chosenLater : MayChoose later) :
    listAttachments later (settled backend order clock db memoId requested) memoId =
      linkedList clock memoId (normalizedFor backend order db memoId requested) := by
  have whole := (chosenLater (linkedTo (settled backend order clock db memoId requested)
    memoId)).eq_of_strict (linkedTo_settled keys requests chosen forwards complete)
      (linkedList_descending forwards _)
  unfold listAttachments
  rw [whole]
  refine List.take_of_length_le ?_
  unfold linkedList
  rw [List.length_reverse, List.length_mapIdx, List.length_reverse]
  exact few

end Requested

end Listing

/-! ## When the request establishes its list -/

section Established

variable {backend : Backend} {order : List Attachment -> List Attachment} {clock : Nat -> Int}
  {db : Database} {userId : Nat} {name : String} {names : List String} {user : User}
  {joined : JoinedMemo} {requested : List Attachment}

/-- The memo has the attachments of the list in its order, the others that it
had are gone, and those of other memos are as they were. -/
structure Established (db after : Database) (userId : Nat) (name : String) (memoId : Nat)
    (normalized : List Attachment) : Prop where
  listed : forall later, MayChoose later -> Exists fun rows =>
    listMemoAttachments later userId after name = .ok rows ∧
      List.Forall₂ (fun row attachment =>
        row = { attachment with memoId := some memoId, updatedTs := row.updatedTs }) rows normalized
  removed : forall attachment, attachment ∈ db.attachments -> attachment.memoId = some memoId ->
    attachment ∉ normalized -> attachment.id ∉ after.attachments.map Attachment.id
  others : forall attachment, attachment ∈ db.attachments -> attachment.memoId ≠ some memoId ->
    attachment ∉ normalized -> attachment ∈ after.attachments

/-- A request that succeeds establishes its list, and one that is denied changes
nothing, whatever else goes wrong and as long as the clock does not go back. -/
def SetsAttachments (backend : Backend) (order : List Attachment -> List Attachment)
    (db : Database) (userId : Nat) (name : String) (names : List String) : Prop :=
  forall surroundings : Backend, surroundings.motionGroup = backend.motionGroup ->
  forall clock, Monotone clock -> forall plans,
    match setMemoAttachments surroundings order clock userId name names ⟨db, plans⟩ with
    | (.ok (), after) => Exists fun joined => Exists fun requested =>
        extractMemoUIDFromName name = .ok joined.memo.uid ∧
        memoByUid db joined.memo.uid = some joined ∧ Requests db names requested ∧
        Established db after.state userId name joined.memo.id
          (normalizedFor backend order db joined.memo.id requested)
    | (.error status, after) => status.code = .permissionDenied -> after.state = db

/-- A request that is denied has changed nothing. -/
theorem SetsAttachments.denied (sets : SetsAttachments backend order db userId name names)
    (forwards : Monotone clock) {plans : List (List (Option String))} {status : Status}
    {after : World Database}
    (ran : setMemoAttachments backend order clock userId name names ⟨db, plans⟩ =
      (.error status, after)) (denied : status.code = .permissionDenied) : after.state = db := by
  have run := sets backend rfl clock forwards plans
  rw [ran] at run
  exact run denied

/-- Unless the walk stops at once, the caller may remove whatever is dropped,
and neither the current nor the requested list is longer than what a query
returns. -/
def Manageable (backend : Backend) (order : List Attachment -> List Attachment) (db : Database)
    (userId : Nat) (name : String) (names : List String) : Prop :=
  forall user joined requested, Admitted db userId name names user joined requested ->
    (Exists fun first => Exists fun rest =>
      droppedFor backend order db joined.memo.id requested = first :: rest ∧
        ¬ MayAttach user first) ∨
    ((forall attachment, attachment ∈ droppedFor backend order db joined.memo.id requested ->
        MayAttach user attachment) ∧
      (normalizedFor backend order db joined.memo.id requested).length ≤ defaultAttachmentLimit ∧
      Complete backend order db joined.memo.id requested)

theorem touched_keyed (keyed : db.Keyed) (memoId : Nat) : (touched backend memoId db).Keyed := by
  unfold touched
  constructor
  · dsimp only
    rw [List.map_map]
    exact (List.map_congr_left fun memo _ => UpdateMemo.apply_id _ memo) ▸ keyed.memoIds
  · dsimp only
    rw [List.map_map]
    exact (List.map_congr_left fun memo _ => UpdateMemo.apply_uid _ memo) ▸ keyed.memoUids

/-- Who may edit the memo may also list its attachments afterwards. -/
theorem listMemoAttachments_touched (keyed : db.Keyed)
    (admitted : Admitted db userId name names user joined requested) {state : Database}
    (memos : state.memos = db.memos) (users : state.users = db.users)
    (later : List Attachment -> List Attachment) :
    listMemoAttachments later userId (touched backend joined.memo.id state) name =
      .ok (listAttachments later state joined.memo.id) := by
  have stateKeyed : state.Keyed := by
    constructor
    · rw [memos]
      exact keyed.memoIds
    · rw [memos]
      exact keyed.memoUids
  have stored : joined.memo ∈ state.memos := by
    rw [memos]
    exact Database.mem_joinedMemos (memoByUid_eq_some admitted.found).1
  let update : UpdateMemo := { id := joined.memo.id, updatedTs := some backend.now }
  have updated : update.apply joined.memo ∈ (touched backend joined.memo.id state).memos :=
    List.mem_map.mpr ⟨joined.memo, stored, rfl⟩
  have same : update.apply joined.memo = { joined.memo with updatedTs := backend.now } := by
    unfold UpdateMemo.apply
    rw [if_pos rfl]
    rfl
  rcases exists_memoByUid (@touched_keyed backend _ stateKeyed joined.memo.id) updated with
    ⟨row, found, isMemo⟩
  rw [same] at found isMemo
  have caller : fetchCurrentUser (touched backend joined.memo.id state) userId = .ok (some user) := by
    have lookup : fetchCurrentUser (touched backend joined.memo.id state) userId =
        fetchCurrentUser db userId := by
      unfold fetchCurrentUser userById touched
      dsimp only
      rw [users]
    rw [lookup]
    exact admitted.caller
  have allowed : refusedUnlessSuperUser row.memo user = false := by
    have may := admitted.allowed
    unfold canModifyMemo at may
    unfold refusedUnlessSuperUser
    rw [isMemo]
    rw [Bool.or_eq_true, decide_eq_true_eq] at may
    rcases may with own | super
    · simp [own]
    · simp [super]
  have visible : checkVisibility (orStatus .internal "failed to get user: "
      (fetchCurrentUser (touched backend joined.memo.id state) userId))
      (refusedUnlessSuperUser row.memo) row.memo = .ok () := by
    unfold checkVisibility
    rw [caller]
    split
    · rfl
    · change (if row.memo.visibility = .isPrivate ∧ refusedUnlessSuperUser row.memo user = true then _
        else _) = _
      rw [if_neg]
      rw [allowed]
      exact fun both => nomatch both.2
  unfold listMemoAttachments
  rw [admitted.named]
  change (match memoByUid (touched backend joined.memo.id state) joined.memo.uid with
    | none => _
    | some joined => _) = _
  rw [found]
  dsimp only
  rw [visible, isMemo]
  rfl

theorem established_settled (keys : db.PrimaryKeys) (chosen : MayChoose order) (forwards : Monotone clock)
    (admitted : Admitted db userId name names user joined requested)
    (few : (normalizedFor backend order db joined.memo.id requested).length ≤ defaultAttachmentLimit)
    (complete : Complete backend order db joined.memo.id requested) :
    Established db
      (touched backend joined.memo.id (settled backend order clock db joined.memo.id requested))
      userId name joined.memo.id (normalizedFor backend order db joined.memo.id requested) where
  listed := by
    intro later chosenLater
    have listing := @listMemoAttachments_touched backend db userId name names user joined requested
      keys.toKeyed admitted (settled backend order clock db joined.memo.id requested) rfl rfl later
    refine ⟨_, listing, ?_⟩
    rw [listAttachments_settled keys admitted.requests chosen forwards complete few chosenLater]
    exact forall₂_linkedList _
  removed := by
    intro attachment stored linked other inTable
    rcases List.mem_map.mp inTable with ⟨row, member, same⟩
    rcases mem_settled.mp member with ⟨source, inDatabase, kept, isRow⟩
    have ids : source.id = attachment.id := by
      rw [← same, ← isRow, relink_id]
    have rows := eq_of_nodup_map keys.attachmentIds inDatabase stored ids
    rw [rows] at kept
    have inOrder : attachment ∈ order (linkedTo db joined.memo.id) :=
      (chosen _).perm.mem_iff.mpr (List.mem_filter.mpr ⟨stored, decide_eq_true linked⟩)
    rw [← List.take_append_drop defaultAttachmentLimit (order (linkedTo db joined.memo.id)),
      List.mem_append] at inOrder
    rcases inOrder with early | late
    · exact kept (List.mem_map.mpr
        ⟨attachment, (mem_droppedFor keys chosen admitted.requests).mpr ⟨early, other⟩, rfl⟩)
    · exact other (complete attachment late)
  others := by
    intro attachment stored unlinked other
    refine mem_settled.mpr ⟨attachment, stored, ?_, relink_not_normalized keys admitted.requests stored other 0⟩
    intro inDropped
    rcases List.mem_map.mp inDropped with ⟨row, dropped, same⟩
    have listed := List.mem_of_mem_take ((mem_droppedFor keys chosen admitted.requests).mp dropped).1
    rcases List.mem_filter.mp ((chosen _).perm.mem_iff.mp listed) with ⟨inDatabase, linked⟩
    rw [eq_of_nodup_map keys.attachmentIds inDatabase stored same] at linked
    exact unlinked (of_decide_eq_true linked)

variable {other : Backend}

/-- Only the motion groups are read off the backend. -/
theorem normalizeAttachments_congr (same : other.motionGroup = backend.motionGroup)
    (current requested rest normalized : List Attachment) (groups : List String) :
    normalizeAttachments other current requested rest normalized groups =
      normalizeAttachments backend current requested rest normalized groups := by
  induction rest generalizing normalized groups with
  | nil => rfl
  | cons attachment rest ih =>
      have members : forall list group, currentGroup other list group =
          currentGroup backend list group := by
        intro list group
        unfold currentGroup
        rw [same]
      have several : forall list, isMultiMemberMotionGroup other list =
          isMultiMemberMotionGroup backend list := by
        intro list
        unfold isMultiMemberMotionGroup
        rw [same]
      rw [normalizeAttachments_cons, normalizeAttachments_cons, same]
      simp only [members, several, ih]

theorem normalizedFor_congr (same : other.motionGroup = backend.motionGroup) (memoId : Nat) :
    normalizedFor other order db memoId requested =
      normalizedFor backend order db memoId requested :=
  normalizeAttachments_congr same _ _ _ _ _

/-- Surroundings in which nothing goes wrong. -/
def untroubled (backend : Backend) : Backend :=
  { backend with storageFault := fun _ => none, respond := fun _ _ => .ok () }

theorem quiet_untroubled : Quiet (untroubled backend) := ⟨fun _ => rfl, fun _ _ => rfl⟩

theorem untroubled_motionGroup : (untroubled backend).motionGroup = backend.motionGroup := rfl

theorem droppedFor_congr (same : other.motionGroup = backend.motionGroup) (memoId : Nat) :
    droppedFor other order db memoId requested =
      droppedFor backend order db memoId requested := by
  unfold droppedFor
  rw [normalizedFor_congr same]

/-- The walk over attachments of which one is foreign stops at one. -/
theorem exists_foreign {dropped : List Attachment}
    (foreign : ¬ forall attachment, attachment ∈ dropped -> MayAttach user attachment) :
    Exists fun removed => Exists fun first => Exists fun rest =>
      dropped = removed ++ first :: rest ∧
        (forall attachment, attachment ∈ removed -> MayAttach user attachment) ∧
        ¬ MayAttach user first := by
  induction dropped with
  | nil => exact absurd (fun _ impossible => nomatch impossible) foreign
  | cons attachment rest ih =>
      by_cases own : MayAttach user attachment
      · have later : ¬ forall other, other ∈ rest -> MayAttach user other := by
          intro all
          refine foreign fun other member => ?_
          rcases List.mem_cons.mp member with rfl | inRest
          · exact own
          · exact all other inRest
        rcases ih later with ⟨removed, first, others, split, permitted, stops⟩
        refine ⟨attachment :: removed, first, others, by rw [split]; rfl, ?_, stops⟩
        intro other member
        rcases List.mem_cons.mp member with rfl | inRemoved
        · exact own
        · exact permitted other inRemoved
      · exact ⟨[], attachment, rest, rfl, nofun, own⟩

/-- The condition is enough. -/
theorem setsAttachments_of_manageable (keys : db.PrimaryKeys) (chosen : MayChoose order)
    (manageable : Manageable backend order db userId name names) :
    SetsAttachments backend order db userId name names := by
  intro surroundings same clock forwards plans
  have ends := @ends_setMemoAttachments surroundings order clock db userId name names ⟨db, plans⟩ rfl
  rcases ran : setMemoAttachments surroundings order clock userId name names ⟨db, plans⟩ with
    ⟨outcome, after⟩
  rw [ran] at ends
  cases outcome with
  | ok _ =>
      rcases ends with ⟨user, joined, requested, admitted, own, isAfter⟩
      dsimp only at isAfter ⊢
      rw [droppedFor_congr same] at own
      rcases manageable user joined requested admitted with
        ⟨first, rest, split, foreign⟩ | ⟨_, few, complete⟩
      · rw [split] at own
        exact absurd (own first List.mem_cons_self) foreign
      · rw [← normalizedFor_congr same] at few
        have completeHere : Complete surroundings order db joined.memo.id requested := by
          intro attachment late
          rw [normalizedFor_congr same]
          exact complete attachment late
        have established := @established_settled surroundings order clock db userId name names user
          joined requested keys chosen forwards admitted few completeHere
        rw [normalizedFor_congr same, ← isAfter] at established
        exact ⟨joined, requested, admitted.named, admitted.found, admitted.requests, established⟩
  | error status =>
      intro denied
      rcases ends denied with unchanged | ⟨user, joined, requested, admitted, removed, first, rest,
        split, own, foreign, isAfter⟩
      · exact unchanged
      · rw [droppedFor_congr same] at split
        have atOnce : removed = [] := by
          rcases manageable user joined requested admitted with
            ⟨stop, others, head, stops⟩ | ⟨all, _⟩
          · cases removed with
            | nil => rfl
            | cons attachment removed =>
                rw [split] at head
                rw [(List.cons.inj head).1] at own
                exact absurd (own stop List.mem_cons_self) stops
          · rw [split] at all
            exact absurd (all first (List.mem_append_right _ List.mem_cons_self)) foreign
        rw [isAfter, atOnce]
        simp [Database.withoutAttachments]

/-- The condition is needed. -/
theorem manageable_of_setsAttachments (keys : db.PrimaryKeys) (chosen : MayChoose order)
    (sets : SetsAttachments backend order db userId name names) :
    Manageable backend order db userId name names := by
  intro user joined requested admitted
  have monotone : Monotone fun _ : Nat => (0 : Int) := fun _ _ _ => le_refl _
  have run := sets (untroubled backend) rfl (fun _ => 0) monotone []
  have dropped : droppedFor (untroubled backend) order db joined.memo.id requested =
      droppedFor backend order db joined.memo.id requested :=
    droppedFor_congr untroubled_motionGroup _
  rcases @droppedFor_stored backend order db requested keys chosen joined.memo.id with
    ⟨distinct, stored⟩
  by_cases own : forall attachment,
      attachment ∈ droppedFor backend order db joined.memo.id requested -> MayAttach user attachment
  · right
    rw [← dropped] at own
    rw [setMemoAttachments_quiet quiet_untroubled keys chosen admitted own] at run
    rcases run with ⟨memo, rows, named, found, requests, established⟩
    have sameUid : memo.memo.uid = joined.memo.uid := Except.ok.inj (named.symm.trans admitted.named)
    rw [sameUid, admitted.found] at found
    cases found
    rw [requests.unique admitted.requests] at established
    rw [dropped] at own
    refine ⟨own, ?_, ?_⟩
    · rcases established.listed order chosen with ⟨listed, success, related⟩
      have listing := @listMemoAttachments_touched (untroubled backend) db userId name names user
        joined requested keys.toKeyed admitted
        (settled (untroubled backend) order (fun _ => 0) db joined.memo.id requested) rfl rfl order
      rw [Except.ok.inj (success.symm.trans listing)] at related
      rw [← related.length_eq]
      exact List.length_take_le _ _
    · intro attachment late
      by_contra other
      have inOrder := List.mem_of_mem_drop late
      rcases List.mem_filter.mp ((chosen _).perm.mem_iff.mp inOrder) with ⟨inTable, linked⟩
      refine established.removed attachment inTable (of_decide_eq_true linked) other ?_
      have distinctOrder : (order (linkedTo db joined.memo.id)).Nodup :=
        (chosen _).perm.nodup_iff.mpr
          ((List.Nodup.of_map _ keys.attachmentIds).filter _)
      have kept : attachment.id ∉
          (droppedFor (untroubled backend) order db joined.memo.id requested).map Attachment.id := by
        rw [dropped]
        intro inDropped
        rcases List.mem_map.mp inDropped with ⟨row, member, same⟩
        rw [eq_of_nodup_map keys.attachmentIds (stored row member) inTable same] at member
        have early := ((mem_droppedFor keys chosen admitted.requests).mp member).1
        exact List.disjoint_take_drop distinctOrder (le_refl _) early late
      rw [← normalizedFor_congr untroubled_motionGroup] at other
      exact List.mem_map.mpr ⟨attachment, mem_settled.mpr ⟨attachment, inTable, kept,
        relink_not_normalized keys admitted.requests inTable other 0⟩, rfl⟩
  · left
    rcases exists_foreign own with ⟨removed, first, rest, split, permitted, foreign⟩
    cases removed with
    | nil => exact ⟨first, rest, split, foreign⟩
    | cons attachment removed =>
        rw [← dropped] at split
        rw [setMemoAttachments_denied quiet_untroubled keys chosen admitted split permitted foreign]
          at run
        have unchanged := run rfl
        rw [dropped] at split
        have inTable := stored attachment (by rw [split]; exact List.mem_cons_self)
        have gone : attachment ∉ db.attachments := by
          rw [← unchanged]
          intro member
          have kept := of_decide_eq_true (List.mem_filter.mp member).2
          exact kept List.mem_cons_self
        exact absurd inTable gone

/-- Exactly under this condition a request establishes its list or changes
nothing. -/
theorem setsAttachments_iff (keys : db.PrimaryKeys) (chosen : MayChoose order) :
    SetsAttachments backend order db userId name names ↔
      Manageable backend order db userId name names :=
  ⟨manageable_of_setsAttachments keys chosen, setsAttachments_of_manageable keys chosen⟩

end Established

/-! ## A memo with attachments of two users -/

def galleryMemo : Memo where
  id := 1
  uid := "gallery"
  rowStatus := .normal
  creatorId := 1
  createdTs := 0
  updatedTs := 0
  content := ""
  visibility := .isPrivate
  pinned := false
  payload := ⟨none, []⟩

def galleryAttachment (id creatorId : Nat) (uid : String) (updatedTs : Int) : Attachment where
  id := id
  uid := uid
  creatorId := creatorId
  updatedTs := updatedTs
  memoId := some 1

def gallery (attachments : List Attachment) : Database :=
  { users := [photographer], memos := [galleryMemo], attachments }

def ownPicture : Attachment := galleryAttachment 1 1 "own" 2

/-- An administrator has attached it. -/
def foreignPicture : Attachment := galleryAttachment 2 2 "foreign" 1

theorem gallery_keys {attachments : List Attachment}
    (distinct : (attachments.map Attachment.id).Nodup) : (gallery attachments).PrimaryKeys where
  memoIds := List.nodup_singleton _
  memoUids := List.nodup_singleton _
  attachmentIds := distinct
  inboxIds := List.nodup_nil

theorem galleryName : extractMemoUIDFromName (buildMemoName "gallery") = .ok "gallery" :=
  extractMemoUIDFromName_buildMemoName ⟨by decide, by decide⟩

/-- The photographer asks for an empty list. -/
theorem exists_admitted {attachments : List Attachment} (distinct : (attachments.map Attachment.id).Nodup) :
    Exists fun joined => joined.memo = galleryMemo ∧
      Admitted (gallery attachments) 1 (buildMemoName "gallery") [] photographer joined [] := by
  rcases @exists_memoByUid (gallery attachments) (gallery_keys distinct).toKeyed galleryMemo
    List.mem_cons_self with ⟨joined, found, same⟩
  have uid : joined.memo.uid = "gallery" := by rw [same]; rfl
  refine ⟨joined, same, rfl, ?_, ?_, ?_, .nil, nofun⟩
  · rw [uid]
    exact galleryName
  · rw [uid]
    exact found
  · rw [same]
    rfl

theorem Admitted.gallery {attachments requested : List Attachment} {user : User} {joined : JoinedMemo}
    (admitted : Admitted (gallery attachments) 1 (buildMemoName "gallery") [] user joined requested) :
    user = photographer ∧ joined.memo = galleryMemo ∧ requested = [] := by
  have caller := admitted.caller
  have stored := Database.mem_joinedMemos (memoByUid_eq_some admitted.found).1
  have none := admitted.requests
  cases none
  exact ⟨(Option.some.inj (Except.ok.inj caller)).symm, List.mem_singleton.mp stored, rfl⟩

theorem normalizedFor_nil {backend : Backend} {order : List Attachment -> List Attachment}
    {db : Database} {memoId : Nat} : normalizedFor backend order db memoId [] = [] := rfl

/-- Everything that is listed is dropped. -/
theorem droppedFor_nil {backend : Backend} {order : List Attachment -> List Attachment}
    {db : Database} {memoId : Nat} :
    droppedFor backend order db memoId [] = listAttachments order db memoId := by
  unfold droppedFor
  rw [normalizedFor_nil]
  exact List.filter_eq_self.mpr fun _ _ => rfl

/-- The walk removes the own picture before it is denied. -/
theorem foreignPicture_denied :
    ¬ SetsAttachments quietBackend byUpdatedTs (gallery [ownPicture, foreignPicture])
      1 (buildMemoName "gallery") [] := by
  intro sets
  have distinct : ([ownPicture, foreignPicture].map Attachment.id).Nodup := by decide
  rcases exists_admitted distinct with ⟨joined, same, admitted⟩
  have monotone : Monotone fun _ : Nat => (0 : Int) := fun _ _ _ => le_refl _
  have quiet : Quiet quietBackend := ⟨fun _ => rfl, fun _ _ => rfl⟩
  have sorted : byUpdatedTs [ownPicture, foreignPicture] =
      [ownPicture, foreignPicture] := List.mergeSort_of_pairwise (by decide)
  have dropped : droppedFor quietBackend byUpdatedTs
      (gallery [ownPicture, foreignPicture]) joined.memo.id [] =
        [ownPicture] ++ foreignPicture :: [] := by
    have linked : linkedTo (gallery [ownPicture, foreignPicture]) galleryMemo.id =
        [ownPicture, foreignPicture] := rfl
    rw [droppedFor_nil, same, listAttachments, linked, sorted]
    exact List.take_of_length_le (Nat.le_of_ble_eq_true rfl)
  have own : forall attachment, attachment ∈ [ownPicture] -> MayAttach photographer attachment := by
    decide
  have foreign : ¬ MayAttach photographer foreignPicture := by decide
  have ran := @setMemoAttachments_denied quietBackend byUpdatedTs (fun _ => 0)
    (gallery [ownPicture, foreignPicture]) 1 (buildMemoName "gallery") [] photographer joined []
    quiet (gallery_keys distinct) AttachmentPages.descending_byUpdatedTs admitted [ownPicture] []
    foreignPicture dropped own foreign
  have rows := congrArg (fun db : Database => db.attachments.length) (sets.denied monotone ran rfl)
  exact absurd rows (by decide)

/-- Without a foreign attachment the list is established. -/
theorem ownPicture_removed :
    SetsAttachments quietBackend byUpdatedTs (gallery [ownPicture]) 1
      (buildMemoName "gallery") [] := by
  refine (setsAttachments_iff (gallery_keys (by decide))
    AttachmentPages.descending_byUpdatedTs).mpr fun user joined requested admitted => .inr ?_
  rcases admitted.gallery with ⟨rfl, same, rfl⟩
  rw [same]
  rw [droppedFor_nil, normalizedFor_nil]
  refine ⟨?_, by decide, ?_⟩
  · intro attachment member
    have listed := List.mem_of_mem_take member
    have linked := (AttachmentPages.descending_byUpdatedTs _).perm.mem_iff.mp listed
    rw [List.mem_singleton.mp (List.mem_filter.mp linked).1]
    exact .inl rfl
  · intro attachment late
    have short : (byUpdatedTs (linkedTo (gallery [ownPicture]) galleryMemo.id)).length =
        1 := (AttachmentPages.descending_byUpdatedTs _).perm.length_eq
    rw [List.drop_eq_nil_of_le (by rw [short]; decide)] at late
    cases late

end MemoAttachments
end Service
end Memos
