import Memos.Service.Requests
import Memos.Store.Calls

namespace Memos
namespace Service

open Library Memos.Filter Store Handler

/-!
# Requests are sequences of steps

Whatever its outcome, a request takes the database from step to step.  The
deletion of a memo is treated apart, since it is the request whose steps need
a permission.
-/

section Steps

variable {start : Database} {facts : Database -> Prop} {backend : Backend} {userId : Nat}

/-! ## Reading -/

section Reading

variable {step : Database -> Database -> Prop}

theorem follows_read {α : Type} {select : Database -> α} {status : String -> Status} :
    Follows step start facts (read select status)
      (fun value db => facts db ∧ select db = value) :=
  follows_weaken follows_query (fun _ given => given)
    fun _ _ known => ⟨known.1, Except.ok.inj known.2⟩

theorem follows_authenticated {context : String} :
    Follows step start facts (authenticated userId context) (fun _ => facts) :=
  follows_bind follows_query fun _ =>
    follows_weaken follows_found (fun _ known => known) fun _ _ known => known.1.1

section Lookup

variable {name uid : String} {failing : String -> Status} {missing : Status}

theorem follows_memoUidOf : Follows step start facts (memoUidOf name)
    (fun uid db => facts db ∧ extractMemoUIDFromName name = .ok uid) :=
  follows_lift

theorem follows_memoOfUid : Follows step start facts (memoOfUid uid failing missing)
    (fun joined db => facts db ∧ joined ∈ db.joinedMemos ∧ joined.memo.uid = uid) := by
  refine follows_bind follows_read fun row => ?_
  refine follows_weaken follows_found (fun _ known => known) ?_
  rintro joined db ⟨⟨given, lookup⟩, same⟩
  rw [same] at lookup
  exact ⟨given, memoByUid_eq_some lookup⟩

/-- The memo of a name is in the join, and the name is made of its uid. -/
theorem follows_memoByName : Follows step start facts (memoByName name failing missing)
    (fun joined db => facts db ∧
      joined ∈ db.joinedMemos ∧ extractMemoUIDFromName name = .ok joined.memo.uid) := by
  refine follows_bind follows_memoUidOf fun uid => follows_weaken follows_memoOfUid (fun _ given => given) ?_
  rintro joined db ⟨⟨given, named⟩, stored, sameUid⟩
  exact ⟨given, stored, by rw [named, sameUid]⟩

end Lookup

/-- The facts about a memo that a handler has found. -/
theorem follows_withMemo {α : Type} {name : String} {handler : JoinedMemo -> Request α}
    {after : α -> Database -> Prop}
    (valid : forall joined, Follows step start
      (fun db => facts db ∧ db.HasRef joined.memo.ref) (handler joined) after) :
    Follows step start facts (memoByName name >>= handler) after :=
  follows_bind follows_memoByName fun joined => follows_weaken (valid joined)
    (fun _ known => ⟨known.1, Database.hasRef_of_mem (Database.mem_joinedMemos known.2.1)⟩)
    fun _ _ given => given

theorem follows_respond {memo : Memo} {context : String} :
    Follows step start facts (respond backend memo context) (fun _ => facts) :=
  follows_weaken follows_query (fun _ given => given) fun _ _ known => known.1

theorem follows_requestedAttachments {user : User} {names : List String} :
    Follows step start facts (requestedAttachments user names) (fun _ => facts) := by
  induction names with
  | nil => exact follows_pure fun _ given => given
  | cons name names ih =>
      refine follows_bind follows_lift fun uid => follows_bind follows_read fun row => ?_
      refine follows_bind follows_found fun attachment => follows_bind follows_require fun _ => ?_
      refine follows_weaken ?_ (fun db known => known.1.1.1.1) fun _ _ given => given
      exact follows_bind ih fun others => follows_pure fun _ given => given

theorem follows_normalizeMemoAttachmentRequest {user : User} {current : List Attachment}
    {names : List String} :
    Follows step start facts
      (normalizeMemoAttachmentRequest backend user current names) (fun _ => facts) :=
  follows_bind follows_requestedAttachments fun _ => follows_pure fun _ given => given

/-- The visibility that an update of the memo asks for: that of the parent for
a comment. -/
def VisibilityOf (db : Database) (parentUid : Option String) (input : MemoInput)
    (visibility : Visibility) : Prop :=
  match parentUid with
  | none => visibility = input.visibility
  | some uid => Exists fun parent =>
      parent ∈ db.memos ∧ parent.uid = uid ∧ visibility = parent.visibility

theorem follows_updatedVisibility {parentUid : Option String} {input : MemoInput} :
    Follows step start facts (updatedVisibility parentUid input)
      (fun visibility db => facts db ∧ VisibilityOf db parentUid input visibility) := by
  cases parentUid with
  | none => exact follows_pure fun _ given => ⟨given, rfl⟩
  | some uid =>
      refine follows_bind follows_read fun row => follows_bind follows_found fun parent => ?_
      refine follows_pure ?_
      rintro db ⟨⟨given, lookup⟩, same⟩
      rw [same] at lookup
      rcases memoByUid_eq_some lookup with ⟨stored, sameUid⟩
      exact ⟨given, parent.memo, Database.mem_joinedMemos stored, sameUid, rfl⟩

end Reading

/-! ## What belongs to a memo -/

section MemoParts

variable {step : Database -> Database -> Prop}

theorem follows_linkAttachments {clock : Nat -> Int} {memoId : Nat}
    (permits : Permits step start facts (AttachmentWrite memoId)) {attachments : List Attachment}
    {index : Nat} :
    Follows step start facts (MemoAttachments.linkAttachments clock memoId attachments index)
      (fun _ => facts) := by
  induction attachments generalizing index with
  | nil => exact follows_pure fun _ given => given
  | cons attachment rest ih =>
      exact follows_bind (follows_linkAttachment permits rfl) fun _ => ih

variable {user : User} {memo : Memo} {mask : List String}

theorem follows_setMemoAttachmentsInternal {order : List Attachment -> List Attachment} {clock : Nat -> Int}
    {names : List String} (permits : Permits step start facts (AttachmentWrite memo.id)) :
    Follows step start facts
      (MemoAttachments.setMemoAttachmentsInternal backend order clock user memo names)
      (fun _ => facts) := by
  refine follows_bind (follows_weaken follows_read (fun _ given => given)
    fun _ _ known => known.1) fun current => ?_
  refine follows_bind follows_normalizeMemoAttachmentRequest fun normalized => ?_
  refine follows_bind (follows_forEach fun attachment _ => ?_) fun _ =>
    follows_linkAttachments permits
  exact follows_bind (follows_weaken follows_require (fun _ given => given)
    fun _ _ known => known.1) fun _ => follows_dropAttachment permits

theorem RelationType.toStore_reference {type : RelationType} (other : type ≠ .comment) :
    type.toStore = .reference := by
  cases type with
  | unspecified => rfl
  | reference => rfl
  | comment => exact absurd rfl other

/-- A relation of the request is a reference to another memo, or is skipped. -/
theorem follows_setMemoRelation {relation : RelationInput}
    (permits : Permits step start facts (ReferenceWrite memo.ref)) :
    Follows step start facts (setMemoRelation memo relation) (fun _ => facts) := by
  refine follows_ite (fun _ => follows_pure fun _ given => given) fun otherName => ?_
  refine follows_ite (fun _ => follows_pure fun _ given => given) fun otherType => ?_
  refine follows_bind follows_lift fun uid => follows_bind follows_read fun row => ?_
  refine follows_bind follows_found fun related => ?_
  rw [RelationType.toStore_reference otherType]
  apply follows_upsertMemoRelation
  · intro db known _
    exact known.1.1.1
  · rintro db ⟨steps, ⟨⟨given, named⟩, lookup⟩, same⟩ absent
    rw [same] at lookup
    rcases memoByUid_eq_some lookup with ⟨stored, sameUid⟩
    refine permits _ _ ⟨steps, given⟩ (.insert related.memo.ref ?_ ?_ absent)
    · exact Database.hasRef_of_mem (Database.mem_joinedMemos stored)
    · intro same
      apply otherName
      rw [eq_buildMemoName named, ← sameUid]
      exact congrArg buildMemoName same.symm

theorem follows_setMemoRelationsInternal {relations : List RelationInput}
    (permits : Permits step start facts (ReferenceWrite memo.ref)) :
    Follows step start facts (setMemoRelationsInternal memo relations) (fun _ => facts) :=
  follows_bind (follows_clearReferences rfl permits) fun _ =>
    follows_forEach fun _ _ => follows_setMemoRelation permits

/-! ## Creating memos -/

/-- The memo has a key that no memo of the database has or has had. -/
structure Fresh (db : Database) (memo : Memo) : Prop where
  id : memo.id = db.sequences.memo + 1
  uid : forall other, other ∈ db.memos -> other.uid ≠ memo.uid

/-- What the memo has from the request. -/
structure CreatedFrom (backend : Backend) (memoId : String) (input : MemoInput) (memo : Memo) :
    Prop where
  uid : validateAndGenerateUID backend memoId = .ok memo.uid
  content : memo.content = input.content
  visibility : memo.visibility = input.visibility

variable {input : MemoInput}

theorem follows_createMemo_request {memoId : String} {known : Memo -> Database -> Prop}
    (inserted : forall db memo, Along step start facts db -> Fresh db memo ->
      CreatedFrom backend memoId input memo ->
        step db (db.insertMemo memo) ∧ known memo (db.insertMemo memo))
    (attachments : input.attachments ≠ [] -> forall memo,
      Permits step start (known memo) (AttachmentWrite memo.id)) (references : input.relations ≠ [] -> forall memo,
      Permits step start (known memo) (ReferenceWrite memo.ref)) :
    Follows step start facts (createMemo backend userId memoId input) known := by
  refine follows_bind follows_authenticated fun user => follows_bind follows_lift fun uid => ?_
  refine follows_bind follows_lift fun limit => follows_bind follows_require fun _ => ?_
  refine follows_bind follows_lift fun payload => ?_
  refine follows_bind (?_ : Follows _ _ _ _ known) fun memo => ?_
  · apply follows_createMemo
    rintro db memo ⟨steps, ⟨⟨⟨given, validUid⟩, _⟩, _⟩, _⟩ row unused
    refine inserted db memo ⟨steps, given⟩ ⟨by rw [row]; rfl, unused⟩ ?_
    rw [row]
    exact ⟨validUid, rfl, rfl⟩
  refine follows_bind (?_ : Follows _ _ _ _ fun _ => known memo) fun _ => ?_
  · apply follows_ite
    · exact fun _ => follows_pure fun _ given => given
    · intro some
      apply follows_setMemoAttachmentsInternal
      exact attachments (fun none => some (List.isEmpty_iff.mpr none)) memo
  refine follows_bind (?_ : Follows _ _ _ _ fun _ => known memo) fun _ => ?_
  · apply follows_ite
    · exact fun _ => follows_pure fun _ given => given
    · intro some
      apply follows_setMemoRelationsInternal
      exact references (fun none => some (List.isEmpty_iff.mpr none)) memo
  exact follows_bind follows_respond fun _ => follows_pure fun _ given => given

/-! ## Updating memos -/

/-- What an update has collected for the memo, whose visibility comes from the
request or from the parent. -/
structure UpdateFrom (base : Database) (parentUid : Option String) (input : MemoInput)
    (mask : List String) (ref : MemoRef) (state : Updating) : Prop where
  memo : state.memo.ref = ref
  update : state.update.id = ref.id
  visibility : forall visibility, state.update.visibility = some visibility ->
    "visibility" ∈ mask ∧ VisibilityOf base parentUid input visibility

theorem follows_updatePath {moment : Moment} {base : Database} {parentUid : Option String} {ref : MemoRef}
    {state : Updating} {path : String} (memos : forall db, facts db -> db.memos = base.memos)
    (attachments : path = "attachments" -> Permits step start facts (AttachmentWrite ref.id))
    (references : path = "relations" -> Permits step start facts (ReferenceWrite ref)) (masked : path ∈ mask)
    (before : UpdateFrom base parentUid input mask ref state) :
    Follows step start facts (updatePath backend moment user parentUid input state path)
      (fun next db => facts db ∧ UpdateFrom base parentUid input mask ref next) := by
  have sameMemo := before.memo
  have sameId : state.memo.id = ref.id := congrArg MemoRef.id before.memo
  refine follows_ite (fun _ => ?_) fun _ => follows_ite (fun isVisibility => ?_) fun _ => ?_
  · refine follows_bind follows_lift fun limit => follows_bind follows_require fun _ => ?_
    exact follows_bind follows_lift fun payload => follows_pure fun _ known =>
      ⟨known.1.1.1, ⟨before.memo, before.update, before.visibility⟩⟩
  · refine follows_bind follows_updatedVisibility fun visibility => follows_pure ?_
    rintro db ⟨given, source⟩
    refine ⟨given, ⟨before.memo, before.update, ?_⟩⟩
    intro chosen same
    cases same
    rw [← isVisibility]
    refine ⟨masked, ?_⟩
    unfold VisibilityOf at source ⊢
    rw [← memos db given]
    exact source
  have unchanged : forall {db next}, facts db -> next.memo = state.memo ->
      next.update.id = state.update.id -> next.update.visibility = state.update.visibility ->
      facts db ∧ UpdateFrom base parentUid input mask ref next := by
    intro db next given memo id visibility
    refine ⟨given, ⟨by rw [memo]; exact before.memo, by rw [id]; exact before.update, ?_⟩⟩
    rw [visibility]
    exact before.visibility
  refine follows_ite (fun _ => follows_pure fun _ given => unchanged given rfl rfl rfl) fun _ => ?_
  refine follows_ite (fun _ => follows_pure fun _ given => unchanged given rfl rfl rfl) fun _ => ?_
  refine follows_ite (fun _ => follows_pure fun _ given => unchanged given rfl rfl rfl) fun _ => ?_
  refine follows_ite (fun _ => follows_pure fun _ given => unchanged given rfl rfl rfl) fun _ => ?_
  refine follows_ite (fun _ => follows_throw) fun _ => ?_
  refine follows_ite (fun _ => follows_pure fun _ given => unchanged given rfl rfl rfl) fun _ => ?_
  refine follows_ite (fun isAttachments => ?_) fun _ => follows_ite (fun isRelations => ?_) fun _ =>
    follows_pure fun _ given => unchanged given rfl rfl rfl
  · refine follows_bind (follows_setMemoAttachmentsInternal ?_) fun _ =>
      follows_pure fun _ given => unchanged given rfl rfl rfl
    rw [sameId]
    exact attachments isAttachments
  · refine follows_bind (follows_setMemoRelationsInternal ?_) fun _ =>
      follows_pure fun _ given => unchanged given rfl rfl rfl
    rw [sameMemo]
    exact references isRelations

/-- Only the paths for attachments and relations change the database. -/
theorem follows_updatePaths {base : Database} {parentUid : Option String} {ref : MemoRef} {paths : List String}
    {state : Updating} (memos : forall db, facts db -> db.memos = base.memos)
    (attachments : "attachments" ∈ mask -> Permits step start facts (AttachmentWrite ref.id))
    (references : "relations" ∈ mask -> Permits step start facts (ReferenceWrite ref)) (masked : paths ⊆ mask)
    (before : UpdateFrom base parentUid input mask ref state) :
    Follows step start facts (updatePaths backend user parentUid input paths state)
      (fun last db => facts db ∧ UpdateFrom base parentUid input mask ref last) := by
  induction paths generalizing state with
  | nil => exact follows_pure fun _ given => ⟨given, before⟩
  | cons path paths ih =>
      rcases List.cons_subset.mp masked with ⟨first, others⟩
      refine follows_bind (follows_updatePath memos (fun same => attachments (same ▸ first))
        (fun same => references (same ▸ first)) first before) fun next => ?_
      by_cases after : UpdateFrom base parentUid input mask ref next
      · exact follows_weaken (ih others after) (fun _ known => known.1)
          fun _ _ given => given
      · intro world known
        exact absurd known.2.2 after

/-- The last step of the request is the one update of the memo. -/
theorem follows_updateMemo_steps {name : String} (given : facts start)
    (memos : forall db, facts db -> db.memos = start.memos)
    (attachments : "attachments" ∈ mask -> forall ref, start.HasRef ref ->
      Permits step start facts (AttachmentWrite ref.id))
    (references : "relations" ∈ mask -> forall ref, start.HasRef ref ->
      Permits step start facts (ReferenceWrite ref)) (updated : forall joined, joined ∈ start.joinedMemos ->
      extractMemoUIDFromName name = .ok joined.memo.uid ->
      forall db state, Along step start facts db ->
        UpdateFrom start joined.parentUid input mask joined.memo.ref state ->
        step db { db with memos := db.memos.map state.update.apply }) :
    Follows step start (fun db => db = start) (updateMemo backend userId name mask input)
      (fun _ _ => True) := by
  refine follows_bind follows_memoUidOf fun uid => follows_bind follows_require fun _ => ?_
  refine follows_bind follows_memoOfUid fun joined => ?_
  refine follows_bind follows_authenticated fun user => follows_bind follows_require fun _ => ?_
  by_cases known : joined ∈ start.joinedMemos ∧ extractMemoUIDFromName name = .ok joined.memo.uid
  · rcases known with ⟨stored, named⟩
    have here : start.HasRef joined.memo.ref :=
      Database.hasRef_of_mem (Database.mem_joinedMemos stored)
    refine follows_weaken (?_ : Follows _ _ facts _ fun _ _ => True) ?_ fun _ _ _ => trivial
    · refine follows_bind (follows_updatePaths memos
        (fun inMask => attachments inMask joined.memo.ref here)
        (fun inMask => references inMask joined.memo.ref here) (List.Subset.refl mask)
        ⟨rfl, rfl, fun _ impossible => by cases impossible⟩) fun state => ?_
      refine follows_bind (?_ : Follows _ _ _ _ fun _ _ => True) fun _ => follows_respond
      apply follows_call
      rintro before value after steps ⟨holds, collected⟩ leads
      rw [Transaction.leads_execute leads]
      exact ⟨.inr (updated joined stored named before state ⟨steps, holds⟩ collected), trivial⟩
    · rintro db ⟨⟨⟨⟨rfl, _⟩, _⟩, _⟩, _⟩
      exact given
  · -- What has been read shows that this case does not arise.
    intro world given
    rcases given with ⟨_, ⟨⟨⟨same, named⟩, _⟩, stored, sameUid⟩, _⟩
    rw [same] at stored
    exact absurd ⟨stored, by rw [named, sameUid]⟩ known

end MemoParts

/-! ## Requests as writes -/

variable {may : Database -> Guarded -> Prop}

/-- The memos and their comments are those of the start. -/
def SameMemos (base db : Database) : Prop := db.memos = base.memos ∧ db.comments = base.comments

theorem steady_sameMemos (base : Database) : Steady (SameMemos base) :=
  fun _ _ memos comments same => ⟨memos.trans same.1, comments.trans same.2⟩

theorem SameMemos.hasRef {base db : Database} {ref : MemoRef} (same : SameMemos base db)
    (stored : base.HasRef ref) : db.HasRef ref := by
  unfold Database.HasRef
  rw [same.1]
  exact stored

variable {name : String}

theorem follows_updateMemo_request {mask : List String} {input : MemoInput} (liberal : Liberal may)
    (sound : start.Sound) (allowed : forall joined, joined ∈ start.joinedMemos ->
      extractMemoUIDFromName name = .ok joined.memo.uid ->
      forall db state, SameMemos start db ->
        UpdateFrom start joined.parentUid input mask joined.memo.ref state ->
        may db (.updateMemo state.update)) :
    Follows (Write may) start (fun db => db = start)
      (updateMemo backend userId name mask input) (fun _ _ => True) := by
  have steady := steady_sameMemos start
  have here : SameMemos start start := ⟨rfl, rfl⟩
  have memos : forall db, SameMemos start db -> db.memos = start.memos := fun _ same => same.1
  apply follows_updateMemo_steps here memos
  · exact fun _ ref stored => steady.attachments fun _ same => (same.hasRef stored).hasMemo
  · exact fun _ ref stored => steady.references liberal sound fun _ same => same.hasRef stored
  · intro joined stored named db state along collected
    exact .updateMemo _ (allowed joined stored named db state along.2 collected)

/-- A request that writes what hangs on a memo and then the memo's time. -/
theorem follows_writesOfMemo (writes : User -> Memo -> Request Unit) (liberal : Liberal may)
    (follows : forall user memo,
      Follows (Write may) start (fun db => True ∧ db.HasRef memo.ref) (writes user memo)
        fun _ db => True ∧ db.HasRef memo.ref) :
    Follows (Write may) start (fun _ => True) (do
      let user ← authenticated userId "failed to get current user: "
      let joined ← memoByName name
      require (canModifyMemo user joined.memo) permissionDenied
      writes user joined.memo
      touchMemoUpdatedTimestamp backend joined.memo.id
      respond backend joined.memo "failed to build updated memo state") (fun _ _ => True) := by
  refine follows_bind follows_authenticated fun user => follows_withMemo fun joined => ?_
  refine follows_bind (follows_weaken follows_require (fun _ given => given)
    fun _ _ known => known.1) fun _ => ?_
  refine follows_bind (follows user joined.memo) fun _ => ?_
  refine follows_bind (follows_updateMemo fun db _ => liberal.update db _ rfl) fun _ => ?_
  exact follows_respond

theorem follows_setMemoAttachments {attachments : List String} (liberal : Liberal may) :
    Follows (Write may) start (fun _ => True)
      (setMemoAttachments backend userId name attachments) (fun _ _ => True) := by
  refine follows_writesOfMemo
    (fun user memo => setMemoAttachmentsInternal backend user memo attachments) liberal
    fun user memo => ?_
  have steady : Steady fun db => True ∧ db.HasRef memo.ref :=
    steady_true.and (steady_hasRef memo.ref)
  exact follows_setMemoAttachmentsInternal (steady.attachments fun _ known => known.2.hasMemo)

theorem follows_setMemoRelations {relations : List RelationInput} (liberal : Liberal may) (sound : start.Sound) :
    Follows (Write may) start (fun _ => True)
      (setMemoRelations backend userId name relations) (fun _ _ => True) := by
  refine follows_writesOfMemo (fun _ memo => setMemoRelationsInternal memo relations) liberal
    fun user memo => ?_
  have steady : Steady fun db => True ∧ db.HasRef memo.ref :=
    steady_true.and (steady_hasRef memo.ref)
  exact follows_setMemoRelationsInternal
    (steady.references liberal sound fun _ known => known.2)

theorem follows_createMemo_writes {memoId : String} {input : MemoInput} (liberal : Liberal may)
    (sound : start.Sound) :
    Follows (Write may) start (fun _ => True) (createMemo backend userId memoId input)
      (fun memo db => db.HasRef memo.ref) := by
  apply follows_createMemo_request
  · intro db memo _ fresh _
    refine ⟨.insertMemo memo fresh.id fresh.uid, Database.hasRef_of_mem ?_⟩
    exact List.mem_append_right _ (List.mem_singleton.mpr rfl)
  · exact fun _ memo => (steady_hasRef memo.ref).attachments fun _ stored => stored.hasMemo
  · exact fun _ memo => (steady_hasRef memo.ref).references liberal sound fun _ stored => stored

/-! ## Comments -/

/-- The memo is a comment, and the memo above it is stored. -/
def HasParent (db : Database) (id : Nat) : Prop :=
  Exists fun parent => db.CommentOf id parent ∧ db.HasMemo parent

theorem follows_notifyCommented {comment parent : Memo} {creator : User}
    (kept : forall db inbox sequences, facts db ->
      facts { db with inbox := inbox, sequences := sequences }) :
    Follows (Write may) start facts (notifyCommented backend comment parent creator)
      (fun _ => facts) :=
  follows_ite (fun _ => follows_createInbox kept) fun _ => follows_pure fun _ given => given

/-- What is known of a comment between its creation and its relation: it is
stored, it is not a comment yet, and its parent is older and as visible. -/
structure Orphan (related created : Memo) (db : Database) : Prop where
  stored : created ∈ db.memos
  alone : forall parent, ¬ db.CommentOf created.id parent
  parent : related ∈ db.memos
  older : related.id < created.id
  visibility : created.visibility = related.visibility

theorem mem_comments {db : Database} {child parent : Nat} :
    ⟨child, parent, .comment⟩ ∈ db.comments ↔ db.CommentOf child parent := by
  unfold Database.comments
  rw [List.mem_filter]
  exact and_iff_left (decide_eq_true rfl)

theorem steady_orphan (related created : Memo) : Steady (Orphan related created) := by
  intro first second memos comments orphan
  refine ⟨by rw [memos]; exact orphan.stored, ?_, by rw [memos]; exact orphan.parent,
    orphan.older, orphan.visibility⟩
  intro parent comment
  rw [← mem_comments, comments, mem_comments] at comment
  exact orphan.alone parent comment

/-- A new memo is not a comment yet. -/
theorem Fresh.orphan {db : Database} {related created : Memo} (fresh : Fresh db created)
    (sound : db.Sound) (stored : related ∈ db.memos) (visibility : created.visibility = related.visibility) :
    Orphan related created (db.insertMemo created) where
  stored := List.mem_append_right _ (List.mem_singleton.mpr rfl)
  alone := by
    intro parent comment
    rcases sound.source _ comment with ⟨memo, member, same⟩
    have atMost := sound.memoBound memo member
    have next := fresh.id
    dsimp only at same
    omega
  parent := List.mem_append_left _ stored
  older := by
    have atMost := sound.memoBound related stored
    have next := fresh.id
    omega
  visibility := visibility

/-- A comment that has been created has a parent. -/
theorem follows_createMemoComment {name commentId : String} {input : Option MemoInput}
    (liberal : Liberal may) (sound : start.Sound)
    (allowed : forall db related created, db.Sound -> Orphan related created db ->
      may db (.insertRelation ⟨created.id, related.id, .comment⟩)) :
    Follows (Write may) start (fun _ => True)
      (createMemoComment backend userId name commentId input)
      (fun created db => HasParent db created.id) := by
  refine follows_bind follows_memoByName fun related => ?_
  refine follows_weaken (?_ : Follows _ _ (fun db => related.memo ∈ db.memos) _ _)
    (fun db known => Database.mem_joinedMemos known.2.1) fun _ _ known => known
  refine follows_bind follows_authenticated fun user => follows_bind follows_require fun _ => ?_
  refine follows_bind follows_found fun comment => ?_
  refine follows_weaken (?_ : Follows _ _ (fun db => related.memo ∈ db.memos) _ _)
    (fun db known => known.1.1) fun _ _ known => known
  refine follows_bind (?_ : Follows _ _ _ _ fun created db => Orphan related.memo created db)
    fun created => ?_
  · apply follows_mapError
    apply follows_createMemo_request
    · intro db memo along fresh source
      refine ⟨.insertMemo memo fresh.id fresh.uid, ?_⟩
      exact fresh.orphan (sound_of_steps sound along.1) along.2 source.visibility
    · intro _ memo
      exact (steady_orphan related.memo memo).attachments fun _ orphan =>
        Database.hasMemo_of_mem orphan.stored
    · intro _ memo
      exact (steady_orphan related.memo memo).references liberal sound fun _ orphan =>
        Database.hasRef_of_mem orphan.stored
  refine follows_strengthen (fun _ steps => sound_of_steps sound steps) ?_
  refine follows_bind follows_read fun row => ?_
  refine follows_bind (?_ : Follows _ _ _ _ fun joined db =>
    (Orphan related.memo created db ∧ db.Sound) ∧ joined.memo = created) fun joined => ?_
  · refine follows_weaken follows_found (fun _ known => known) ?_
    rintro joined db ⟨⟨⟨orphan, wellFormed⟩, lookup⟩, same⟩
    rw [same] at lookup
    rcases memoByUid_eq_some lookup with ⟨member, sameUid⟩
    refine ⟨⟨orphan, wellFormed⟩, ?_⟩
    exact eq_of_nodup_map wellFormed.memoUids (Database.mem_joinedMemos member) orphan.stored sameUid
  refine follows_bind (?_ : Follows _ _ _ _ fun _ db => HasParent db created.id) fun _ => ?_
  · apply follows_upsertMemoRelation
    · rintro db ⟨⟨orphan, _⟩, same⟩ present
      rw [same] at present
      exact absurd present (orphan.alone related.memo.id)
    · rintro db ⟨_, ⟨orphan, wellFormed⟩, same⟩ absent
      rw [same] at absent ⊢
      have parent := Database.hasMemo_of_mem orphan.parent
      refine ⟨.insertRelation _ (allowed db related.memo created wellFormed orphan) absent
        (Database.hasMemo_of_mem orphan.stored) parent, related.memo.id, ?_, parent⟩
      exact List.mem_append_right _ (List.mem_singleton.mpr rfl)
  refine follows_bind follows_read fun owner => follows_bind follows_found fun creator => ?_
  refine follows_weaken (?_ : Follows _ _ (fun db => HasParent db created.id) _ _)
    (fun db known => known.1.1) fun _ _ known => known
  exact follows_bind (follows_notifyCommented fun _ _ _ known => known) fun _ =>
    follows_pure fun _ known => known

/-! ## Attachments -/

theorem follows_createAttachment_request {attachmentId : String} {memoName : Option String} :
    Follows (Write may) start (fun _ => True)
      (createAttachment backend userId attachmentId memoName) (fun _ _ => True) := by
  refine follows_bind follows_authenticated fun user => follows_bind follows_lift fun _ => ?_
  refine follows_bind follows_lift fun uid => ?_
  refine follows_bind (?_ : Follows _ _ _ _ fun memoId db =>
    forall id, memoId = some id -> db.HasMemo id) fun memoId => ?_
  · cases memoName with
    | none =>
        refine follows_pure ?_
        intro db _ id impossible
        cases impossible
    | some name =>
        refine follows_bind follows_memoByName fun joined => follows_bind follows_require fun _ => ?_
        refine follows_pure ?_
        rintro db ⟨⟨_, stored, _⟩, _⟩ id same
        cases same
        exact Database.hasMemo_of_mem (Database.mem_joinedMemos stored)
  · exact follows_bind (follows_createAttachment fun db given => given) fun _ =>
      follows_pure fun _ _ => trivial

theorem follows_attachmentByName {select : Attachment -> Bool} :
    Follows (Write may) start (fun _ => True) (attachmentByName name select)
      (fun _ _ => True) :=
  follows_bind follows_lift fun _ => follows_bind follows_read fun _ =>
    follows_weaken follows_found (fun _ known => known) fun _ _ _ => trivial

theorem follows_updateAttachment_request :
    Follows (Write may) start (fun _ => True) (updateAttachment backend userId name)
      (fun _ _ => True) := by
  refine follows_bind follows_authenticated fun user => ?_
  refine follows_bind follows_attachmentByName fun attachment => ?_
  exact follows_bind follows_require fun _ => follows_updateAttachment rfl

theorem follows_deleteAttachment_request :
    Follows (Write may) start (fun _ => True) (deleteAttachment backend userId name)
      (fun _ _ => True) :=
  follows_bind follows_authenticated fun _ => follows_bind follows_attachmentByName fun _ =>
    follows_deleteAttachment

theorem follows_namedAttachments {user : User} {names seen : List String} :
    Follows (Write may) start (fun _ => True) (namedAttachments user names seen)
      (fun _ _ => True) := by
  induction names generalizing seen with
  | nil => exact follows_pure fun _ _ => trivial
  | cons name names ih =>
      refine follows_ite (fun _ => follows_throw) fun _ => ?_
      refine follows_ite (fun _ => ih) fun _ => ?_
      refine follows_bind follows_attachmentByName fun attachment => ?_
      refine follows_bind (follows_weaken follows_require (fun _ given => given)
        fun _ _ _ => trivial) fun _ => ?_
      exact follows_bind ih fun _ => follows_pure fun _ _ => trivial

theorem follows_batchDeleteAttachments {names : List String} :
    Follows (Write may) start (fun _ => True) (batchDeleteAttachments backend userId names)
      (fun _ _ => True) := by
  refine follows_bind follows_authenticated fun user => ?_
  refine follows_bind follows_require fun _ => follows_bind follows_require fun _ => ?_
  refine follows_weaken ?_ (fun _ _ => trivial) fun _ _ known => known
  refine follows_bind follows_namedAttachments fun attachments => ?_
  refine follows_bind (follows_deleteAttachments) fun _ => ?_
  exact follows_forEach fun _ _ => follows_weaken follows_lift (fun _ given => given)
    fun _ _ _ => trivial

/-! ## Reactions and shares -/

theorem follows_upsertMemoReaction {contentId reactionType : String} :
    Follows (Write may) start (fun _ => True)
      (upsertMemoReaction backend userId contentId reactionType) (fun _ _ => True) := by
  refine follows_bind follows_authenticated fun user => ?_
  refine follows_bind follows_memoByName fun joined => follows_bind follows_require fun _ => ?_
  refine follows_weaken (?_ : Follows _ _ (fun db => db.HasRef joined.memo.ref ∧
    extractMemoUIDFromName contentId = .ok joined.memo.uid) _ _) ?_ fun _ _ known => known
  · refine follows_bind (follows_createReaction ?_) fun _ => follows_respond
    rintro db ⟨stored, named⟩
    rcases List.mem_map.mp stored with ⟨memo, member, sameRef⟩
    refine ⟨memo, member, ?_⟩
    have sameUid : memo.uid = joined.memo.uid := congrArg MemoRef.uid sameRef
    rw [sameUid]
    exact eq_buildMemoName named
  · rintro db ⟨⟨_, stored, named⟩, _⟩
    exact ⟨Database.hasRef_of_mem (Database.mem_joinedMemos stored), named⟩

theorem follows_deleteMemoReaction :
    Follows (Write may) start (fun _ => True) (deleteMemoReaction userId name)
      (fun _ _ => True) := by
  refine follows_bind follows_authenticated fun user => follows_bind follows_lift fun ids => ?_
  refine follows_bind follows_read fun row => follows_bind follows_found fun reaction => ?_
  refine follows_bind follows_require fun _ => ?_
  exact follows_weaken (follows_deleteReaction) (fun _ _ => trivial)
    fun _ _ known => known

theorem follows_createMemoShare_request {parent : String} {expireTime : Option Int} :
    Follows (Write may) start (fun _ => True)
      (createMemoShare backend userId parent expireTime) (fun _ _ => True) := by
  refine follows_bind follows_authenticated fun user => follows_withMemo fun joined => ?_
  refine follows_bind follows_require fun _ => follows_bind follows_require fun _ => ?_
  refine follows_weaken (?_ : Follows _ _ (fun db => db.HasMemo joined.memo.id) _ _)
    (fun db known => known.1.1.2.hasMemo) fun _ _ known => known
  exact follows_bind (follows_createMemoShare fun _ stored => stored)
    fun _ => follows_pure fun _ _ => trivial

theorem follows_deleteMemoShare_request {memoUid shareToken : String} :
    Follows (Write may) start (fun _ => True) (deleteMemoShare userId memoUid shareToken)
      (fun _ _ => True) := by
  refine follows_bind follows_authenticated fun user => follows_bind follows_read fun row => ?_
  refine follows_bind follows_found fun joined => follows_bind follows_require fun _ => ?_
  refine follows_bind follows_read fun share => follows_bind follows_require fun _ => ?_
  exact follows_weaken (follows_deleteMemoShare) (fun _ _ => trivial)
    fun _ _ known => known

/-! ## Users -/

theorem follows_deleteUser_request {username : String} (sound : start.Sound) :
    Follows (Write may) start (fun _ => True) (deleteUser backend userId username)
      (fun _ _ => True) := by
  refine follows_bind follows_read fun row => follows_bind follows_found fun user => ?_
  refine follows_bind follows_authenticated fun current => follows_bind follows_require fun _ => ?_
  refine follows_bind (follows_deleteUser sound) fun result => ?_
  exact follows_forEach fun _ _ => follows_weaken follows_lift (fun _ given => given)
    fun _ _ _ => trivial

/-! ## Deleting memos -/

/-- The deletions happen one after the other, each in the state that the
earlier ones have left. -/
theorem follows_deleteMemos {context : String} {base : Database} {done ids : List Nat}
    (allowed : forall earlier id later, ids = earlier ++ id :: later ->
      may (base.deletedMemos (done ++ earlier)) (.deleteMemo id)) :
    Follows (Write may) start
      (fun db => db = base.deletedMemos done)
      (deleteMemos backend context ids)
      (fun _ db => db = base.deletedMemos (done ++ ids)) := by
  induction ids generalizing done with
  | nil =>
      refine follows_pure ?_
      intro db same
      rw [List.append_nil]
      exact same
  | cons id ids ih =>
      refine follows_bind (?_ : Follows _ _ _ _ fun _ db =>
        db = base.deletedMemos (done ++ [id])) fun _ => ?_
      · apply follows_call
        intro before value after _ same leads
        rw [leads_deleteMemo leads, Database.deletedMemos_append, same]
        have permitted := allowed [] id ids rfl
        rw [List.append_nil] at permitted
        exact ⟨.inr (.deleteMemo id permitted), rfl⟩
      · have rest : Follows (Write may) start
            (fun db => db = base.deletedMemos (done ++ [id]))
            (deleteMemos backend context ids)
            (fun _ db => db =
              base.deletedMemos ((done ++ [id]) ++ ids)) := by
          apply ih
          intro earlier other later split
          rw [List.append_assoc]
          exact allowed (id :: earlier) other later (by rw [split]; rfl)
        rw [List.append_assoc] at rest
        exact rest

/-- The memos that `DeleteMemo` deletes, in order. -/
def deletedIds (db : Database) (memoId : Nat) : List Nat := commentIds db memoId ++ [memoId]

/-- On success, all of them have been deleted. -/
theorem follows_deleteMemo_request
    (allowed : forall memo, memo ∈ start.memos -> extractMemoUIDFromName name = .ok memo.uid ->
      forall earlier id later, deletedIds start memo.id = earlier ++ id :: later ->
        may (start.deletedMemos earlier) (.deleteMemo id)) :
    Follows (Write may) start (fun db => db = start) (deleteMemo backend userId name)
      (fun _ db => Exists fun memo => memo ∈ start.memos ∧
        extractMemoUIDFromName name = .ok memo.uid ∧
        db = start.deletedMemos (deletedIds start memo.id)) := by
  refine follows_bind follows_memoByName fun joined => ?_
  refine follows_bind follows_authenticated fun user => follows_bind follows_require fun _ => ?_
  refine follows_bind follows_read fun _ => follows_bind follows_read fun _ => ?_
  refine follows_bind follows_read fun comments => ?_
  by_cases known : joined.memo ∈ start.memos ∧
      extractMemoUIDFromName name = .ok joined.memo.uid ∧ commentIds start joined.memo.id = comments
  · rcases known with ⟨stored, named, listed⟩
    have permitted := allowed joined.memo stored named
    unfold deletedIds at permitted
    rw [listed] at permitted
    refine follows_weaken (?_ : Follows _ _ (fun db => db = start.deletedMemos []) _ _)
      (fun db given => given.1.1.1.1.1) fun _ _ known => known
    refine follows_bind (follows_deleteMemos ?_) fun _ => ?_
    · intro earlier id later split
      apply permitted earlier id (later ++ [joined.memo.id])
      rw [split, List.append_assoc, List.cons_append]
    · refine follows_weaken (follows_deleteMemos ?_) (fun db given => given) ?_
      · intro earlier id later split
        rcases List.append_eq_singleton_iff.mp split.symm with ⟨rfl, tail⟩ | ⟨rfl, impossible⟩
        · cases tail
          rw [List.append_nil]
          exact permitted comments joined.memo.id [] rfl
        · cases impossible
      · intro _ db same
        refine ⟨joined.memo, stored, named, ?_⟩
        unfold deletedIds
        rw [listed]
        exact same
  · -- What has been read shows that this case does not arise.
    intro world given
    rcases given with ⟨_, facts, listed⟩
    rcases facts with ⟨⟨⟨⟨same, stored, named⟩, _⟩, _⟩, _⟩
    rw [same] at stored listed
    exact absurd ⟨Database.mem_joinedMemos stored, named, listed⟩ known

end Steps

end Service
end Memos
