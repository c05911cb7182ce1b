import Memos.Service.AttachmentAccess

namespace Memos
namespace Service
namespace ShareLinks

open Library Memos.Filter Store

/-!
# Share links

A share token opens one memo to everybody who has it.  The service resolves it
to the memo; the file server accepts it for the attachments of the memo.  Both
look the token up and test its expiry on their own.
-/

variable (env : Environment) (now : Int) (db : Database)

/-! ## The two paths -/

/-- `GetMemoShare` by its token. -/
def getMemoShare (uid : String) : Option MemoShare :=
  db.shares.find? fun share => share.uid = uid

/-- `isMemoShareExpired`, which both packages have. -/
def isMemoShareExpired (share : MemoShare) : Bool :=
  share.expiresTs.any fun expires => expires < now

def getActiveMemoShare (shareId : String) : Except Status MemoShare :=
  match getMemoShare db shareId with
  | none => .error ⟨.notFound, "not found"⟩
  | some share =>
      if isMemoShareExpired now share then .error ⟨.notFound, "not found"⟩ else .ok share

/-- The memo of a share, with the name of its parent. -/
structure SharedMemo where
  message : MemoMessage
  parent : Option String

/-- Archived and missing memos are treated the same as an invalid token. -/
def getMemoByShare (userId : Nat) (shareId : String) : Except Status SharedMemo := do
  let share ← getActiveMemoShare now db shareId
  match Store.getMemo env.engine env.rules now db { id := some share.memoId } with
  | .error _ => .error ⟨.internal, "failed to get memo"⟩
  | .ok none => .error ⟨.notFound, "not found"⟩
  | .ok (some joined) =>
      if joined.memo.rowStatus = .archived then .error ⟨.notFound, "not found"⟩
      else
        match batchConvertMemoRelations env now db userId true [joined.memo] with
        | .error _ => .error ⟨.internal, "failed to load memo relations"⟩
        | .ok relations =>
            if (userById db joined.memo.creatorId).isSome then
              .ok {
                message := ⟨joined.memo, listReactions db (buildMemoName joined.memo.uid),
                  listAttachments db joined.memo.id, relations⟩
                parent := joined.parentUid.map buildMemoName }
            else .error ⟨.notFound, "not found"⟩

/-- The share token of a request admits to the memo. -/
def tokenAdmits (shareToken : String) (memo : Memo) : Bool :=
  shareToken ≠ "" && match getMemoShare db shareToken with
    | none => false
    | some share => !isMemoShareExpired now share && decide (share.memoId = memo.id)

/-- `checkAttachmentPermission` of a request with a share token, which may be
empty. -/
def checkAttachmentPermission (credentials : Credentials) (shareToken : String)
    (attachment : Attachment) : Except HttpError Unit :=
  match attachment.memoId with
  | none => do
      let user ← getCurrentUser db credentials
      if user.id ≠ attachment.creatorId ∧ user.role ≠ .admin then
        .error ⟨403, "forbidden access"⟩
      else .ok ()
  | some memoId =>
      match Store.getMemo env.engine env.rules now db { id := some memoId } with
      | .error _ => .error ⟨500, "failed to find memo"⟩
      | .ok none => .error ⟨404, "memo not found"⟩
      | .ok (some joined) =>
          if joined.memo.visibility = .isPublic then .ok ()
          else if tokenAdmits now db shareToken joined.memo then .ok ()
          else do
            let user ← getCurrentUser db credentials
            if joined.memo.visibility = .isPrivate ∧ user.id ≠ joined.memo.creatorId ∧
                user.role ≠ .admin then
              .error ⟨403, "forbidden access"⟩
            else .ok ()

/-- A request that carries nothing but the token. -/
def anonymous : Credentials := ⟨.absent, .absent⟩

/-! ## What the paths should agree on -/

/-- The token resolves to the memo. -/
def Returns (token : String) (memo : Memo) : Prop :=
  Exists fun shared => getMemoByShare env now db 0 token = .ok shared ∧ shared.message.memo = memo

/-- The token opens an attachment. -/
def Opens (token : String) (attachment : Attachment) : Prop :=
  checkAttachmentPermission env now db anonymous token attachment = .ok ()

/-- An unexpired share of the memo that has not been revoked. -/
def Grants (token : String) (memo : Memo) : Prop :=
  Exists fun share => getMemoShare db token = some share ∧
    isMemoShareExpired now share = false ∧ share.memoId = memo.id

/-- The response has the name or the snippet of a memo. -/
def SharedMemo.Names (shared : SharedMemo) (memo : Memo) : Prop :=
  shared.message.memo.id = memo.id ∨ shared.parent = some (buildMemoName memo.uid) ∨
    Exists fun relation => relation ∈ shared.message.relations ∧
      (relation.memo.id = memo.id ∨ relation.relatedMemo.id = memo.id)

/-- Both paths agree on a token and a memo, and neither says more than the
token was issued for. -/
structure Agreement (token : String) (memo : Memo) : Prop where
  same : forall attachment, attachment.memoId = some memo.id ->
    (Returns env now db token memo ↔ Opens env now db token attachment)
  granted : forall attachment, attachment.memoId = some memo.id ->
    Returns env now db token memo ∨ Opens env now db token attachment -> Grants now db token memo
  attachments : forall shared, getMemoByShare env now db 0 token = .ok shared ->
    shared.message.memo = memo -> forall attachment, attachment ∈ shared.message.attachments ->
      attachment.memoId = some memo.id
  discreet : forall shared, getMemoByShare env now db 0 token = .ok shared ->
    shared.message.memo = memo -> forall other, other ∈ db.memos -> other ≠ memo ->
      other.visibility ≠ .isPublic ∨ other.rowStatus = .archived -> ¬ shared.Names other
  archived : memo.rowStatus = .archived -> forall attachment, attachment.memoId = some memo.id ->
    ¬ Returns env now db token memo ∧ ¬ Opens env now db token attachment

/-- The service shows the memo to the holder of a token. -/
def Shown (memo : Memo) : Prop :=
  memo.rowStatus = .normal ∧ (userById db memo.creatorId).isSome = true

/-- No archived or non-public memo is the parent. -/
def ParentOpen (joined : JoinedMemo) : Prop :=
  forall parent, parent ∈ db.memos -> joined.parentUid = some parent.uid -> parent ≠ joined.memo ->
    parent.visibility = .isPublic ∧ parent.rowStatus = .normal

variable {env now db}

variable {token : String} {joined : JoinedMemo} {id : Nat}

theorem tokenAdmits_iff {memo : Memo} :
    tokenAdmits now db token memo = true ↔ token ≠ "" ∧ Grants now db token memo := by
  rw [tokenAdmits, Grants]
  cases getMemoShare db token with
  | none => simp
  | some share => simp

theorem getCurrentUser_anonymous : getCurrentUser db anonymous = .error ⟨401, "unauthorized access"⟩ := by
  simp [getCurrentUser, anonymous, authenticateToUser, authenticateByRefreshToken]

/-- The file server asks for the grant only. -/
theorem opens_iff (keyed : db.Keyed) {attachment : Attachment} (found : memoById db id = some joined)
    (linked : attachment.memoId = some id) (guarded : joined.memo.visibility ≠ .isPublic) :
    Opens env now db token attachment ↔ token ≠ "" ∧ Grants now db token joined.memo := by
  rw [← tokenAdmits_iff, Opens, checkAttachmentPermission, linked]
  simp only [getMemo_id _ _ _ keyed, found]
  rw [if_neg guarded]
  by_cases admitted : tokenAdmits now db token joined.memo = true
  · simp [admitted]
  · rw [if_neg admitted, getCurrentUser_anonymous, error_bind]
    simp [admitted]

/-! ## The relations of a memo that is not public -/

/-- The ids that the restricting text of an anonymous caller leaves. -/
def publicIds (db : Database) : List Nat :=
  (db.memos.filter fun memo => memo.visibility == .isPublic).map Memo.id

theorem selectMemoIds_public (rules : TextRules) :
    selectMemoIds rules db (memoFilterSql none) = .ok (publicIds db) := by
  apply selectMemoIds_of_eval
  intro joined
  change Except.ok (Truth.ofBool (compare joined.memo.visibility.string "PUBLIC" == .eq)) = _
  cases joined.memo.visibility <;> rfl

theorem memoFilterTest_public (reads : ReadsMemoFilter env none) :
    memoFilterTest env.engine env.rules now db (memoFilterText none) = .ok fun relation =>
      (publicIds db).contains relation.memoId && (publicIds db).contains relation.relatedMemoId :=
  memoFilterTest_of_ids reads (selectMemoIds_public env.rules)

/-- Nothing is listed where every selected relation has an end that is not
public. -/
theorem listMemoRelations_hidden {find : FindMemoRelation} (reads : ReadsMemoFilter env none)
    (filtered : find.memoFilter = some (memoFilterText none))
    (hidden : forall relation, find.selects relation = true ->
      relation.memoId ∉ publicIds db ∨ relation.relatedMemoId ∉ publicIds db) :
    Store.listMemoRelations env.engine env.rules now db find = .ok [] := by
  have none_ : (db.relations.filter fun relation => find.selects relation &&
      ((publicIds db).contains relation.memoId && (publicIds db).contains relation.relatedMemoId)) =
      [] := by
    apply List.filter_eq_nil_iff.mpr
    intro relation _ passes
    simp only [Bool.and_eq_true, List.contains_iff_mem] at passes
    rcases hidden relation passes.1 with source | target
    · exact source passes.2.1
    · exact target passes.2.2
  rw [Store.listMemoRelations, FindMemoRelation.test, filtered]
  simp only [memoFilterTest_public reads, ok_bind, none_, List.mergeSort_nil]
  rw [FindMemoRelation.page]
  cases find.limit <;> simp [pure, Except.pure]

/-- A memo that is not public has no relation in the response. -/
theorem batchConvertMemoRelations_guarded (keyed : db.Keyed) (reads : ReadsMemoFilters env db 0)
    {memo : Memo} (stored : memo ∈ db.memos) (guarded : memo.visibility ≠ .isPublic) :
    batchConvertMemoRelations env now db 0 true [memo] = .ok [] := by
  have hidden : memo.id ∉ publicIds db := by
    intro listed
    rcases List.mem_map.mp listed with ⟨other, kept, sameId⟩
    rcases List.mem_filter.mp kept with ⟨otherStored, isPublic⟩
    rw [eq_of_nodup_map keyed.memoIds otherStored stored sameId] at isPublic
    exact guarded (eq_of_beq isPublic)
  have caller : fetchCurrentUser db 0 = .ok none := rfl
  have outgoing : Store.listMemoRelations env.engine env.rules now db
      { sourceMemoIdList := [memo.id], memoFilter := some (memoFilterText none) } = .ok [] := by
    apply listMemoRelations_hidden (reads none caller) rfl
    intro relation selected
    simp [FindMemoRelation.selects] at selected
    exact Or.inl (selected ▸ hidden)
  have incoming : Store.listMemoRelations env.engine env.rules now db
      { relatedMemoIdList := [memo.id], memoFilter := some (memoFilterText none) } = .ok [] := by
    apply listMemoRelations_hidden (reads none caller) rfl
    intro relation selected
    simp [FindMemoRelation.selects] at selected
    exact Or.inr (selected ▸ hidden)
  simp [batchConvertMemoRelations, caller, outgoing, incoming, ok_bind, mergeMemoRelations,
    relationMemos, neededIds, pure, Except.pure]

/-! ## What the service returns -/

/-- The response for a memo that is not public. -/
def sharedMemo (db : Database) (joined : JoinedMemo) : SharedMemo where
  message := ⟨joined.memo, listReactions db (buildMemoName joined.memo.uid),
    listAttachments db joined.memo.id, []⟩
  parent := joined.parentUid.map buildMemoName

theorem getActiveMemoShare_eq_ok {share : MemoShare} :
    getActiveMemoShare now db token = .ok share ↔
      getMemoShare db token = some share ∧ isMemoShareExpired now share = false := by
  rw [getActiveMemoShare]
  cases getMemoShare db token with
  | none => simp
  | some other =>
      by_cases expired : isMemoShareExpired now other = true
      · simp only [expired, if_true, Option.some.injEq, reduceCtorEq, false_iff]
        rintro ⟨rfl, active⟩
        simp [expired] at active
      · simp only [expired, Bool.false_eq_true, if_false, Except.ok.injEq, Option.some.injEq]
        constructor
        · rintro rfl
          exact ⟨rfl, by simpa using expired⟩
        · exact fun both => both.1

/-- The memo of a grant is returned if it is shown. -/
theorem getMemoByShare_granted (keyed : db.Keyed) (reads : ReadsMemoFilters env db 0)
    (found : memoById db id = some joined) (guarded : joined.memo.visibility ≠ .isPublic)
    (granted : Grants now db token joined.memo) (shown : Shown db joined.memo) :
    getMemoByShare env now db 0 token = .ok (sharedMemo db joined) := by
  rcases granted with ⟨share, taken, active, shared⟩
  rcases memoById_eq_some found with ⟨stored, sameId⟩
  have relations : batchConvertMemoRelations env now db 0 true [joined.memo] = .ok [] :=
    batchConvertMemoRelations_guarded keyed reads (Database.mem_joinedMemos stored) guarded
  rw [getMemoByShare, getActiveMemoShare_eq_ok.mpr ⟨taken, active⟩, ok_bind]
  simp only [getMemo_id _ _ _ keyed, shared, sameId, found, shown.1, relations, shown.2, sharedMemo]
  simp

/-- Only the memo of a grant is returned, and only if it is shown. -/
theorem granted_of_getMemoByShare (keyed : db.Keyed) {shared : SharedMemo}
    (success : getMemoByShare env now db 0 token = .ok shared) :
    Grants now db token shared.message.memo ∧ Shown db shared.message.memo := by
  rcases bind_eq_ok.mp success with ⟨share, active, continued⟩
  rcases getActiveMemoShare_eq_ok.mp active with ⟨taken, unexpired⟩
  rw [getMemo_id _ _ _ keyed] at continued
  cases found : memoById db share.memoId with
  | none => simp [found] at continued
  | some joined =>
      simp only [found] at continued
      split at continued
      · cases continued
      case isFalse normal =>
        split at continued
        · cases continued
        · split at continued
          case isTrue creator =>
            cases continued
            refine ⟨⟨share, taken, unexpired, (memoById_eq_some found).2.symm⟩, ?_, creator⟩
            cases status : joined.memo.rowStatus with
            | normal => rfl
            | archived => exact absurd status normal
          · cases continued

theorem returns_iff (keyed : db.Keyed) (reads : ReadsMemoFilters env db 0) (found : memoById db id = some joined)
    (guarded : joined.memo.visibility ≠ .isPublic) :
    Returns env now db token joined.memo ↔
      Grants now db token joined.memo ∧ Shown db joined.memo := by
  constructor
  · rintro ⟨shared, success, same⟩
    exact same ▸ granted_of_getMemoByShare keyed success
  · rintro ⟨granted, shown⟩
    exact ⟨_, getMemoByShare_granted keyed reads found guarded granted shown, rfl⟩

/-! ## Agreement -/

/-- What the holder of a grant meets: the token counts for the file server
exactly if the memo is shown, and the response names no hidden parent. -/
def Current (now : Int) (db : Database) (token : String) (joined : JoinedMemo) : Prop :=
  Grants now db token joined.memo ->
    (Shown db joined.memo ↔ token ≠ "") ∧ (Shown db joined.memo -> ParentOpen db joined)

theorem sharedMemo_names {other : Memo} (names : (sharedMemo db joined).Names other) :
    joined.memo.id = other.id ∨ joined.parentUid = some other.uid := by
  rcases names with same | parent | ⟨relation, listed, _⟩
  · exact Or.inl same
  · rcases Option.map_eq_some_iff.mp parent with ⟨uid, parentUid, name⟩
    simp only [buildMemoName, String.append_right_inj] at name
    exact Or.inr (name ▸ parentUid)
  · cases listed

/-- An attachment of a memo. -/
def attachmentOf (id : Nat) : Attachment where
  id := 1
  uid := "picture"
  creatorId := 1
  updatedTs := 0
  memoId := some id

theorem current_of_agreement (keyed : db.Keyed) (reads : ReadsMemoFilters env db 0)
    (found : memoById db id = some joined) (guarded : joined.memo.visibility ≠ .isPublic)
    (agree : Agreement env now db token joined.memo) : Current now db token joined := by
  have sameId : joined.memo.id = id := (memoById_eq_some found).2
  intro granted
  constructor
  · have same := agree.same (attachmentOf id) (sameId ▸ rfl)
    rw [returns_iff keyed reads found guarded, opens_iff keyed found rfl guarded] at same
    exact ⟨fun shown => (same.mp ⟨granted, shown⟩).1, fun named => (same.mpr ⟨named, granted⟩).2⟩
  · intro shown parent stored parentUid different
    have returned := getMemoByShare_granted keyed reads found guarded granted shown
    have names : (sharedMemo db joined).Names parent :=
      Or.inr (Or.inl (by rw [sharedMemo, parentUid, Option.map_some]))
    have open_ := fun hidden => agree.discreet _ returned rfl parent stored different hidden names
    constructor
    · by_contra hidden
      exact open_ (Or.inl hidden)
    · cases status : parent.rowStatus with
      | normal => rfl
      | archived => exact (open_ (Or.inr status)).elim

theorem agreement_of_current (keyed : db.Keyed) (reads : ReadsMemoFilters env db 0)
    (found : memoById db id = some joined) (guarded : joined.memo.visibility ≠ .isPublic)
    (current : Current now db token joined) : Agreement env now db token joined.memo := by
  rcases memoById_eq_some found with ⟨stored, sameId⟩
  have returns : Returns env now db token joined.memo ↔
      Grants now db token joined.memo ∧ Shown db joined.memo :=
    returns_iff keyed reads found guarded
  have opens : forall attachment, attachment.memoId = some joined.memo.id ->
      (Opens env now db token attachment ↔ token ≠ "" ∧ Grants now db token joined.memo) :=
    fun attachment linked => opens_iff keyed found (sameId ▸ linked) guarded
  have response : forall shared, getMemoByShare env now db 0 token = .ok shared ->
      shared.message.memo = joined.memo -> shared = sharedMemo db joined ∧ ParentOpen db joined := by
    intro shared success same
    rcases granted_of_getMemoByShare keyed success with ⟨granted, shown⟩
    rw [same] at granted shown
    have returned : getMemoByShare env now db 0 token = .ok (sharedMemo db joined) :=
      getMemoByShare_granted keyed reads found guarded granted shown
    exact ⟨Except.ok.inj (success.symm.trans returned), (current granted).2 shown⟩
  constructor
  case same =>
    intro attachment linked
    rw [returns, opens attachment linked]
    constructor
    · exact fun both => ⟨(current both.1).1.mp both.2, both.1⟩
    · exact fun both => ⟨both.2, (current both.2).1.mpr both.1⟩
  case granted =>
    rintro attachment linked (returned | opened)
    · exact (returns.mp returned).1
    · exact ((opens attachment linked).mp opened).2
  case attachments =>
    intro shared success same attachment listed
    rw [(response shared success same).1] at listed
    have kept := List.mem_mergeSort.mp (List.mem_of_mem_take listed)
    simpa using (List.mem_filter.mp kept).2
  case discreet =>
    intro shared success same other otherStored different hidden names
    rcases response shared success same with ⟨rfl, parentOpen⟩
    rcases sharedMemo_names names with sameMemo | parentUid
    · exact different (eq_of_nodup_map keyed.memoIds otherStored (Database.mem_joinedMemos stored)
        sameMemo.symm)
    · rcases parentOpen other otherStored parentUid different with ⟨isPublic, normal⟩
      rcases hidden with notPublic | archived
      · exact notPublic isPublic
      · rw [normal] at archived
        cases archived
  case archived =>
    intro archived attachment linked
    have notShown : ¬ Shown db joined.memo := by
      rintro ⟨normal, _⟩
      rw [archived] at normal
      cases normal
    constructor
    · exact fun returned => notShown (returns.mp returned).2
    · intro opened
      rcases (opens attachment linked).mp opened with ⟨named, granted⟩
      exact notShown ((current granted).1.mpr named)

/-- The two paths agree on a memo that is not public exactly if every grant of
it is current. -/
theorem share_paths_agree_iff (keyed : db.Keyed) (reads : ReadsMemoFilters env db 0) {id : Nat}
    {joined : JoinedMemo} (found : memoById db id = some joined)
    (guarded : joined.memo.visibility ≠ .isPublic) (token : String) :
    Agreement env now db token joined.memo ↔ Current now db token joined :=
  ⟨current_of_agreement keyed reads found guarded, agreement_of_current keyed reads found guarded⟩

/-- A share of the memo with id one. -/
def memoShare : MemoShare := ⟨1, "token", 1, 1, none⟩

def sharedDatabase : Database := { privateMemoDatabase with shares := [memoShare] }

/-- The private memo is shared and nothing else is to see. -/
theorem share_paths_agree_private :
    Agreement anonymousEnvironment 0 sharedDatabase "token" privateMemo :=
  (share_paths_agree_iff ⟨by decide, by decide⟩ anonymousEnvironment_reads
    (show memoById sharedDatabase 1 = some privateMemoRow from rfl) (by decide) "token").mpr fun _ =>
      ⟨⟨fun _ => by decide, fun _ => ⟨rfl, rfl⟩⟩, fun _ _ _ parentUid => by cases parentUid⟩

/-- The private memo after its author has archived it. -/
def archivedSecret : Memo := { privateMemo with rowStatus := .archived }

def archivedShareDatabase : Database where
  users := [alice]
  memos := [archivedSecret]
  shares := [memoShare]

/-- The file server goes on to serve the attachments of an archived memo. -/
theorem archived_share_opens :
    ¬ Agreement anonymousEnvironment 0 archivedShareDatabase "token" archivedSecret := by
  intro agree
  have keyed : archivedShareDatabase.Keyed := ⟨by decide, by decide⟩
  have found : memoById archivedShareDatabase 1 = some ⟨archivedSecret, some alice, none⟩ := rfl
  have opened : Opens anonymousEnvironment 0 archivedShareDatabase "token" (attachmentOf 1) :=
    (opens_iff keyed found rfl (by decide)).mpr ⟨by decide, memoShare, rfl, rfl, rfl⟩
  exact (agree.archived rfl (attachmentOf 1) rfl).2 opened

end ShareLinks
end Service
end Memos
