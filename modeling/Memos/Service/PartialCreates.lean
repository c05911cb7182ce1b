import Memos.Service.Runs

namespace Memos
namespace Service

open Library Memos.Filter Store Handler

/-!
# Requests that fail on their way

The row of a memo is inserted first, and what belongs to the memo follows in
calls of its own.  A request that fails before the row leaves the database as it
is; one that fails after it leaves the memo.
-/

variable (backend : Backend) (userId : Nat)

/-! ## The row and what follows it -/

/-- `CreateMemo` up to the row of the memo, with the caller. -/
def createRow (memoId : String) (input : MemoInput) : Request (User × Memo) := do
  let user ← authenticated userId "failed to get user"
  let uid ← lift (validateAndGenerateUID backend memoId) id
  let limit ← lift backend.contentLengthLimit fun _ =>
    ⟨.internal, "failed to get content length limit"⟩
  require (input.content.utf8ByteSize ≤ limit)
    ⟨.invalidArgument, "content too long (max " ++ toString limit ++ " characters)"⟩
  let payload ← lift (backend.rebuildMemoPayload input.content)
    (internal "failed to rebuild memo payload: ")
  let memo ← call (Store.createMemo backend.now
      { uid := uid, creatorId := user.id, content := input.content
        visibility := input.visibility, payload := payload
        createdTs := input.createTime.getD 0, updatedTs := input.updateTime.getD 0 })
    (createMemoStatus uid)
  return (user, memo)

/-- What follows the row. -/
def completeMemo (input : MemoInput) (made : User × Memo) : Request Memo := do
  setGivenAttachments backend made.1 made.2 input.attachments
  setGivenRelations made.2 input.relations
  respond backend made.2 "failed to convert memo"
  return made.2

theorem createMemo_eq (memoId : String) (input : MemoInput) :
    createMemo backend userId memoId input =
      createRow backend userId memoId input >>= completeMemo backend input := by
  unfold createMemo createRow completeMemo
  simp only [bind_assoc, pure_bind]

/-- `CreateMemoComment` up to the row of the comment, with the memo that is
commented on. -/
def commentRow (name commentId : String) (input : Option MemoInput) :
    Request (JoinedMemo × MemoInput × User × Memo) := do
  let related ← memoByName name
  let user ← authenticated userId "failed to get user"
  require (¬ (related.memo.visibility = .isPrivate ∧ refusedUnlessSuperUser related.memo user))
    permissionDenied
  let comment ← found input ⟨.invalidArgument, "comment is required"⟩
  let made ← mapError
    (createRow backend userId commentId { comment with visibility := related.memo.visibility })
    fun _ => ⟨.internal, "failed to create memo"⟩
  return (related, { comment with visibility := related.memo.visibility }, made)

/-- What follows the row of a comment. -/
def completeComment (row : JoinedMemo × MemoInput × User × Memo) : Request Memo := do
  let created ← mapError (completeMemo backend row.2.1 row.2.2) fun _ => ⟨.internal, "failed to create memo"⟩
  let joined ← read (fun db => memoByUid db created.uid) (internal "failed to get memo")
  let memo ← found joined ⟨.internal, "nil memo"⟩
  call (upsertMemoRelation ⟨memo.memo.id, row.1.memo.id, .comment⟩)
    (internal "failed to create memo relation")
  let owner ← read (fun db => userById db created.creatorId) fun _ =>
    ⟨.invalidArgument, "invalid memo creator"⟩
  let creator ← found owner ⟨.notFound, "memo creator not found"⟩
  notifyCommented backend memo.memo row.1.memo creator
  return created

theorem createMemoComment_eq (name commentId : String) (input : Option MemoInput) :
    createMemoComment backend userId name commentId input =
      commentRow backend userId name commentId input >>= completeComment backend := by
  unfold createMemoComment commentRow completeComment
  simp only [createMemo_eq, mapError_bind, bind_assoc, pure_bind]

/-! ## What a failure leaves -/

/-- Of a memo that was inserted, the memo is left, and in the other tables at most
what belongs to it. -/
structure Leftover (db : Database) (memo : Memo) (after : Database) : Prop where
  memos : after.memos = db.memos ++ [memo]
  relations : forall relation, relation ∈ after.relations -> relation ∈ db.relations ∨ relation.memoId = memo.id
  attachments : forall row, row ∈ after.attachments -> row ∈ db.attachments ∨ row.memoId = some memo.id
  inbox : after.inbox = db.inbox
  fresh : Fresh db memo

variable {backend userId}

theorem Fresh.leftover {db : Database} {memo : Memo} (fresh : Fresh db memo) :
    Leftover db memo (db.insertMemo memo) where
  memos := rfl
  relations := fun _ member => Or.inl member
  attachments := fun _ member => Or.inl member
  inbox := rfl
  fresh := fresh

theorem UpdateAttachment.apply_linked {update : UpdateAttachment} {memoId : Nat} (linked : update.memoId = some memoId)
    (row : Attachment) : update.apply row = row ∨ (update.apply row).memoId = some memoId := by
  unfold UpdateAttachment.apply
  split
  · rw [linked]
    exact Or.inr rfl
  · exact Or.inl rfl

theorem Leftover.attachmentWrite {db before after : Database} {memo : Memo} (left : Leftover db memo before)
    (write : AttachmentWrite memo.id before after) : Leftover db memo after := by
  cases write with
  | link update linked =>
      refine ⟨left.memos, left.relations, fun row member => ?_, left.inbox, left.fresh⟩
      rcases List.mem_map.mp member with ⟨old, inTable, rfl⟩
      rcases UpdateAttachment.apply_linked linked old with same | here
      · rw [same]
        exact left.attachments old inTable
      · exact Or.inr here
  | delete ids =>
      refine ⟨left.memos, left.relations, fun row member => ?_, left.inbox, left.fresh⟩
      exact left.attachments row (List.mem_filter.mp member).1

theorem Leftover.referenceWrite {db before after : Database} {memo : Memo} (left : Leftover db memo before)
    (write : ReferenceWrite memo.ref before after) : Leftover db memo after := by
  cases write with
  | insert target _ _ _ =>
      refine ⟨left.memos, fun relation member => ?_, left.attachments, left.inbox, left.fresh⟩
      rcases List.mem_append.mp member with old | new
      · exact left.relations relation old
      · rw [List.mem_singleton.mp new]
        exact Or.inr rfl
  | clear =>
      refine ⟨left.memos, fun relation member => ?_, left.attachments, left.inbox, left.fresh⟩
      exact left.relations relation (List.mem_filter.mp member).1

variable {db : Database}

theorem triple_setGivenAttachments {user : User} {memo : Memo} {names : List String} :
    Triple (Leftover db memo) (setGivenAttachments backend user memo names) (fun _ => Leftover db memo)
      (Leftover db memo) := by
  refine triple_ite (fun _ => triple_pure fun _ given => given) fun _ => ?_
  refine triple_of_follows fun start => follows_setMemoAttachmentsInternal ?_
  exact fun before last _ write => ⟨fun left => left.attachmentWrite write, trivial⟩

theorem triple_setGivenRelations {memo : Memo} {relations : List RelationInput} :
    Triple (Leftover db memo) (setGivenRelations memo relations) (fun _ => Leftover db memo)
      (Leftover db memo) := by
  refine triple_ite (fun _ => triple_pure fun _ given => given) fun _ => ?_
  refine triple_of_follows fun start => follows_setMemoRelationsInternal ?_
  exact fun before last _ write => ⟨fun left => left.referenceWrite write, trivial⟩

theorem triple_read {α : Type} {select : Database -> α} {status : String -> Status}
    {pre failed : Database -> Prop} (implies : forall state, pre state -> failed state) :
    Triple pre (read select status) (fun value state => pre state ∧ select state = value) failed := by
  refine triple_iff_ends.mpr (ends_weaken (ends_query fun _ state given => implies state given)
    (fun _ given => given) ?_ fun _ _ given => given)
  rintro value state ⟨given, same⟩
  exact ⟨given, Except.ok.inj same⟩

theorem triple_completeMemo {input : MemoInput} {made : User × Memo} :
    Triple (Leftover db made.2) (completeMemo backend input made)
      (fun created state => Leftover db made.2 state ∧ created = made.2) (Leftover db made.2) := by
  refine triple_bind triple_setGivenAttachments fun _ => triple_bind triple_setGivenRelations fun _ => ?_
  refine triple_bind (?_ : Triple _ _ (fun _ => Leftover db made.2) _) fun _ => ?_
  · exact triple_iff_ends.mpr (ends_weaken (ends_query fun _ _ given => given) (fun _ given => given)
      (fun _ _ given => given.1) fun _ _ given => given)
  · exact triple_pure fun _ given => ⟨given, rfl⟩

/-! ## The row -/

theorem triple_authenticated {context : String} {pre : Database -> Prop} :
    Triple pre (authenticated userId context) (fun _ => pre) pre :=
  triple_bind (triple_iff_ends.mpr (ends_weaken (ends_query fun _ _ given => given) (fun _ given => given)
      (fun _ _ given => given.1) fun _ _ given => given)) fun _ =>
    triple_found (fun _ given => given) fun _ _ _ given => given

/-- What a row has from its request and its caller. -/
structure Inserted (backend : Backend) (db : Database) (memoId : String) (input : MemoInput) (made : User × Memo)
    (after : Database) : Prop where
  row : after = db.insertMemo made.2
  fresh : Fresh db made.2
  request : CreatedFrom backend memoId input made.2
  creator : made.2.creatorId = made.1.id

/-- The row is inserted, or the database stays as it is. -/
theorem triple_createRow {memoId : String} {input : MemoInput} :
    Triple (fun state => state = db) (createRow backend userId memoId input)
      (fun made state => Inserted backend db memoId input made state) (fun state => state = db) := by
  refine triple_bind triple_authenticated fun user => ?_
  refine triple_bind (?_ : Triple _ _ (fun uid state => state = db ∧ validateAndGenerateUID backend memoId = .ok uid) _)
    fun uid => ?_
  · exact triple_lift (fun _ given => given) fun _ _ same given => ⟨given, same⟩
  refine triple_bind (triple_lift (fun _ given => given.1) fun _ _ _ given => given) fun limit => ?_
  refine triple_bind (?_ : Triple _ _ (fun _ state => state = db ∧ validateAndGenerateUID backend memoId = .ok uid) _)
    fun _ => ?_
  · exact triple_require (fun _ given => given.1) fun _ given _ => given
  refine triple_bind (triple_lift (fun _ given => given.1) fun _ _ _ given => given) fun payload => ?_
  refine triple_bind (?_ : Triple _ _ (fun memo state => Inserted backend db memoId input (user, memo) state) _)
    fun memo => triple_pure fun _ given => given
  refine triple_iff_ends.mpr (ends_call ?_ fun _ _ given => given.1)
  rintro before memo after ⟨rfl, validUid⟩ leads
  rcases leads_createMemo leads with ⟨row, same, unused⟩
  refine ⟨same, ⟨by rw [row]; rfl, unused⟩, ⟨?_, ?_, ?_⟩, ?_⟩
  · rw [row]
    exact validUid
  all_goals
    rw [row]
    rfl

/-- The row of a comment has the visibility of the memo above it. -/
structure InsertedComment (backend : Backend) (db : Database) (commentId : String) (input : Option MemoInput)
    (row : JoinedMemo × MemoInput × User × Memo) (after : Database) : Prop where
  inserted : Inserted backend db commentId row.2.1 row.2.2 after
  comment : Exists fun comment => input = some comment ∧
    row.2.1 = { comment with visibility := row.1.memo.visibility }

/-- The row of a comment is inserted after the checks of the memo above it. -/
theorem triple_commentRow {name commentId : String} {input : Option MemoInput} :
    Triple (fun state => state = db) (commentRow backend userId name commentId input)
      (fun row state => InsertedComment backend db commentId input row state) (fun state => state = db) := by
  refine triple_bind (?_ : Triple _ _ (fun _ state => state = db) _) fun related => ?_
  · refine triple_bind (triple_lift (fun _ given => given) fun _ _ _ given => given) fun uid => ?_
    refine triple_bind (triple_read fun _ given => given) fun row => ?_
    exact triple_found (fun _ given => given.1) fun _ _ _ given => given.1
  refine triple_bind triple_authenticated fun user => ?_
  refine triple_bind (?_ : Triple _ _ (fun _ state => state = db) _) fun _ => ?_
  · exact triple_require (fun _ given => given) fun _ given _ => given
  refine triple_bind (?_ : Triple _ _ (fun comment state => state = db ∧ input = some comment) _) fun comment => ?_
  · exact triple_found (fun _ given => given) fun _ _ same given => ⟨given, same⟩
  refine triple_bind (?_ : Triple _ _ (fun made state => Inserted backend db commentId
    { comment with visibility := related.memo.visibility } made state ∧ input = some comment) _) fun made => ?_
  · refine triple_iff_ends.mpr (ends_given (fun _ given => given.2) fun given => ?_)
    exact triple_iff_ends.mp (triple_weaken (triple_mapError triple_createRow) (fun _ same => same.1)
      fun _ _ inserted => ⟨inserted, given⟩)
  · exact triple_pure fun _ given => ⟨given.1, comment, given.2, rfl⟩

/-- After its row, a comment keeps what the row has left. -/
theorem triple_completeComment {row : JoinedMemo × MemoInput × User × Memo} :
    Triple (Leftover db row.2.2.2) (completeComment backend row) (fun _ _ => True) (Leftover db row.2.2.2) := by
  refine triple_bind (triple_mapError triple_completeMemo) fun created => ?_
  refine triple_bind (triple_read fun _ given => given.1) fun joined => ?_
  refine triple_bind (?_ : Triple _ _ (fun memo state => Leftover db row.2.2.2 state ∧ memo.memo.id = row.2.2.2.id) _)
    fun memo => ?_
  · refine triple_found (fun _ given => given.1.1) ?_
    rintro memo state same ⟨⟨left, rfl⟩, lookup⟩
    rw [same] at lookup
    rcases memoByUid_eq_some lookup with ⟨member, sameUid⟩
    have stored := Database.mem_joinedMemos member
    rw [left.memos] at stored
    rcases List.mem_append.mp stored with old | new
    · exact absurd sameUid (left.fresh.uid _ old)
    · rw [List.mem_singleton.mp new]
      exact ⟨left, rfl⟩
  refine triple_bind (?_ : Triple _ _ (fun _ => Leftover db row.2.2.2) _) fun _ => ?_
  · refine triple_iff_ends.mpr (ends_weaken (ends_execute fun _ _ given => given.1) (fun _ given => given) ?_
      fun _ _ given => given)
    rintro _ state ⟨before, ⟨left, same⟩, rfl⟩
    split
    · exact left
    · refine ⟨left.memos, fun relation member => ?_, left.attachments, left.inbox, left.fresh⟩
      rcases List.mem_append.mp member with old | new
      · exact left.relations relation old
      · rw [List.mem_singleton.mp new]
        exact Or.inr same
  refine triple_bind (triple_read fun _ given => given) fun owner => ?_
  refine triple_bind (triple_found (fun _ given => given.1) fun _ _ _ given => given.1) fun creator => ?_
  refine triple_bind (?_ : Triple _ _ (fun _ _ => True) _) fun _ => triple_pure fun _ given => given
  refine triple_ite (fun _ => ?_) fun _ => triple_pure fun _ _ => trivial
  exact triple_iff_ends.mpr (ends_call (fun _ _ _ _ _ => trivial) fun _ _ given => given)

/-! ## Failed requests -/

/-- No request creates a memo under the id. -/
def Refused (db : Database) (memoId uid : String) : Prop :=
  forall backend userId input plans outcome last, validateAndGenerateUID backend memoId = .ok uid ->
    createMemo backend userId memoId input ⟨db, plans⟩ = (outcome, last) ->
      last.state = db ∧ Exists fun status => outcome = .error status

/-- What is left of a request whose row was inserted. -/
structure LeavesRow (backend : Backend) (db : Database) (memoId : String) (input : MemoInput) (made : User × Memo)
    (after : Database) : Prop where
  left : Leftover db made.2 after
  request : CreatedFrom backend memoId input made.2
  creator : made.2.creatorId = made.1.id
  again : Refused after memoId made.2.uid

theorem createMemo_failed {memoId : String} {input : MemoInput} {world last : World Database} {status : Status}
    (failed : createMemo backend userId memoId input world = (.error status, last)) :
    (createRow backend userId memoId input world = (.error status, last) ∧ last.state = world.state) ∨
    Exists fun made => Exists fun middle => createRow backend userId memoId input world = (.ok made, middle) ∧
      Inserted backend world.state memoId input made middle.state ∧ Leftover world.state made.2 last.state := by
  have row := @triple_createRow backend userId world.state memoId input world rfl
  rw [createMemo_eq] at failed
  rcases bind_failed failed with refused | ⟨made, middle, inserted, failed⟩
  · rw [refused] at row
    exact Or.inl ⟨refused, row⟩
  · rw [inserted] at row
    have rest := @triple_completeMemo backend world.state input made middle (row.row ▸ row.fresh.leftover)
    rw [failed] at rest
    exact Or.inr ⟨made, middle, inserted, row, rest⟩

theorem createMemoComment_failed {name commentId : String} {input : Option MemoInput} {world last : World Database}
    {status : Status} (failed : createMemoComment backend userId name commentId input world = (.error status, last)) :
    (commentRow backend userId name commentId input world = (.error status, last) ∧ last.state = world.state) ∨
    Exists fun row => Exists fun middle =>
      commentRow backend userId name commentId input world = (.ok row, middle) ∧
        InsertedComment backend world.state commentId input row middle.state ∧
        Leftover world.state row.2.2.2 last.state := by
  have front := @triple_commentRow backend userId world.state name commentId input world rfl
  rw [createMemoComment_eq] at failed
  rcases bind_failed failed with refused | ⟨row, middle, inserted, failed⟩
  · rw [refused] at front
    exact Or.inl ⟨refused, front⟩
  · rw [inserted] at front
    have rest := @triple_completeComment backend world.state row middle
      (front.inserted.row ▸ front.inserted.fresh.leftover)
    rw [failed] at rest
    exact Or.inr ⟨row, middle, inserted, front, rest⟩

/-- The row that is left takes its id. -/
theorem refused_of_mem {memoId : String} {memo : Memo} {after : Database} (stored : memo ∈ after.memos) :
    Refused after memoId memo.uid := by
  intro backend userId input plans outcome last chosen ran
  have row := @triple_createRow backend userId after memoId input ⟨after, plans⟩ rfl
  rw [createMemo_eq, bind_run] at ran
  cases inserted : createRow backend userId memoId input ⟨after, plans⟩ with
  | mk first middle =>
      rw [inserted] at row ran
      cases first with
      | error status =>
          obtain ⟨rfl, rfl⟩ := Prod.mk.inj ran
          exact ⟨row, status, rfl⟩
      | ok made =>
          have same : made.2.uid = memo.uid := Except.ok.inj (row.request.uid.symm.trans chosen)
          exact absurd same.symm (row.fresh.uid memo stored)

theorem Inserted.leaves {memoId : String} {input : MemoInput} {made : User × Memo} {middle after : Database}
    (inserted : Inserted backend db memoId input made middle) (left : Leftover db made.2 after) :
    LeavesRow backend db memoId input made after where
  left := left
  request := inserted.request
  creator := inserted.creator
  again := refused_of_mem (by
    rw [left.memos]
    exact List.mem_append_right _ (List.mem_singleton.mpr rfl))

/-! ## All or nothing -/

/-- Nothing is there that was not there before. -/
structure NothingNew (db after : Database) : Prop where
  memos : forall memo, memo ∈ after.memos -> memo ∈ db.memos
  relations : forall relation, relation ∈ after.relations -> relation ∈ db.relations
  inbox : forall row, row ∈ after.inbox -> row ∈ db.inbox
  attachments : forall row, row ∈ after.attachments -> row ∈ db.attachments

/-- A request that fails leaves nothing new, from any database that is reached. -/
def AllOrNothing (create : Backend -> Nat -> Request Memo) : Prop :=
  forall backend userId db plans status last, Reaches (fun _ _ => True) {} db ->
    create backend userId ⟨db, plans⟩ = (.error status, last) -> NothingNew db last.state

/-- A memo, to which comments can be made. -/
def oneMemo : List Operation :=
  [.changeAccounts [⟨1, .normal, "ada", .user⟩] [] [],
    .createMemo "a" { content := "", visibility := .isPublic }]

/-- What asks for an attachment that is not there. -/
def withoutAttachment : MemoInput :=
  { content := "text", visibility := .isPublic, attachments := ["attachments/none"] }

/-- The memo that is left. -/
def leftMemo : Memo := ⟨2, "b", .normal, 1, 1, 1, "text", .isPublic, false, ⟨none, []⟩⟩

theorem ran_of_outcome {α : Type} {handler : Request α} {world : World Database} {outcome : Except Status α}
    (same : (handler world).1 = outcome) : Exists fun last => handler world = (outcome, last) ∧ last = (handler world).2 :=
  ⟨(handler world).2, Prod.ext same rfl, rfl⟩

end Service
end Memos
