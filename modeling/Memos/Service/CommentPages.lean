import Memos.Library.SortedPages
import Memos.Service.Statistics

namespace Memos
namespace Service
namespace CommentPages

open Library Wire Memos.Filter Store
open Statistics (VisibleTo newest)

/-!
# Following the pages of the comments of a memo

`ListMemoComments` cuts its pages out of the relations, which come by the ids
of the comments, latest first.  It then reads the memos of each page in their
usual order, by the time of creation.
-/

/-! ## The handler -/

structure ListMemoCommentsRequest where
  name : String
  pageSize : Int := 0
  pageToken : String := ""

structure ListMemoCommentsResponse where
  memos : List JoinedMemo
  nextPageToken : String

section Handler

variable (env : Environment) (now : Int) (db : Database) (userId : Nat)

/-- The limit and the offset of the request. -/
def requestPage (request : ListMemoCommentsRequest) : Except Status (Nat × Nat) :=
  if request.pageToken = "" then .ok (normalizePageSize request.pageSize, 0)
  else do
    let token ← orStatus .invalidArgument "invalid page token: " (env.unmarshalPageToken request.pageToken)
    return (normalizePageSize token.limit, token.offset.toNat)

/-- One relation more than the limit means that there is a next page. -/
def nextPageToken (limit offset : Nat) (relations : List MemoRelation) : String :=
  if relations.length = limit + 1 then getPageToken limit (offset + limit) else ""

/-- The memos of the response.  Their relations are loaded, but not their
reactions and attachments. -/
def memosOfPage (relations : List MemoRelation) : Except Status (List JoinedMemo) :=
  if relations.isEmpty then .ok []
  else do
    let memos ← orStatus .internal "failed to list memos" (Store.listMemos env.engine env.rules now db
      { idList := relations.map MemoRelation.memoId })
    let _ ← orStatus .internal "failed to batch load memo relations"
      (batchConvertMemoRelations env now db userId false (memos.map JoinedMemo.memo))
    return memos.filter (hasCreator db)

/-- `ListMemoComments` -/
def listMemoComments (request : ListMemoCommentsRequest) : Except Status ListMemoCommentsResponse := do
  let joined ← memoOfName env now db .internal "failed to get memo" request.name
  checkMemoReadAccess db userId joined.memo
  let viewer ← currentUser db userId
  let page ← requestPage env request
  let relations ← orStatus .internal "failed to list memo relations"
    (Store.listMemoRelations env.engine env.rules now db
      { relatedMemoId := some joined.memo.id, type := some .comment
        memoFilter := some (memoFilterText viewer), limit := some (page.1 + 1), offset := some page.2 })
  let memos ← memosOfPage env now db userId (pageOfRelations page.1 relations)
  return ⟨memos, nextPageToken page.1 page.2 relations⟩

end Handler

/-- The pages that a client receives by following tokens, with at most `fuel`
requests.  The result is `none` when the last of them still has a token. -/
def followPages (env : Environment) (clock : Nat -> Int) (db : Database) (userId : Nat) :
    Nat -> Nat -> ListMemoCommentsRequest -> Except Status (Option (List (List JoinedMemo)))
  | 0, _, _ => .ok none
  | fuel + 1, index, request => do
      let response ← listMemoComments env (clock index) db userId request
      if response.nextPageToken = "" then return some [response.memos]
      else
        let rest ← followPages env clock db userId fuel (index + 1)
          { request with pageToken := response.nextPageToken }
        return rest.map fun pages => response.memos :: pages

/-! ## The relations that are listed -/

/-- The ids of the memos that the caller may see. -/
def visibleIds (db : Database) (viewer : Option User) : List Nat :=
  (db.memos.filter fun memo => decide (VisibleTo viewer memo)).map Memo.id

/-- Later memos first. -/
def latest (first second : MemoRelation) : Bool := second.memoId ≤ first.memoId

/-- The comments of a memo that the caller may see, as relations. -/
def commentRelations (db : Database) (viewer : Option User) (parentId : Nat) : List MemoRelation :=
  (db.relations.filter fun relation => decide (relation.relatedMemoId = parentId ∧ relation.type = .comment) &&
    ((visibleIds db viewer).contains relation.memoId &&
      (visibleIds db viewer).contains relation.relatedMemoId)).mergeSort latest

section Relations

variable {env : Environment} {now : Int} {db : Database} {viewer : Option User}

theorem eval_visibility_public (rules : TextRules) (joined : JoinedMemo) :
    (memoFilterSql none).eval rules .sqlite joined.row =
      .ok (.ofBool (decide (joined.memo.visibility = .isPublic))) := by
  change Except.ok (Truth.ofBool (compare joined.memo.visibility.string "PUBLIC" == .eq)) = _
  have order : (compare joined.memo.visibility.string "PUBLIC" == .eq) =
      decide (joined.memo.visibility = .isPublic) := by
    cases joined.memo.visibility <;> decide
  rw [order]

theorem selectMemoIds_visible (rules : TextRules) :
    selectMemoIds rules db (memoFilterSql viewer) = .ok (visibleIds db viewer) := by
  cases viewer with
  | some user => exact MemoRelations.selectMemoIds_readable rules
  | none => exact selectMemoIds_of_eval (eval_visibility_public rules)

/-- What a filtered query of relations returns. -/
theorem listMemoRelations_visible {find : FindMemoRelation} (reads : ReadsMemoFilter env viewer)
    (filtered : find.memoFilter = some (memoFilterText viewer)) :
    Store.listMemoRelations env.engine env.rules now db find =
      .ok (find.page ((db.relations.filter fun relation => find.selects relation &&
        ((visibleIds db viewer).contains relation.memoId &&
          (visibleIds db viewer).contains relation.relatedMemoId)).mergeSort latest)) := by
  have tested := @memoFilterTest_of_ids env now db viewer _ reads (selectMemoIds_visible env.rules)
  rw [Store.listMemoRelations, FindMemoRelation.test, filtered]
  simp only [tested, ok_bind]
  rfl

theorem listMemoRelations_page (reads : ReadsMemoFilter env viewer) (parentId limit offset : Nat) :
    Store.listMemoRelations env.engine env.rules now db
        { relatedMemoId := some parentId, type := some .comment
          memoFilter := some (memoFilterText viewer), limit := some limit, offset := some offset } =
      .ok (pageRows limit offset (commentRelations db viewer parentId)) := by
  rw [@listMemoRelations_visible env now db viewer _ reads rfl]
  simp [FindMemoRelation.page, FindMemoRelation.selects, pageRows, commentRelations]

/-- The relations of some memos can be loaded. -/
theorem exists_relations {userId : Nat} (reads : ReadsMemoFilter env viewer)
    (caller : fetchCurrentUser db userId = .ok viewer) {memos : List Memo}
    (stored : forall memo, memo ∈ memos -> memo ∈ db.memos) : Exists fun messages =>
      batchConvertMemoRelations env now db userId false memos = .ok messages := by
  unfold batchConvertMemoRelations
  split
  · exact ⟨[], rfl⟩
  · simp only [caller, ok_bind]
    rw [@listMemoRelations_visible env now db viewer _ reads rfl,
      @listMemoRelations_visible env now db viewer _ reads rfl, ok_bind, ok_bind]
    rcases MemoRelations.exists_relationMemos env now false _ stored with ⟨known, loaded, _⟩
    rw [loaded]
    exact ⟨_, rfl⟩

end Relations

/-! ## The comments that are listed -/

def isListed (db : Database) (viewer : Option User) (parentId : Nat) (memo : Memo) : Prop :=
  db.CommentOf memo.id parentId ∧ VisibleTo viewer memo

instance (db : Database) (viewer : Option User) (parentId : Nat) (memo : Memo) :
    Decidable (isListed db viewer parentId memo) := by
  unfold isListed Database.CommentOf
  infer_instance

def latestMemo (first second : JoinedMemo) : Bool := second.memo.id ≤ first.memo.id

/-- The comments of a memo that the caller may see, latest ids first. -/
def comments (db : Database) (viewer : Option User) (parentId : Nat) : List JoinedMemo :=
  (db.joinedMemos.filter fun joined => isListed db viewer parentId joined.memo).mergeSort latestMemo

section Comments

variable {env : Environment} {now : Int} {db : Database} {viewer : Option User} {parentId : Nat}

theorem mem_comments {joined : JoinedMemo} : joined ∈ comments db viewer parentId ↔
    joined ∈ db.joinedMemos ∧ isListed db viewer parentId joined.memo := by
  rw [comments, List.mem_mergeSort, List.mem_filter, decide_eq_true_eq]

theorem joinedIds_nodup (sound : db.Sound) (forest : Forest db) :
    (db.joinedMemos.map fun joined => joined.memo.id).Nodup := by
  rw [forest.joinedMemos sound, List.map_map]
  exact sound.memoIds

theorem comments_ids (sound : db.Sound) (forest : Forest db) :
    ((comments db viewer parentId).map fun joined => joined.memo.id).Nodup := by
  have perm := List.mergeSort_perm
    (db.joinedMemos.filter fun joined => isListed db viewer parentId joined.memo) latestMemo
  exact ((perm.map _).nodup_iff).mpr ((joinedIds_nodup sound forest).sublist (List.filter_sublist.map _))

theorem comments_length (sound : db.Sound) (forest : Forest db) :
    (comments db viewer parentId).length ≤ db.memos.length := by
  rw [comments, List.length_mergeSort]
  refine (List.length_filter_le _ _).trans ?_
  rw [forest.joinedMemos sound, List.length_map]

theorem mem_visibleIds {id : Nat} : id ∈ visibleIds db viewer ↔
    Exists fun memo => memo ∈ db.memos ∧ VisibleTo viewer memo ∧ memo.id = id := by
  simp [visibleIds, and_assoc]

theorem mem_commentRelations {relation : MemoRelation} :
    relation ∈ commentRelations db viewer parentId ↔
      relation = ⟨relation.memoId, parentId, .comment⟩ ∧ db.CommentOf relation.memoId parentId ∧
        relation.memoId ∈ visibleIds db viewer ∧ parentId ∈ visibleIds db viewer := by
  rcases relation with ⟨memoId, relatedMemoId, type⟩
  rw [commentRelations, List.mem_mergeSort, List.mem_filter, Bool.and_eq_true, Bool.and_eq_true,
    decide_eq_true_eq, List.contains_iff_mem, List.contains_iff_mem, MemoRelation.mk.injEq]
  constructor
  · rintro ⟨stored, ⟨rfl, rfl⟩, source, target⟩
    exact ⟨⟨rfl, rfl, rfl⟩, stored, source, target⟩
  · rintro ⟨⟨_, rfl, rfl⟩, stored, source, target⟩
    exact ⟨stored, ⟨rfl, rfl⟩, source, target⟩

/-- The relations name the comments. -/
theorem commentRelations_ids (sound : db.Sound) (forest : Forest db)
    (parentVisible : parentId ∈ visibleIds db viewer) :
    (commentRelations db viewer parentId).map MemoRelation.memoId =
      (comments db viewer parentId).map fun joined => joined.memo.id := by
  have relationsNodup : ((commentRelations db viewer parentId).map MemoRelation.memoId).Nodup := by
    have rows : (commentRelations db viewer parentId).Nodup :=
      (List.mergeSort_perm _ _).nodup_iff.mpr (sound.relationKeys.sublist List.filter_sublist)
    refine rows.map_on ?_
    intro first inFirst second inSecond same
    rw [(mem_commentRelations.mp inFirst).1, (mem_commentRelations.mp inSecond).1, same]
  have perm : ((commentRelations db viewer parentId).map MemoRelation.memoId).Perm
      ((comments db viewer parentId).map fun joined => joined.memo.id) := by
    rw [List.perm_ext_iff_of_nodup relationsNodup (comments_ids sound forest)]
    intro id
    rw [List.mem_map, List.mem_map]
    constructor
    · rintro ⟨relation, member, rfl⟩
      rcases mem_commentRelations.mp member with ⟨_, comment, source, _⟩
      rcases mem_visibleIds.mp source with ⟨memo, stored, visible, same⟩
      refine ⟨joinedRow db memo, mem_comments.mpr ⟨?_, ?_, visible⟩, same⟩
      · rw [forest.joinedMemos sound]
        exact List.mem_map_of_mem stored
      · change db.CommentOf memo.id parentId
        rw [same]
        exact comment
    · rintro ⟨joined, member, rfl⟩
      rcases mem_comments.mp member with ⟨row, comment, visible⟩
      refine ⟨⟨joined.memo.id, parentId, .comment⟩, mem_commentRelations.mpr ⟨rfl, comment, ?_, ?_⟩, rfl⟩
      · exact mem_visibleIds.mpr ⟨joined.memo, Database.mem_joinedMemos row, visible, rfl⟩
      · exact parentVisible
  have relationsSorted : ((commentRelations db viewer parentId).map MemoRelation.memoId).Pairwise
      fun first second => second ≤ first := by
    rw [List.pairwise_map]
    have sorted := @List.pairwise_mergeSort MemoRelation latest
      (fun first second third => by simp only [latest, decide_eq_true_eq]; omega)
      (fun first second => by simp only [latest, Bool.or_eq_true, decide_eq_true_eq]; omega)
    exact (sorted _).imp fun ordered => of_decide_eq_true ordered
  have commentsSorted : ((comments db viewer parentId).map fun joined => joined.memo.id).Pairwise
      fun first second => second ≤ first := by
    rw [List.pairwise_map]
    have sorted := @List.pairwise_mergeSort JoinedMemo latestMemo
      (fun first second third => by simp only [latestMemo, decide_eq_true_eq]; omega)
      (fun first second => by simp only [latestMemo, Bool.or_eq_true, decide_eq_true_eq]; omega)
    exact (sorted _).imp fun ordered => of_decide_eq_true ordered
  exact perm.eq_of_pairwise (fun _ _ _ _ below above => Nat.le_antisymm above below) relationsSorted
    commentsSorted

/-- The memos of some comments come newest first. -/
theorem listMemos_comments (sound : db.Sound) (forest : Forest db) {page : List JoinedMemo}
    (some_ : page ≠ []) (nodup : (page.map fun joined => joined.memo.id).Nodup)
    (rows : forall joined, joined ∈ page -> joined ∈ db.joinedMemos) :
    Store.listMemos env.engine env.rules now db { idList := page.map fun joined => joined.memo.id } =
      .ok (page.mergeSort newest) := by
  have asked : (page.map fun joined : JoinedMemo => joined.memo.id) ≠ [] := by
    rw [Ne, List.map_eq_nil_iff]
    exact some_
  rcases Notifications.listMemos_ids env now db asked with ⟨result, listed, members⟩
  rw [listed]
  have resultNodup : result.Nodup := (forest.listMemos_nodup sound listed).of_map
  have perm : result.Perm (page.mergeSort newest) := by
    refine List.Perm.trans ?_ (List.mergeSort_perm page newest).symm
    rw [List.perm_ext_iff_of_nodup resultNodup nodup.of_map]
    intro joined
    rw [members, List.mem_map]
    constructor
    · rintro ⟨row, other, inPage, same⟩
      have equal := eq_of_nodup_map (joinedIds_nodup sound forest) (rows other inPage) row same
      rw [← equal]
      exact inPage
    · intro inPage
      exact ⟨rows joined inPage, joined, inPage, rfl⟩
  have sorted := @List.pairwise_mergeSort JoinedMemo newest (fun _ _ _ => FindMemo.before_trans {})
    (FindMemo.before_total {}) page
  refine congrArg Except.ok (perm.eq_of_pairwise ?_ (listMemos_sorted rfl listed) sorted)
  intro first second inFirst inSecond before after
  have same := FindMemo.same_of_before {} before after
  exact eq_of_nodup_map (forest.listMemos_nodup sound listed) inFirst (perm.mem_iff.mpr inSecond) same

end Comments

/-! ## Following the tokens -/

/-- The caller reads the comments of a memo: the name leads to it, and it may
be read. -/
structure Reads (env : Environment) (db : Database) (userId : Nat) (viewer : Option User) (name : String)
    (joined : JoinedMemo) : Prop where
  named : extractMemoUIDFromName name = .ok joined.memo.uid
  found : memoByUid db joined.memo.uid = some joined
  caller : fetchCurrentUser db userId = .ok viewer
  access : checkMemoReadAccess db userId joined.memo = .ok ()
  filter : ReadsMemoFilter env viewer

/-- The creator of each memo exists. -/
def CreatorsExist (db : Database) : Prop :=
  forall memo, memo ∈ db.memos -> Exists fun user => user ∈ db.users ∧ user.id = memo.creatorId

section Following

variable {env : Environment} {now : Int} {db : Database} {userId : Nat} {viewer : Option User}
  {name : String} {joined : JoinedMemo}

/-- Who may read a memo sees it, and who sees it may read it unless it is in
the archive of somebody else. -/
theorem checkMemoReadAccess_iff_visible (caller : fetchCurrentUser db userId = .ok viewer) {memo : Memo} :
    checkMemoReadAccess db userId memo = .ok () ↔ VisibleTo viewer memo ∧
      (memo.rowStatus = .archived -> Exists fun user => viewer = some user ∧ memo.creatorId = user.id) := by
  rw [checkMemoReadAccess_eq_ok]
  have owned : OwnedBy db userId memo ↔ Exists fun user => viewer = some user ∧ memo.creatorId = user.id := by
    unfold OwnedBy
    rw [caller]
    simp only [Except.ok.injEq]
  rw [owned, caller, and_comm]
  refine and_congr_left fun _ => ?_
  cases viewer with
  | none =>
      simp [VisibleTo]
  | some user =>
      simp only [VisibleTo, MemoRelations.Readable, Except.ok.injEq, Option.some.injEq]
      constructor
      · rintro (isPublic | ⟨other, rfl, creator⟩)
        · exact Or.inr (Or.inl isPublic)
        · cases visibility : memo.visibility with
          | isPrivate => exact Or.inl (creator visibility)
          | isPublic => exact Or.inr (Or.inl rfl)
          | isProtected => exact Or.inr (Or.inr rfl)
      · rintro (creator | isPublic | isProtected)
        · exact Or.inr ⟨user, rfl, fun _ => creator⟩
        · exact Or.inl isPublic
        · exact Or.inr ⟨user, rfl, fun isPrivate => by rw [isProtected] at isPrivate; cases isPrivate⟩

theorem Reads.parentVisible (reads : Reads env db userId viewer name joined) :
    joined.memo.id ∈ visibleIds db viewer := by
  have visible := ((checkMemoReadAccess_iff_visible reads.caller).mp reads.access).1
  exact mem_visibleIds.mpr ⟨joined.memo, Database.mem_joinedMemos (memoByUid_eq_some reads.found).1, visible, rfl⟩

theorem hasCreator_of_exist (creators : CreatorsExist db) {other : JoinedMemo} (row : other ∈ db.joinedMemos) :
    hasCreator db other = true := by
  rcases creators other.memo (Database.mem_joinedMemos row) with ⟨user, stored, same⟩
  unfold hasCreator userById
  rw [List.find?_isSome]
  exact ⟨user, stored, decide_eq_true same⟩

/-- The memos of a page are its comments, newest first. -/
theorem memosOfPage_eq (sound : db.Sound) (forest : Forest db) (creators : CreatorsExist db)
    (reads : Reads env db userId viewer name joined) (limit offset : Nat) :
    memosOfPage env now db userId (pageRows limit offset (commentRelations db viewer joined.memo.id)) =
      .ok ((pageRows limit offset (comments db viewer joined.memo.id)).mergeSort newest) := by
  have ids : (pageRows limit offset (commentRelations db viewer joined.memo.id)).map MemoRelation.memoId =
      (pageRows limit offset (comments db viewer joined.memo.id)).map fun other => other.memo.id := by
    unfold pageRows
    rw [List.map_take, List.map_drop, commentRelations_ids sound forest reads.parentVisible, List.map_take,
      List.map_drop]
  have within : (pageRows limit offset (comments db viewer joined.memo.id)).Sublist
      (comments db viewer joined.memo.id) :=
    (List.take_sublist _ _).trans (List.drop_sublist _ _)
  unfold memosOfPage
  rw [ids]
  generalize pageRows limit offset (comments db viewer joined.memo.id) = page at ids within
  have rows : forall other, other ∈ page -> other ∈ db.joinedMemos := fun other member =>
    (mem_comments.mp (within.subset member)).1
  cases page with
  | nil =>
      rw [List.map_eq_nil_iff.mp ids, List.mergeSort_nil]
      rfl
  | cons first rest =>
      have notEmpty : (pageRows limit offset (commentRelations db viewer joined.memo.id)).isEmpty = false := by
        rw [List.isEmpty_eq_false_iff]
        intro empty
        rw [empty] at ids
        cases ids
      rw [notEmpty, listMemos_comments sound forest (List.cons_ne_nil first rest)
        ((comments_ids sound forest).sublist (within.map _)) rows]
      rcases @exists_relations env now db viewer userId reads.filter reads.caller
        (((first :: rest).mergeSort newest).map JoinedMemo.memo) (by
          intro memo member
          rcases List.mem_map.mp member with ⟨other, sorted, rfl⟩
          exact Database.mem_joinedMemos (rows other (List.mem_mergeSort.mp sorted))) with ⟨messages, loaded⟩
      simp only [Bool.false_eq_true, if_false, orStatus, ok_bind, loaded]
      refine congrArg Except.ok (List.filter_eq_self.mpr ?_)
      intro other member
      exact hasCreator_of_exist creators (rows other (List.mem_mergeSort.mp member))

/-- A response is a sorted page and a token for the next one. -/
theorem listMemoComments_page (sound : db.Sound) (forest : Forest db) (creators : CreatorsExist db)
    (reads : Reads env db userId viewer name joined) {request : ListMemoCommentsRequest}
    (asked : request.name = name) {limit offset : Nat} (paged : requestPage env request = .ok (limit, offset)) :
    listMemoComments env now db userId request =
      .ok ⟨(pageRows limit offset (comments db viewer joined.memo.id)).mergeSort newest,
        if offset + limit < (comments db viewer joined.memo.id).length then getPageToken limit (offset + limit)
        else ""⟩ := by
  have lookup : memoOfName env now db .internal "failed to get memo" request.name = .ok joined := by
    unfold memoOfName
    simp only [asked, reads.named, orStatus, ok_bind, getMemo_uid _ _ _ sound.toKeyed, reads.found]
    rfl
  have caller : currentUser db userId = .ok viewer := currentUser_eq_ok.mpr reads.caller
  have total : (commentRelations db viewer joined.memo.id).length = (comments db viewer joined.memo.id).length := by
    have ids := congrArg List.length (commentRelations_ids sound forest reads.parentVisible)
    rw [List.length_map, List.length_map] at ids
    exact ids
  have length : (pageRows (limit + 1) offset (commentRelations db viewer joined.memo.id)).length =
      min (limit + 1) ((comments db viewer joined.memo.id).length - offset) := by
    unfold pageRows
    rw [List.length_take, List.length_drop, total]
  have kept : pageOfRelations limit (pageRows (limit + 1) offset (commentRelations db viewer joined.memo.id)) =
      pageRows limit offset (commentRelations db viewer joined.memo.id) := by
    unfold pageOfRelations
    split
    next => unfold pageRows; rw [List.take_take, Nat.min_eq_left (Nat.le_succ limit)]
    next short =>
      unfold pageRows
      rw [List.take_of_length_le, List.take_of_length_le]
      · rw [List.length_drop, total]; omega
      · rw [List.length_drop, total]; omega
  have token : nextPageToken limit offset
      (pageRows (limit + 1) offset (commentRelations db viewer joined.memo.id)) =
        if offset + limit < (comments db viewer joined.memo.id).length then getPageToken limit (offset + limit)
        else "" := by
    unfold nextPageToken
    rw [length]
    by_cases more : offset + limit < (comments db viewer joined.memo.id).length
    · rw [if_pos more, if_pos (by omega)]
    · rw [if_neg more, if_neg (by omega)]
  unfold listMemoComments
  rw [lookup, ok_bind, reads.access, ok_bind, caller, ok_bind, paged, ok_bind]
  dsimp only
  rw [listMemoRelations_page reads.filter]
  simp only [orStatus, ok_bind, kept, memosOfPage_eq sound forest creators reads, token]
  rfl

section Tokens

variable {celCompile : String -> Except String Expr} {rules : TextRules}

theorem requestPage_of_token (env : Environment) (request : ListMemoCommentsRequest) (token : PageToken)
    (given : request.pageToken ≠ "") (decoded : env.unmarshalPageToken request.pageToken = .ok token) :
    requestPage env request = .ok (normalizePageSize token.limit, token.offset.toNat) := by
  unfold requestPage
  rw [if_neg given, decoded]
  rfl

/-- The token of the next page asks for exactly that page. -/
theorem requestPage_getPageToken {request : ListMemoCommentsRequest} {limit offset : Nat}
    (positive : 0 < limit) (small : limit ≤ maxPageSize) (bounded : offset < 2 ^ 31) :
    requestPage (.withPageTokens celCompile rules)
      { request with pageToken := getPageToken limit offset } = .ok (limit, offset) := by
  rw [requestPage_of_token (.withPageTokens celCompile rules)
    { request with pageToken := getPageToken limit offset } ⟨limit, offset⟩
    (getPageToken_ne_empty offset positive small) (unmarshalPageToken_getPageToken small bounded)]
  rw [normalizePageSize_eq positive small, Int.toNat_natCast]

/-- The client collects the sorted pages. -/
theorem followPages_from (sound : db.Sound) (forest : Forest db) (creators : CreatorsExist db)
    (reads : Reads (.withPageTokens celCompile rules) db userId viewer name joined)
    (bounded : (comments db viewer joined.memo.id).length < 2 ^ 31) (clock : Nat -> Int)
    {limit : Nat} (positive : 0 < limit) (small : limit ≤ maxPageSize) (fuel index offset : Nat)
    {request : ListMemoCommentsRequest} (asked : request.name = name)
    (paged : requestPage (.withPageTokens celCompile rules) request = .ok (limit, offset))
    (enough : ((comments db viewer joined.memo.id).drop offset).length < fuel) :
    followPages (.withPageTokens celCompile rules) clock db userId fuel index request =
      .ok (some (sortedPages newest limit fuel ((comments db viewer joined.memo.id).drop offset))) := by
  induction fuel generalizing index offset request with
  | zero => exact absurd enough (Nat.not_lt_zero _)
  | succ fuel ih =>
      have responded := @listMemoComments_page _ (clock index) db userId viewer name joined sound forest
        creators reads request asked limit offset paged
      rw [List.length_drop] at enough
      unfold followPages
      rw [responded, ok_bind]
      by_cases more : offset + limit < (comments db viewer joined.memo.id).length
      · have next := @requestPage_getPageToken celCompile rules request limit (offset + limit) positive small
          (Nat.lt_trans more bounded)
        have rest := @ih (index + 1) (offset + limit)
          { request with pageToken := getPageToken limit (offset + limit) } asked next
          (by rw [List.length_drop]; omega)
        dsimp only
        rw [if_pos more, if_neg (getPageToken_ne_empty _ positive small), rest,
          sortedPages_more (by rw [List.length_drop]; omega), List.drop_drop]
        rfl
      · dsimp only
        rw [if_neg more, if_pos rfl, sortedPages_last (by rw [List.length_drop]; omega), pageRows,
          List.take_of_length_le (by rw [List.length_drop]; omega)]
        rfl

/-- Following the tokens from the first page. -/
theorem followPages_first (sound : db.Sound) (forest : Forest db) (creators : CreatorsExist db)
    (reads : Reads (.withPageTokens celCompile rules) db userId viewer name joined)
    (bounded : db.memos.length < 2 ^ 31) (clock : Nat -> Int) (pageSize : Int) :
    followPages (.withPageTokens celCompile rules) clock db userId (db.memos.length + 1) 0
        { name, pageSize } =
      .ok (some (sortedPages newest (normalizePageSize pageSize) (db.memos.length + 1)
        (comments db viewer joined.memo.id))) := by
  have length := @comments_length db viewer joined.memo.id sound forest
  rcases normalizePageSize_bounds pageSize with ⟨positive, small⟩
  have paged : requestPage (.withPageTokens celCompile rules) { name, pageSize } =
      .ok (normalizePageSize pageSize, 0) := if_pos rfl
  exact followPages_from sound forest creators reads (by omega) clock positive small (db.memos.length + 1)
    0 0 rfl paged (by rw [List.drop_zero]; omega)

end Tokens

end Following

/-! ## When the pages are consistent -/

/-- Following the tokens ends for every page size, always with the same list,
which has each comment of the memo that the caller may read once and nothing
else. -/
def Consistent (env : Environment) (clock : Nat -> Int) (db : Database) (userId : Nat) (name : String)
    (parentId : Nat) : Prop :=
  Exists fun all =>
    (forall pageSize, Exists fun pages =>
      followPages env clock db userId (db.memos.length + 1) 0 { name, pageSize } = .ok (some pages) ∧
        pages.flatten = all) ∧
    (all.map fun joined => joined.memo.id).Nodup ∧
    forall memo, (Exists fun joined => joined ∈ all ∧ joined.memo = memo) ↔
      memo ∈ db.memos ∧ db.CommentOf memo.id parentId ∧ checkMemoReadAccess db userId memo = .ok ()

/-- Among the comments that the caller sees, a later one was not created
earlier, and none is in the archive of somebody else. -/
structure InOrder (db : Database) (viewer : Option User) (parentId : Nat) : Prop where
  monotone : forall older newer, older ∈ db.memos -> newer ∈ db.memos ->
    isListed db viewer parentId older -> isListed db viewer parentId newer ->
    older.id < newer.id -> older.createdTs ≤ newer.createdTs
  current : forall memo, memo ∈ db.memos -> isListed db viewer parentId memo ->
    memo.rowStatus = .archived -> Exists fun user => viewer = some user ∧ memo.creatorId = user.id

section Consistency

variable {celCompile : String -> Except String Expr} {rules : TextRules} {db : Database} {userId : Nat}
  {viewer : Option User} {name : String} {joined : JoinedMemo}

theorem newest_iff {first second : JoinedMemo} : newest first second = true ↔
    second.memo.createdTs < first.memo.createdTs ∨
      first.memo.createdTs = second.memo.createdTs ∧ second.memo.id ≤ first.memo.id := by
  unfold newest FindMemo.before
  grind

/-- The comments are in the order of the pages if their ids are in the order of
their creation. -/
theorem comments_pairwise_iff (sound : db.Sound) (forest : Forest db) {parentId : Nat} :
    ((comments db viewer parentId).Pairwise fun first second => newest first second = true) ↔
      forall older newer, older ∈ db.memos -> newer ∈ db.memos ->
        isListed db viewer parentId older -> isListed db viewer parentId newer ->
        older.id < newer.id -> older.createdTs ≤ newer.createdTs := by
  have byIds := @List.pairwise_mergeSort JoinedMemo latestMemo
    (fun first second third => by simp only [latestMemo, decide_eq_true_eq]; omega)
    (fun first second => by simp only [latestMemo, Bool.or_eq_true, decide_eq_true_eq]; omega)
    (db.joinedMemos.filter fun joined => isListed db viewer parentId joined.memo)
  have latestFirst : (comments db viewer parentId).Pairwise fun first second =>
      latestMemo first second = true := byIds
  have row : forall memo, memo ∈ db.memos -> isListed db viewer parentId memo ->
      joinedRow db memo ∈ comments db viewer parentId := by
    intro memo stored listed
    refine mem_comments.mpr ⟨?_, listed⟩
    rw [forest.joinedMemos sound]
    exact List.mem_map_of_mem stored
  constructor
  · intro sorted older newer inTable alsoInTable listed alsoListed below
    rcases List.mem_iff_getElem.mp (row older inTable listed) with ⟨olderPlace, olderBound, isOlder⟩
    rcases List.mem_iff_getElem.mp (row newer alsoInTable alsoListed) with ⟨newerPlace, newerBound, isNewer⟩
    rcases Nat.lt_trichotomy olderPlace newerPlace with before | rfl | after
    · have ordered := List.pairwise_iff_getElem.mp latestFirst olderPlace newerPlace olderBound newerBound before
      rw [isOlder, isNewer] at ordered
      have notBelow : newer.id ≤ older.id := of_decide_eq_true ordered
      omega
    · rw [isOlder] at isNewer
      have same : older.id = newer.id := congrArg (fun joined => joined.memo.id) isNewer
      omega
    · have ordered := List.pairwise_iff_getElem.mp sorted newerPlace olderPlace newerBound olderBound after
      rw [isOlder, isNewer, newest_iff] at ordered
      change older.createdTs < newer.createdTs ∨ _ at ordered
      change _ ∨ newer.createdTs = older.createdTs ∧ _ at ordered
      omega
  · intro monotone
    refine latestFirst.imp_of_mem ?_
    intro first second inFirst inSecond ordered
    rcases mem_comments.mp inFirst with ⟨firstRow, firstListed⟩
    rcases mem_comments.mp inSecond with ⟨secondRow, secondListed⟩
    have notBefore : second.memo.id ≤ first.memo.id := of_decide_eq_true ordered
    rw [newest_iff]
    rcases Nat.lt_or_eq_of_le notBefore with below | same
    · have created := monotone second.memo first.memo (Database.mem_joinedMemos secondRow)
        (Database.mem_joinedMemos firstRow) secondListed firstListed below
      omega
    · have equal := eq_of_nodup_map (joinedIds_nodup sound forest) secondRow firstRow same
      rw [equal]
      exact Or.inr ⟨rfl, Nat.le_refl _⟩

theorem consistent_of_inOrder (sound : db.Sound) (forest : Forest db) (creators : CreatorsExist db)
    (reads : Reads (.withPageTokens celCompile rules) db userId viewer name joined)
    (bounded : db.memos.length < 2 ^ 31) (clock : Nat -> Int) (inOrder : InOrder db viewer joined.memo.id) :
    Consistent (.withPageTokens celCompile rules) clock db userId name joined.memo.id := by
  have length := @comments_length db viewer joined.memo.id sound forest
  refine ⟨comments db viewer joined.memo.id, ?_, comments_ids sound forest, ?_⟩
  · intro pageSize
    refine ⟨_, followPages_first sound forest creators reads bounded clock pageSize, ?_⟩
    exact sortedPages_of_pairwise (normalizePageSize_bounds pageSize).1 (by omega)
      ((comments_pairwise_iff sound forest).mpr inOrder.monotone)
  · intro memo
    simp only [mem_comments, forest.joinedMemos sound]
    constructor
    · rintro ⟨other, ⟨row, comment, visible⟩, rfl⟩
      rcases List.mem_map.mp row with ⟨memo, stored, rfl⟩
      refine ⟨stored, comment, (checkMemoReadAccess_iff_visible reads.caller).mpr ⟨visible, ?_⟩⟩
      exact inOrder.current memo stored ⟨comment, visible⟩
    · rintro ⟨stored, comment, access⟩
      have visible := ((checkMemoReadAccess_iff_visible reads.caller).mp access).1
      exact ⟨joinedRow db memo, ⟨List.mem_map_of_mem stored, comment, visible⟩, rfl⟩

theorem inOrder_of_consistent (sound : db.Sound) (forest : Forest db) (creators : CreatorsExist db)
    (reads : Reads (.withPageTokens celCompile rules) db userId viewer name joined)
    (bounded : db.memos.length < 2 ^ 31) {clock : Nat -> Int}
    (consistent : Consistent (.withPageTokens celCompile rules) clock db userId name joined.memo.id) :
    InOrder db viewer joined.memo.id := by
  have length := @comments_length db viewer joined.memo.id sound forest
  rcases consistent with ⟨all, followed, _, members⟩
  have collected : forall size, 0 < size -> size ≤ maxPageSize ->
      (sortedPages newest size (db.memos.length + 1) (comments db viewer joined.memo.id)).flatten = all := by
    intro size positive small
    rcases followed size with ⟨pages, responded, flat⟩
    have same := responded.symm.trans
      (followPages_first sound forest creators reads bounded clock size)
    rw [normalizePageSize_eq positive small] at same
    cases same
    exact flat
  have whole : all = comments db viewer joined.memo.id := by
    rw [← collected 1 Nat.one_pos (by decide)]
    exact sortedPages_one (by omega)
  refine ⟨(comments_pairwise_iff sound forest).mp ?_, ?_⟩
  · have enough : (comments db viewer joined.memo.id).length < db.memos.length + 1 := by omega
    have large : 27 ≤ maxPageSize := by decide
    exact (@sortedPages_same_iff JoinedMemo newest _ _ (fun _ _ _ => FindMemo.before_trans {})
      (FindMemo.before_total {}) maxPageSize large (by omega) enough).mp ⟨all, collected⟩
  · intro memo stored listed archived
    have inAll : joinedRow db memo ∈ all := by
      rw [whole, mem_comments, forest.joinedMemos sound]
      exact ⟨List.mem_map_of_mem stored, listed⟩
    have access := ((members memo).mp ⟨_, inAll, rfl⟩).2.2
    exact ((checkMemoReadAccess_iff_visible reads.caller).mp access).2 archived

/-- Over a reachable database whose creators exist, the pages of the comments
of a memo that the caller may read are consistent exactly if the ids of the
comments are in the order of their creation and none of them is in the archive
of somebody else. -/
theorem commentPages_consistent_iff {permitted : Database -> Operation -> Prop}
    (reached : Reaches permitted {} db) (creators : CreatorsExist db)
    (reads : Reads (.withPageTokens celCompile rules) db userId viewer name joined)
    (bounded : db.memos.length < 2 ^ 31) (clock : Nat -> Int) :
    Consistent (.withPageTokens celCompile rules) clock db userId name joined.memo.id ↔
      InOrder db viewer joined.memo.id := by
  rcases reaches_forest reached with ⟨sound, forest⟩
  exact ⟨inOrder_of_consistent sound forest creators reads bounded,
    consistent_of_inOrder sound forest creators reads bounded clock⟩

end Consistency

/-! ## An imported comment -/

/-- A memo with two comments that were created at these times. -/
def commentedAt (first second : Option Int) : List Operation :=
  [.changeAccounts [alice] [] [],
    .createMemo "a" { content := "", visibility := .isPublic },
    .createMemoComment "memos/a" "b" (some { content := "", visibility := .isPublic, createTime := first }),
    .createMemoComment "memos/a" "c" (some { content := "", visibility := .isPublic, createTime := second })]

/-- The CEL parser, as far as an anonymous caller needs it. -/
def anonymousCel (text : String) : Except String Expr :=
  if text = memoFilterText none then .ok (memoFilterExpr none) else .error "unknown"

/-- The commented memo. -/
def commentedMemo : JoinedMemo := publicMemo 1 "a"

theorem commentedAt_reads {first second : Option Int}
    (found : memoByUid (runFrom {} (commentedAt first second)) "a" = some commentedMemo)
    (caller : fetchCurrentUser (runFrom {} (commentedAt first second)) 0 = .ok none) :
    Reads (.withPageTokens anonymousCel binaryRules) (runFrom {} (commentedAt first second)) 0 none "memos/a"
      commentedMemo where
  named := by decide +kernel
  found := found
  caller := caller
  access := (checkMemoReadAccess_iff_visible caller).mpr ⟨rfl, fun impossible => by cases impossible⟩
  filter := by
    change anonymousCel (memoFilterText none) = _
    exact if_pos rfl

/-- Two comments of the same second are in order. -/
theorem commentPages_consistent_sameSecond :
    Consistent (.withPageTokens anonymousCel binaryRules) (fun index => index)
      (runFrom {} (commentedAt none none)) 0 "memos/a" 1 := by
  have creators : CreatorsExist (runFrom {} (commentedAt none none)) := by
    unfold CreatorsExist
    decide +kernel
  have bounded : (runFrom {} (commentedAt none none)).memos.length < 2 ^ 31 := by decide +kernel
  have reads := @commentedAt_reads none none (by decide +kernel) (by decide +kernel)
  have monotone : forall older, older ∈ (runFrom {} (commentedAt none none)).memos ->
      forall newer, newer ∈ (runFrom {} (commentedAt none none)).memos ->
        older.createdTs ≤ newer.createdTs := by decide +kernel
  have normal : forall memo, memo ∈ (runFrom {} (commentedAt none none)).memos ->
      memo.rowStatus ≠ .archived := by decide +kernel
  have inOrder : InOrder (runFrom {} (commentedAt none none)) none commentedMemo.memo.id :=
    ⟨fun older newer inTable alsoInTable _ _ _ => monotone older inTable newer alsoInTable,
      fun memo stored _ archived => absurd archived (normal memo stored)⟩
  exact (commentPages_consistent_iff (reaches_runFrom fun _ _ _ => trivial) creators reads bounded
    fun index => index).mpr inOrder

/-- A comment that is dated back stands behind the other on a page of both, and
before it when each has its own page. -/
theorem datedBack_inconsistent : Not (Consistent (.withPageTokens anonymousCel binaryRules)
    (fun index => index) (runFrom {} (commentedAt (some 5) (some 3))) 0 "memos/a" 1) := by
  have creators : CreatorsExist (runFrom {} (commentedAt (some 5) (some 3))) := by
    unfold CreatorsExist
    decide +kernel
  have bounded : (runFrom {} (commentedAt (some 5) (some 3))).memos.length < 2 ^ 31 := by decide +kernel
  have reads := @commentedAt_reads (some 5) (some 3) (by decide +kernel) (by decide +kernel)
  intro consistent
  have reached : Reaches (fun _ _ => True) {} (runFrom {} (commentedAt (some 5) (some 3))) :=
    reaches_runFrom fun _ _ _ => trivial
  rcases reaches_forest reached with ⟨sound, forest⟩
  have inOrder := inOrder_of_consistent sound forest creators reads bounded consistent
  have violated : Exists fun older => older ∈ (runFrom {} (commentedAt (some 5) (some 3))).memos ∧
      Exists fun newer => newer ∈ (runFrom {} (commentedAt (some 5) (some 3))).memos ∧
        isListed (runFrom {} (commentedAt (some 5) (some 3))) none 1 older ∧
        isListed (runFrom {} (commentedAt (some 5) (some 3))) none 1 newer ∧
        older.id < newer.id ∧ newer.createdTs < older.createdTs := by decide +kernel
  rcases violated with ⟨older, inTable, newer, alsoInTable, listed, alsoListed, below, earlier⟩
  exact absurd (inOrder.monotone older newer inTable alsoInTable listed alsoListed below) (not_le.mpr earlier)

end CommentPages
end Service
end Memos
