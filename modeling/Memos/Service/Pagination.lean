import Memos.Filter.Clock
import Memos.Service.Forest
import Memos.Service.PageTokens

namespace Memos
namespace Service

open Library Wire Filter Store

/-!
# Following the pages of a list

A client sends each `next_page_token` back until it receives none.  The pages
are cut out of one list in a total order, so together they are that list.  The
clock runs on between the requests; a filter without `now()` does not see it.
-/

/-- The code around the handler, with the page tokens of the service. -/
def Environment.withPageTokens (celCompile : String -> Except String Expr) (rules : TextRules) :
    Environment :=
  ⟨celCompile, rules, Service.unmarshalPageToken⟩

/-- The token of the response, empty on the last page. -/
def ListMemosResponse.nextPageToken (response : ListMemosResponse) : String :=
  match response.nextPage with
  | none => ""
  | some (limit, offset) => getPageToken limit offset

/-- The pages that a client receives by following tokens, with at most `fuel`
requests.  The result is `none` when the last of them still has a token. -/
def followPages (env : Environment) (clock : Nat -> Int) (db : Database) (userId : Nat) :
    Nat -> Nat -> ListMemosRequest -> Except Status (Option (List (List JoinedMemo)))
  | 0, _, _ => .ok none
  | fuel + 1, index, request => do
      let response ← listMemos env (clock index) db userId request
      if response.nextPageToken = "" then return some [response.memos]
      else
        let rest ← followPages env clock db userId fuel (index + 1)
          { request with pageToken := response.nextPageToken }
        return rest.map fun pages => response.memos :: pages

/-- The query of the request without a limit, unless nothing can be found. -/
def requestFind (env : Environment) (now : Int) (request : ListMemosRequest)
    (viewer : Option User) : Except Status (Option FindMemo) :=
  match stateFind request.state viewer with
  | none => .ok none
  | some find => do
      let find ← requestOrder request find
      let find ← requestFilter env now request find
      return some { restrictFind viewer find with limit := none }

/-- The list that the request asks for, by one query. -/
def listAllMemos (env : Environment) (now : Int) (db : Database) (userId : Nat)
    (request : ListMemosRequest) : Except Status (List JoinedMemo) := do
  let viewer ← currentUser db userId
  match ← requestFind env now request viewer with
  | none => return []
  | some find =>
      orStatus .internal "failed to list memos: "
        (Store.listMemos env.engine env.rules now db find)

/-- The creator of the memo exists. -/
def hasCreator (db : Database) (joined : JoinedMemo) : Bool :=
  (userById db joined.memo.creatorId).isSome

/-! ## One page -/

/-- The response with the page at this offset of a list. -/
def pageAt (db : Database) (limit offset : Nat) (all : List JoinedMemo) : ListMemosResponse :=
  let page := splitPage limit offset ((all.drop offset).take (limit + 1))
  ⟨page.1.filter (hasCreator db), page.2⟩

variable {all : List JoinedMemo} {env : Environment}

/-- One more memo than the page holds tells whether the list goes on. -/
theorem pageAt_of_more (db : Database) {limit offset : Nat} (more : offset + limit < all.length) :
    pageAt db limit offset all =
      ⟨((all.drop offset).take limit).filter (hasCreator db), some (limit, offset + limit)⟩ := by
  have full : ((all.drop offset).take (limit + 1)).length = limit + 1 := by
    rw [List.length_take, List.length_drop]
    omega
  unfold pageAt splitPage
  rw [if_pos full, List.take_take, Nat.min_eq_left (Nat.le_succ limit)]

theorem pageAt_of_last (db : Database) {limit offset : Nat} (last : ¬ offset + limit < all.length) :
    pageAt db limit offset all = ⟨(all.drop offset).filter (hasCreator db), none⟩ := by
  have short : (all.drop offset).length < limit + 1 := by
    rw [List.length_drop]
    omega
  unfold pageAt splitPage
  rw [List.take_of_length_le (Nat.le_of_lt short), if_neg (Nat.ne_of_lt short)]

theorem int32OfNat_of_lt {value : Nat} (bounded : value < 2 ^ 31) : int32OfNat value = value := by
  unfold int32OfNat
  rw [Int.bmod_def]
  omega

variable {limit : Nat} {now : Int} {viewer : Option User}

theorem lt_of_small (small : limit ≤ maxPageSize) : limit < 2 ^ 31 := by
  unfold maxPageSize at small
  omega

theorem getPageToken_ne_empty (offset : Nat) (positive : 0 < limit) (small : limit ≤ maxPageSize) :
    getPageToken limit offset ≠ "" := by
  have bound := lt_of_small small
  apply marshalPageToken_ne_empty
  dsimp only
  rw [int32OfNat_of_lt bound]
  omega

variable {celCompile : String -> Except String Expr} {rules : TextRules} {db : Database}
  {userId : Nat} {request : ListMemosRequest}

theorem normalizePageSize_bounds (pageSize : Int) :
    0 < normalizePageSize pageSize ∧ normalizePageSize pageSize ≤ maxPageSize := by
  unfold normalizePageSize defaultPageSize maxPageSize
  split
  · omega
  · split <;> omega

/-- A page size within its bounds is not changed. -/
theorem normalizePageSize_eq {size : Nat} (positive : 0 < size) (small : size ≤ maxPageSize) :
    normalizePageSize size = size := by
  unfold normalizePageSize
  rw [if_neg (by omega), if_neg (by omega), Int.toNat_natCast]

/-- The limit of a request without a token is within the bounds. -/
theorem requestPage_first (env : Environment) (first : request.pageToken = "") :
    Exists fun limit => requestPage env request = .ok (limit, 0) ∧
      0 < limit ∧ limit ≤ maxPageSize := by
  have bounds := normalizePageSize_bounds request.pageSize
  refine ⟨min (normalizePageSize request.pageSize) maxPageSize, ?_, by omega, Nat.min_le_right _ _⟩
  unfold requestPage
  rw [if_pos first]

theorem withPageTokens_unmarshalPageToken (token : String) :
    (Environment.withPageTokens celCompile rules).unmarshalPageToken token =
      Service.unmarshalPageToken token := rfl

/-- The token of a page is read back. -/
theorem unmarshalPageToken_getPageToken {limit offset : Nat} (small : limit ≤ maxPageSize)
    (bounded : offset < 2 ^ 31) : (Environment.withPageTokens celCompile rules).unmarshalPageToken
      (getPageToken limit offset) = .ok ⟨limit, offset⟩ := by
  have bound := lt_of_small small
  have limitFits : IsInt32 (⟨limit, offset⟩ : PageToken).limit :=
    ⟨by dsimp only; omega, by dsimp only; omega⟩
  have offsetFits : IsInt32 (⟨limit, offset⟩ : PageToken).offset :=
    ⟨by dsimp only; omega, by dsimp only; omega⟩
  rw [withPageTokens_unmarshalPageToken, getPageToken, int32OfNat_of_lt bound,
    int32OfNat_of_lt bounded]
  exact unmarshalPageToken_marshalPageToken limitFits offsetFits

theorem requestPage_of_token (env : Environment) (request : ListMemosRequest) (token : PageToken)
    (given : request.pageToken ≠ "") (decoded : env.unmarshalPageToken request.pageToken = .ok token) :
    requestPage env request =
      .ok (min (normalizePageSize token.limit) maxPageSize, token.offset.toNat) := by
  unfold requestPage
  rw [if_neg given, decoded]
  rfl

/-- The token of the next page asks for exactly that page. -/
theorem requestPage_getPageToken {limit offset : Nat} (positive : 0 < limit)
    (small : limit ≤ maxPageSize) (bounded : offset < 2 ^ 31) :
    requestPage (.withPageTokens celCompile rules)
      { request with pageToken := getPageToken limit offset } = .ok (limit, offset) := by
  rw [requestPage_of_token (.withPageTokens celCompile rules)
    { request with pageToken := getPageToken limit offset } ⟨limit, offset⟩
    (getPageToken_ne_empty offset positive small) (unmarshalPageToken_getPageToken small bounded)]
  rw [normalizePageSize_eq positive small, Nat.min_eq_left small, Int.toNat_natCast]

/-- A request cuts its page out of the unlimited list. -/
theorem listMemos_eq_page (now : Int) (db : Database) (userId : Nat) {request : ListMemosRequest} {limit offset : Nat}
    (paged : requestPage env request = .ok (limit, offset)) :
    listMemos env now db userId request =
      pageAt db limit offset <$> listAllMemos env now db userId request := by
  unfold listMemos listAllMemos requestFind
  cases currentUser db userId with
  | error status => rfl
  | ok viewer =>
      simp only [bind, Except.bind, pure, Except.pure]
      cases stateFind request.state viewer with
      | none =>
          change Except.ok _ = Except.ok _
          simp [pageAt, splitPage]
      | some start =>
          dsimp only
          cases requestOrder request start with
          | error status => rfl
          | ok ordered =>
              dsimp only
              cases requestFilter env now request ordered with
              | error status => rfl
              | ok filtered =>
                  dsimp only
                  rw [paged]
                  dsimp only
                  rw [listMemos_page]
                  cases Store.listMemos env.engine env.rules now db
                    { restrictFind viewer filtered with limit := none } <;> rfl

/-- Whatever token a client sends, the response is a stretch of the unlimited
list, less the memos without a creator, and no longer than the largest page. -/
theorem listMemos_slice {env : Environment} {now : Int} {response : ListMemosResponse}
    (responded : listMemos env now db userId request = .ok response) :
    Exists fun all => Exists fun limit => Exists fun offset =>
      listAllMemos env now db userId request = .ok all ∧ limit ≤ maxPageSize ∧
        response.memos = ((all.drop offset).take limit).filter (hasCreator db) := by
  cases paged : requestPage env request with
  | ok page =>
      rcases page with ⟨limit, offset⟩
      have small : limit ≤ maxPageSize := by
        unfold requestPage at paged
        split at paged
        · cases paged
          exact Nat.min_le_right _ _
        · rcases bind_eq_ok.mp paged with ⟨token, _, finished⟩
          cases finished
          exact Nat.min_le_right _ _
      rw [listMemos_eq_page now db userId paged] at responded
      rcases map_eq_ok.mp responded with ⟨all, listed, rfl⟩
      refine ⟨all, limit, offset, listed, small, ?_⟩
      by_cases more : offset + limit < all.length
      · rw [pageAt_of_more db more]
      · rw [pageAt_of_last db more, List.take_of_length_le (by rw [List.length_drop]; omega)]
  | error status =>
      -- Only a caller for whom nothing can be found is not told of the token.
      rcases bind_eq_ok.mp responded with ⟨viewer, caller, continued⟩
      cases started : stateFind request.state viewer with
      | none =>
          rw [started] at continued
          cases continued
          refine ⟨[], 0, 0, ?_, Nat.zero_le _, rfl⟩
          unfold listAllMemos requestFind
          rw [caller, ok_bind, started]
          rfl
      | some start =>
          rw [started] at continued
          rcases bind_eq_ok.mp continued with ⟨ordered, _, filtering⟩
          rcases bind_eq_ok.mp filtering with ⟨filtered, _, paging⟩
          rw [paged] at paging
          cases paging

/-! ## All pages -/

/-- The unlimited list does not depend on the page. -/
theorem listAllMemos_pageToken (env : Environment) (now : Int) (token : String) :
    listAllMemos env now db userId { request with pageToken := token } =
      listAllMemos env now db userId request := by
  unfold listAllMemos requestFind requestOrder requestFilter
  rfl

section Following

variable {env : Environment} {clock : Nat -> Int} {fuel index : Nat} {response : ListMemosResponse}

theorem followPages_error {status : Status}
    (failed : listMemos env (clock index) db userId request = .error status) :
    followPages env clock db userId (fuel + 1) index request = .error status := by
  unfold followPages
  rw [failed]
  rfl

theorem followPages_last (responded : listMemos env (clock index) db userId request = .ok response)
    (last : response.nextPageToken = "") :
    followPages env clock db userId (fuel + 1) index request = .ok (some [response.memos]) := by
  unfold followPages
  rw [responded]
  simp only [bind, Except.bind]
  rw [if_pos last]
  rfl

theorem followPages_more {rest : List (List JoinedMemo)}
    (responded : listMemos env (clock index) db userId request = .ok response)
    (next : response.nextPageToken ≠ "")
    (followed : followPages env clock db userId fuel (index + 1)
      { request with pageToken := response.nextPageToken } = .ok (some rest)) :
    followPages env clock db userId (fuel + 1) index request =
      .ok (some (response.memos :: rest)) := by
  unfold followPages
  rw [responded]
  simp only [bind, Except.bind]
  rw [if_neg next, followed]
  rfl

end Following

/-- Following the tokens of a list from some offset collects the rest of it. -/
theorem followPages_from (clock : Nat -> Int) (same : forall now,
      listAllMemos (.withPageTokens celCompile rules) now db userId request = .ok all) (bounded : all.length < 2 ^ 31)
    (positive : 0 < limit) (small : limit ≤ maxPageSize) (fuel index offset : Nat) {token : String}
    (paged : requestPage (.withPageTokens celCompile rules) { request with pageToken := token } =
      .ok (limit, offset)) (enough : 0 < fuel ∧ all.length < offset + fuel) :
    Exists fun pages => followPages (.withPageTokens celCompile rules) clock db userId fuel index
        { request with pageToken := token } = .ok (some pages) ∧
      pages.flatten = (all.drop offset).filter (hasCreator db) := by
  induction fuel generalizing index offset token with
  | zero => exact absurd enough.1 (Nat.lt_irrefl 0)
  | succ fuel ih =>
      have response := listMemos_eq_page (clock index) db userId paged
      rw [listAllMemos_pageToken, same] at response
      change _ = Except.ok (pageAt db limit offset all) at response
      by_cases more : offset + limit < all.length
      · rw [pageAt_of_more db more] at response
        have token := getPageToken_ne_empty (offset + limit) positive small
        have next : requestPage (.withPageTokens celCompile rules)
            { request with pageToken := getPageToken limit (offset + limit) } =
              .ok (limit, offset + limit) :=
          requestPage_getPageToken positive small (Nat.lt_trans more bounded)
        rcases ih (index + 1) (offset + limit) next (by omega) with
          ⟨rest, followed, collected⟩
        refine ⟨((all.drop offset).take limit).filter (hasCreator db) :: rest,
          followPages_more response token followed, ?_⟩
        rw [List.flatten_cons, collected, ← List.filter_append, ← List.drop_drop,
          List.take_append_drop]
      · rw [pageAt_of_last db more] at response
        exact ⟨[(all.drop offset).filter (hasCreator db)], followPages_last response rfl,
          List.append_nil _⟩

/-! ## The clock and the order -/

theorem listMemos_timeless {engine : Engine} (now later : Int) (find : FindMemo)
    (timeless : forall filter, filter ∈ find.filters -> engine.Timeless filter) :
    Store.listMemos engine rules now db find = Store.listMemos engine rules later db find := by
  unfold Store.listMemos whereClause
  rw [appendConditions_timeless now later .sqlite timeless]

theorem requestFilter_timeless (now later : Int) (timeless : env.engine.Timeless request.filter) (find : FindMemo) :
    requestFilter env now request find = requestFilter env later request find := by
  unfold requestFilter validateFilter
  rw [compileToStatement_timeless now later timeless]

/-- The filters of the query are those of the request and of the restriction. -/
theorem requestFind_filters {find : FindMemo} (success : requestFind env now request viewer = .ok (some find)) :
    forall filter, filter ∈ find.filters -> filter = request.filter ∨
      Exists fun user : User => viewer = some user ∧ filter = visibilityFilter user.id := by
  unfold requestFind at success
  cases started : stateFind request.state viewer with
  | none => rw [started] at success; cases success
  | some start =>
      rw [started] at success
      rcases bind_eq_ok.mp success with ⟨ordered, sorted, filtering⟩
      rcases bind_eq_ok.mp filtering with ⟨filtered, added, finished⟩
      cases finished
      have startFilters : start.filters = [] := stateFind_filters started
      have ofRequest : forall filter, filter ∈ filtered.filters -> filter = request.filter := by
        intro filter member
        rcases requestFilter_selection added with rfl | ⟨_, rfl⟩
        · rw [(requestOrder_same sorted).filters, startFilters] at member
          exact absurd member List.not_mem_nil
        · rw [(requestOrder_same sorted).filters, startFilters] at member
          exact List.mem_singleton.mp member
      intro filter member
      unfold restrictFind at member
      split at member
      · exact .inl (ofRequest filter member)
      · rename_i user
        split at member
        · rcases List.mem_append.mp member with early | last
          · exact .inl (ofRequest filter early)
          · exact .inr ⟨user, rfl, List.mem_singleton.mp last⟩
        · split at member <;> exact .inl (ofRequest filter member)

theorem requestFind_limit {find : FindMemo} (success : requestFind env now request viewer = .ok (some find)) :
    find.limit = none := by
  unfold requestFind at success
  cases started : stateFind request.state viewer with
  | none => rw [started] at success; cases success
  | some start =>
      rw [started] at success
      rcases bind_eq_ok.mp success with ⟨ordered, _, filtering⟩
      rcases bind_eq_ok.mp filtering with ⟨filtered, _, finished⟩
      cases finished
      rfl

theorem requestFind_timeless (now later : Int) (timeless : env.engine.Timeless request.filter) :
    requestFind env now request viewer = requestFind env later request viewer := by
  unfold requestFind
  cases stateFind request.state viewer with
  | none => rfl
  | some start =>
      dsimp only
      cases requestOrder request start with
      | error status => rw [error_bind, error_bind]
      | ok ordered => rw [ok_bind, ok_bind, requestFilter_timeless now later timeless]

theorem listAllMemos_timeless (now later : Int)
    (reads : forall viewer, currentUser db userId = .ok viewer -> ReadsVisibilityFilter env viewer)
    (timeless : env.engine.Timeless request.filter) :
    listAllMemos env now db userId request = listAllMemos env later db userId request := by
  unfold listAllMemos
  cases caller : currentUser db userId with
  | error status => rw [error_bind, error_bind]
  | ok viewer =>
      rw [ok_bind, ok_bind, ← requestFind_timeless now later timeless]
      cases found : requestFind env now request viewer with
      | error status => rw [error_bind, error_bind]
      | ok query =>
          rw [ok_bind, ok_bind]
          cases query with
          | none => rfl
          | some find =>
              dsimp only
              rw [listMemos_timeless now later]
              intro filter member
              rcases requestFind_filters found filter member with rfl | ⟨user, rfl, rfl⟩
              · exact timeless
              · intro expr compiled
                cases (reads _ caller user rfl).symm.trans compiled
                rfl

/-- The unlimited list has each memo once, in the order of its query. -/
theorem listAllMemos_listed (forest : Forest db) (sound : db.Sound)
    (success : listAllMemos env now db userId request = .ok all) :
    (all.map fun listed => listed.memo.id).Nodup ∧ all.length ≤ db.memos.length ∧
      forall viewer find, currentUser db userId = .ok viewer ->
        requestFind env now request viewer = .ok (some find) ->
        all.Pairwise fun first second => find.before first second = true := by
  rcases bind_eq_ok.mp success with ⟨viewer, caller, finding⟩
  rcases bind_eq_ok.mp finding with ⟨query, found, querying⟩
  cases query with
  | none =>
      cases querying
      refine ⟨List.nodup_nil, Nat.zero_le _, ?_⟩
      intro other find _ _
      exact List.Pairwise.nil
  | some find =>
      have queried := orStatus_eq_ok querying
      refine ⟨forest.listMemos_nodup sound queried, forest.listMemos_length sound queried, ?_⟩
      intro other same sameCaller sameFound
      cases caller.symm.trans sameCaller
      cases found.symm.trans sameFound
      exact listMemos_sorted (requestFind_limit found) queried

/-- Over a reachable database, following the tokens of a list ends.  Its pages
together are the list that one unlimited query returns, less the memos without
a creator.  That list has each memo once, and its order leaves no choice. -/
theorem followPages_partition (celCompile : String -> Except String Expr) (rules : TextRules)
    {permitted : Database -> Operation -> Prop} (reached : Reaches permitted {} db)
    (bounded : db.memos.length < 2 ^ 31) (userId : Nat) {request : ListMemosRequest}
    (first : request.pageToken = "")
    (reads : forall viewer, currentUser db userId = .ok viewer ->
      ReadsVisibilityFilter (.withPageTokens celCompile rules) viewer)
    (timeless : (Environment.withPageTokens celCompile rules).engine.Timeless request.filter)
    (clock : Nat -> Int) (now : Int) :
    match listAllMemos (.withPageTokens celCompile rules) now db userId request with
    | .error status =>
        followPages (.withPageTokens celCompile rules) clock db userId (db.memos.length + 1) 0
          request = .error status
    | .ok all =>
        (Exists fun pages =>
          followPages (.withPageTokens celCompile rules) clock db userId (db.memos.length + 1) 0
            request = .ok (some pages) ∧
          pages.flatten = all.filter (hasCreator db)) ∧
        (all.map fun listed => listed.memo.id).Nodup ∧
        forall viewer find, currentUser db userId = .ok viewer ->
          requestFind (.withPageTokens celCompile rules) now request viewer = .ok (some find) ->
          forall other : List JoinedMemo, other.Perm all ->
            (other.Pairwise fun first second => find.before first second = true) ->
            other = all := by
  have same : forall later, listAllMemos (.withPageTokens celCompile rules) later db userId request =
      listAllMemos (.withPageTokens celCompile rules) now db userId request := fun later =>
    listAllMemos_timeless later now reads timeless
  rcases requestPage_first (.withPageTokens celCompile rules) first with
    ⟨limit, paged, positive, small⟩
  cases listed : listAllMemos (.withPageTokens celCompile rules) now db userId request with
  | error status =>
      have response := listMemos_eq_page (clock 0) db userId paged
      rw [same, listed] at response
      exact followPages_error response
  | ok all =>
      rcases reaches_forest reached with ⟨sound, forest⟩
      rcases listAllMemos_listed forest sound listed with ⟨nodup, length, sorted⟩
      refine ⟨?_, nodup, ?_⟩
      · have started : requestPage (.withPageTokens celCompile rules)
            { request with pageToken := request.pageToken } = .ok (limit, 0) := paged
        have followed := followPages_from clock (fun later => (same later).trans listed)
          (by omega) positive small (db.memos.length + 1) 0 0 started (by omega)
        rw [List.drop_zero] at followed
        exact followed
      · intro viewer find caller found other perm inOrder
        apply perm.eq_of_pairwise _ inOrder (sorted viewer find caller found)
        intro left right isOther isListed before after
        exact eq_of_nodup_map nodup (perm.mem_iff.mp isOther) isListed
          (find.same_of_before before after)

/-- Three memos of the same second. -/
def publicMemos : List Operation :=
  [.changeAccounts [alice] [] [],
    .createMemo "a" { content := "", visibility := .isPublic },
    .createMemo "b" { content := "", visibility := .isPublic },
    .createMemo "c" { content := "", visibility := .isPublic }]

def publicMemo (id : Nat) (uid : String) : JoinedMemo :=
  ⟨⟨id, uid, .normal, 1, 1, 1, "", .isPublic, false, ⟨none, []⟩⟩, some alice, none⟩

/-- A service that reads no filter. -/
abbrev unfilteredEnvironment : Environment := .withPageTokens (fun _ => .error "unknown") binaryRules

/-- The query of an anonymous caller. -/
def anonymousFind : FindMemo where
  excludeComments := true
  rowStatus := some .normal
  visibilityList := [.isPublic]

theorem publicMemos_listed :
    listAllMemos unfilteredEnvironment 0 (runFrom {} publicMemos) 0 { pageSize := 2 } =
      .ok [publicMemo 3 "c", publicMemo 2 "b", publicMemo 1 "a"] := by
  have joined : (runFrom {} publicMemos).joinedMemos =
      [publicMemo 1 "a", publicMemo 2 "b", publicMemo 3 "c"] := by decide +kernel
  have caller : currentUser (runFrom {} publicMemos) 0 = .ok none := by decide +kernel
  have selected : Store.listMemos unfilteredEnvironment.engine binaryRules 0
      (runFrom {} publicMemos) anonymousFind =
        .ok (((runFrom {} publicMemos).joinedMemos.mergeSort anonymousFind.before).map id) := by
    refine listMemos_of_rows _ rfl rfl ?_
    rw [joined]
    rfl
  rw [joined, List.map_id] at selected
  have perm := List.mergeSort_perm [publicMemo 1 "a", publicMemo 2 "b", publicMemo 3 "c"] anonymousFind.before
  generalize [publicMemo 1 "a", publicMemo 2 "b", publicMemo 3 "c"].mergeSort anonymousFind.before = all
    at selected perm
  have listed : listAllMemos unfilteredEnvironment 0 (runFrom {} publicMemos) 0 { pageSize := 2 } = .ok all := by
    unfold listAllMemos
    rw [caller]
    change orStatus .internal "failed to list memos: " (Store.listMemos unfilteredEnvironment.engine binaryRules 0
      (runFrom {} publicMemos) anonymousFind) = _
    rw [selected]
    rfl
  rcases reaches_forest (reaches_runFrom fun _ _ _ => trivial) with ⟨sound, forest⟩
  rcases listAllMemos_listed forest sound listed with ⟨nodup, _, sorted⟩
  have inOrder : [publicMemo 3 "c", publicMemo 2 "b", publicMemo 1 "a"].Perm all :=
    (List.reverse_perm _).trans perm.symm
  rw [listed, inOrder.eq_of_pairwise ?_ (by decide) (sorted none anonymousFind caller rfl)]
  intro left right isOther isListed before after
  exact eq_of_nodup_map nodup (inOrder.mem_iff.mp isOther) isListed (anonymousFind.same_of_before before after)

theorem followPages_partition_public : Exists fun pages =>
    followPages unfilteredEnvironment (fun index => index) (runFrom {} publicMemos) 0
      ((runFrom {} publicMemos).memos.length + 1) 0 { pageSize := 2 } = .ok (some pages) ∧
    pages.flatten = [publicMemo 3 "c", publicMemo 2 "b", publicMemo 1 "a"] := by
  have bounded : (runFrom {} publicMemos).memos.length < 2 ^ 31 := by decide +kernel
  have creators : forall joined, joined ∈ [publicMemo 3 "c", publicMemo 2 "b", publicMemo 1 "a"] ->
      hasCreator (runFrom {} publicMemos) joined = true := by decide +kernel
  have caller : currentUser (runFrom {} publicMemos) 0 = .ok none := by decide +kernel
  have first : ({ pageSize := 2 } : ListMemosRequest).pageToken = "" := rfl
  have partitioned := followPages_partition (fun _ => .error "unknown") binaryRules
    (reaches_runFrom fun _ _ _ => trivial) bounded 0 first
    (fun viewer isCaller user isUser => by cases caller.symm.trans isCaller; cases isUser)
    (fun _ impossible => by cases impossible) (fun index => index) 0
  rw [publicMemos_listed] at partitioned
  rcases partitioned with ⟨⟨pages, followed, collected⟩, _⟩
  exact ⟨pages, followed, collected.trans (List.filter_eq_self.mpr creators)⟩

/-- A token for a page of three memos behind the first one, which no response has
given out. -/
theorem listMemos_slice_public : Exists fun response =>
    listMemos unfilteredEnvironment 0 (runFrom {} publicMemos) 0
      { pageSize := 2, pageToken := getPageToken 3 1 } = .ok response ∧
    response.memos = [publicMemo 2 "b", publicMemo 1 "a"] ∧
    Exists fun limit => Exists fun offset => limit ≤ maxPageSize ∧
      response.memos = (([publicMemo 3 "c", publicMemo 2 "b", publicMemo 1 "a"].drop offset).take limit).filter
        (hasCreator (runFrom {} publicMemos)) := by
  have paged := @requestPage_getPageToken (fun _ => .error "unknown") binaryRules { pageSize := 2 }
    3 1 (by decide) (by decide) (by decide)
  have responded := listMemos_eq_page 0 (runFrom {} publicMemos) 0 paged
  rw [listAllMemos_pageToken, publicMemos_listed] at responded
  rcases listMemos_slice responded with ⟨all, limit, offset, listed, small, page⟩
  rw [listAllMemos_pageToken, publicMemos_listed] at listed
  cases listed
  exact ⟨_, responded, by decide +kernel, limit, offset, small, page⟩

end Service
end Memos
