import Memos.Service.Viewer
import Memos.Store.Memo

namespace Memos
namespace Service

open Library Memos.Filter Store

/-!
# Listing memos

`ListMemos` of the service restricts the query by what the caller may see and
passes the filter of the request on as one of the query's filters.  The
restriction of a logged-in caller is itself a filter text.  The theorem at the
end states what the restriction guarantees: it needs the filter of the request
to bind its arguments, since the arguments of all filters share one list.
-/

/-- `State` -/
inductive State where
  | unspecified
  | normal
  | archived
deriving DecidableEq

structure ListMemosRequest where
  state : State := .unspecified
  orderBy : String := ""
  filter : String := ""
  pageToken : String := ""
  pageSize : Int := 0

/-- `PageToken` -/
structure PageToken where
  limit : Int
  offset : Int

/-- The memos of the response, and the limit and offset that the token of the
next page encodes. -/
structure ListMemosResponse where
  memos : List JoinedMemo := []
  nextPage : Option (Nat × Nat) := none

/-- The code around the handler: the CEL compiler, the text rules of the
database, and the decoder of page tokens. -/
structure Environment where
  celCompile : String -> Except String Expr
  rules : TextRules
  unmarshalPageToken : String -> Except String PageToken

/-- `DefaultEngine` -/
def Environment.engine (env : Environment) : Engine := ⟨newSchema, env.celCompile⟩

/-! ## Order and page -/

/-- `DefaultPageSize` and `MaxPageSize` -/
def defaultPageSize : Nat := 10
def maxPageSize : Nat := 1000

def normalizePageSize (pageSize : Int) : Nat :=
  if pageSize ≤ 0 then defaultPageSize
  else if maxPageSize < pageSize then maxPageSize
  else pageSize.toNat

/-- `strings.Fields` -/
def fields (text : List Char) : List String :=
  ((text.splitOnP isSpace).filter fun part => !part.isEmpty).map String.ofList

/-- The fields of `order_by` seen so far. -/
structure OrderBy where
  find : FindMemo
  hasPinned : Bool := false
  hasExplicitTimeField : Bool := false

/-- The direction of a field, descending unless it says otherwise. -/
def fieldDirection : List String -> Except String String
  | [] => .ok "desc"
  | direction :: _ =>
      let lower := direction.map Char.toLower
      if lower = "asc" ∨ lower = "desc" then .ok lower
      else .error ("invalid order direction: " ++ direction ++ ", must be 'asc' or 'desc'")

/-- The first time field decides the direction. -/
def applyOrderField (state : OrderBy) (fieldName direction : String) : Except String OrderBy :=
  if fieldName = "pinned" then
    .ok { state with find.orderByPinned := true, hasPinned := true }
  else if fieldName = "create_time" ∨ fieldName = "name" then
    if state.hasExplicitTimeField then .ok state
    else
      .ok { state with find.orderByTimeAsc := direction = "asc", hasExplicitTimeField := true }
  else if fieldName = "update_time" then
    if state.hasExplicitTimeField then .ok state
    else
      .ok { state with find.orderByUpdatedTs := true, find.orderByTimeAsc := direction = "asc"
                       hasExplicitTimeField := true }
  else
    .error ("unsupported order field: " ++ fieldName ++
      ", supported fields are: pinned, create_time, update_time, name")

/-- One field of `order_by`, skipped when it is blank. -/
def parseOrderField (state : OrderBy) (field : List Char) : Except String OrderBy :=
  match fields field with
  | [] => .ok state
  | fieldName :: rest => fieldDirection rest >>= applyOrderField state fieldName

def parseMemoOrderBy (orderBy : String) (find : FindMemo) : Except String FindMemo :=
  if orderBy.toList.all isSpace then .error "empty order_by"
  else do
    let parts := orderBy.toList.splitOn ','
    let state ← parts.foldlM parseOrderField { find }
    if state.hasPinned ∧ ¬ state.find.orderByUpdatedTs ∧ parts.length = 1 then
      return { state.find with orderByTimeAsc := false }
    else return state.find

/-! ## The handler -/

/-- The filter text that restricts a logged-in caller. -/
def visibilityFilter (userId : Nat) : String :=
  "creator_id == " ++ toString userId ++ " || visibility in [\"PUBLIC\", \"PROTECTED\"]"

def validateFilter (env : Environment) (now : Int) (filter : String) : Except String Unit :=
  if filter = "" then .error "filter cannot be empty"
  else
    match env.engine.compileToStatement now filter .sqlite 0 with
    | .error cause => .error ("failed to compile filter: " ++ cause)
    | .ok _ => .ok ()

/-- The cause is told behind a colon, and not at all in a text without one. -/
def withCause (context cause : String) : String :=
  if ": ".toList <:+ context.toList then context ++ cause else context

/-- Report a failure under a code. -/
def orStatus {α : Type} (code : Code) (context : String) : Except String α -> Except Status α
  | .ok value => .ok value
  | .error cause => .error ⟨code, withCause context cause⟩

/-- The status and, for archived memos, the creator that the request asks
for.  There is none when nothing can be returned. -/
def stateFind (state : State) (viewer : Option User) : Option FindMemo :=
  match state, viewer with
  | .archived, none => none
  | .archived, some user =>
      some { excludeComments := true, rowStatus := some .archived, creatorId := some user.id }
  | _, _ => some { excludeComments := true, rowStatus := some .normal }

/-- The order of the request. -/
def requestOrder (request : ListMemosRequest) (find : FindMemo) : Except Status FindMemo :=
  if request.orderBy = "" then .ok { find with orderByTimeAsc := false }
  else orStatus .invalidArgument "invalid order_by: " (parseMemoOrderBy request.orderBy find)

/-- The filter of the request. -/
def requestFilter (env : Environment) (now : Int) (request : ListMemosRequest)
    (find : FindMemo) : Except Status FindMemo :=
  if request.filter = "" then .ok find
  else do
    orStatus .invalidArgument "invalid filter: " (validateFilter env now request.filter)
    return { find with filters := find.filters ++ [request.filter] }

/-- What the caller may see. -/
def restrictFind (viewer : Option User) (find : FindMemo) : FindMemo :=
  match viewer with
  | none => { find with visibilityList := [.isPublic] }
  | some user =>
      match find.creatorId with
      | none => { find with filters := find.filters ++ [visibilityFilter user.id] }
      | some creatorId =>
          if creatorId = user.id then find
          else { find with visibilityList := [.isPublic, .isProtected] }

/-- The limit and the offset of the request. -/
def requestPage (env : Environment) (request : ListMemosRequest) : Except Status (Nat × Nat) :=
  if request.pageToken = "" then .ok (min (normalizePageSize request.pageSize) maxPageSize, 0)
  else do
    let token ← orStatus .invalidArgument "invalid page token: "
      (env.unmarshalPageToken request.pageToken)
    return (min (normalizePageSize token.limit) maxPageSize, token.offset.toNat)

/-- One memo more than the limit means that there is a next page. -/
def splitPage (limit offset : Nat) (memos : List JoinedMemo) :
    List JoinedMemo × Option (Nat × Nat) :=
  if memos.length = limit + 1 then (memos.take limit, some (limit, offset + limit))
  else (memos, none)

/-- `ListMemos`, without the reactions, attachments and relations that are
loaded for the memos of the response. -/
def listMemos (env : Environment) (now : Int) (db : Database) (userId : Nat)
    (request : ListMemosRequest) : Except Status ListMemosResponse := do
  let viewer ← currentUser db userId
  match stateFind request.state viewer with
  | none => return {}
  | some find =>
      let find ← requestOrder request find
      let find ← requestFilter env now request find
      let (limit, offset) ← requestPage env request
      let find := { restrictFind viewer find with
        limit := some (limit + 1), offset := some offset }
      let memos ← orStatus .internal "failed to list memos: "
        (Store.listMemos env.engine env.rules now db find)
      let page := splitPage limit offset memos
      -- A memo whose creator does not exist is skipped.
      return ⟨page.1.filter fun joined => (userById db joined.memo.creatorId).isSome, page.2⟩

variable {env : Environment} {now : Int} {userId : Nat} {request : ListMemosRequest} {viewer : Option User}

/-- The stages of a request that reaches the store. -/
theorem listMemos_of_query {db : Database} {start ordered filtered : FindMemo} {limit offset : Nat}
    (memos : List JoinedMemo) (caller : currentUser db userId = .ok viewer)
    (started : stateFind request.state viewer = some start) (sorted : requestOrder request start = .ok ordered)
    (added : requestFilter env now request ordered = .ok filtered)
    (paged : requestPage env request = .ok (limit, offset))
    (queried : Store.listMemos env.engine env.rules now db { restrictFind viewer filtered with
      limit := some (limit + 1), offset := some offset } = .ok memos) :
    listMemos env now db userId request =
      .ok ⟨(splitPage limit offset memos).1.filter fun joined =>
        (userById db joined.memo.creatorId).isSome, (splitPage limit offset memos).2⟩ := by
  unfold listMemos
  rw [caller]
  simp only [bind, Except.bind, started, sorted, added, paged, queried]
  rfl

/-! ## Access -/

/-- The row status that a request asks for. -/
def State.rowStatus : State -> RowStatus
  | .archived => .archived
  | _ => .normal

/-- The caller wrote the memo. -/
def WrittenBy (viewer : Option User) (memo : Memo) : Prop :=
  Exists fun user => viewer = some user ∧ memo.creatorId = user.id

/-- What a caller may find in a list of memos. -/
structure Listable (state : State) (viewer : Option User) (memo : Memo) : Prop where
  rowStatus : memo.rowStatus = state.rowStatus
  archived : memo.rowStatus = .archived -> WrittenBy viewer memo
  anonymous : viewer = none -> memo.visibility = .isPublic
  isPrivate : memo.visibility = .isPrivate -> WrittenBy viewer memo

/-- The expression of the restricting filter. -/
def visibilityExpr (userId : Nat) : Expr :=
  .callExpr none "_||_" [
    .callExpr none "_==_" [.identExpr "creator_id", .constExpr (.int64Value userId)],
    .callExpr none "@in" [.identExpr "visibility",
      .listExpr [.constExpr (.stringValue "PUBLIC"), .constExpr (.stringValue "PROTECTED")]]]

/-- The CEL parser reads the restricting filter of this caller. -/
def ReadsVisibilityFilter (env : Environment) (viewer : Option User) : Prop :=
  forall user, viewer = some user ->
    env.celCompile (visibilityFilter user.id) = .ok (visibilityExpr user.id)

/-- The condition of the restricting filter. -/
def visibilityCondition (userId : Nat) : Condition :=
  .logical .or
    (.comparison (.fieldRef "creator_id") .eq (.literalValue (.int userId)))
    (.inList (.fieldRef "visibility")
      [.literalValue (.string "PUBLIC"), .literalValue (.string "PROTECTED")])

/-- The text of the restricting filter with its literals. -/
def visibilitySql (userId : Nat) : SqlCondition Arg :=
  .paren (.or
    (.compare .eq (.column ⟨"memo", "creator_id"⟩) (.param (.int userId)))
    (.inList (.column ⟨"memo", "visibility"⟩) [.string "PUBLIC", .string "PROTECTED"]))

theorem visibilityFilter_not_blank (userId : Nat) :
    (visibilityFilter userId).toList.all isSpace = false := by
  rw [visibilityFilter, String.toList_append, String.toList_append, List.all_append,
    List.all_append]
  rfl

theorem compile_visibilityFilter (reads : env.celCompile (visibilityFilter userId) = .ok (visibilityExpr userId))
    (now : Int) :
    env.engine.compile now (visibilityFilter userId) = .ok (visibilityCondition userId) := by
  rw [Engine.compile, visibilityFilter_not_blank]
  simp only [Environment.engine, reads]
  rfl

theorem statement_visibilityFilter {userId offset : Nat} {statement : Statement}
    (reads : env.celCompile (visibilityFilter userId) = .ok (visibilityExpr userId))
    (success : env.engine.compileToStatement now (visibilityFilter userId) .sqlite offset =
      .ok statement) :
    statement.sql.isEmpty = false ∧
      statement.sql.map Placeholder.literal = visibilitySql userId := by
  rcases bind_eq_ok.mp success with ⟨condition, compiled, rendered⟩
  rw [compile_visibilityFilter reads] at compiled
  cases compiled
  cases rendered
  exact ⟨rfl, rfl⟩

/-- A row that satisfies the restricting filter is the caller's own or is not
private. -/
theorem visibilitySql_yes {rules : TextRules} {joined : JoinedMemo}
    (holds : (visibilitySql userId).eval rules .sqlite joined.row = .ok .yes) :
    joined.memo.creatorId = userId ∨ joined.memo.visibility ≠ .isPrivate := by
  rcases bind_eq_ok.mp holds with ⟨created, createdTruth, continued⟩
  rcases bind_eq_ok.mp continued with ⟨listed, listedTruth, finished⟩
  have either : created = .yes ∨ listed = .yes := by
    have both := pure_eq_ok.mp finished
    cases created <;> cases listed <;> first | exact .inl rfl | exact .inr rfl | cases both
  rcases either with rfl | rfl
  · exact .inl (orderTruth_yes_int createdTruth)
  · refine .inr fun isPrivate => ?_
    have texts : anyEqual rules .sqlite true (.text joined.memo.visibility.string)
        (["PUBLIC", "PROTECTED"].map .text) = .ok .yes := listedTruth
    have member := anyEqual_text texts
    rw [isPrivate] at member
    revert member
    decide

/-! ## The filters of the query -/

/-- There is something to ask the store for, and the order and the page can be
read. -/
structure ReachesStore (env : Environment) (request : ListMemosRequest) (viewer : Option User) : Prop where
  order : Exists fun start => stateFind request.state viewer = some start ∧
    Exists fun ordered => requestOrder request start = .ok ordered
  page : Exists fun page => requestPage env request = .ok page

/-- The filter of a request that reaches the store is constant or keeps its
arguments, if it is a filter. -/
def RequestBinds (env : Environment) (now : Int) (request : ListMemosRequest) (viewer : Option User) :
    Prop :=
  ReachesStore env request viewer -> request.filter ≠ "" ->
    forall condition statement, env.engine.compile now request.filter = .ok condition ->
      (Renderer.new newSchema .sqlite 0).render condition = .ok statement ->
      constantValue condition ≠ none ∨ keepsArguments newSchema .sqlite condition = true

/-- The filter stands in the query with more arguments than placeholders. -/
def LeavesArguments (env : Environment) (now : Int) (filter : String) : Prop :=
  Exists fun statement => env.engine.compileToStatement now filter .sqlite 0 = .ok statement ∧
    statement.sql.isEmpty = false ∧ statement.sql.params.length < statement.args.length

theorem leavesArguments (unbound : ¬ RequestBinds env now request viewer) : LeavesArguments env now request.filter := by
  unfold RequestBinds at unbound
  push Not at unbound
  rcases unbound with ⟨_, _, condition, statement, compiled, rendered, varies, loses⟩
  have recorded := render_recorded rendered
  refine ⟨statement, ?_, ?_, recorded.dropped (Bool.eq_false_iff.mpr loses)⟩
  · rw [Engine.compileToStatement, compiled]
    exact rendered
  · rw [recorded.empty_eq, varies]
    rfl

/-- The filter of the request, when it is one, binds its arguments. -/
def FilterBinds (env : Environment) (now : Int) (request : ListMemosRequest) : Prop :=
  request.filter ≠ "" -> forall condition, env.engine.compile now request.filter = .ok condition ->
    bindsArguments newSchema .sqlite condition = true

/-- `order_by` only sets the order. -/
structure SameSelection (first second : FindMemo) : Prop where
  rowStatus : second.rowStatus = first.rowStatus
  creatorId : second.creatorId = first.creatorId
  filters : second.filters = first.filters

theorem applyOrderField_same {state after : OrderBy} {fieldName direction : String}
    (success : applyOrderField state fieldName direction = .ok after) :
    SameSelection state.find after.find := by
  unfold applyOrderField at success
  split at success
  · cases success
    exact ⟨rfl, rfl, rfl⟩
  · split at success
    · split at success <;> cases success <;> exact ⟨rfl, rfl, rfl⟩
    · split at success
      · split at success <;> cases success <;> exact ⟨rfl, rfl, rfl⟩
      · cases success

theorem parseOrderField_same {state after : OrderBy} {field : List Char}
    (success : parseOrderField state field = .ok after) : SameSelection state.find after.find := by
  unfold parseOrderField at success
  split at success
  · cases success
    exact ⟨rfl, rfl, rfl⟩
  · rcases bind_eq_ok.mp success with ⟨direction, _, applied⟩
    exact applyOrderField_same applied

theorem parseOrderFields_same {parts : List (List Char)} {state after : OrderBy}
    (success : parts.foldlM parseOrderField state = .ok after) :
    SameSelection state.find after.find := by
  induction parts generalizing state with
  | nil =>
      cases success
      exact ⟨rfl, rfl, rfl⟩
  | cons part rest ih =>
      rw [List.foldlM_cons] at success
      rcases bind_eq_ok.mp success with ⟨middle, first, continued⟩
      have one := parseOrderField_same first
      have others := ih continued
      exact ⟨others.rowStatus.trans one.rowStatus, others.creatorId.trans one.creatorId,
        others.filters.trans one.filters⟩

theorem parseMemoOrderBy_same {orderBy : String} {find after : FindMemo}
    (success : parseMemoOrderBy orderBy find = .ok after) : SameSelection find after := by
  unfold parseMemoOrderBy at success
  split at success
  · cases success
  · rcases bind_eq_ok.mp success with ⟨state, folded, finished⟩
    have same := parseOrderFields_same folded
    split at finished <;> cases finished
    · exact ⟨same.rowStatus, same.creatorId, same.filters⟩
    · exact same

theorem orStatus_eq_ok {α : Type} {code : Code} {context : String} {action : Except String α}
    {value : α} (success : orStatus code context action = .ok value) : action = .ok value := by
  cases action with
  | error cause => cases success
  | ok result => exact congrArg Except.ok (Except.ok.inj success)

theorem requestOrder_same {find after : FindMemo} (success : requestOrder request find = .ok after) :
    SameSelection find after := by
  unfold requestOrder at success
  split at success
  · cases success
    exact ⟨rfl, rfl, rfl⟩
  · exact parseMemoOrderBy_same (orStatus_eq_ok success)

/-- The request adds its own filter and nothing else to the selection. -/
theorem requestFilter_selection {find after : FindMemo} (success : requestFilter env now request find = .ok after) :
    after = find ∨
      request.filter ≠ "" ∧ after = { find with filters := find.filters ++ [request.filter] } := by
  unfold requestFilter at success
  split at success
  · cases success
    exact .inl rfl
  next given =>
    rcases bind_eq_ok.mp success with ⟨_, _, finished⟩
    cases finished
    exact .inr ⟨given, rfl⟩

/-- The filter has been compiled and rendered once before it is added. -/
theorem requestFilter_valid {find after : FindMemo} (success : requestFilter env now request find = .ok after)
    (given : request.filter ≠ "") : Exists fun condition => Exists fun statement =>
      env.engine.compile now request.filter = .ok condition ∧
        (Renderer.new newSchema .sqlite 0).render condition = .ok statement := by
  unfold requestFilter at success
  rw [if_neg given] at success
  rcases bind_eq_ok.mp success with ⟨_, validated, _⟩
  have valid := orStatus_eq_ok validated
  unfold validateFilter at valid
  rw [if_neg given] at valid
  split at valid
  next => cases valid
  next statement compiled =>
    rcases bind_eq_ok.mp compiled with ⟨condition, parsed, rendered⟩
    exact ⟨condition, statement, parsed, rendered⟩

theorem requestFilter_asked {find after : FindMemo} (success : requestFilter env now request find = .ok after)
    (given : request.filter ≠ "") : request.filter ∈ after.filters := by
  unfold requestFilter at success
  rw [if_neg given] at success
  rcases bind_eq_ok.mp success with ⟨_, _, finished⟩
  cases finished
  exact List.mem_append_right _ (List.mem_singleton.mpr rfl)

theorem stateFind_filters {state : State} {find : FindMemo} (started : stateFind state viewer = some find) :
    find.filters = [] := by
  cases state <;> cases viewer <;> cases started <;> rfl

/-- The restriction keeps the filter of the request. -/
theorem mem_restrictFind {find : FindMemo} {filter : String} (member : filter ∈ find.filters) :
    filter ∈ (restrictFind viewer find).filters := by
  unfold restrictFind
  split
  · exact member
  · split
    · exact List.mem_append_left _ member
    · split
      · exact member
      · exact member

/-- What the handler asks the store for. -/
structure Restricted (env : Environment) (now : Int) (request : ListMemosRequest)
    (viewer : Option User) (find : FindMemo) : Prop where
  rowStatus : find.rowStatus = some request.state.rowStatus
  binds : AllBind env.engine now .sqlite find.filters
  archived : request.state = .archived ->
    Exists fun user => viewer = some user ∧ find.creatorId = some user.id
  anonymous : viewer = none -> find.visibilityList = [.isPublic]
  loggedIn : forall user, viewer = some user ->
    find.creatorId = some user.id ∨ visibilityFilter user.id ∈ find.filters

theorem visibilityCondition_binds (userId : Nat) :
    bindsArguments newSchema .sqlite (visibilityCondition userId) = true := rfl

theorem restrictFind_restricted {start ordered filtered : FindMemo} (reads : ReadsVisibilityFilter env viewer)
    (binds : FilterBinds env now request) (started : stateFind request.state viewer = some start)
    (sorted : requestOrder request start = .ok ordered) (added : requestFilter env now request ordered = .ok filtered) :
    Restricted env now request viewer (restrictFind viewer filtered) := by
  have same := requestOrder_same sorted
  have startFilters := stateFind_filters started
  have fields : filtered.rowStatus = start.rowStatus ∧ filtered.creatorId = start.creatorId ∧
      AllBind env.engine now .sqlite filtered.filters := by
    rcases requestFilter_selection added with rfl | ⟨given, rfl⟩
    · refine ⟨same.rowStatus, same.creatorId, ?_⟩
      rw [same.filters, startFilters]
      exact fun _ impossible => absurd impossible List.not_mem_nil
    · refine ⟨same.rowStatus, same.creatorId, ?_⟩
      intro filter member condition compiled
      rw [same.filters, startFilters] at member
      rcases List.mem_singleton.mp member with rfl
      exact binds given condition compiled
  rcases fields with ⟨rowStatus, creatorId, bindsAll⟩
  cases viewer with
  | none =>
      cases state : request.state with
      | archived => rw [state] at started; cases started
      | unspecified | normal =>
          rw [state] at started
          cases started
          refine ⟨?_, bindsAll, ?_, fun _ => rfl, ?_⟩
          · rw [state]
            exact rowStatus
          · intro impossible
            rw [state] at impossible
            cases impossible
          · intro user impossible
            cases impossible
  | some user =>
      have withFilter : AllBind env.engine now .sqlite
          (filtered.filters ++ [visibilityFilter user.id]) := by
        intro filter member condition compiled
        rcases List.mem_append.mp member with early | last
        · exact bindsAll filter early condition compiled
        · rcases List.mem_singleton.mp last with rfl
          rw [compile_visibilityFilter (reads user rfl)] at compiled
          cases compiled
          exact visibilityCondition_binds user.id
      cases state : request.state with
      | archived =>
          rw [state] at started
          cases started
          have kept : restrictFind (some user) filtered = filtered := by
            simp only [restrictFind, creatorId, if_true]
          rw [kept]
          refine ⟨?_, bindsAll, ?_, ?_, ?_⟩
          · rw [state]
            exact rowStatus
          · intro _
            exact ⟨user, rfl, creatorId⟩
          · intro impossible
            cases impossible
          · intro other same
            cases same
            exact .inl creatorId
      | unspecified | normal =>
          rw [state] at started
          cases started
          have added : restrictFind (some user) filtered =
              { filtered with filters := filtered.filters ++ [visibilityFilter user.id] } := by
            simp only [restrictFind, creatorId]
          rw [added]
          refine ⟨?_, withFilter, ?_, ?_, ?_⟩
          · rw [state]
            exact rowStatus
          · intro impossible
            rw [state] at impossible
            cases impossible
          · intro impossible
            cases impossible
          · intro other same
            cases same
            exact .inr (List.mem_append_right _ (List.mem_singleton.mpr rfl))

theorem mem_splitPage {limit offset : Nat} {memos : List JoinedMemo} {joined : JoinedMemo}
    (member : joined ∈ (splitPage limit offset memos).1) : joined ∈ memos := by
  unfold splitPage at member
  split at member
  · exact List.mem_of_mem_take member
  · exact member

/-! ## The guarantee -/

/-- What a restricted query returns is listable. -/
theorem restricted_listable {db : Database} {find : FindMemo} {result : List JoinedMemo}
    (reads : ReadsVisibilityFilter env viewer) (restricted : Restricted env now request viewer find)
    (success : Store.listMemos env.engine env.rules now db find = .ok result) :
    forall listed, listed ∈ result -> Listable request.state viewer listed.memo := by
  intro listed member
  rcases listMemos_sound restricted.binds success listed member with
    ⟨joined, _, same, filters, pushes⟩
  have meets := FindMemo.meets_of_pushes pushes
  have rowStatus := meets.rowStatus _ restricted.rowStatus
  have isPrivate : joined.memo.visibility = .isPrivate -> WrittenBy viewer joined.memo := by
    intro priv
    cases viewer with
    | none =>
        have visible := meets.visibility (by rw [restricted.anonymous rfl]; exact List.cons_ne_nil _ _)
        rw [restricted.anonymous rfl, priv] at visible
        cases List.mem_singleton.mp visible
    | some user =>
        rcases restricted.loggedIn user rfl with byCreator | byFilter
        · exact ⟨user, rfl, meets.creatorId user.id byCreator⟩
        · rcases filters _ byFilter with ⟨statement, offset, compiled, holds⟩
          rcases statement_visibilityFilter (reads user rfl) compiled with ⟨nonempty, sql⟩
          have satisfied := holds nonempty
          rw [sql] at satisfied
          rcases visibilitySql_yes satisfied with own | notPrivate
          · exact ⟨user, rfl, own⟩
          · exact absurd priv notPrivate
  have listable : Listable request.state viewer joined.memo := by
    refine ⟨rowStatus, ?_, ?_, isPrivate⟩
    · intro archived
      have asked : request.state = .archived := by
        rw [rowStatus] at archived
        cases state : request.state <;> rw [state] at archived <;> first | rfl | cases archived
      rcases restricted.archived asked with ⟨user, isUser, byCreator⟩
      exact ⟨user, isUser, meets.creatorId user.id byCreator⟩
    · intro nobody
      have visible := meets.visibility
        (by rw [restricted.anonymous nobody]; exact List.cons_ne_nil _ _)
      rw [restricted.anonymous nobody] at visible
      exact List.mem_singleton.mp visible
  rcases same with rfl | rfl
  · exact listable
  · exact ⟨listable.rowStatus, listable.archived, listable.anonymous, listable.isPrivate⟩

theorem listable_of_binds {db : Database} {response : ListMemosResponse}
    (caller : fetchCurrentUser db userId = .ok viewer) (reads : ReadsVisibilityFilter env viewer)
    (binds : RequestBinds env now request viewer) (success : listMemos env now db userId request = .ok response) :
    forall listed, listed ∈ response.memos -> Listable request.state viewer listed.memo := by
  rcases bind_eq_ok.mp success with ⟨other, sameCaller, continued⟩
  rw [currentUser_eq_ok, caller] at sameCaller
  cases sameCaller
  cases started : stateFind request.state viewer with
  | none =>
      rw [started] at continued
      cases continued
      exact fun _ impossible => absurd impossible List.not_mem_nil
  | some start =>
      rw [started] at continued
      rcases bind_eq_ok.mp continued with ⟨ordered, sorted, filtering⟩
      rcases bind_eq_ok.mp filtering with ⟨filtered, added, paging⟩
      rcases bind_eq_ok.mp paging with ⟨⟨limit, offset⟩, paged, querying⟩
      rcases bind_eq_ok.mp querying with ⟨memos, queried, finished⟩
      have bound := binds ⟨⟨start, started, ordered, sorted⟩, _, paged⟩
      by_cases never : request.filter ≠ "" ∧ Exists fun condition =>
          env.engine.compile now request.filter = .ok condition ∧ constantValue condition = some false
      · rcases never with ⟨given, condition, compiled, isNever⟩
        have asked := requestFilter_asked added given
        have none_ := listMemos_never compiled isNever (by exact mem_restrictFind asked)
          (orStatus_eq_ok queried)
        cases finished
        rw [none_]
        exact fun listed member => absurd (mem_splitPage (List.mem_filter.mp member).1) List.not_mem_nil
      have filterBinds : FilterBinds env now request := by
        intro given condition compiled
        rcases requestFilter_valid added given with ⟨other, statement, parsed, rendered⟩
        rw [compiled] at parsed
        cases parsed
        rcases bound given condition statement compiled rendered with varies | keeps
        · cases folds : constantValue condition with
          | none => exact absurd folds varies
          | some value =>
              cases value with
              | true => rw [bindsArguments, folds]; rfl
              | false => exact absurd ⟨given, condition, compiled, folds⟩ never
        · rw [bindsArguments, keeps, Bool.or_true]
      have restricted := restrictFind_restricted reads filterBinds started sorted added
      have paged : Restricted env now request viewer { restrictFind viewer filtered with
          limit := some (limit + 1), offset := some offset } :=
        ⟨restricted.rowStatus, restricted.binds, restricted.archived, restricted.anonymous,
          restricted.loggedIn⟩
      have all := restricted_listable reads paged (orStatus_eq_ok queried)
      cases finished
      intro listed member
      exact all listed (mem_splitPage (List.mem_filter.mp member).1)

/-- Whenever the filter of a request that reaches the store is constant or keeps
its arguments, every listed memo is one that the caller may see.  Otherwise
arguments are left over, and the conjuncts that the service adds receive them. -/
theorem listMemos_listable {env : Environment} {now : Int} {request : ListMemosRequest}
    {viewer : Option User} {db : Database} {userId : Nat} {response : ListMemosResponse}
    (caller : fetchCurrentUser db userId = .ok viewer) (reads : ReadsVisibilityFilter env viewer)
    (success : listMemos env now db userId request = .ok response) :
    (RequestBinds env now request viewer ->
      forall listed, listed ∈ response.memos -> Listable request.state viewer listed.memo) ∧
    (¬ RequestBinds env now request viewer -> LeavesArguments env now request.filter) :=
  ⟨fun binds => listable_of_binds caller reads binds success, leavesArguments⟩

/-! ## A filter that widens access -/

/-- The filter `content != "zzz" && (content in ["NORMAL", "PRIVATE"] || true)`.
The second operand disappears and leaves its two arguments behind. -/
def wideningFilter : Expr :=
  .callExpr none "_&&_" [
    .callExpr none "_!=_" [.identExpr "content", .constExpr (.stringValue "zzz")],
    .callExpr none "_||_" [
      .callExpr none "@in" [.identExpr "content",
        .listExpr [.constExpr (.stringValue "NORMAL"), .constExpr (.stringValue "PRIVATE")]],
      .constExpr (.boolValue true)]]

def wideningText : String :=
  "content != \"zzz\" && (content in [\"NORMAL\", \"PRIVATE\"] || true)"

/-- The comparison with the integer in a text of digits. -/
def compareDigits (number : Int) (text : String) : Option Ordering :=
  if text.toList.all Char.isDigit then text.toNat?.map fun value => compare number (value : Int)
  else none

/-- Binary text rules. -/
def binaryRules : TextRules where
  collate := compare
  sameLetter := fun first second => first == second
  fold := fun c => [c]
  compareNumber := compareDigits

/-- A CEL compiler that knows the widening filter and the restricting filter
of the first user. -/
def wideningEnvironment : Environment where
  celCompile := fun text =>
    if text = wideningText then .ok wideningFilter
    else if text = visibilityFilter 1 then .ok (visibilityExpr 1)
    else .error "unknown"
  rules := binaryRules
  unmarshalPageToken := fun _ => .error "malformed"

/-- One user with one private memo. -/
def privateMemo : Memo where
  id := 1
  uid := "secret"
  rowStatus := .normal
  creatorId := 1
  createdTs := 0
  updatedTs := 0
  content := "a"
  visibility := .isPrivate
  pinned := false
  payload := ⟨none, []⟩

/-- The author of the memo. -/
def alice : User := ⟨1, .normal, "alice", .user⟩

def privateMemoDatabase : Database where
  users := [alice]
  memos := [privateMemo]

/-- The row of the private memo. -/
def privateMemoRow : JoinedMemo := ⟨privateMemo, some alice, none⟩

/-- The anonymous query that the widening filter leads to. -/
def wideningFind : FindMemo where
  excludeComments := true
  rowStatus := some .normal
  filters := [wideningText]
  visibilityList := [.isPublic]
  limit := some 11
  offset := some 0

/-- `row_status` receives `NORMAL` from the filter and `visibility` receives
`PRIVATE`. -/
theorem wideningFind_rows :
    Store.listMemos wideningEnvironment.engine binaryRules 0 privateMemoDatabase wideningFind =
      .ok [privateMemoRow] := by
  rw [listMemos_of_rows [privateMemoRow] rfl rfl rfl, List.mergeSort_singleton]
  rfl

/-- An anonymous caller reads a private memo. -/
theorem listMemos_widened :
    ¬ forall (env : Environment) (now : Int) (db : Database) (userId : Nat)
        (request : ListMemosRequest) (viewer : Option User) (response : ListMemosResponse),
      fetchCurrentUser db userId = .ok viewer -> ReadsVisibilityFilter env viewer ->
      listMemos env now db userId request = .ok response ->
      forall listed, listed ∈ response.memos -> Listable request.state viewer listed.memo := by
  intro claimed
  have success : listMemos wideningEnvironment 0 privateMemoDatabase 0 { filter := wideningText } =
      .ok ⟨[privateMemoRow], none⟩ := by
    rw [listMemos_of_query [privateMemoRow] rfl rfl rfl rfl rfl wideningFind_rows]
    rfl
  have listable := claimed wideningEnvironment 0 privateMemoDatabase 0
    { filter := wideningText } none _ rfl (fun user impossible => by cases impossible) success
    privateMemoRow (List.mem_singleton.mpr rfl)
  cases listable.anonymous rfl

def authorText : String := "content == \"a\""

/-- A compiler that knows a filter on the content as well. -/
def authorEnvironment : Environment :=
  { wideningEnvironment with
    celCompile := fun text =>
      if text = authorText then .ok (contentEquals "a") else wideningEnvironment.celCompile text }

/-- Next to it a private memo of another user with the same content. -/
def twoAuthorsDatabase : Database :=
  { privateMemoDatabase with
    memos := [privateMemo, { privateMemo with id := 2, uid := "other", creatorId := 2 }] }

/-- The author lists the own private memo by its content, and only that. -/
theorem listMemos_listable_author :
    listMemos authorEnvironment 0 twoAuthorsDatabase 1 { filter := authorText } = .ok ⟨[privateMemoRow], none⟩ ∧
      Listable .unspecified (some alice) privateMemo := by
  have reads : ReadsVisibilityFilter authorEnvironment (some alice) := by
    intro user same
    cases same
    rfl
  have binds : RequestBinds authorEnvironment 0 { filter := authorText } (some alice) := by
    intro _ _ condition statement compiled _
    cases compiled
    exact .inr rfl
  have success : listMemos authorEnvironment 0 twoAuthorsDatabase 1 { filter := authorText } =
      .ok ⟨[privateMemoRow], none⟩ := by
    have queried : Store.listMemos authorEnvironment.engine binaryRules 0 twoAuthorsDatabase
        { excludeComments := true, rowStatus := some .normal, filters := [authorText, visibilityFilter 1]
          limit := some 11, offset := some 0 } = .ok [privateMemoRow] := by
      rw [listMemos_of_rows [privateMemoRow] rfl rfl rfl, List.mergeSort_singleton]
      rfl
    rw [listMemos_of_query [privateMemoRow] rfl rfl rfl rfl rfl queried]
    rfl
  exact ⟨success, (listMemos_listable rfl reads success).1 binds privateMemoRow (List.mem_singleton.mpr rfl)⟩

end Service
end Memos
