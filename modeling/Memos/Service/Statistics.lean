import Memos.Library.Batches
import Memos.Service.MemoRelations
import Memos.Service.Pagination

namespace Memos
namespace Service
namespace Statistics

open Library Memos.Filter Store
open MemoRelations (Readable visibilitySql_readable)
open Notifications (bob)

/-!
# Statistics of users

`GetUserStats` counts the memos of one user, `ListAllUserStats` those of all
users in one pass.  The one restricts its query by a list of visibilities, the
other by a filter text; both read their query in batches.
-/

/-! ## Counting -/

/-- `UserStats_MemoTypeStats` -/
structure MemoTypeStats where
  linkCount : Int32 := 0
  codeCount : Int32 := 0
  todoCount : Int32 := 0
  undoCount : Int32 := 0

/-- The message `UserStats`; times are in seconds, and a tag that was not
counted has no entry. -/
structure UserStats where
  name : String := ""
  memoCreatedTimestamps : List Int := []
  memoUpdatedTimestamps : List Int := []
  memoTypeStats : MemoTypeStats := {}
  tagCount : String -> Option Int32 := fun _ => none
  pinnedMemos : List String := []
  totalMemoCount : Int32 := 0

/-- `tagCount[tag]++` -/
def countTag (tagCount : String -> Option Int32) (tag : String) : String -> Option Int32 := fun other =>
  if other = tag then some ((tagCount tag).getD 0 + 1) else tagCount other

/-- A counter goes up if the flag is set. -/
def countIf (flag : Bool) (count : Int32) : Int32 := if flag then count + 1 else count

/-- The flag is set in the payload of the memo. -/
def hasProperty (flag : Property -> Bool) (memo : Memo) : Bool := memo.payload.property.any flag

/-- `BuildUserName` -/
def buildUserName (username : String) : String := "users/" ++ username

def statsName (username : String) : String := buildUserName username ++ "/stats"

def pinnedName (username : String) (memoId : Nat) : String :=
  buildUserName username ++ "/memos/" ++ toString memoId

/-- The limit of a batch. -/
def batchLimit : Nat := 1000

/-! ## One user -/

/-- `ResolveUserByName` -/
def resolveUserByName (db : Database) (name : String) : Except String (Option User) := do
  match ← getNameParentTokens name ["users/"] with
  | username :: _ => return db.users.find? fun user => user.username = username
  | [] => .error ("invalid request \"" ++ name ++ "\"")

/-- The query for the memos of a user. -/
def userFind (viewer : Option User) (userId : Nat) : FindMemo where
  creatorId := some userId
  excludeComments := true
  excludeContent := true
  rowStatus := some .normal
  visibilityList :=
    match viewer with
    | none => [.isPublic]
    | some user => if user.id ≠ userId then [.isPublic, .isProtected] else []

/-- One batch of a query. -/
def fetchBatch (env : Environment) (clock : Nat -> Int) (db : Database) (find : FindMemo)
    (offset : Nat) : Except Status (List JoinedMemo) :=
  orStatus .internal "failed to list memos: " (Store.listMemos env.engine env.rules (clock offset) db
    { find with limit := some batchLimit, offset := some offset })

/-- The variables that `GetUserStats` counts with. -/
structure Counters where
  createdTimestamps : List Int := []
  updatedTimestamps : List Int := []
  tagCount : String -> Option Int32 := fun _ => none
  linkCount : Int32 := 0
  codeCount : Int32 := 0
  todoCount : Int32 := 0
  undoCount : Int32 := 0
  pinnedMemos : List String := []
  totalMemoCount : Int32 := 0

/-- One turn of the inner loop of `GetUserStats`. -/
def countUserMemo (username : String) (counters : Counters) (memo : Memo) : Counters :=
  { counters with
    createdTimestamps := counters.createdTimestamps ++ [memo.createdTs]
    updatedTimestamps := counters.updatedTimestamps ++ [memo.updatedTs]
    tagCount := memo.payload.tags.foldl countTag counters.tagCount
    linkCount := countIf (hasProperty Property.hasLink memo) counters.linkCount
    codeCount := countIf (hasProperty Property.hasCode memo) counters.codeCount
    todoCount := countIf (hasProperty Property.hasTaskList memo) counters.todoCount
    undoCount := countIf (hasProperty Property.hasIncompleteTasks memo) counters.undoCount
    pinnedMemos :=
      if memo.pinned then counters.pinnedMemos ++ [pinnedName username memo.id] else counters.pinnedMemos }

/-- One turn of the outer loop. -/
def countUserBatch (username : String) (counters : Counters) (memos : List JoinedMemo) : Counters :=
  let counters := { counters with totalMemoCount := counters.totalMemoCount + Int32.ofNat memos.length }
  memos.foldl (fun counters joined => countUserMemo username counters joined.memo) counters

def Counters.userStats (username : String) (counters : Counters) : UserStats where
  name := statsName username
  memoCreatedTimestamps := counters.createdTimestamps
  memoUpdatedTimestamps := counters.updatedTimestamps
  memoTypeStats := ⟨counters.linkCount, counters.codeCount, counters.todoCount, counters.undoCount⟩
  tagCount := counters.tagCount
  pinnedMemos := counters.pinnedMemos
  totalMemoCount := counters.totalMemoCount

/-- `GetUserStats`; the clock tells the time of each batch, and `none` means
that there are more batches than `fuel`. -/
def getUserStats (env : Environment) (clock : Nat -> Int) (db : Database) (userId fuel : Nat)
    (name : String) : Except Status (Option UserStats) := do
  match ← orStatus .invalidArgument "invalid user name: " (resolveUserByName db name) with
  | none => .error ⟨.notFound, "user not found"⟩
  | some user =>
      let viewer ← currentUser db userId
      let counted ← readBatches (fetchBatch env clock db (userFind viewer user.id)) batchLimit
        (countUserBatch user.username) fuel 0 {}
      return counted.map (Counters.userStats user.username)

/-! ## All users -/

structure ListAllUserStatsRequest where
  state : State := .unspecified
  filter : String := ""

/-- The entries of a user in `userMemoStatMap` and `pinnedMemoIDsByUserID`. -/
structure UserMemoStat where
  stats : UserStats := {}
  pinnedMemoIds : List Nat := []

/-- What the loop does with the entries of the creator of a memo. -/
def countInto (entry : UserMemoStat) (memo : Memo) : UserMemoStat where
  stats :=
    { entry.stats with
      memoCreatedTimestamps := entry.stats.memoCreatedTimestamps ++ [memo.createdTs]
      memoUpdatedTimestamps := entry.stats.memoUpdatedTimestamps ++ [memo.updatedTs]
      totalMemoCount := entry.stats.totalMemoCount + 1
      tagCount := memo.payload.tags.foldl countTag entry.stats.tagCount
      memoTypeStats :=
        { linkCount := countIf (hasProperty Property.hasLink memo) entry.stats.memoTypeStats.linkCount
          codeCount := countIf (hasProperty Property.hasCode memo) entry.stats.memoTypeStats.codeCount
          todoCount := countIf (hasProperty Property.hasTaskList memo) entry.stats.memoTypeStats.todoCount
          undoCount := countIf (hasProperty Property.hasIncompleteTasks memo) entry.stats.memoTypeStats.undoCount } }
  pinnedMemoIds := if memo.pinned then entry.pinnedMemoIds ++ [memo.id] else entry.pinnedMemoIds

/-- One turn of the outer loop. -/
def countBatch (entries : List (Nat × UserMemoStat)) (memos : List JoinedMemo) :
    List (Nat × UserMemoStat) :=
  memos.foldl (fun entries joined =>
    touch joined.memo.creatorId {} (fun entry => countInto entry joined.memo) entries) entries

/-- The message of a user. -/
def finishStats (username : String) (entry : UserMemoStat) : UserStats :=
  { entry.stats with
    name := statsName username
    pinnedMemos := entry.stats.pinnedMemos ++ entry.pinnedMemoIds.map (pinnedName username) }

/-- `listUsernamesByID` -/
def usernamesById (db : Database) (userIds : List Nat) (userId : Nat) : Option String :=
  ((db.users.filter fun user => user.id ∈ userIds).find? fun user => user.id = userId).map User.username

/-- One turn of the last loop. -/
def nameStats (usernames : Nat -> Option String) (entry : Nat × UserMemoStat) : Except Status UserStats :=
  match usernames entry.1 with
  | none => .error ⟨.internal, "failed to resolve user stats name"⟩
  | some username => .ok (finishStats username entry.2)

/-- The query for the memos of all users, or `none` if the caller may see none. -/
def allFind (env : Environment) (now : Int) (viewer : Option User) (request : ListAllUserStatsRequest) :
    Except Status (Option FindMemo) := do
  let find : FindMemo :=
    { excludeComments := true, excludeContent := true, rowStatus := some request.state.rowStatus }
  let find ←
    if request.filter = "" then pure find
    else do
      orStatus .invalidArgument "invalid filter: " (validateFilter env now request.filter)
      pure { find with filters := find.filters ++ [request.filter] }
  match request.state, viewer with
  | .archived, none => return none
  | .archived, some user => return some { find with creatorId := some user.id }
  | _, _ => return some (restrictFind viewer find)

/-- `ListAllUserStats`; a map is iterated over in any order. -/
def listAllUserStats (env : Environment) (clock : Nat -> Int)
    (iterate : List (Nat × UserMemoStat) -> List (Nat × UserMemoStat)) (db : Database) (userId fuel : Nat)
    (request : ListAllUserStatsRequest) : Except Status (Option (List UserStats)) := do
  let viewer ← currentUser db userId
  match ← allFind env (clock 0) viewer request with
  | none => return some []
  | some find =>
      match ← readBatches (fetchBatch env clock db find) batchLimit countBatch fuel 0 [] with
      | none => return none
      | some entries =>
          let usernames := usernamesById db (entries.map Prod.fst)
          let stats ← (iterate entries).mapM (nameStats usernames)
          return some stats

/-! ## What is counted -/

/-- The caller may read a memo of this visibility and creator. -/
def VisibleTo : Option User -> Memo -> Prop
  | none, memo => memo.visibility = .isPublic
  | some user, memo => Readable user memo

instance (viewer : Option User) (memo : Memo) : Decidable (VisibleTo viewer memo) := by
  cases viewer <;> unfold VisibleTo <;> infer_instance

/-- The memo is normal, no comment, and visible to the caller. -/
structure Counts (db : Database) (viewer : Option User) (memo : Memo) : Prop where
  normal : memo.rowStatus = .normal
  visible : VisibleTo viewer memo
  topLevel : parentOf db memo = none

instance (db : Database) (viewer : Option User) (memo : Memo) : Decidable (Counts db viewer memo) :=
  decidable_of_iff (memo.rowStatus = .normal ∧ VisibleTo viewer memo ∧ parentOf db memo = none)
    ⟨fun parts => ⟨parts.1, parts.2.1, parts.2.2⟩,
      fun counts => ⟨counts.normal, counts.visible, counts.topLevel⟩⟩

/-- The test on a joined row. -/
def keeps (viewer : Option User) (joined : JoinedMemo) : Bool :=
  joined.memo.rowStatus = .normal && (VisibleTo viewer joined.memo && joined.parentUid.isNone)

section Query

variable {env : Environment} {viewer : Option User} {rules : TextRules}

theorem conjunctionTruth_cons {row : Row} {conjunct : SqlCondition Arg} {rest : List (SqlCondition Arg)}
    {first others : Bool} (ofFirst : conjunct.eval rules .sqlite row = .ok (.ofBool first))
    (ofRest : conjunctionTruth rules row rest = .ok (.ofBool others)) :
    conjunctionTruth rules row (conjunct :: rest) = .ok (.ofBool (first && others)) := by
  rw [conjunctionTruth, ofFirst, ofRest]
  cases first <;> cases others <;> rfl

theorem eval_rowStatus (joined : JoinedMemo) :
    SqlCondition.eval rules .sqlite joined.row (.compare .eq (.column ⟨"memo", "row_status"⟩)
      (.param (.string "NORMAL"))) = .ok (.ofBool (decide (joined.memo.rowStatus = .normal))) := by
  change Except.ok (Truth.ofBool (compare joined.memo.rowStatus.string "NORMAL" == .eq)) = _
  have order : (compare joined.memo.rowStatus.string "NORMAL" == .eq) =
      decide (joined.memo.rowStatus = .normal) := by
    rw [Bool.eq_iff_iff, beq_iff_eq, decide_eq_true_eq, Std.compare_eq_iff_eq]
    exact ⟨fun same => RowStatus.string_injective same, fun same => by rw [same]; rfl⟩
  rw [order]

theorem eval_parentUid (joined : JoinedMemo) :
    SqlCondition.eval rules .sqlite joined.row (.isNull (.column ⟨"", "parent_uid"⟩) : SqlCondition Arg) =
      .ok (.ofBool joined.parentUid.isNone) := by
  have value : joined.row ⟨"", "parent_uid"⟩ = optionalText joined.parentUid := rfl
  rw [SqlCondition.eval, SqlTerm.eval, value]
  cases joined.parentUid <;> rfl

theorem eval_creatorId (joined : JoinedMemo) (userId : Nat) :
    SqlCondition.eval rules .sqlite joined.row (.compare .eq (.column ⟨"memo", "creator_id"⟩)
      (.param (.int userId))) = .ok (.ofBool (decide (joined.memo.creatorId = userId))) := by
  have order : (compare (joined.memo.creatorId : Int) userId == .eq) =
      decide (joined.memo.creatorId = userId) := by
    rw [Bool.eq_iff_iff, beq_iff_eq, decide_eq_true_eq, Std.compare_eq_iff_eq, Int.ofNat_inj]
  rw [← order]
  rfl

theorem eval_visibilityList (joined : JoinedMemo) (visibilities : List Visibility)
    (listed : visibilities = [.isPublic] ∨ visibilities = [.isPublic, .isProtected]) :
    SqlCondition.eval rules .sqlite joined.row (.inList (.column ⟨"memo", "visibility"⟩)
      (visibilities.map fun value => .string value.string)) =
        .ok (.ofBool (decide (joined.memo.visibility ∈ visibilities))) := by
  rcases listed with rfl | rfl
  · change anyEqual rules .sqlite true (.text joined.memo.visibility.string) [.text "PUBLIC"] = _
    cases joined.memo.visibility <;> rfl
  · change anyEqual rules .sqlite true (.text joined.memo.visibility.string) [.text "PUBLIC", .text "PROTECTED"] = _
    cases joined.memo.visibility <;> rfl

theorem conjunctionTruth_nil (row : Row) :
    conjunctionTruth rules row [] = .ok (.ofBool true) := rfl

theorem eval_verum (row : Row) :
    SqlCondition.eval rules .sqlite row (.verum : SqlCondition Arg) = .ok (.ofBool true) := rfl

/-- Newest first. -/
def newest : JoinedMemo -> JoinedMemo -> Bool := FindMemo.before {}

def withoutContent (joined : JoinedMemo) : JoinedMemo := { joined with memo.content := "" }

/-- The memos of a user that the caller may see. -/
theorem listMemos_userFind (engine : Engine) (now : Int) (db : Database) (userId : Nat) :
    Store.listMemos engine rules now db { userFind viewer userId with limit := none } =
      .ok (((db.joinedMemos.filter fun joined => decide (joined.memo.creatorId = userId) &&
        keeps viewer joined).mergeSort newest).map withoutContent) := by
  cases viewer with
  | none =>
      refine listMemos_of_rows _ rfl rfl (selectRows_of_known fun joined _ => ?_)
      refine (conjunctionTruth_cons (eval_verum _) (conjunctionTruth_cons (eval_creatorId joined userId)
        (conjunctionTruth_cons (eval_rowStatus joined) (conjunctionTruth_cons
          (eval_visibilityList joined [.isPublic] (Or.inl rfl))
          (conjunctionTruth_cons (eval_parentUid joined) (conjunctionTruth_nil _)))))).trans ?_
      simp [keeps, VisibleTo]
  | some user =>
      by_cases own : user.id = userId
      · have list : (userFind (some user) userId).visibilityList = [] := by
          simp [userFind, own]
        have find : { userFind (some user) userId with limit := none } =
            ({ creatorId := some userId, excludeComments := true, excludeContent := true
               rowStatus := some .normal } : FindMemo) := by
          simp [userFind, own]
        rw [find]
        refine listMemos_of_rows _ rfl rfl (selectRows_of_known fun joined _ => ?_)
        refine (conjunctionTruth_cons (eval_verum _) (conjunctionTruth_cons (eval_creatorId joined userId)
          (conjunctionTruth_cons (eval_rowStatus joined) (conjunctionTruth_cons (eval_parentUid joined)
            (conjunctionTruth_nil _))))).trans ?_
        by_cases creator : joined.memo.creatorId = userId
        · simp [keeps, VisibleTo, Readable, creator, own]
        · simp [creator]
      · have find : { userFind (some user) userId with limit := none } =
            ({ creatorId := some userId, excludeComments := true, excludeContent := true
               rowStatus := some .normal, visibilityList := [.isPublic, .isProtected] } : FindMemo) := by
          simp [userFind, own]
        rw [find]
        refine listMemos_of_rows _ rfl rfl (selectRows_of_known fun joined _ => ?_)
        refine (conjunctionTruth_cons (eval_verum _) (conjunctionTruth_cons (eval_creatorId joined userId)
          (conjunctionTruth_cons (eval_rowStatus joined) (conjunctionTruth_cons
            (eval_visibilityList joined [.isPublic, .isProtected] (Or.inr rfl))
            (conjunctionTruth_cons (eval_parentUid joined) (conjunctionTruth_nil _)))))).trans ?_
        by_cases creator : joined.memo.creatorId = userId
        · simp [keeps, VisibleTo, Readable, creator, Ne.symm own]
        · simp [creator]

/-- The query for all users, without a filter of the request. -/
def allUsersFind (viewer : Option User) : FindMemo :=
  restrictFind viewer { excludeComments := true, excludeContent := true, rowStatus := some .normal }

/-- The memos of all users that the caller may see. -/
theorem listMemos_allFind (reads : ReadsVisibilityFilter env viewer) (now : Int) (db : Database) :
    Store.listMemos env.engine rules now db { allUsersFind viewer with limit := none } =
      .ok (((db.joinedMemos.filter (keeps viewer)).mergeSort newest).map withoutContent) := by
  cases viewer with
  | none =>
      refine listMemos_of_rows _ rfl rfl (selectRows_of_known fun joined _ => ?_)
      refine (conjunctionTruth_cons (eval_verum _) (conjunctionTruth_cons (eval_rowStatus joined)
        (conjunctionTruth_cons (eval_visibilityList joined [.isPublic] (Or.inl rfl))
          (conjunctionTruth_cons (eval_parentUid joined) (conjunctionTruth_nil _))))).trans ?_
      simp [keeps, VisibleTo]
  | some user =>
      have compiled := compile_visibilityFilter (reads user rfl) now
      have statement : env.engine.compileToStatement now (visibilityFilter user.id) .sqlite 0 =
          (Renderer.new newSchema .sqlite 0).render (visibilityCondition user.id) := by
        unfold Engine.compileToStatement
        rw [compiled]
        rfl
      have appended : whereClause env.engine now { allUsersFind (some user) with limit := none } =
          (((Renderer.new newSchema .sqlite 0).render (visibilityCondition user.id) >>= fun statement =>
            appendConditions env.engine now .sqlite (Where.append ⟨[.verum], []⟩ statement) []) >>= fun clause =>
              pure ((allUsersFind (some user)).pushes.foldl (fun clause push => push clause) clause)) := by
        rw [← statement]
        rfl
      refine listMemos_of_rows _ (appended.trans rfl) rfl (selectRows_of_known fun joined _ => ?_)
      refine (conjunctionTruth_cons (eval_verum _) (conjunctionTruth_cons
        (visibilitySql_readable rules joined) (conjunctionTruth_cons (eval_rowStatus joined)
          (conjunctionTruth_cons (eval_parentUid joined) (conjunctionTruth_nil _))))).trans ?_
      simp [keeps, VisibleTo, Bool.and_left_comm]

/-- The batches of a query are cut out of one list. -/
theorem fetchBatch_eq {db : Database} {find : FindMemo} {all : List JoinedMemo}
    (listed : forall now, Store.listMemos env.engine env.rules now db { find with limit := none } = .ok all)
    (clock : Nat -> Int) (offset : Nat) :
    fetchBatch env clock db find offset = .ok (pageRows batchLimit offset all) := by
  rw [fetchBatch, listMemos_page, listed]
  rfl

end Query

/-! ## One pass for each user -/

/-- The rows of a user that count, newest first. -/
def userRows (db : Database) (viewer : Option User) (userId : Nat) : List JoinedMemo :=
  (db.joinedMemos.filter fun joined => decide (joined.memo.creatorId = userId) &&
    keeps viewer joined).mergeSort newest

/-- All rows that count. -/
def allRows (db : Database) (viewer : Option User) : List JoinedMemo :=
  (db.joinedMemos.filter (keeps viewer)).mergeSort newest

/-- How many memos have the flag. -/
def countOf (flag : Property -> Bool) (memos : List Memo) : Int32 := Int32.ofNat (memos.countP (hasProperty flag))

/-- A number of times more; what has no entry gets one only with the first time. -/
def addCount (count : Option Int32) (times : Nat) : Option Int32 :=
  if times = 0 then count else some (count.getD 0 + Int32.ofNat times)

def tagsOf (memos : List Memo) : List String := memos.flatMap fun memo => memo.payload.tags

/-- The statistics of a user with these memos. -/
def summarize (username : String) (memos : List Memo) : UserStats where
  name := statsName username
  memoCreatedTimestamps := memos.map Memo.createdTs
  memoUpdatedTimestamps := memos.map Memo.updatedTs
  memoTypeStats := ⟨countOf Property.hasLink memos, countOf Property.hasCode memos,
    countOf Property.hasTaskList memos, countOf Property.hasIncompleteTasks memos⟩
  tagCount := fun tag => addCount none ((tagsOf memos).count tag)
  pinnedMemos := (memos.filter Memo.pinned).map fun memo => pinnedName username memo.id
  totalMemoCount := Int32.ofNat memos.length

def statsOf (db : Database) (viewer : Option User) (user : User) : UserStats :=
  summarize user.username ((userRows db viewer user.id).map JoinedMemo.memo)

theorem addCount_addCount (count : Option Int32) (first second : Nat) :
    addCount (addCount count first) second = addCount count (first + second) := by
  unfold addCount
  split
  next none => rw [none, Nat.add_zero]
  next some =>
    rw [if_neg (by omega : first + second ≠ 0)]
    split
    next none => rw [none, Nat.zero_add]
    next => rw [Option.getD_some, Int32.ofNat_add, Int32.add_assoc]

theorem foldl_countTag (tags : List String) (tagCount : String -> Option Int32) :
    tags.foldl countTag tagCount = fun tag => addCount (tagCount tag) (tags.count tag) := by
  induction tags generalizing tagCount with
  | nil => rfl
  | cons tag tags ih =>
      rw [List.foldl_cons, ih]
      funext other
      have one : countTag tagCount tag other = addCount (tagCount other) (if tag == other then 1 else 0) := by
        unfold countTag addCount
        by_cases same : other = tag
        · rw [same, if_pos rfl, beq_self_eq_true, if_pos rfl, if_neg Nat.one_ne_zero]
          rfl
        · rw [if_neg same, beq_false_of_ne (Ne.symm same)]
          rfl
      rw [one, addCount_addCount, List.count_cons, Nat.add_comm]

theorem countIf_countOf (flag : Property -> Bool) (memo : Memo) (memos : List Memo) (count : Int32) :
    countIf (hasProperty flag memo) count + countOf flag memos = count + countOf flag (memo :: memos) := by
  unfold countIf countOf
  rw [List.countP_cons]
  split
  · rw [Int32.ofNat_add, Int32.add_assoc, Int32.add_comm 1]
    rfl
  · rfl

theorem ofNat_length_cons (memo : Memo) (memos : List Memo) (count : Int32) :
    count + 1 + Int32.ofNat memos.length = count + Int32.ofNat (memo :: memos).length := by
  rw [List.length_cons, Int32.ofNat_add, Int32.add_assoc, Int32.add_comm 1]
  rfl

/-- Count a memo of a user, in the total too. -/
def countOne (username : String) (counters : Counters) (memo : Memo) : Counters :=
  countUserMemo username { counters with totalMemoCount := counters.totalMemoCount + 1 } memo

/-- What a user's own statistics come to. -/
theorem foldl_countOne (username : String) (memos : List Memo) (counters : Counters) :
    memos.foldl (countOne username) counters =
      { createdTimestamps := counters.createdTimestamps ++ memos.map Memo.createdTs
        updatedTimestamps := counters.updatedTimestamps ++ memos.map Memo.updatedTs
        tagCount := fun tag => addCount (counters.tagCount tag) ((tagsOf memos).count tag)
        linkCount := counters.linkCount + countOf Property.hasLink memos
        codeCount := counters.codeCount + countOf Property.hasCode memos
        todoCount := counters.todoCount + countOf Property.hasTaskList memos
        undoCount := counters.undoCount + countOf Property.hasIncompleteTasks memos
        pinnedMemos := counters.pinnedMemos ++
          (memos.filter Memo.pinned).map fun memo => pinnedName username memo.id
        totalMemoCount := counters.totalMemoCount + Int32.ofNat memos.length } := by
  induction memos generalizing counters with
  | nil => simp [tagsOf, addCount, countOf]
  | cons memo memos ih =>
      rw [List.foldl_cons, ih]
      unfold countOne countUserMemo
      dsimp only
      simp only [foldl_countTag, addCount_addCount, countIf_countOf, ofNat_length_cons memo, tagsOf,
        List.flatMap_cons, List.count_append, List.map_cons, List.append_assoc, List.singleton_append,
        List.filter_cons]
      split <;> simp

/-- What the entry of a user comes to. -/
theorem foldl_countInto (memos : List Memo) (entry : UserMemoStat) :
    memos.foldl countInto entry =
      { stats :=
          { entry.stats with
            memoCreatedTimestamps := entry.stats.memoCreatedTimestamps ++ memos.map Memo.createdTs
            memoUpdatedTimestamps := entry.stats.memoUpdatedTimestamps ++ memos.map Memo.updatedTs
            memoTypeStats := ⟨entry.stats.memoTypeStats.linkCount + countOf Property.hasLink memos,
              entry.stats.memoTypeStats.codeCount + countOf Property.hasCode memos,
              entry.stats.memoTypeStats.todoCount + countOf Property.hasTaskList memos,
              entry.stats.memoTypeStats.undoCount + countOf Property.hasIncompleteTasks memos⟩
            tagCount := fun tag => addCount (entry.stats.tagCount tag) ((tagsOf memos).count tag)
            totalMemoCount := entry.stats.totalMemoCount + Int32.ofNat memos.length }
        pinnedMemoIds := entry.pinnedMemoIds ++ (memos.filter Memo.pinned).map Memo.id } := by
  induction memos generalizing entry with
  | nil => simp [tagsOf, addCount, countOf]
  | cons memo memos ih =>
      rw [List.foldl_cons, ih]
      unfold countInto
      dsimp only
      simp only [foldl_countTag, addCount_addCount, countIf_countOf, ofNat_length_cons memo, tagsOf,
        List.flatMap_cons, List.count_append, List.map_cons, List.append_assoc, List.singleton_append,
        List.filter_cons]
      split <;> simp

/-- More memos in the total. -/
def Counters.addTotal (counters : Counters) (more : Int32) : Counters :=
  { counters with totalMemoCount := counters.totalMemoCount + more }

/-- A batch is counted memo by memo. -/
theorem countUserBatch_eq (username : String) (counters : Counters) (rows : List JoinedMemo) :
    countUserBatch username counters rows =
      rows.foldl (fun counters joined => countOne username counters joined.memo) counters := by
  change rows.foldl (fun counters joined => countUserMemo username counters joined.memo)
    (counters.addTotal (Int32.ofNat rows.length)) = _
  induction rows generalizing counters with
  | nil =>
      change counters.addTotal 0 = counters
      rw [Counters.addTotal, Int32.add_zero]
  | cons joined rows ih =>
      have sum : counters.addTotal (Int32.ofNat (joined :: rows).length) =
          (counters.addTotal 1).addTotal (Int32.ofNat rows.length) := by
        unfold Counters.addTotal
        rw [List.length_cons, Int32.ofNat_add, Int32.add_assoc, Int32.add_comm 1]
        rfl
      rw [List.foldl_cons, List.foldl_cons, ← ih, sum]
      rfl

theorem userStats_foldl (username : String) (rows : List JoinedMemo) :
    ((rows.map withoutContent).foldl (fun counters joined => countOne username counters joined.memo)
      {}).userStats username = summarize username (rows.map JoinedMemo.memo) := by
  have same : (rows.map withoutContent).foldl (fun counters joined => countOne username counters joined.memo) {} =
      (rows.map JoinedMemo.memo).foldl (countOne username) {} := by
    rw [List.foldl_map, List.foldl_map]
    rfl
  rw [same, foldl_countOne]
  simp [Counters.userStats, summarize]

/-- The entry of a user with these rows. -/
def entryOf (rows : List JoinedMemo) : UserMemoStat :=
  (rows.map withoutContent).foldl (fun entry joined => countInto entry joined.memo) {}

/-- The finished entry of a user is what his own statistics are. -/
theorem finishStats_entryOf (username : String) (rows : List JoinedMemo) :
    finishStats username (entryOf rows) = summarize username (rows.map JoinedMemo.memo) := by
  have same : entryOf rows = (rows.map JoinedMemo.memo).foldl countInto {} := by
    rw [entryOf, List.foldl_map, List.foldl_map]
    rfl
  rw [same, foldl_countInto]
  simp [finishStats, summarize]

/-- The rows of a user among all rows. -/
theorem group_allRows (db : Database) (viewer : Option User) (userId : Nat) :
    group (fun joined : JoinedMemo => joined.memo.creatorId) userId
        ((allRows db viewer).map withoutContent) =
      (userRows db viewer userId).map withoutContent := by
  unfold group allRows userRows
  rw [List.filter_map]
  congr 1
  have commuted := @filter_mergeSort JoinedMemo newest (fun _ _ _ => FindMemo.before_trans {})
    (FindMemo.before_total {}) (fun joined => decide (joined.memo.creatorId = userId))
    (db.joinedMemos.filter (keeps viewer))
  rw [List.filter_filter] at commuted
  exact commuted

section Agreement

variable {db : Database} {viewer : Option User}

/-- The memos of the user that the caller may read and that are neither archived
nor comments, each once, newest first. -/
structure CountedMemos (db : Database) (viewer : Option User) (userId : Nat) (memos : List Memo) :
    Prop where
  mem : forall memo, memo ∈ memos ↔
    memo ∈ db.memos ∧ memo.creatorId = userId ∧ Counts db viewer memo
  nodup : (memos.map Memo.id).Nodup
  sorted : memos.Pairwise fun first second => second.createdTs ≤ first.createdTs

theorem keeps_joinedRow (memo : Memo) :
    keeps viewer (joinedRow db memo) = true ↔ Counts db viewer memo := by
  rw [keeps, Bool.and_eq_true, Bool.and_eq_true, decide_eq_true_eq, decide_eq_true_eq]
  constructor
  · rintro ⟨normal, visible, topLevel⟩
    refine ⟨normal, visible, ?_⟩
    rw [joinedRow, Option.isNone_map] at topLevel
    exact Option.isNone_iff_eq_none.mp topLevel
  · intro counts
    refine ⟨counts.normal, counts.visible, ?_⟩
    rw [joinedRow, Option.isNone_map, counts.topLevel]
    rfl

theorem countedMemos_userRows (sound : db.Sound) (forest : Forest db) (userId : Nat) :
    CountedMemos db viewer userId ((userRows db viewer userId).map JoinedMemo.memo) where
  mem := by
    intro memo
    rw [List.mem_map]
    simp only [userRows, List.mem_mergeSort, List.mem_filter, forest.joinedMemos sound, Bool.and_eq_true,
      decide_eq_true_eq]
    constructor
    · rintro ⟨joined, ⟨row, creator, kept⟩, rfl⟩
      rcases List.mem_map.mp row with ⟨memo, stored, rfl⟩
      exact ⟨stored, creator, (keeps_joinedRow memo).mp kept⟩
    · rintro ⟨stored, creator, counts⟩
      exact ⟨joinedRow db memo, ⟨List.mem_map_of_mem stored, creator, (keeps_joinedRow memo).mpr counts⟩, rfl⟩
  nodup := by
    have whole : ((db.joinedMemos.map JoinedMemo.memo).map Memo.id).Nodup := by
      rw [forest.joinedMemos sound, List.map_map, List.map_map]
      exact sound.memoIds
    have perm := (List.mergeSort_perm (db.joinedMemos.filter fun joined =>
      decide (joined.memo.creatorId = userId) && keeps viewer joined) newest)
    exact ((perm.map JoinedMemo.memo).map Memo.id).nodup_iff.mpr
      (whole.sublist ((List.filter_sublist.map _).map _))
  sorted := by
    have ordered := @List.pairwise_mergeSort JoinedMemo newest (fun _ _ _ => FindMemo.before_trans {})
      (FindMemo.before_total {}) (db.joinedMemos.filter fun joined =>
        decide (joined.memo.creatorId = userId) && keeps viewer joined)
    rw [List.pairwise_map]
    refine ordered.imp ?_
    intro first second before
    unfold newest FindMemo.before at before
    grind

theorem userRows_length (sound : db.Sound) (forest : Forest db) (userId : Nat) :
    (userRows db viewer userId).length ≤ db.memos.length := by
  rw [userRows, List.length_mergeSort]
  refine (List.length_filter_le _ _).trans ?_
  rw [forest.joinedMemos sound, List.length_map]

theorem allRows_length (sound : db.Sound) (forest : Forest db) :
    (allRows db viewer).length ≤ db.memos.length := by
  rw [allRows, List.length_mergeSort]
  refine (List.length_filter_le _ _).trans ?_
  rw [forest.joinedMemos sound, List.length_map]

variable {env : Environment} {clock : Nat -> Int} {userId fuel : Nat}

theorem getUserStats_eq (sound : db.Sound) (forest : Forest db)
    (caller : currentUser db userId = .ok viewer) (enough : db.memos.length < fuel) {name : String}
    {user : User} (resolved : resolveUserByName db name = .ok (some user)) :
    getUserStats env clock db userId fuel name = .ok (some (statsOf db viewer user)) := by
  have short : ((userRows db viewer user.id).map withoutContent).length - 0 < fuel := by
    have := @userRows_length db viewer sound forest user.id
    rw [List.length_map]
    omega
  have counted := readBatches_eq (by decide : 0 < batchLimit)
    (fetchBatch_eq (fun now => listMemos_userFind env.engine now db user.id) clock)
    (countUserBatch_eq user.username) fuel 0 {} short
  rw [List.drop_zero] at counted
  unfold getUserStats
  rw [resolved, caller]
  simp only [orStatus, ok_bind, counted]
  exact congrArg (fun stats => Except.ok (some stats)) (userStats_foldl user.username _)

/-- The entries are those of the users with memos that count. -/
theorem tally_allRows (sound : db.Sound)
    (creators : forall memo, memo ∈ db.memos -> Exists fun user => user ∈ db.users ∧ user.id = memo.creatorId) :
    (tally (fun joined : JoinedMemo => joined.memo.creatorId) {}
        (fun entry joined => countInto entry joined.memo)
        ((allRows db viewer).map withoutContent)).Perm
      ((db.users.filter fun user => userRows db viewer user.id ≠ []).map fun user =>
        (user.id, entryOf (userRows db viewer user.id))) := by
  rcases @tally_spec JoinedMemo Nat UserMemoStat _ {} (fun joined => joined.memo.creatorId)
    (fun entry joined => countInto entry joined.memo)
    ((allRows db viewer).map withoutContent) with ⟨nodup, keys, entries⟩
  simp only [group_allRows] at entries
  have known : forall id, id ∈ ((allRows db viewer).map withoutContent).map (fun joined => joined.memo.creatorId) ↔
      userRows db viewer id ≠ [] := by
    intro id
    rw [mem_keys_iff, group_allRows, Ne, List.map_eq_nil_iff]
  have userNodup : ((db.users.filter fun user => userRows db viewer user.id ≠ []).map fun user =>
      (user.id, entryOf (userRows db viewer user.id))).Nodup := by
    have ids : ((db.users.filter fun user => userRows db viewer user.id ≠ []).map User.id).Nodup :=
      sound.userIds.sublist (List.filter_sublist.map _)
    apply List.Nodup.of_map Prod.fst
    rw [List.map_map]
    exact ids
  rw [List.perm_ext_iff_of_nodup nodup.of_map userNodup]
  rintro ⟨id, entry⟩
  rw [List.mem_map]
  constructor
  · intro member
    have some_row := (known id).mp ((keys id).mp (List.mem_map_of_mem member))
    obtain ⟨joined, inRows⟩ := List.exists_mem_of_ne_nil _ some_row
    rw [userRows, List.mem_mergeSort, List.mem_filter, Bool.and_eq_true, decide_eq_true_eq] at inRows
    rcases creators _ (Database.mem_joinedMemos inRows.1) with ⟨user, stored, same⟩
    have isUser : user.id = id := same.trans inRows.2.1
    refine ⟨user, ?_, ?_⟩
    · rw [List.mem_filter, isUser]
      exact ⟨stored, decide_eq_true some_row⟩
    · have expected := entries id ((known id).mpr some_row)
      have equal := List.inj_on_of_nodup_map nodup expected member rfl
      rw [isUser]
      exact equal
  · rintro ⟨user, isUser, same⟩
    rw [Prod.mk.injEq] at same
    rw [List.mem_filter, decide_eq_true_eq] at isUser
    rw [← same.1, ← same.2]
    exact entries user.id ((known user.id).mpr isUser.2)

theorem allFind_eq (now : Int) {request : ListAllUserStatsRequest} (current : request.state ≠ .archived)
    (unfiltered : request.filter = "") :
    allFind env now viewer request = .ok (some (allUsersFind viewer)) := by
  rcases request with ⟨state, filter⟩
  simp only at current unfiltered
  subst unfiltered
  cases state with
  | archived => exact absurd rfl current
  | unspecified => rfl
  | normal => rfl

theorem mapM_nameStats {usernames : Nat -> Option String} {entries : List (Nat × UserMemoStat)}
    (resolved : forall entry, entry ∈ entries -> (usernames entry.1).isSome = true) :
    entries.mapM (nameStats usernames) =
      .ok (entries.map fun entry => finishStats ((usernames entry.1).getD "") entry.2) := by
  induction entries with
  | nil => rfl
  | cons entry entries ih =>
      rcases Option.isSome_iff_exists.mp (resolved entry List.mem_cons_self) with ⟨username, found⟩
      have named : nameStats usernames entry = .ok (finishStats username entry.2) := by
        rw [nameStats, found]
      rw [List.mapM_cons, ih fun other member => resolved other (List.mem_cons_of_mem _ member),
        List.map_cons, named, found]
      rfl

theorem usernamesById_eq (sound : db.Sound) {user : User} (stored : user ∈ db.users) {userIds : List Nat}
    (asked : user.id ∈ userIds) : usernamesById db userIds user.id = some user.username := by
  rw [usernamesById, Option.map_eq_some_iff]
  refine ⟨user, ?_, rfl⟩
  cases found : (db.users.filter fun user => user.id ∈ userIds).find? fun other => other.id = user.id with
  | none =>
      have missing := List.find?_eq_none.mp found user (List.mem_filter.mpr ⟨stored, decide_eq_true asked⟩)
      exact absurd (decide_eq_true rfl) missing
  | some other =>
      have selected : decide (other.id = user.id) = true := by
        have holds := List.find?_some found
        exact holds
      have same := of_decide_eq_true selected
      have inTable := (List.mem_filter.mp (List.mem_of_find?_eq_some found)).1
      rw [eq_of_nodup_map sound.userIds inTable stored same]

theorem listAllUserStats_eq (sound : db.Sound) (forest : Forest db)
    (creators : forall memo, memo ∈ db.memos -> Exists fun user => user ∈ db.users ∧ user.id = memo.creatorId)
    (caller : currentUser db userId = .ok viewer) (reads : ReadsVisibilityFilter env viewer)
    {iterate : List (Nat × UserMemoStat) -> List (Nat × UserMemoStat)}
    (anyOrder : forall entries, (iterate entries).Perm entries) (enough : db.memos.length < fuel)
    {request : ListAllUserStatsRequest} (current : request.state ≠ .archived)
    (unfiltered : request.filter = "") :
    Exists fun stats => listAllUserStats env clock iterate db userId fuel request = .ok (some stats) ∧
      stats.Perm ((db.users.filter fun user => userRows db viewer user.id ≠ []).map (statsOf db viewer)) := by
  have short : ((allRows db viewer).map withoutContent).length - 0 < fuel := by
    have := @allRows_length db viewer sound forest
    rw [List.length_map]
    omega
  have counted := readBatches_eq (by decide : 0 < batchLimit)
    (fetchBatch_eq (fun now => listMemos_allFind reads now db) clock)
    (fun _ _ => rfl : forall entries rows, countBatch entries rows = rows.foldl _ entries) fuel 0 [] short
  rw [List.drop_zero] at counted
  have perm := @tally_allRows db viewer sound creators
  generalize tallied : tally (fun joined : JoinedMemo => joined.memo.creatorId) {}
        (fun entry joined => countInto entry joined.memo)
    ((allRows db viewer).map withoutContent) = entries at perm
  have read : readBatches (fetchBatch env clock db (allUsersFind viewer)) batchLimit countBatch fuel 0 [] =
      .ok (some entries) := by
    rw [← tallied]
    exact counted
  have known : forall user, user ∈ db.users -> userRows db viewer user.id ≠ [] ->
      usernamesById db (entries.map Prod.fst) user.id = some user.username := by
    intro user stored some_row
    refine usernamesById_eq sound stored ?_
    rw [(perm.map Prod.fst).mem_iff, List.map_map]
    exact List.mem_map_of_mem (List.mem_filter.mpr ⟨stored, decide_eq_true some_row⟩)
  have inAnyOrder := (anyOrder entries).trans perm
  have resolved : forall entry, entry ∈ iterate entries ->
      (usernamesById db (entries.map Prod.fst) entry.1).isSome = true := by
    intro entry member
    rcases List.mem_map.mp (inAnyOrder.mem_iff.mp member) with ⟨user, isUser, rfl⟩
    rw [List.mem_filter, decide_eq_true_eq] at isUser
    rw [known user isUser.1 isUser.2]
    rfl
  refine ⟨(iterate entries).map fun entry =>
    finishStats ((usernamesById db (entries.map Prod.fst) entry.1).getD "") entry.2, ?_,
    (inAnyOrder.map _).trans (List.Perm.of_eq ?_)⟩
  · unfold listAllUserStats
    rw [caller]
    simp only [ok_bind, allFind_eq (clock 0) current unfiltered, read]
    rw [mapM_nameStats resolved]
    rfl
  · rw [List.map_map]
    refine List.map_congr_left ?_
    intro user isUser
    rw [List.mem_filter, decide_eq_true_eq] at isUser
    rw [Function.comp, known user isUser.1 isUser.2, Option.getD_some]
    exact finishStats_entryOf user.username (userRows db viewer user.id)

/-- The user has a memo that counts. -/
def HasCounted (db : Database) (viewer : Option User) (userId : Nat) : Prop :=
  Exists fun memo => memo ∈ db.memos ∧ memo.creatorId = userId ∧ Counts db viewer memo

instance (userId : Nat) : Decidable (HasCounted db viewer userId) :=
  inferInstanceAs (Decidable (Exists fun memo => memo ∈ db.memos ∧ memo.creatorId = userId ∧ Counts db viewer memo))

theorem hasCounted_iff (sound : db.Sound) (forest : Forest db) {userId : Nat} :
    HasCounted db viewer userId ↔ userRows db viewer userId ≠ [] := by
  have counted := @countedMemos_userRows db viewer sound forest userId
  rw [Ne, ← List.map_eq_nil_iff, List.eq_nil_iff_forall_not_mem, not_forall]
  constructor
  · rintro ⟨memo, holds⟩
    exact ⟨memo, not_not_intro ((counted.mem memo).mpr holds)⟩
  · rintro ⟨memo, member⟩
    exact ⟨memo, (counted.mem memo).mp (not_not.mp member)⟩

/-- The total is the number of memos, while that fits. -/
theorem summarize_total {username : String} {memos : List Memo} (fits : memos.length < 2 ^ 31) :
    (summarize username memos).totalMemoCount.toInt = memos.length :=
  Int32.toInt_ofNat_of_lt fits

/-- Over a reachable database, the list of the statistics of all users has one
entry for each user with a memo that counts, and it is what the user's own
statistics are.  They summarize his memos that are normal, no comments and
readable, each counted once. -/
theorem listAllUserStats_agrees {permitted : Database -> Operation -> Prop}
    (reached : Reaches permitted {} db)
    (creators : forall memo, memo ∈ db.memos -> Exists fun user => user ∈ db.users ∧ user.id = memo.creatorId)
    (bounded : db.memos.length < 2 ^ 31) (caller : currentUser db userId = .ok viewer)
    (reads : ReadsVisibilityFilter env viewer)
    {iterate : List (Nat × UserMemoStat) -> List (Nat × UserMemoStat)}
    (anyOrder : forall entries, (iterate entries).Perm entries) (enough : db.memos.length < fuel)
    {request : ListAllUserStatsRequest} (current : request.state ≠ .archived)
    (unfiltered : request.filter = "") (clock later : Nat -> Int) :
    (Exists fun stats => listAllUserStats env clock iterate db userId fuel request = .ok (some stats) ∧
      stats.Perm ((db.users.filter fun user => HasCounted db viewer user.id).map (statsOf db viewer))) ∧
    (forall name user, resolveUserByName db name = .ok (some user) ->
      getUserStats env later db userId fuel name = .ok (some (statsOf db viewer user))) ∧
    forall user, Exists fun memos => CountedMemos db viewer user.id memos ∧
      statsOf db viewer user = summarize user.username memos ∧
      (statsOf db viewer user).totalMemoCount.toInt = memos.length := by
  rcases reaches_forest reached with ⟨sound, forest⟩
  refine ⟨?_, ?_, ?_⟩
  · rcases listAllUserStats_eq sound forest creators caller reads anyOrder enough current unfiltered with
      ⟨stats, listed, perm⟩
    refine ⟨stats, listed, ?_⟩
    simp only [hasCounted_iff sound forest]
    exact perm
  · intro name user resolved
    exact getUserStats_eq sound forest caller enough resolved
  · intro user
    have counted := @countedMemos_userRows db viewer sound forest user.id
    have short : ((userRows db viewer user.id).map JoinedMemo.memo).length < 2 ^ 31 := by
      have := @userRows_length db viewer sound forest user.id
      rw [List.length_map]
      omega
    exact ⟨_, counted, rfl, summarize_total short⟩

end Agreement

/-- Alice has a private memo with a tag, an archived memo, and a comment on her memo. -/
def memosOfAlice : List Operation :=
  [.changeAccounts [alice, bob] [] [],
    .createMemo "a" { content := "", visibility := .isPrivate },
    .rebuildMemoPayload 1 ⟨none, ["plan"]⟩,
    .createMemo "b" { content := "", visibility := .isPublic },
    .updateMemo "memos/b" ["state"] { content := "", visibility := .isPublic, state := .archived },
    .createMemoComment "memos/a" "c" (some { content := "", visibility := .isPrivate })]

/-- Bob adds a memo. -/
def withMemoOfBob (memoId : String) (visibility : Visibility) (db : Database) : Database :=
  (perform quietBackend bob.id (.createMemo memoId { content := "", visibility := visibility }) ⟨db, []⟩).2.state

/-- Bob's private memo is hidden from Alice, the other is not. -/
def mixedMemos : Database :=
  withMemoOfBob "e" .isProtected (withMemoOfBob "d" .isPrivate (runFrom {} memosOfAlice))

theorem reaches_withMemoOfBob {start db : Database} {memoId : String} {visibility : Visibility}
    (reached : Reaches (fun _ _ => True) start db) :
    Reaches (fun _ _ => True) start (withMemoOfBob memoId visibility db) :=
  reached.tail ⟨quietBackend, bob.id, .createMemo memoId { content := "", visibility := visibility }, [],
    trivial, rfl⟩

/-- One memo counts for each of the two. -/
theorem listAllUserStats_agrees_mixed :
    (Exists fun stats => listAllUserStats wideningEnvironment (fun index => index) List.reverse mixedMemos 1 6 {} =
        .ok (some stats) ∧
      stats.Perm [statsOf mixedMemos (some alice) alice, statsOf mixedMemos (some alice) bob]) ∧
    getUserStats wideningEnvironment (fun index => index) mixedMemos 1 6 "users/bob" =
      .ok (some (statsOf mixedMemos (some alice) bob)) ∧
    (statsOf mixedMemos (some alice) alice).memoCreatedTimestamps = [1] := by
  have creators : forall memo, memo ∈ mixedMemos.memos ->
      Exists fun user => user ∈ mixedMemos.users ∧ user.id = memo.creatorId := by decide +kernel
  have bounded : mixedMemos.memos.length < 2 ^ 31 := by decide +kernel
  have caller : currentUser mixedMemos 1 = .ok (some alice) := by decide +kernel
  have enough : mixedMemos.memos.length < 6 := by decide +kernel
  have reads : ReadsVisibilityFilter wideningEnvironment (some alice) := by
    intro user same
    cases same
    rfl
  have agrees := @listAllUserStats_agrees mixedMemos (some alice) wideningEnvironment 1 6 _
    (reaches_withMemoOfBob (reaches_withMemoOfBob (reaches_runFrom fun _ _ _ => trivial)))
    creators bounded caller reads List.reverse List.reverse_perm enough {}
    (fun impossible => by cases impossible) rfl (fun index => index) (fun index => index)
  have users : (mixedMemos.users.filter fun user => HasCounted mixedMemos (some alice) user.id) =
      [alice, bob] := by decide +kernel
  have named : resolveUserByName mixedMemos "users/bob" = .ok (some bob) := by decide +kernel
  rw [users] at agrees
  exact ⟨agrees.1, agrees.2.1 _ _ named, by decide +kernel⟩

end Statistics
end Service
end Memos
