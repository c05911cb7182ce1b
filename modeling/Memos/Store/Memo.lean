import Mathlib.Data.List.Sort
import Memos.Filter.Alignment
import Memos.Store.Tables

namespace Memos
namespace Store

open Library Memos.Filter

/-!
# Memo queries

`ListMemos` of the SQLite driver.  The clause is put together from conjuncts
with `?` placeholders and one argument list; the database gives the
placeholders of the whole text the arguments by position and ignores
arguments that are left over.
-/

/-- `FindMemo` -/
structure FindMemo where
  id : Option Nat := none
  uid : Option String := none
  idList : List Nat := []
  uidList : List String := []
  rowStatus : Option RowStatus := none
  creatorId : Option Nat := none
  visibilityList : List Visibility := []
  excludeContent : Bool := false
  excludeComments : Bool := false
  filters : List String := []
  limit : Option Nat := none
  offset : Option Nat := none
  orderByPinned : Bool := false
  orderByUpdatedTs : Bool := false
  orderByTimeAsc : Bool := false

/-! ## The joined rows -/

/-- A memo with the parts that the joins add. -/
structure JoinedMemo where
  memo : Memo
  creator : Option User
  parentUid : Option String
deriving DecidableEq

/-- The rows that a left join pairs with one row of the left table. -/
def leftJoin {α : Type} (matching : List α) : List (Option α) :=
  if matching.isEmpty then [none] else matching.map some

namespace Database

/-- The creator, the comment relations and the parents of one memo. -/
def joinMemo (db : Database) (memo : Memo) : List JoinedMemo :=
  let creators := db.users.filter fun user => user.id = memo.creatorId
  let comments := db.relations.filter fun relation =>
    relation.memoId = memo.id ∧ relation.type = .comment
  let parents (relation : Option MemoRelation) := db.memos.filter fun parent =>
    relation.map MemoRelation.relatedMemoId = some parent.id
  (leftJoin creators).flatMap fun creator =>
    (leftJoin comments).flatMap fun relation =>
      (leftJoin (parents relation)).map fun parent => ⟨memo, creator, parent.map Memo.uid⟩

/-- All rows of the `FROM` clause. -/
def joinedMemos (db : Database) : List JoinedMemo := db.memos.flatMap db.joinMemo

end Database

variable {db : Database} {joined : JoinedMemo} {α : Type} {engine : Engine} {rules : TextRules} {now : Int}
  {find : FindMemo} {clause : Where} {conjuncts : List (SqlCondition Arg)} {result : List JoinedMemo}

theorem Database.mem_joinedMemos (member : joined ∈ db.joinedMemos) : joined.memo ∈ db.memos := by
  rcases List.mem_flatMap.mp member with ⟨memo, inTable, inJoin⟩
  rcases List.mem_flatMap.mp inJoin with ⟨creator, _, inComments⟩
  rcases List.mem_flatMap.mp inComments with ⟨relation, _, inParents⟩
  rcases List.mem_map.mp inParents with ⟨parent, _, rfl⟩
  exact inTable

theorem leftJoin_ne_nil (matching : List α) : leftJoin matching ≠ [] := by
  cases matching with
  | nil => exact List.cons_ne_nil _ _
  | cons first rest => exact List.cons_ne_nil _ _

/-- A left join pads nothing when something matches. -/
theorem mem_leftJoin {matching : List α} {row : Option α} (matched : matching ≠ []) (member : row ∈ leftJoin matching) :
    Exists fun inner => inner ∈ matching ∧ row = some inner := by
  unfold leftJoin at member
  rw [List.isEmpty_eq_false_iff.mpr matched] at member
  rcases List.mem_map.mp member with ⟨inner, inside, same⟩
  exact ⟨inner, inside, same.symm⟩

/-- Every memo has at least one joined row. -/
theorem Database.exists_joinedMemos {memo : Memo} (member : memo ∈ db.memos) :
    Exists fun joined => joined ∈ db.joinedMemos ∧ joined.memo = memo := by
  rcases List.exists_mem_of_ne_nil _
    (leftJoin_ne_nil (db.users.filter fun user => user.id = memo.creatorId)) with ⟨creator, inUsers⟩
  rcases List.exists_mem_of_ne_nil _ (leftJoin_ne_nil (db.relations.filter fun relation =>
    relation.memoId = memo.id ∧ relation.type = .comment)) with ⟨relation, inRelations⟩
  rcases List.exists_mem_of_ne_nil _ (leftJoin_ne_nil (db.memos.filter fun parent =>
    relation.map MemoRelation.relatedMemoId = some parent.id)) with ⟨parent, inParents⟩
  refine ⟨⟨memo, creator, parent.map Memo.uid⟩, ?_, rfl⟩
  exact List.mem_flatMap.mpr ⟨memo, member, List.mem_flatMap.mpr ⟨creator, inUsers,
    List.mem_flatMap.mpr ⟨relation, inRelations, List.mem_map.mpr ⟨parent, inParents, rfl⟩⟩⟩⟩

/-- A nullable text column. -/
def optionalText : Option String -> SqlValue
  | some value => .text value
  | none => .null

/-- The column values of a joined row in SQLite. -/
def JoinedMemo.row (joined : JoinedMemo) : Row := fun col =>
  if col = ⟨"memo", "id"⟩ then .int joined.memo.id
  else if col = ⟨"memo", "uid"⟩ then .text joined.memo.uid
  else if col = ⟨"memo", "creator_id"⟩ then .int joined.memo.creatorId
  else if col = ⟨"memo", "created_ts"⟩ then .int joined.memo.createdTs
  else if col = ⟨"memo", "updated_ts"⟩ then .int joined.memo.updatedTs
  else if col = ⟨"memo", "row_status"⟩ then .text joined.memo.rowStatus.string
  else if col = ⟨"memo", "content"⟩ then .text joined.memo.content
  else if col = ⟨"memo", "visibility"⟩ then .text joined.memo.visibility.string
  else if col = ⟨"memo", "pinned"⟩ then .int (if joined.memo.pinned then 1 else 0)
  else if col = ⟨"memo", "payload"⟩ then .json joined.memo.payload.toJson
  else if col = ⟨"memo_creator", "username"⟩ then
    optionalText (joined.creator.map User.username)
  else if col = ⟨"", "parent_uid"⟩ then optionalText joined.parentUid
  else .null

/-! ## The clause -/

/-- Append a conjunct on one column with its argument. -/
def pushCompare (col : Filter.Column) (value : Arg) (clause : Where) : Where where
  conjuncts := clause.conjuncts ++
    [.compare .eq (.column col) (.param ⟨clause.args.length + 1, value, .question⟩)]
  args := clause.args ++ [value]

def pushIn (col : Filter.Column) (values : List Arg) (clause : Where) : Where where
  conjuncts := clause.conjuncts ++
    [.inList (.column col) (placeholdersFrom .sqlite 0 clause.args.length values)]
  args := clause.args ++ values

def pushIsNull (col : Filter.Column) (clause : Where) : Where where
  conjuncts := clause.conjuncts ++ [.isNull (.column col)]
  args := clause.args

/-- The conjunct of a field that is set. -/
def pushField (col : Filter.Column) (field : Option Arg) : List (Where -> Where) :=
  field.toList.map (pushCompare col)

/-- The conjunct of a list that is not empty. -/
def pushList (col : Filter.Column) (values : List Arg) : List (Where -> Where) :=
  if values.isEmpty then [] else [pushIn col values]

/-- The argument of an id. -/
def idArg (id : Nat) : Arg := .int id

/-- The conjuncts after the filters, in the order of the source. -/
def FindMemo.pushes (find : FindMemo) : List (Where -> Where) :=
  pushField ⟨"memo", "id"⟩ (find.id.map idArg) ++
  pushList ⟨"memo", "id"⟩ (find.idList.map idArg) ++
  pushField ⟨"memo", "uid"⟩ (find.uid.map .string) ++
  pushList ⟨"memo", "uid"⟩ (find.uidList.map .string) ++
  pushField ⟨"memo", "creator_id"⟩ (find.creatorId.map idArg) ++
  pushField ⟨"memo", "row_status"⟩ (find.rowStatus.map fun status => .string status.string) ++
  pushList ⟨"memo", "visibility"⟩ (find.visibilityList.map fun value => .string value.string) ++
  (if find.excludeComments then [pushIsNull ⟨"", "parent_uid"⟩] else [])

/-- The whole `WHERE` clause. -/
def whereClause (engine : Engine) (now : Int) (find : FindMemo) : Except String Where := do
  let clause ← appendConditions engine now .sqlite ⟨[.verum], []⟩ find.filters
  return find.pushes.foldl (fun clause push => push clause) clause

/-! ## Running the query -/

/-- Give the placeholders of consecutive conjuncts the arguments in order. -/
def bindAll {π ρ : Type} : List (SqlCondition π) -> List ρ ->
    Option (List (SqlCondition ρ) × List ρ)
  | [], args => some ([], args)
  | conjunct :: rest, args => do
      let (bound, args) ← conjunct.bind args
      let (others, args) ← bindAll rest args
      return (bound :: others, args)

/-- The truth of the conjuncts together. -/
def conjunctionTruth (rules : TextRules) (row : Row) :
    List (SqlCondition Arg) -> Except SqlError Truth
  | [] => .ok .yes
  | conjunct :: rest => do
      let first ← conjunct.eval rules .sqlite row
      let others ← conjunctionTruth rules row rest
      return first.and others

/-- The rows that satisfy the conjuncts. -/
def selectRows (rules : TextRules) (conjuncts : List (SqlCondition Arg)) :
    List JoinedMemo -> Except SqlError (List JoinedMemo)
  | [] => .ok []
  | joined :: rest => do
      let truth ← conjunctionTruth rules joined.row conjuncts
      let others ← selectRows rules conjuncts rest
      return if truth = .yes then joined :: others else others

/-- The order of two results, at least one key of which decides. -/
def FindMemo.before (find : FindMemo) (first second : JoinedMemo) : Bool :=
  let key (joined : JoinedMemo) : Int :=
    if find.orderByUpdatedTs then joined.memo.updatedTs else joined.memo.createdTs
  if find.orderByPinned ∧ first.memo.pinned ≠ second.memo.pinned then first.memo.pinned
  else if key first ≠ key second then
    if find.orderByTimeAsc then key first < key second else key second < key first
  else second.memo.id ≤ first.memo.id

/-- `LIMIT` and `OFFSET`.  The offset counts only under a limit. -/
def FindMemo.page {α : Type} (find : FindMemo) (rows : List α) : List α :=
  match find.limit with
  | none => rows
  | some limit => (rows.drop (find.offset.getD 0)).take limit

/-- `ListMemos` of the SQLite driver.  The content is not read when the
request excludes it. -/
def listMemos (engine : Engine) (rules : TextRules) (now : Int) (db : Database)
    (find : FindMemo) : Except String (List JoinedMemo) := do
  let clause ← whereClause engine now find
  match bindAll clause.conjuncts clause.args with
  | none => .error "missing argument"
  | some (conjuncts, _) =>
      match selectRows rules conjuncts db.joinedMemos with
      | .error _ => .error "SQL logic error"
      | .ok rows =>
          let sorted := rows.mergeSort find.before
          return (find.page sorted).map fun joined =>
            if find.excludeContent then { joined with memo.content := "" } else joined

/-- `GetMemo`: the first memo of the list. -/
def getMemo (engine : Engine) (rules : TextRules) (now : Int) (db : Database)
    (find : FindMemo) : Except String (Option JoinedMemo) :=
  List.head? <$> listMemos engine rules now db find

/-- The stages of a query that succeeds. -/
theorem listMemos_of_rows {surplus : List Arg} (rows : List JoinedMemo)
    (built : whereClause engine now find = .ok clause)
    (bound : bindAll clause.conjuncts clause.args = some (conjuncts, surplus))
    (selected : selectRows rules conjuncts db.joinedMemos = .ok rows) :
    listMemos engine rules now db find =
      .ok ((find.page (rows.mergeSort find.before)).map fun joined =>
        if find.excludeContent then { joined with memo.content := "" } else joined) := by
  unfold listMemos
  rw [built]
  simp only [bind, Except.bind, bound, selected]
  rfl

/-! ## Clauses whose placeholders have their own literals -/

/-- The literals of the clause in reading order are its arguments. -/
def Positional (clause : Where) : Prop :=
  (clause.conjuncts.flatMap SqlCondition.params).map Placeholder.literal = clause.args

variable {conjunct : SqlCondition Placeholder} {column : Bool}

theorem Positional.snoc (positional : Positional clause) {values : List Arg}
    (literals : conjunct.params.map Placeholder.literal = values) :
    Positional ⟨clause.conjuncts ++ [conjunct], clause.args ++ values⟩ := by
  unfold Positional at positional ⊢
  rw [List.flatMap_append, List.map_append, positional, List.flatMap_singleton, literals]

/-- A statement that keeps its arguments is positional by itself. -/
theorem append_positional {condition : Condition} {statement : Statement} {offset : Nat}
    (positional : Positional clause) (recorded : StatementRecorded engine.schema .sqlite offset condition statement)
    (binds : bindsArguments engine.schema .sqlite condition = true) :
    Positional (clause.append statement) := by
  cases isEmpty : statement.sql.isEmpty with
  | true =>
      rw [Where.append_of_isEmpty clause isEmpty]
      exact positional
  | false =>
      have keeps : keepsArguments engine.schema .sqlite condition = true := by
        rw [bindsArguments, ← recorded.empty_eq, isEmpty, Bool.false_or] at binds
        exact binds
      rw [Where.append_of_nonempty clause isEmpty]
      apply positional.snoc
      rw [SqlCondition.params, recorded.kept keeps, placeholdersFrom_literal]

/-- The filter was compiled, and its text stands in the clause. -/
def Installed (engine : Engine) (now : Int) (filter : String)
    (conjuncts : List (SqlCondition Placeholder)) : Prop :=
  Exists fun statement => Exists fun offset =>
    engine.compileToStatement now filter .sqlite offset = .ok statement ∧
      (statement.sql.isEmpty = false -> .paren statement.sql ∈ conjuncts)

theorem appendConditions_positional {filters : List String} {clause out : Where} (positional : Positional clause)
    (all : AllBind engine now .sqlite filters)
    (success : appendConditions engine now .sqlite clause filters = .ok out) :
    Positional out := by
  induction filters generalizing clause with
  | nil =>
      cases success
      exact positional
  | cons filter rest ih =>
      rcases bind_eq_ok.mp success with ⟨statement, compiled, continued⟩
      rcases bind_eq_ok.mp compiled with ⟨condition, parsed, rendered⟩
      have binds := all filter List.mem_cons_self condition parsed
      have others : AllBind engine now .sqlite rest := fun name later =>
        all name (List.mem_cons_of_mem _ later)
      exact ih (append_positional positional (render_recorded rendered) binds)
        others continued

/-- Every conjunct stays, and every filter of the list is installed. -/
theorem appendConditions_installed {filters : List String} {clause out : Where}
    (success : appendConditions engine now .sqlite clause filters = .ok out) :
    (∀ conjunct, conjunct ∈ clause.conjuncts -> conjunct ∈ out.conjuncts) ∧
      ∀ filter, filter ∈ filters -> Installed engine now filter out.conjuncts := by
  induction filters generalizing clause with
  | nil =>
      cases success
      exact ⟨fun _ member => member, fun _ impossible => absurd impossible List.not_mem_nil⟩
  | cons filter rest ih =>
      rcases bind_eq_ok.mp success with ⟨statement, compiled, continued⟩
      rcases ih continued with ⟨kept, installed⟩
      have appended : (∀ conjunct, conjunct ∈ clause.conjuncts ->
            conjunct ∈ (clause.append statement).conjuncts) ∧
          (statement.sql.isEmpty = false ->
            .paren statement.sql ∈ (clause.append statement).conjuncts) := by
        cases isEmpty : statement.sql.isEmpty with
        | true =>
            rw [Where.append_of_isEmpty clause isEmpty]
            exact ⟨fun _ member => member, fun impossible => by cases impossible⟩
        | false =>
            rw [Where.append_of_nonempty clause isEmpty]
            exact ⟨fun _ member => List.mem_append_left _ member,
              fun _ => List.mem_append_right _ (List.mem_singleton.mpr rfl)⟩
      refine ⟨fun conjunct member => kept conjunct (appended.1 conjunct member), ?_⟩
      intro name member
      rcases List.mem_cons.mp member with rfl | later
      · exact ⟨statement, _, compiled, fun nonempty => kept _ (appended.2 nonempty)⟩
      · exact installed name later

/-! ## The conjuncts of the fields -/

/-- A push that appends one conjunct, whose text with its own literals is
`bound`. -/
structure Pushes (push : Where -> Where) (bound : SqlCondition Arg) : Prop where
  positional : ∀ clause, Positional clause -> Positional (push clause)
  kept : ∀ clause conjunct, conjunct ∈ clause.conjuncts ->
    conjunct ∈ (push clause).conjuncts
  pushed : ∀ clause, Exists fun conjunct =>
    conjunct ∈ (push clause).conjuncts ∧ conjunct.map Placeholder.literal = bound

theorem pushCompare_pushes (col : Filter.Column) (value : Arg) :
    Pushes (pushCompare col value) (.compare .eq (.column col) (.param value)) where
  positional := fun _ positional => positional.snoc rfl
  kept := fun _ _ member => List.mem_append_left _ member
  pushed := fun _ => ⟨_, List.mem_append_right _ (List.mem_singleton.mpr rfl), rfl⟩

theorem pushIn_pushes (col : Filter.Column) (values : List Arg) :
    Pushes (pushIn col values) (.inList (.column col) values) where
  positional := fun _ positional => positional.snoc (placeholdersFrom_literal _ _ _ _)
  kept := fun _ _ member => List.mem_append_left _ member
  pushed := by
    intro clause
    refine ⟨_, List.mem_append_right _ (List.mem_singleton.mpr rfl), ?_⟩
    rw [SqlCondition.map, placeholdersFrom_literal]
    rfl

theorem pushIsNull_pushes (col : Filter.Column) :
    Pushes (pushIsNull col) (.isNull (.column col)) where
  positional := by
    intro clause positional
    have last : Positional ⟨clause.conjuncts ++ [.isNull (.column col)], clause.args ++ []⟩ :=
      positional.snoc rfl
    rw [List.append_nil] at last
    exact last
  kept := fun _ _ member => List.mem_append_left _ member
  pushed := fun _ => ⟨_, List.mem_append_right _ (List.mem_singleton.mpr rfl), rfl⟩

/-- Each of these pushes appends some conjunct. -/
def AllPush (pushes : List (Where -> Where)) : Prop :=
  ∀ push, push ∈ pushes -> Exists fun bound => Pushes push bound

theorem AllPush.append {first second : List (Where -> Where)} (left : AllPush first)
    (right : AllPush second) : AllPush (first ++ second) := by
  intro push member
  rcases List.mem_append.mp member with early | late
  · exact left push early
  · exact right push late

theorem pushField_allPush (col : Filter.Column) (field : Option Arg) :
    AllPush (pushField col field) := by
  intro push member
  rcases List.mem_map.mp member with ⟨value, _, rfl⟩
  exact ⟨_, pushCompare_pushes col value⟩

theorem pushList_allPush (col : Filter.Column) (values : List Arg) :
    AllPush (pushList col values) := by
  intro push member
  unfold pushList at member
  split at member
  · cases member
  · rcases List.mem_singleton.mp member with rfl
    exact ⟨_, pushIn_pushes col values⟩

theorem FindMemo.pushes_allPush (find : FindMemo) : AllPush find.pushes := by
  unfold FindMemo.pushes
  refine .append (.append (.append (.append (.append (.append (.append
    (pushField_allPush _ _) (pushList_allPush _ _)) (pushField_allPush _ _))
    (pushList_allPush _ _)) (pushField_allPush _ _)) (pushField_allPush _ _))
    (pushList_allPush _ _)) ?_
  intro push member
  split at member
  · rcases List.mem_singleton.mp member with rfl
    exact ⟨_, pushIsNull_pushes _⟩
  · cases member

/-- After all pushes the clause is still positional, keeps its conjuncts and
has the conjunct of every push. -/
theorem foldl_pushes {pushes : List (Where -> Where)} (all : AllPush pushes) (clause : Where) :
    (Positional clause ->
      Positional (pushes.foldl (fun clause push => push clause) clause)) ∧
    (∀ conjunct, conjunct ∈ clause.conjuncts ->
      conjunct ∈ (pushes.foldl (fun clause push => push clause) clause).conjuncts) ∧
    (∀ push bound, push ∈ pushes -> Pushes push bound ->
      bound ∈ (pushes.foldl (fun clause push => push clause) clause).conjuncts.map
        (SqlCondition.map Placeholder.literal)) := by
  induction pushes generalizing clause with
  | nil =>
      exact ⟨fun positional => positional, fun _ member => member,
        fun _ _ impossible => absurd impossible List.not_mem_nil⟩
  | cons push rest ih =>
      rcases all push List.mem_cons_self with ⟨first, firstPushes⟩
      have others : AllPush rest := fun later member => all later (List.mem_cons_of_mem _ member)
      rcases ih others (push clause) with ⟨positional, kept, pushed⟩
      refine ⟨fun start => positional (firstPushes.positional clause start),
        fun conjunct member => kept conjunct (firstPushes.kept clause conjunct member), ?_⟩
      intro candidate bound member pushes
      rcases List.mem_cons.mp member with rfl | later
      · rcases pushes.pushed clause with ⟨conjunct, inside, same⟩
        exact List.mem_map.mpr ⟨conjunct, kept conjunct inside, same⟩
      · exact pushed candidate bound later pushes

/-! ## What a listed memo satisfies -/

/-- A positional clause gives every placeholder its own literal. -/
theorem bindAll_literals (conjuncts : List (SqlCondition Placeholder)) (surplus : List Arg) :
    bindAll conjuncts
        ((conjuncts.flatMap SqlCondition.params).map Placeholder.literal ++ surplus) =
      some (conjuncts.map (SqlCondition.map Placeholder.literal), surplus) := by
  induction conjuncts with
  | nil => rfl
  | cons conjunct rest ih =>
      simp only [List.flatMap_cons, List.map_append, List.append_assoc, bindAll,
        SqlCondition.bind_params, Option.bind_eq_bind, Option.bind_some, ih]
      rfl

theorem Positional.bindAll (positional : Positional clause) :
    Store.bindAll clause.conjuncts clause.args =
      some (clause.conjuncts.map (SqlCondition.map Placeholder.literal), []) := by
  have bound := bindAll_literals clause.conjuncts []
  rw [List.append_nil, positional] at bound
  exact bound

theorem conjunctionTruth_yes {row : Row} (success : conjunctionTruth rules row conjuncts = .ok .yes) :
    ∀ conjunct, conjunct ∈ conjuncts -> conjunct.eval rules .sqlite row = .ok .yes := by
  induction conjuncts with
  | nil => exact fun _ impossible => absurd impossible List.not_mem_nil
  | cons conjunct rest ih =>
      rcases bind_eq_ok.mp success with ⟨first, evaluated, continued⟩
      rcases bind_eq_ok.mp continued with ⟨others, remaining, finished⟩
      rcases Truth.and_eq_yes.mp (pure_eq_ok.mp finished) with ⟨rfl, rfl⟩
      intro candidate member
      rcases List.mem_cons.mp member with rfl | later
      · exact evaluated
      · exact ih remaining candidate later

theorem selectRows_mem {rows selected : List JoinedMemo} (success : selectRows rules conjuncts rows = .ok selected) :
    ∀ joined, joined ∈ selected ->
      joined ∈ rows ∧ conjunctionTruth rules joined.row conjuncts = .ok .yes := by
  induction rows generalizing selected with
  | nil =>
      cases success
      exact fun _ impossible => absurd impossible List.not_mem_nil
  | cons row rest ih =>
      rcases bind_eq_ok.mp success with ⟨truth, evaluated, continued⟩
      rcases bind_eq_ok.mp continued with ⟨others, remaining, finished⟩
      have tail := ih remaining
      intro joined member
      have outcome : (joined = row ∧ truth = .yes) ∨ joined ∈ others := by
        by_cases yes : truth = .yes
        · rw [if_pos yes] at finished
          cases finished
          rcases List.mem_cons.mp member with same | later
          · exact .inl ⟨same, yes⟩
          · exact .inr later
        · rw [if_neg yes] at finished
          cases finished
          exact .inr member
      rcases outcome with ⟨rfl, rfl⟩ | later
      · exact ⟨List.mem_cons_self, evaluated⟩
      · exact ⟨List.mem_cons_of_mem _ (tail joined later).1, (tail joined later).2⟩

theorem selectRows_sublist {rows kept : List JoinedMemo} (success : selectRows rules conjuncts rows = .ok kept) :
    kept.Sublist rows := by
  induction rows generalizing kept with
  | nil =>
      cases success
      exact List.Sublist.refl _
  | cons row rest ih =>
      rcases bind_eq_ok.mp success with ⟨truth, _, continued⟩
      rcases bind_eq_ok.mp continued with ⟨others, remaining, finished⟩
      have tail := ih remaining
      by_cases yes : truth = .yes
      · rw [if_pos yes] at finished
        cases finished
        exact tail.cons_cons row
      · rw [if_neg yes] at finished
        cases finished
        exact tail.cons row

/-- A query that succeeds selects, sorts and cuts out joined rows. -/
theorem listMemos_eq_ok (success : listMemos engine rules now db find = .ok result) :
    Exists fun rows : List JoinedMemo => rows.Sublist db.joinedMemos ∧
      result = (find.page (rows.mergeSort find.before)).map fun joined =>
        if find.excludeContent then { joined with memo.content := "" } else joined := by
  rcases bind_eq_ok.mp success with ⟨clause, built, executed⟩
  cases binding : bindAll clause.conjuncts clause.args with
  | none => rw [binding] at executed; cases executed
  | some both =>
      rcases both with ⟨bound, surplus⟩
      simp only [binding] at executed
      cases selection : selectRows rules bound db.joinedMemos with
      | error cause => rw [selection] at executed; cases executed
      | ok rows =>
          rw [selection] at executed
          cases executed
          exact ⟨rows, selectRows_sublist selection, rfl⟩

/-- Two queries with the same clause pick the same rows, and differ in what they
make of them. -/
theorem listMemos_map {find other : FindMemo} (alter : List JoinedMemo → List JoinedMemo)
    (sameClause : whereClause engine now other = whereClause engine now find) (alters : ∀ rows : List JoinedMemo,
      ((other.page (rows.mergeSort other.before)).map fun joined =>
          if other.excludeContent then { joined with memo.content := "" } else joined) =
        alter ((find.page (rows.mergeSort find.before)).map fun joined =>
          if find.excludeContent then { joined with memo.content := "" } else joined)) :
    listMemos engine rules now db other = alter <$> listMemos engine rules now db find := by
  unfold listMemos
  rw [sameClause]
  cases whereClause engine now find with
  | error cause => rfl
  | ok clause =>
      simp only [bind, Except.bind]
      cases bindAll clause.conjuncts clause.args with
      | none => rfl
      | some both =>
          rcases both with ⟨conjuncts, surplus⟩
          dsimp only
          cases selectRows rules conjuncts db.joinedMemos with
          | error cause => rfl
          | ok rows => exact congrArg Except.ok (alters rows)

/-- Without the content the rows are the same but for it. -/
theorem listMemos_excludeContent (engine : Engine) (rules : TextRules) (now : Int) (db : Database)
    (find : FindMemo) (included : find.excludeContent = false) :
    listMemos engine rules now db { find with excludeContent := true } =
      (fun rows => rows.map fun joined : JoinedMemo => { joined with memo.content := "" }) <$>
        listMemos engine rules now db find := by
  refine listMemos_map _ rfl fun rows => ?_
  simp only [included, Bool.false_eq_true, if_false, if_true, List.map_id']
  rfl

/-- A query with a limit and an offset cuts them out of the unlimited query. -/
theorem listMemos_page (engine : Engine) (rules : TextRules) (now : Int) (db : Database)
    (find : FindMemo) (limit offset : Nat) :
    listMemos engine rules now db { find with limit := some limit, offset := some offset } =
      (fun all => (all.drop offset).take limit) <$>
        listMemos engine rules now db { find with limit := none } := by
  refine listMemos_map _ rfl fun rows => ?_
  dsimp only [FindMemo.page, Option.getD]
  rw [List.map_take, List.map_drop]
  rfl

theorem FindMemo.before_trans (find : FindMemo) {first second third : JoinedMemo}
    (left : find.before first second = true) (right : find.before second third = true) :
    find.before first third = true := by
  unfold FindMemo.before at *
  grind

theorem FindMemo.before_total (find : FindMemo) (first second : JoinedMemo) :
    (find.before first second || find.before second first) = true := by
  unfold FindMemo.before
  grind

/-- The id breaks every tie. -/
theorem FindMemo.same_of_before (find : FindMemo) {first second : JoinedMemo}
    (left : find.before first second = true) (right : find.before second first = true) :
    first.memo.id = second.memo.id := by
  unfold FindMemo.before at *
  grind

/-- An unlimited query returns its memos in order. -/
theorem listMemos_sorted (unlimited : find.limit = none) (success : listMemos engine rules now db find = .ok result) :
    result.Pairwise fun first second => find.before first second = true := by
  rcases listMemos_eq_ok success with ⟨rows, _, rfl⟩
  have sorted : (rows.mergeSort find.before).Pairwise fun first second =>
      find.before first second = true := by
    apply List.pairwise_mergeSort
    · intro first second third
      exact find.before_trans
    · exact find.before_total
  unfold FindMemo.page
  rw [unlimited, List.pairwise_map]
  refine sorted.imp fun before => ?_
  -- The order does not read the content.
  split <;> exact before

theorem FindMemo.page_sublist (find : FindMemo) (rows : List α) :
    (find.page rows).Sublist rows := by
  unfold FindMemo.page
  split
  · exact List.Sublist.refl _
  · exact (List.take_sublist _ _).trans (List.drop_sublist _ _)

theorem FindMemo.mem_page {rows : List α} {row : α} (member : row ∈ find.page rows) : row ∈ rows := by
  unfold FindMemo.page at member
  split at member
  · exact member
  · exact List.mem_of_mem_drop (List.mem_of_mem_take member)

/-- When every filter binds its arguments, a listed memo comes from a joined
row on which the text of every filter and the conjunct of every push hold. -/
theorem listMemos_sound (all : AllBind engine now .sqlite find.filters)
    (success : listMemos engine rules now db find = .ok result) :
    ∀ listed, listed ∈ result -> Exists fun joined =>
      joined ∈ db.joinedMemos ∧
      (listed = joined ∨ listed = { joined with memo.content := "" }) ∧
      (∀ filter, filter ∈ find.filters -> Exists fun statement => Exists fun offset =>
        engine.compileToStatement now filter .sqlite offset = .ok statement ∧
          (statement.sql.isEmpty = false ->
            (statement.sql.map Placeholder.literal).eval rules .sqlite joined.row = .ok .yes)) ∧
      (∀ push bound, push ∈ find.pushes -> Pushes push bound ->
        bound.eval rules .sqlite joined.row = .ok .yes) := by
  rcases bind_eq_ok.mp success with ⟨clause, built, executed⟩
  rcases bind_eq_ok.mp built with ⟨filtered, appended, finished⟩
  have start : Positional ⟨[.verum], []⟩ := rfl
  have filteredPositional := appendConditions_positional start all appended
  have installed := (appendConditions_installed appended).2
  rcases foldl_pushes find.pushes_allPush filtered with ⟨positional, kept, pushed⟩
  cases finished
  have bound := (positional filteredPositional).bindAll
  simp only [bound] at executed
  cases selection : selectRows rules
      ((find.pushes.foldl (fun clause push => push clause) filtered).conjuncts.map
        (SqlCondition.map Placeholder.literal)) db.joinedMemos with
  | error cause => rw [selection] at executed; cases executed
  | ok rows =>
      rw [selection] at executed
      cases executed
      intro listed member
      rcases List.mem_map.mp member with ⟨joined, onPage, same⟩
      have selected := List.mem_mergeSort.mp (FindMemo.mem_page onPage)
      rcases selectRows_mem selection joined selected with ⟨inTable, truth⟩
      have holds := conjunctionTruth_yes truth
      refine ⟨joined, inTable, ?_, ?_, ?_⟩
      · subst same
        cases find.excludeContent
        · exact .inl rfl
        · exact .inr rfl
      · intro filter filterMember
        rcases installed filter filterMember with ⟨statement, offset, compiled, inside⟩
        refine ⟨statement, offset, compiled, ?_⟩
        intro nonempty
        exact holds (.paren (statement.sql.map Placeholder.literal))
          (List.mem_map.mpr ⟨.paren statement.sql, kept _ (inside nonempty), rfl⟩)
      · intro push conjunct pushMember pushes
        exact holds conjunct (pushed push conjunct pushMember pushes)

/-! ## The fields of the request -/

/-- A joined row meets the fields that the request sets. -/
structure FindMemo.Meets (find : FindMemo) (joined : JoinedMemo) : Prop where
  id : ∀ id, find.id = some id -> joined.memo.id = id
  idList : find.idList ≠ [] -> joined.memo.id ∈ find.idList
  uid : ∀ uid, find.uid = some uid -> joined.memo.uid = uid
  creatorId : ∀ id, find.creatorId = some id -> joined.memo.creatorId = id
  rowStatus : ∀ status, find.rowStatus = some status -> joined.memo.rowStatus = status
  visibility : find.visibilityList ≠ [] -> joined.memo.visibility ∈ find.visibilityList
  excludeComments : find.excludeComments = true -> joined.parentUid = none

theorem mem_pushField {col : Filter.Column} {field : Option Arg} {value : Arg}
    (set : field = some value) : pushCompare col value ∈ pushField col field := by
  rw [set]
  exact List.mem_singleton.mpr rfl

theorem mem_pushList {col : Filter.Column} {values : List Arg} (nonempty : values ≠ []) :
    pushIn col values ∈ pushList col values := by
  rw [pushList, List.isEmpty_eq_false_iff.mpr nonempty]
  exact List.mem_singleton.mpr rfl

theorem orderTruth_yes {first second : String}
    (holds : (Except.ok (orderTruth .eq (some (compare first second))) : Except SqlError Truth) =
      .ok .yes) : first = second :=
  Std.compare_eq_iff_eq.mp (eq_of_beq (Truth.ofBool_eq_yes.mp (Except.ok.inj holds)))

theorem orderTruth_yes_int {first second : Nat}
    (holds : (Except.ok (orderTruth .eq (some (compare (first : Int) second))) :
      Except SqlError Truth) = .ok .yes) : first = second :=
  Int.ofNat_inj.mp
    (Std.compare_eq_iff_eq.mp (eq_of_beq (Truth.ofBool_eq_yes.mp (Except.ok.inj holds))))

/-- A value that is known to be in a list is that of an element. -/
theorem mem_of_anyEqual {value : α -> SqlValue} {item : α} {list : List α}
    (equal : ∀ other order, compareValues rules .sqlite column false (value item) (value other) = .ok order ->
      orderTruth .eq order = .yes -> item = other)
    (holds : anyEqual rules .sqlite column (value item) (list.map value) = .ok .yes) : item ∈ list := by
  induction list with
  | nil => cases holds
  | cons first rest ih =>
      rcases bind_eq_ok.mp holds with ⟨order, compared, continued⟩
      rcases bind_eq_ok.mp continued with ⟨others, remaining, finished⟩
      have both : (orderTruth .eq order).or others = .yes := pure_eq_ok.mp finished
      cases known : orderTruth .eq order with
      | yes =>
          rw [equal first order compared known]
          exact List.mem_cons_self
      | no | unknown =>
          have othersYes : others = .yes := by
            rw [known] at both
            cases others <;> first | rfl | cases both
          rw [othersYes] at remaining
          exact List.mem_cons_of_mem _ (ih remaining)

theorem eq_of_orderTruth [Ord α] {first second : α} (known : orderTruth .eq (some (compare first second)) = .yes) :
    compare first second = .eq := by
  cases order : compare first second with
  | eq => rfl
  | lt | gt =>
      rw [order] at known
      cases known

/-- Membership of a text in a list of texts under the binary collation. -/
theorem anyEqual_text {text : String} {list : List String}
    (holds : anyEqual rules .sqlite column (.text text) (list.map .text) = .ok .yes) : text ∈ list := by
  refine mem_of_anyEqual ?_ holds
  intro other order compared known
  cases compared
  exact Std.compare_eq_iff_eq.mp (eq_of_orderTruth known)

theorem anyEqual_nat {id : Nat} {list : List Nat} (holds : anyEqual rules .sqlite column (.int id)
      (list.map fun (other : Nat) => .int (other : Int)) = .ok .yes) : id ∈ list := by
  refine @mem_of_anyEqual Nat rules column (fun other => .int (other : Int)) id list ?_ holds
  intro other order compared known
  cases compared
  exact Int.ofNat_inj.mp (Std.compare_eq_iff_eq.mp (eq_of_orderTruth known))

theorem parentUid_eq_none (isNull : (SqlCondition.isNull (.column ⟨"", "parent_uid"⟩) : SqlCondition Arg).eval rules
      .sqlite joined.row = .ok .yes) : joined.parentUid = none := by
  cases parent : joined.parentUid with
  | none => rfl
  | some uid =>
      have value : joined.row ⟨"", "parent_uid"⟩ = .text uid := by
        change optionalText joined.parentUid = .text uid
        rw [parent]
        rfl
      rw [SqlCondition.eval, SqlTerm.eval, value] at isNull
      cases isNull

/-- A row on which the conjunct of every push holds meets the request. -/
theorem FindMemo.meets_of_pushes (holds : ∀ push bound, push ∈ find.pushes -> Pushes push bound ->
      bound.eval rules .sqlite joined.row = .ok .yes) : find.Meets joined := by
  refine ⟨?_, ?_, ?_, ?_, ?_, ?_, ?_⟩
  · intro id set
    have member : pushCompare ⟨"memo", "id"⟩ (.int id) ∈ find.pushes := by
      simp only [FindMemo.pushes, List.mem_append]
      exact .inl (.inl (.inl (.inl (.inl (.inl (.inl (mem_pushField (by rw [set]; rfl))))))))
    exact orderTruth_yes_int (holds _ _ member (pushCompare_pushes _ _))
  · intro nonempty
    have member : pushIn ⟨"memo", "id"⟩ (find.idList.map idArg) ∈ find.pushes := by
      simp only [FindMemo.pushes, List.mem_append]
      exact .inl (.inl (.inl (.inl (.inl (.inl (.inr (mem_pushList (fun empty => nonempty (List.map_eq_nil_iff.mp empty)))))))))
    have listed := holds _ _ member (pushIn_pushes _ _)
    rw [SqlCondition.eval, if_neg (fun both => both.2 rfl), List.map_map] at listed
    exact anyEqual_nat listed
  · intro uid set
    have member : pushCompare ⟨"memo", "uid"⟩ (.string uid) ∈ find.pushes := by
      simp only [FindMemo.pushes, List.mem_append]
      exact .inl (.inl (.inl (.inl (.inl (.inr (mem_pushField (by rw [set]; rfl)))))))
    exact orderTruth_yes (holds _ _ member (pushCompare_pushes _ _))
  · intro id set
    have member : pushCompare ⟨"memo", "creator_id"⟩ (.int id) ∈ find.pushes := by
      simp only [FindMemo.pushes, List.mem_append]
      exact .inl (.inl (.inl (.inr (mem_pushField (by rw [set]; rfl)))))
    exact orderTruth_yes_int (holds _ _ member (pushCompare_pushes _ _))
  · intro status set
    have member : pushCompare ⟨"memo", "row_status"⟩ (.string status.string) ∈ find.pushes := by
      simp only [FindMemo.pushes, List.mem_append]
      exact .inl (.inl (.inr (mem_pushField (by rw [set]; rfl))))
    exact RowStatus.string_injective
      (orderTruth_yes (holds _ _ member (pushCompare_pushes _ _)))
  · intro nonempty
    have member : pushIn ⟨"memo", "visibility"⟩
        (find.visibilityList.map fun value => .string value.string) ∈ find.pushes := by
      simp only [FindMemo.pushes, List.mem_append]
      exact .inl (.inr (mem_pushList (fun empty => nonempty (List.map_eq_nil_iff.mp empty))))
    have listed := holds _ _ member (pushIn_pushes _ _)
    have texts : anyEqual rules .sqlite true (.text joined.memo.visibility.string)
        ((find.visibilityList.map Visibility.string).map .text) = .ok .yes := by
      rw [List.map_map]
      rw [SqlCondition.eval, if_neg (fun both => both.2 rfl), List.map_map] at listed
      exact listed
    rcases List.mem_map.mp (anyEqual_text texts) with ⟨value, inside, same⟩
    rw [← Visibility.string_injective same]
    exact inside
  · intro excludes
    have member : pushIsNull ⟨"", "parent_uid"⟩ ∈ find.pushes := by
      simp only [FindMemo.pushes, List.mem_append, excludes]
      exact .inr (List.mem_singleton.mpr rfl)
    exact parentUid_eq_none (holds _ _ member (pushIsNull_pushes _))

/-- A condition without placeholders takes no arguments. -/
theorem bindAll_plain {bare : SqlCondition Arg} (plain : ∀ args, conjunct.bind args = some (bare, args))
    {conjuncts : List (SqlCondition Placeholder)} {args surplus : List Arg} {bound : List (SqlCondition Arg)}
    (success : bindAll conjuncts args = some (bound, surplus)) (member : conjunct ∈ conjuncts) : bare ∈ bound := by
  induction conjuncts generalizing args bound with
  | nil => exact absurd member List.not_mem_nil
  | cons other rest ih =>
      rcases Option.bind_eq_some_iff.mp success with ⟨⟨first, between⟩, firstBound, continued⟩
      rcases Option.bind_eq_some_iff.mp continued with ⟨⟨others, last⟩, othersBound, finished⟩
      cases finished
      rcases List.mem_cons.mp member with rfl | later
      · rw [plain args] at firstBound
        cases firstBound
        exact List.mem_cons_self
      · exact List.mem_cons_of_mem _ (ih othersBound later)

/-- Whatever is bound to the other conjuncts, a listed memo comes from a row on
which a conjunct without placeholders holds. -/
theorem listMemos_plain {bare : SqlCondition Arg} (plain : ∀ args, conjunct.bind args = some (bare, args))
    (built : whereClause engine now find = .ok clause) (inside : conjunct ∈ clause.conjuncts)
    (success : listMemos engine rules now db find = .ok result) {listed : JoinedMemo} (member : listed ∈ result) :
    Exists fun joined => joined ∈ db.joinedMemos ∧
      joined.memo.id = listed.memo.id ∧ bare.eval rules .sqlite joined.row = .ok .yes := by
  unfold listMemos at success
  rw [built] at success
  simp only [ok_bind] at success
  cases binding : bindAll clause.conjuncts clause.args with
  | none => rw [binding] at success; cases success
  | some both =>
      rcases both with ⟨bound, surplus⟩
      simp only [binding] at success
      cases selection : selectRows rules bound db.joinedMemos with
      | error cause => rw [selection] at success; cases success
      | ok rows =>
          rw [selection] at success
          cases success
          rcases List.mem_map.mp member with ⟨joined, onPage, rfl⟩
          have selected := List.mem_mergeSort.mp (FindMemo.mem_page onPage)
          rcases selectRows_mem selection joined selected with ⟨inTable, truth⟩
          refine ⟨joined, inTable, ?_, conjunctionTruth_yes truth _ (bindAll_plain plain binding inside)⟩
          split <;> rfl

/-- Whatever the filters are, a list without comments comes from rows without
a parent. -/
theorem listMemos_topLevel (excludes : find.excludeComments = true)
    (success : listMemos engine rules now db find = .ok result) {listed : JoinedMemo} (member : listed ∈ result) :
    Exists fun joined => joined ∈ db.joinedMemos ∧
      joined.memo.id = listed.memo.id ∧ joined.parentUid = none := by
  rcases bind_eq_ok.mp success with ⟨clause, built, _⟩
  rcases bind_eq_ok.mp built with ⟨filtered, _, finished⟩
  have isNull : .isNull (.column ⟨"", "parent_uid"⟩) ∈ clause.conjuncts := by
    cases finished
    unfold FindMemo.pushes
    rw [if_pos excludes, List.foldl_append]
    exact List.mem_append_right _ (List.mem_singleton.mpr rfl)
  rcases listMemos_plain (fun _ => rfl) built isNull success member with ⟨joined, inTable, same, holds⟩
  exact ⟨joined, inTable, same, parentUid_eq_none holds⟩

/-- A filter that is constantly false finds nothing. -/
theorem listMemos_never {filter : String} {condition : Condition}
    (compiled : engine.compile now filter = .ok condition) (never : constantValue condition = some false)
    (asked : filter ∈ find.filters) (success : listMemos engine rules now db find = .ok result) :
    result = [] := by
  refine List.eq_nil_iff_forall_not_mem.mpr fun listed member => ?_
  rcases bind_eq_ok.mp success with ⟨clause, built, _⟩
  rcases bind_eq_ok.mp built with ⟨filtered, appended, finished⟩
  rcases (appendConditions_installed appended).2 filter asked with ⟨statement, offset, rendering, inside⟩
  rcases bind_eq_ok.mp rendering with ⟨other, sameCondition, rendered⟩
  rw [compiled] at sameCondition
  cases sameCondition
  have falsum := render_never never rendered
  rw [falsum] at inside
  have kept : .paren .falsum ∈ clause.conjuncts := by
    cases finished
    exact (foldl_pushes find.pushes_allPush filtered).2.1 _ (inside rfl)
  rcases listMemos_plain (fun _ => rfl) built kept success member with ⟨joined, _, _, holds⟩
  cases holds

/-! ## Single memos -/

/-- A condition that is known on every row selects by its truth. -/
theorem selectRows_of_known {keep : JoinedMemo -> Bool} {rows : List JoinedMemo}
    (known : ∀ joined, joined ∈ rows ->
      conjunctionTruth rules joined.row conjuncts = .ok (.ofBool (keep joined))) :
    selectRows rules conjuncts rows = .ok (rows.filter keep) := by
  induction rows with
  | nil => rfl
  | cons row rest ih =>
      have first := known row List.mem_cons_self
      have others := ih fun joined later =>
        known joined (List.mem_cons_of_mem _ later)
      unfold selectRows
      rw [first, others, List.filter_cons]
      cases keep row <;> rfl

/-- Rows of one memo are in order already. -/
theorem FindMemo.before_of_same (find : FindMemo) {first second : JoinedMemo}
    (same : first.memo = second.memo) : find.before first second = true := by
  simp [FindMemo.before, same]

/-- A query that can only find rows of one memo returns the first of them. -/
theorem getMemo_of_known {surplus : List Arg} (keep : JoinedMemo -> Bool)
    (built : whereClause engine now find = .ok clause)
    (bound : bindAll clause.conjuncts clause.args = some (conjuncts, surplus))
    (known : ∀ joined, joined ∈ db.joinedMemos ->
      conjunctionTruth rules joined.row conjuncts = .ok (.ofBool (keep joined)))
    (single : ∀ first second, first ∈ db.joinedMemos -> second ∈ db.joinedMemos ->
      keep first = true -> keep second = true -> first.memo = second.memo) (unlimited : find.limit = none)
    (content : find.excludeContent = false) :
    getMemo engine rules now db find = .ok (db.joinedMemos.find? keep) := by
  have sorted : (db.joinedMemos.filter keep).mergeSort find.before =
      db.joinedMemos.filter keep := by
    apply List.mergeSort_of_pairwise
    apply List.pairwise_of_forall_mem_list
    intro first left second right
    rcases List.mem_filter.mp left with ⟨leftIn, leftKept⟩
    rcases List.mem_filter.mp right with ⟨rightIn, rightKept⟩
    exact find.before_of_same (single first second leftIn rightIn leftKept rightKept)
  rw [getMemo, listMemos_of_rows _ built bound (selectRows_of_known known), sorted,
    FindMemo.page, unlimited, content, ← List.head?_filter]
  simp only [Bool.false_eq_true, if_false, List.map_id']
  rfl

/-- The first joined row of the memo with this uid. -/
def memoByUid (db : Database) (uid : String) : Option JoinedMemo :=
  db.joinedMemos.find? fun joined => joined.memo.uid == uid

/-- The first joined row of the memo with this id. -/
def memoById (db : Database) (id : Nat) : Option JoinedMemo :=
  db.joinedMemos.find? fun joined => joined.memo.id == id

theorem memo_eq_of_uid (keyed : db.Keyed) {first second : JoinedMemo} (left : first ∈ db.joinedMemos)
    (right : second ∈ db.joinedMemos) (same : first.memo.uid = second.memo.uid) : first.memo = second.memo :=
  eq_of_nodup_map keyed.memoUids (Database.mem_joinedMemos left) (Database.mem_joinedMemos right)
    same

theorem memo_eq_of_id (keyed : db.Keyed) {first second : JoinedMemo} (left : first ∈ db.joinedMemos)
    (right : second ∈ db.joinedMemos) (same : first.memo.id = second.memo.id) : first.memo = second.memo :=
  eq_of_nodup_map keyed.memoIds (Database.mem_joinedMemos left) (Database.mem_joinedMemos right)
    same

/-- The query for a uid is a lookup. -/
theorem getMemo_uid (engine : Engine) (rules : TextRules) (now : Int) (keyed : db.Keyed) (uid : String) :
    getMemo engine rules now db { uid := some uid } = .ok (memoByUid db uid) := by
  refine getMemo_of_known (fun joined => joined.memo.uid == uid) rfl rfl ?_ ?_ rfl rfl
  · intro joined _
    have order : (compare joined.memo.uid uid == .eq) = (joined.memo.uid == uid) := by
      rw [Bool.eq_iff_iff, beq_iff_eq, beq_iff_eq, Std.compare_eq_iff_eq]
    change Except.ok (Truth.and .yes (Truth.and
      (.ofBool (compare joined.memo.uid uid == .eq)) .yes)) = _
    rw [order]
    cases joined.memo.uid == uid <;> rfl
  · intro first second left right leftKept rightKept
    exact memo_eq_of_uid keyed left right
      ((eq_of_beq leftKept).trans (eq_of_beq rightKept).symm)

/-- The query for an id is a lookup. -/
theorem getMemo_id (engine : Engine) (rules : TextRules) (now : Int) (keyed : db.Keyed) (id : Nat) :
    getMemo engine rules now db { id := some id } = .ok (memoById db id) := by
  refine getMemo_of_known (fun joined => joined.memo.id == id) rfl rfl ?_ ?_ rfl rfl
  · intro joined _
    have order : (compare (joined.memo.id : Int) id == .eq) = (joined.memo.id == id) := by
      rw [Bool.eq_iff_iff, beq_iff_eq, beq_iff_eq, Std.compare_eq_iff_eq, Int.ofNat_inj]
    change Except.ok (Truth.and .yes (Truth.and
      (.ofBool (compare (joined.memo.id : Int) id == .eq)) .yes)) = _
    rw [order]
    cases joined.memo.id == id <;> rfl
  · intro first second left right leftKept rightKept
    exact memo_eq_of_id keyed left right
      ((eq_of_beq leftKept).trans (eq_of_beq rightKept).symm)

theorem memoByUid_eq_some {uid : String} (found : memoByUid db uid = some joined) :
    joined ∈ db.joinedMemos ∧ joined.memo.uid = uid := by
  have kept := List.find?_some found
  exact ⟨List.mem_of_find?_eq_some found, eq_of_beq kept⟩

theorem memoById_eq_some {id : Nat} (found : memoById db id = some joined) :
    joined ∈ db.joinedMemos ∧ joined.memo.id = id := by
  have kept := List.find?_some found
  exact ⟨List.mem_of_find?_eq_some found, eq_of_beq kept⟩

/-- A stored memo is found by its uid. -/
theorem exists_memoByUid (keyed : db.Keyed) {memo : Memo} (member : memo ∈ db.memos) :
    Exists fun joined => memoByUid db memo.uid = some joined ∧ joined.memo = memo := by
  rcases Database.exists_joinedMemos member with ⟨row, inJoin, same⟩
  cases found : memoByUid db memo.uid with
  | none =>
      have missing := List.find?_eq_none.mp found row inJoin
      rw [same] at missing
      exact absurd (beq_self_eq_true _) missing
  | some joined =>
      rcases memoByUid_eq_some found with ⟨inTable, uid⟩
      refine ⟨joined, rfl, ?_⟩
      rw [← same]
      exact memo_eq_of_uid keyed inTable inJoin (by rw [uid, same])

end Store
end Memos
