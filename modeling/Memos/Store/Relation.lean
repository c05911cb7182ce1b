import Memos.Store.Memo

namespace Memos
namespace Store

open Library Memos.Filter

/-!
# Relations, reactions and attachments of memos

`ListMemoRelations` can restrict both ends of a relation by a memo filter.
The text of the filter stands in the query twice, and so do its arguments.
-/

/-- `FindMemoRelation` -/
structure FindMemoRelation where
  memoId : Option Nat := none
  relatedMemoId : Option Nat := none
  type : Option MemoRelationType := none
  memoIdList : List Nat := []
  sourceMemoIdList : List Nat := []
  relatedMemoIdList : List Nat := []
  memoFilter : Option String := none
  limit : Option Nat := none
  offset : Option Nat := none

/-- The conjuncts on the columns of the relation itself. -/
def FindMemoRelation.selects (find : FindMemoRelation) (relation : MemoRelation) : Bool :=
  find.memoId.all (fun id => relation.memoId = id) &&
  find.relatedMemoId.all (fun id => relation.relatedMemoId = id) &&
  find.type.all (fun type => relation.type = type) &&
  (find.memoIdList.isEmpty || find.memoIdList.contains relation.memoId ||
    find.memoIdList.contains relation.relatedMemoId) &&
  (find.sourceMemoIdList.isEmpty || find.sourceMemoIdList.contains relation.memoId) &&
  (find.relatedMemoIdList.isEmpty || find.relatedMemoIdList.contains relation.relatedMemoId)

/-- `SELECT id FROM memo WHERE ...`, without joins. -/
def selectMemoIds (rules : TextRules) (db : Database) (condition : SqlCondition Arg) :
    Except SqlError (List Nat) :=
  (List.map fun joined => joined.memo.id) <$>
    selectRows rules [condition] (db.memos.map fun memo => ⟨memo, none, none⟩)

/-- The ids of the memos for which a condition is known to hold. -/
theorem selectMemoIds_of_eval {rules : TextRules} {db : Database} {condition : SqlCondition Arg}
    {keep : Memo -> Bool} (known : ∀ joined : JoinedMemo,
      condition.eval rules .sqlite joined.row = .ok (.ofBool (keep joined.memo))) :
    selectMemoIds rules db condition = .ok ((db.memos.filter keep).map Memo.id) := by
  have all : ∀ joined, joined ∈ (db.memos.map fun memo => (⟨memo, none, none⟩ : JoinedMemo)) ->
      conjunctionTruth rules joined.row [condition] = .ok (.ofBool (keep joined.memo)) := by
    intro joined _
    rw [conjunctionTruth, conjunctionTruth, known]
    cases keep joined.memo <;> rfl
  rw [selectMemoIds, selectRows_of_known all]
  simp [List.filter_map, Function.comp_def, List.map_map]

/-- The test that a memo filter makes of the two ends of a relation. -/
def memoFilterTest (engine : Engine) (rules : TextRules) (now : Int) (db : Database)
    (filter : String) : Except String (MemoRelation -> Bool) := do
  let statement ← engine.compileToStatement now filter .sqlite 0
  if statement.sql.isEmpty then return fun _ => true
  else
    match bindAll [statement.sql, statement.sql] (statement.args ++ statement.args) with
    | some ([source, related], _) =>
        match selectMemoIds rules db source, selectMemoIds rules db related with
        | .ok sources, .ok targets =>
            return fun relation =>
              sources.contains relation.memoId && targets.contains relation.relatedMemoId
        | _, _ => .error "SQL logic error"
    | _ => .error "missing argument"

/-- Without a filter every relation passes. -/
def FindMemoRelation.test (find : FindMemoRelation) (engine : Engine) (rules : TextRules)
    (now : Int) (db : Database) : Except String (MemoRelation -> Bool) :=
  match find.memoFilter with
  | none => .ok fun _ => true
  | some filter => memoFilterTest engine rules now db filter

/-- `LIMIT` and `OFFSET` -/
def FindMemoRelation.page (find : FindMemoRelation) (relations : List MemoRelation) :
    List MemoRelation :=
  match find.limit with
  | none => relations
  | some limit => (relations.drop (find.offset.getD 0)).take limit

/-- `ListMemoRelations` of the SQLite driver. -/
def listMemoRelations (engine : Engine) (rules : TextRules) (now : Int) (db : Database)
    (find : FindMemoRelation) : Except String (List MemoRelation) := do
  let test ← find.test engine rules now db
  let relations := db.relations.filter fun relation => find.selects relation && test relation
  return find.page (relations.mergeSort fun first second => second.memoId ≤ first.memoId)

/-- `ListReactions` by content. -/
def listReactions (db : Database) (contentId : String) : List Reaction :=
  db.reactions.filter fun reaction => reaction.contentId = contentId

/-- The limit that `ListAttachments` sets when the request has none. -/
def defaultAttachmentLimit : Nat := 100

/-- `ORDER BY updated_ts DESC` -/
def byUpdatedTs (rows : List Attachment) : List Attachment :=
  rows.mergeSort fun first second => second.updatedTs ≤ first.updatedTs

/-- `ListAttachments` by memo, latest first. -/
def listAttachments (db : Database) (memoId : Nat) : List Attachment :=
  (byUpdatedTs (db.attachments.filter fun attachment => attachment.memoId = some memoId)).take
    defaultAttachmentLimit

/-! ## Filtered relations -/

/-- The two ends of a filtered relation satisfy the text of the filter. -/
theorem memoFilterTest_sound {engine : Engine} {rules : TextRules} {now : Int} {db : Database}
    {filter : String} {statement : Statement} {test : MemoRelation -> Bool}
    (compiled : engine.compileToStatement now filter .sqlite 0 = .ok statement)
    (nonempty : statement.sql.isEmpty = false)
    (literals : statement.sql.params.map Placeholder.literal = statement.args)
    (success : memoFilterTest engine rules now db filter = .ok test)
    {relation : MemoRelation} (passes : test relation = true) (id : Nat)
    (isEnd : id = relation.memoId ∨ id = relation.relatedMemoId) :
    Exists fun memo => memo ∈ db.memos ∧ memo.id = id ∧
      (statement.sql.map Placeholder.literal).eval rules .sqlite
        (JoinedMemo.row ⟨memo, none, none⟩) = .ok .yes := by
  have bound : bindAll [statement.sql, statement.sql] (statement.args ++ statement.args) =
      some ([statement.sql.map Placeholder.literal, statement.sql.map Placeholder.literal], []) := by
    have both := bindAll_literals [statement.sql, statement.sql] []
    simp only [List.flatMap_cons, List.flatMap_nil, List.append_nil, List.map_append, literals,
      List.map_cons, List.map_nil] at both
    exact both
  rcases bind_eq_ok.mp success with ⟨other, sameStatement, tested⟩
  rw [compiled] at sameStatement
  cases sameStatement
  simp only [nonempty, Bool.false_eq_true, if_false, bound] at tested
  cases selected : selectMemoIds rules db (statement.sql.map Placeholder.literal) with
  | error cause => rw [selected] at tested; cases tested
  | ok ids =>
      rw [selected] at tested
      cases tested
      rcases (Bool.and_eq_true _ _).mp passes with ⟨source, target⟩
      have inIds : id ∈ ids := by
        rcases isEnd with rfl | rfl
        · exact List.contains_iff_mem.mp source
        · exact List.contains_iff_mem.mp target
      rcases map_eq_ok.mp selected with ⟨rows, selection, rfl⟩
      rcases List.mem_map.mp inIds with ⟨joined, inRows, sameId⟩
      rcases selectRows_mem selection joined inRows with ⟨inTable, truth⟩
      rcases List.mem_map.mp inTable with ⟨memo, stored, rfl⟩
      exact ⟨memo, stored, sameId,
        conjunctionTruth_yes truth _ (List.mem_singleton.mpr rfl)⟩

theorem FindMemoRelation.mem_page {find : FindMemoRelation} {relations : List MemoRelation}
    {relation : MemoRelation} (member : relation ∈ find.page relations) : relation ∈ relations := by
  unfold FindMemoRelation.page at member
  split at member
  · exact member
  · exact List.mem_of_mem_drop (List.mem_of_mem_take member)

/-- A listed relation is stored, is selected, and passes the test of the
filter. -/
theorem listMemoRelations_sound {engine : Engine} {rules : TextRules} {now : Int}
    {db : Database} {find : FindMemoRelation} {filter : String} {result : List MemoRelation}
    (filtered : find.memoFilter = some filter)
    (success : listMemoRelations engine rules now db find = .ok result) :
    Exists fun test => memoFilterTest engine rules now db filter = .ok test ∧
      ∀ relation, relation ∈ result ->
        relation ∈ db.relations ∧ find.selects relation = true ∧ test relation = true := by
  rcases bind_eq_ok.mp success with ⟨test, tested, finished⟩
  rw [FindMemoRelation.test, filtered] at tested
  cases finished
  refine ⟨test, tested, ?_⟩
  intro relation member
  rcases List.mem_filter.mp (List.mem_mergeSort.mp (FindMemoRelation.mem_page member)) with
    ⟨stored, both⟩
  exact ⟨stored, (Bool.and_eq_true _ _).mp both⟩

end Store
end Memos
