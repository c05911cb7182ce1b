import Memos.Library.Except
import Memos.Filter.Engine

namespace Memos
namespace Filter

open Library

/-!
# What a leaf of the condition tree records

Every leaf of a condition tree extends the argument list by some values and
produces a text whose placeholders are exactly the ones handed out for these
values, in order.  `Recorded` states this for one rendering step.  It also
says when a leaf records nothing, since this decides whether constant folding
can discard the leaf without consequence.
-/

variable {π : Type}

/-- The spelling of the placeholder with this number. -/
def markerAt (dialect : DialectName) (number : Nat) : Marker :=
  match dialect with
  | .postgres => .dollar number
  | _ => .question

/-- The placeholders that consecutive calls of `addArg` with these values
return, after the first `start` calls. -/
def placeholdersFrom (dialect : DialectName) (offset start : Nat) : List Arg -> List Placeholder
  | [] => []
  | value :: rest =>
      ⟨start + 1, value, markerAt dialect (offset + (start + 1))⟩ ::
        placeholdersFrom dialect offset (start + 1) rest

theorem placeholdersFrom_append (dialect : DialectName) (offset start : Nat) (first second : List Arg) :
    placeholdersFrom dialect offset start (first ++ second) =
      placeholdersFrom dialect offset start first ++
        placeholdersFrom dialect offset (start + first.length) second := by
  induction first generalizing start with
  | nil => rfl
  | cons value rest ih =>
      rw [List.cons_append, placeholdersFrom, placeholdersFrom, ih,
        List.length_cons, Nat.add_assoc, Nat.add_comm 1]
      rfl

@[simp] theorem length_placeholdersFrom (dialect : DialectName) (offset start : Nat)
    (values : List Arg) :
    (placeholdersFrom dialect offset start values).length = values.length := by
  induction values generalizing start with
  | nil => rfl
  | cons value rest ih =>
      rw [placeholdersFrom, List.length_cons, ih, List.length_cons]

theorem placeholdersFrom_getElem (dialect : DialectName) (offset start : Nat)
    (values : List Arg) (position : Nat) :
    (placeholdersFrom dialect offset start values)[position]? =
      values[position]?.map fun value =>
        ⟨start + position + 1, value, markerAt dialect (offset + (start + position + 1))⟩ := by
  induction values generalizing start position with
  | nil => rfl
  | cons value rest ih =>
      cases position with
      | zero => rfl
      | succ earlier =>
          rw [placeholdersFrom, List.getElem?_cons_succ, List.getElem?_cons_succ,
            ih, Nat.add_assoc start 1, Nat.add_comm 1 earlier]

/-- The literals behind the placeholders are the recorded values. -/
theorem placeholdersFrom_literal (dialect : DialectName) (offset start : Nat) (values : List Arg) :
    (placeholdersFrom dialect offset start values).map Placeholder.literal = values := by
  induction values generalizing start with
  | nil => rfl
  | cons value rest ih =>
      exact congrArg (List.cons value) (ih (start + 1))

namespace Renderer

/-- The renderer after recording these values. -/
def advance (r : Renderer) (values : List Arg) : Renderer :=
  { r with
    placeholderCounter := r.placeholderCounter + values.length
    args := r.args ++ values }

/-- The placeholders of the next calls of `addArg` with these values. -/
def emitted (r : Renderer) (values : List Arg) : List Placeholder :=
  placeholdersFrom r.dialect r.placeholderOffset r.placeholderCounter values

theorem advance_nil (r : Renderer) : r.advance [] = r := by
  simp only [advance, List.length_nil, Nat.add_zero, List.append_nil]

theorem advance_append (r : Renderer) (first second : List Arg) :
    r.advance (first ++ second) = (r.advance first).advance second := by
  simp only [advance, List.length_append, List.append_assoc, Nat.add_assoc]

@[simp] theorem advance_schema (r : Renderer) (values : List Arg) :
    (r.advance values).schema = r.schema := rfl

@[simp] theorem advance_dialect (r : Renderer) (values : List Arg) :
    (r.advance values).dialect = r.dialect := rfl

theorem emitted_append (r : Renderer) (first second : List Arg) :
    r.emitted (first ++ second) = r.emitted first ++ (r.advance first).emitted second :=
  placeholdersFrom_append _ _ _ _ _

@[simp] theorem length_emitted (r : Renderer) (values : List Arg) :
    (r.emitted values).length = values.length :=
  length_placeholdersFrom _ _ _ _

/-- The placeholder of the next call of `addArg`. -/
def nextPlaceholder (r : Renderer) (value : Arg) : Placeholder :=
  ⟨r.placeholderCounter + 1, value,
    markerAt r.dialect (r.placeholderOffset + (r.placeholderCounter + 1))⟩

theorem addArg_eq (r : Renderer) (value : Arg) :
    r.addArg value = (r.nextPlaceholder value, r.advance [value]) := by
  cases r with
  | mk schema dialect offset counter args => cases dialect <;> rfl

/-- The value that `addBoolArg` records. -/
def boolArg (dialect : DialectName) (value : Bool) : Arg :=
  match dialect with
  | .sqlite => .int (if value then 1 else 0)
  | _ => .bool value

theorem addBoolArg_eq (r : Renderer) (value : Bool) :
    r.addBoolArg value = r.addArg (boolArg r.dialect value) := by
  unfold addBoolArg boolArg
  cases r.dialect <;> rfl

end Renderer

/-- One rendering step: it extended the renderer by `values`, and the text it
produced holds the placeholders of these values from left to right. -/
structure Recorded (r : Renderer) (sql : SqlCondition Placeholder) (after : Renderer)
    (values : List Arg) : Prop where
  after_eq : after = r.advance values
  params_eq : sql.params = r.emitted values

namespace Recorded

/-- A text without placeholders that left the renderer alone. -/
theorem none {r : Renderer} {sql : SqlCondition Placeholder} (empty : sql.params = []) :
    Recorded r sql r [] :=
  ⟨r.advance_nil.symm, empty⟩

/-- A text with the placeholder of the next argument. -/
theorem single {r : Renderer} {sql : SqlCondition Placeholder} {value : Arg}
    (only : sql.params = [r.nextPlaceholder value]) :
    Recorded r sql (r.advance [value]) [value] :=
  ⟨rfl, only⟩

/-- Two steps whose texts are joined in the order of the steps. -/
theorem join {r middle after : Renderer} {left right both : SqlCondition Placeholder}
    {first second : List Arg} (one : Recorded r left middle first)
    (two : Recorded middle right after second) (joined : both.params = left.params ++ right.params) :
    Recorded r both after (first ++ second) := by
  refine ⟨?_, ?_⟩
  · rw [two.after_eq, one.after_eq, Renderer.advance_append]
  · rw [joined, one.params_eq, two.params_eq, one.after_eq, Renderer.emitted_append]

/-- Only the placeholders of a text matter. -/
theorem congr {r after : Renderer} {sql other : SqlCondition Placeholder} {values : List Arg}
    (step : Recorded r sql after values) (same : other.params = sql.params) :
    Recorded r other after values :=
  ⟨step.after_eq, same.trans step.params_eq⟩

end Recorded

/-! ## Expressions without placeholders -/

@[simp] theorem Field.columnExpr_params (field : Field) (dialect : DialectName) :
    (field.columnExpr dialect : SqlTerm π).params = [] := by
  unfold Field.columnExpr
  cases field.expressions dialect <;> rfl

@[simp] theorem jsonArrayExpr_params (dialect : DialectName) (field : Field) :
    (jsonArrayExpr dialect field : SqlTerm π).params = [] := by
  cases dialect <;> rfl

@[simp] theorem jsonArrayLengthExpr_params (dialect : DialectName) (field : Field) :
    (jsonArrayLengthExpr dialect field : SqlTerm π).params = [] := by
  cases dialect <;> rfl

/-! ## Which leaves record an argument -/

/-- Whether a comparison of this field records an argument: a payload flag
is compared in the text itself, except on Postgres, and `null` always is. -/
def fieldRecords (dialect : DialectName) (field : Field) (right : ValueExpr) : Bool :=
  match field.kind with
  | .jsonBool => dialect == .postgres
  | .scalar =>
      match right with
      | .literalValue .null => false
      | _ => true
  | _ => true

/-- Whether rendering a condition records an argument anywhere below it. -/
def recordsArgument (schema : Schema) (dialect : DialectName) : Condition -> Bool
  | .logical _ left right =>
      recordsArgument schema dialect left || recordsArgument schema dialect right
  | .not expr => recordsArgument schema dialect expr
  | .fieldPredicate _ => false
  | .comparison (.fieldRef name) _ right =>
      match schema.field name with
      | some field => fieldRecords dialect field right
      | none => true
  | .comparison _ _ _ => true
  | .inList _ values => !values.isEmpty
  | .elementIn _ _ => true
  | .contains _ _ => true
  | .listComprehension _ _ _ _ => true
  | .constant _ => false

namespace Renderer

/-- What rendering a leaf guarantees. -/
structure LeafRecorded (r : Renderer) (result : RenderResult) (after : Renderer)
    (records : Bool) (values : List Arg) : Prop where
  recorded : Recorded r result.sql after values
  not_trivial : result.trivial = false
  not_unsatisfiable : result.unsatisfiable = false
  nonempty : result.sql.isEmpty = false
  records_eq : records = !values.isEmpty

variable {r after : Renderer} {result : RenderResult}

variable {name : String} {field : Field} {op : ComparisonOperator} {right : ValueExpr} {values : List ValueExpr}

theorem renderFieldPredicate_recorded (success : r.renderFieldPredicate name = .ok (result, after)) :
    LeafRecorded r result after false [] := by
  unfold renderFieldPredicate at success
  cases declared : r.schema.field name with
  | none => rw [declared] at success; cases success
  | some field =>
      rw [declared] at success
      cases kind : field.kind <;> simp only [kind] at success <;> cases success
      · exact ⟨.none rfl, rfl, rfl, rfl, rfl⟩
      · refine ⟨.none ?_, rfl, rfl, ?_, rfl⟩ <;> cases r.dialect <;> rfl

theorem renderBoolColumnComparison_recorded
    (success : r.renderBoolColumnComparison field op right = .ok (result, after)) :
    Exists fun value => LeafRecorded r result after true [value] := by
  rcases bind_eq_ok.mp success with ⟨value, _, success⟩
  rw [addBoolArg_eq, addArg_eq] at success
  cases success
  exact ⟨_, .single rfl, rfl, rfl, rfl, rfl⟩

theorem renderJSONBoolComparison_recorded (success : r.renderJSONBoolComparison field op right = .ok (result, after)) :
    Exists fun values => LeafRecorded r result after (r.dialect == .postgres) values := by
  rcases bind_eq_ok.mp success with ⟨value, _, success⟩
  cases dialect : r.dialect with
  | sqlite =>
      simp only [dialect] at success
      cases op <;> simp only [pure, Except.pure] at success <;> try cases success
      all_goals
        refine ⟨[], ?_⟩
        split at success
        · cases success
          exact ⟨.none rfl, rfl, rfl, rfl, rfl⟩
        · split at success <;> cases success <;> exact ⟨.none rfl, rfl, rfl, rfl, rfl⟩
  | mysql =>
      simp only [dialect] at success
      cases success
      exact ⟨[], .none rfl, rfl, rfl, rfl, rfl⟩
  | postgres =>
      simp only [dialect, addArg_eq] at success
      cases success
      exact ⟨[.bool value], .single rfl, rfl, rfl, rfl, rfl⟩

theorem renderScalarComparison_recorded (kind : field.kind = .scalar)
    (success : r.renderScalarComparison field op right = .ok (result, after)) :
    Exists fun values =>
      LeafRecorded r result after (fieldRecords r.dialect field right) values := by
  rcases bind_eq_ok.mp success with ⟨literal, literalOf, continued⟩
  clear success
  have shape : right = .literalValue literal := by
    cases right with
    | literalValue value => exact congrArg _ (Except.ok.inj literalOf)
    | fieldRef _ | functionValue _ _ => cases literalOf
  subst shape
  by_cases null : literal = .null
  · subst null
    rcases bind_eq_ok.mp continued with ⟨rendered, nullOf, finished⟩
    cases finished
    refine ⟨[], ?_⟩
    cases op <;> cases nullOf
    all_goals
      refine ⟨.none ?_, rfl, rfl, rfl, ?_⟩
      · exact Field.columnExpr_params _ _
      · simp only [fieldRecords, kind, List.isEmpty_nil, Bool.not_true]
  · have recorded : (scalarArg field literal >>= fun value =>
        (pure ({ sql := .compare op (field.columnExpr r.dialect) (.param (r.addArg value).1) },
          (r.addArg value).2) : Except String (RenderResult × Renderer))) =
            .ok (result, after) := by
      cases literal with
      | null => exact absurd rfl null
      | bool value | int value | double value | string value => exact continued
    rcases bind_eq_ok.mp recorded with ⟨value, _, finished⟩
    rw [addArg_eq] at finished
    cases finished
    refine ⟨[value], .single ?_, rfl, rfl, rfl, ?_⟩
    · simp only [SqlCondition.params, Field.columnExpr_params, SqlTerm.params, List.nil_append]
    · cases literal with
      | null => exact absurd rfl null
      | bool value | int value | double value | string value =>
          simp only [fieldRecords, kind, List.isEmpty_cons, Bool.not_false]

theorem renderFunctionComparison_recorded {args : List ValueExpr}
    (success : r.renderFunctionComparison name args op right = .ok (result, after)) :
    Exists fun value => LeafRecorded r result after true [value] := by
  unfold renderFunctionComparison at success
  split at success
  case isFalse => cases success
  split at success
  · split at success
    · cases success
    · split at success
      case isFalse => cases success
      rcases bind_eq_ok.mp success with ⟨value, _, finished⟩
      rw [addArg_eq] at finished
      cases finished
      refine ⟨_, .single ?_, rfl, rfl, rfl, rfl⟩
      simp only [SqlCondition.params, jsonArrayLengthExpr_params, SqlTerm.params,
        List.nil_append]
  · cases success
  · cases success

theorem renderComparison_recorded {left right : ValueExpr}
    (success : r.renderComparison left op right = .ok (result, after)) :
    Exists fun values => LeafRecorded r result after
      (recordsArgument r.schema r.dialect (.comparison left op right)) values := by
  cases left with
  | literalValue value => cases success
  | functionValue name args =>
      rcases renderFunctionComparison_recorded success with ⟨value, recorded⟩
      exact ⟨_, recorded⟩
  | fieldRef name =>
      cases declared : r.schema.field name with
      | none => simp only [renderComparison, declared] at success; cases success
      | some field =>
          simp only [renderComparison, declared] at success
          simp only [recordsArgument, declared]
          cases kind : field.kind with
          | boolColumn =>
              simp only [kind] at success
              rcases renderBoolColumnComparison_recorded success with ⟨value, recorded⟩
              simp only [fieldRecords, kind]
              exact ⟨_, recorded⟩
          | jsonBool =>
              simp only [kind] at success
              simp only [fieldRecords, kind]
              exact renderJSONBoolComparison_recorded success
          | scalar =>
              simp only [kind] at success
              exact renderScalarComparison_recorded kind success
          | jsonList | virtualAlias => simp only [kind] at success; cases success

/-! ## Lists of values -/

/-- Every value of an `IN` list records one argument. -/
theorem addScalarArgs_recorded {placeholders : List Placeholder}
    (success : r.addScalarArgs field values = .ok (placeholders, after)) :
    Exists fun recorded : List Arg =>
      after = r.advance recorded ∧ placeholders = r.emitted recorded ∧
        recorded.length = values.length := by
  induction values generalizing r placeholders with
  | nil =>
      cases success
      exact ⟨[], (advance_nil _).symm, rfl, rfl⟩
  | cons value rest ih =>
      rcases bind_eq_ok.mp success with ⟨literal, _, typed⟩
      rcases bind_eq_ok.mp typed with ⟨arg, _, added⟩
      rw [addArg_eq] at added
      rcases bind_eq_ok.mp added with ⟨⟨others, final⟩, tail, finished⟩
      cases finished
      rcases ih tail with ⟨recorded, afterEq, othersEq, lengths⟩
      refine ⟨[arg] ++ recorded, ?_, ?_, ?_⟩
      · rw [afterEq, advance_append]
      · rw [othersEq, emitted_append]
        rfl
      · rw [List.length_append, lengths, List.length_cons]
        exact Nat.add_comm _ _

theorem renderScalarInCondition_recorded (success : r.renderScalarInCondition field values = .ok (result, after)) :
    Exists fun recorded : List Arg =>
      LeafRecorded r result after (!values.isEmpty) recorded := by
  rcases bind_eq_ok.mp success with ⟨⟨placeholders, final⟩, added, finished⟩
  cases finished
  rcases addScalarArgs_recorded added with ⟨recorded, afterEq, placeholdersEq, lengths⟩
  refine ⟨recorded, ⟨afterEq, ?_⟩, rfl, rfl, rfl, ?_⟩
  · simp only [SqlCondition.params, Field.columnExpr_params, List.nil_append, placeholdersEq]
  · cases values <;> cases recorded <;> first | rfl | cases lengths

theorem renderExactTag_recorded (r : Renderer) (field : Field) (text : String) :
    Exists fun value : Arg =>
      Recorded r (r.renderExactTag field text).1 (r.renderExactTag field text).2 [value] := by
  unfold renderExactTag
  cases dialect : r.dialect <;>
  · simp only [addArg_eq]
    exact ⟨_, .single (by simp [SqlCondition.params, SqlTerm.params])⟩

theorem renderExactTag_isEmpty (r : Renderer) (field : Field) (text : String) :
    (r.renderExactTag field text).1.isEmpty = false := by
  unfold renderExactTag
  cases r.dialect <;> rfl

theorem buildJSONArrayLike_recorded (r : Renderer) {arrayExpr : SqlTerm Placeholder}
    (plain : arrayExpr.params = []) (pattern : String) :
    Recorded r (r.buildJSONArrayLike arrayExpr pattern).1
      (r.buildJSONArrayLike arrayExpr pattern).2 [.string pattern] := by
  unfold buildJSONArrayLike
  cases dialect : r.dialect <;>
  · simp only [addArg_eq, advance_dialect, dialect]
    exact .single (by simp [SqlCondition.params, SqlTerm.params, plain])

/-- Each listed tag records its exact pattern and its hierarchy pattern. -/
theorem renderTagConditions_recorded {conditions : List (SqlCondition Placeholder)}
    (success : r.renderTagConditions field values = .ok (conditions, after)) :
    Exists fun recorded : List Arg =>
      after = r.advance recorded ∧
        conditions.flatMap SqlCondition.params = r.emitted recorded ∧
        recorded.isEmpty = values.isEmpty ∧
        ∀ condition, condition ∈ conditions -> condition.isEmpty = false := by
  induction values generalizing r conditions with
  | nil =>
      cases success
      exact ⟨[], (advance_nil _).symm, rfl, rfl, fun _ impossible => by cases impossible⟩
  | cons value rest ih =>
      rcases bind_eq_ok.mp success with ⟨literal, _, typed⟩
      cases literal with
      | null | bool _ | int _ | double _ => cases typed
      | string text =>
          rcases renderExactTag_recorded r field text with ⟨exactArg, exactly⟩
          cases exactTag : r.renderExactTag field text with
          | mk exactMatch middle =>
          rw [exactTag] at exactly
          have below := buildJSONArrayLike_recorded middle
            (jsonArrayExpr_params middle.dialect field) (hierarchyPattern text)
          cases hierarchy : middle.buildJSONArrayLike (jsonArrayExpr middle.dialect field)
              (hierarchyPattern text) with
          | mk prefixMatch later =>
          rw [hierarchy] at below
          have both : Recorded r (.paren (.or exactMatch prefixMatch)) later
              ([exactArg] ++ [.string (hierarchyPattern text)]) :=
            exactly.join below rfl
          simp only [exactTag, hierarchy] at typed
          rcases bind_eq_ok.mp typed with ⟨⟨others, final⟩, tail, finished⟩
          cases finished
          rcases ih tail with ⟨recorded, afterEq, othersEq, _, nonempty⟩
          refine ⟨[exactArg] ++ [.string (hierarchyPattern text)] ++ recorded, ?_, ?_, rfl, ?_⟩
          · rw [afterEq, both.after_eq]
            exact (advance_append _ _ _).symm
          · rw [List.flatMap_cons, both.params_eq, othersEq, both.after_eq]
            exact (emitted_append _ _ _).symm
          · intro condition member
            rcases List.mem_cons.mp member with rfl | later
            · rfl
            · exact nonempty condition later

theorem joinOr_params (conditions : List (SqlCondition π)) :
    (joinOr conditions).params = conditions.flatMap SqlCondition.params := by
  induction conditions with
  | nil => rfl
  | cons condition rest ih =>
      cases rest with
      | nil => simp only [joinOr, List.flatMap_cons, List.flatMap_nil, List.append_nil]
      | cons next others =>
          simp only [joinOr, SqlCondition.params, ih, List.flatMap_cons]

theorem renderTagInList_recorded (success : r.renderTagInList values = .ok (result, after)) :
    Exists fun recorded : List Arg =>
      LeafRecorded r result after (!values.isEmpty) recorded := by
  unfold renderTagInList at success
  split at success
  · cases success
  · rename_i field _
    rcases bind_eq_ok.mp success with ⟨⟨conditions, final⟩, rendered, finished⟩
    rcases renderTagConditions_recorded rendered with ⟨recorded, afterEq, paramsEq, empty, proper⟩
    have joined : result.sql.params = conditions.flatMap SqlCondition.params ∧
        result.trivial = false ∧ result.unsatisfiable = false ∧
        result.sql.isEmpty = false ∧ final = after := by
      cases conditions with
      | nil => cases finished; exact ⟨rfl, rfl, rfl, rfl, rfl⟩
      | cons first rest =>
          cases rest with
          | nil =>
              cases finished
              refine ⟨?_, rfl, rfl, proper first (List.mem_singleton.mpr rfl), rfl⟩
              simp only [List.flatMap_cons, List.flatMap_nil, List.append_nil]
          | cons next others =>
              cases finished
              exact ⟨joinOr_params _, rfl, rfl, rfl, rfl⟩
    rcases joined with ⟨sqlParams, notTrivial, notUnsatisfiable, nonempty, sameRenderer⟩
    refine ⟨recorded, ⟨sameRenderer ▸ afterEq, sqlParams.trans paramsEq⟩, notTrivial,
      notUnsatisfiable, nonempty, ?_⟩
    rw [empty]

theorem renderInCondition_recorded {left : ValueExpr}
    (success : r.renderInCondition left values = .ok (result, after)) :
    Exists fun recorded : List Arg => LeafRecorded r result after (!values.isEmpty) recorded := by
  cases left with
  | literalValue _ | functionValue _ _ => cases success
  | fieldRef name =>
      unfold renderInCondition at success
      dsimp only at success
      split at success
      · exact renderTagInList_recorded success
      · split at success
        · cases success
        · split at success
          · exact renderScalarInCondition_recorded success
          · cases success

/-! ## Text and tag lists -/

theorem renderElementInCondition_recorded {element : ValueExpr}
    (success : r.renderElementInCondition element name = .ok (result, after)) :
    Exists fun value : Arg => LeafRecorded r result after true [value] := by
  unfold renderElementInCondition at success
  split at success
  · cases success
  · split at success
    case isFalse => cases success
    rcases bind_eq_ok.mp success with ⟨literal, _, typed⟩
    cases literal with
    | null | bool _ | int _ | double _ => cases typed
    | string text =>
        rcases renderExactTag_recorded r ‹Field› text with ⟨value, recorded⟩
        cases typed
        exact ⟨value, recorded, rfl, rfl, renderExactTag_isEmpty r _ text, rfl⟩

theorem renderContainsCondition_recorded {name value : String}
    (success : r.renderContainsCondition name value = .ok (result, after)) :
    Exists fun value : Arg => LeafRecorded r result after true [value] := by
  unfold renderContainsCondition at success
  split at success
  · cases success
  · refine ⟨.string ("%" ++ value ++ "%"), ?_⟩
    cases dialect : r.dialect <;>
    · simp only [addArg_eq, advance_dialect, dialect] at success
      cases success
      refine ⟨.single ?_, rfl, rfl, rfl, rfl⟩
      simp [SqlCondition.params, SqlTerm.params]

theorem wrapWithNullCheck_params (r : Renderer) {arrayExpr : SqlTerm Placeholder}
    (plain : arrayExpr.params = []) (condition : SqlCondition Placeholder) :
    (r.wrapWithNullCheck arrayExpr condition).params = condition.params := by
  unfold wrapWithNullCheck
  cases r.dialect <;>
    simp only [SqlCondition.params, SqlTerm.params, plain, List.append_nil]

theorem renderListedTag_recorded (r : Renderer) (field : Field) (text : String) :
    Exists fun value : Arg =>
      Recorded r (r.renderListedTag field text).1 (r.renderListedTag field text).2 [value] := by
  unfold renderListedTag
  cases r.dialect with
  | postgres => exact renderExactTag_recorded r field text
  | sqlite | mysql => exact ⟨_, buildJSONArrayLike_recorded r (jsonArrayExpr_params _ field) _⟩

theorem renderTagEquals_recorded (r : Renderer) (field : Field) (value : String) :
    Exists fun arg : Arg =>
      Recorded r (r.renderTagEquals field value).1 (r.renderTagEquals field value).2 [arg] := by
  rcases renderListedTag_recorded r field value with ⟨arg, exactly⟩
  exact ⟨arg, exactly.congr (wrapWithNullCheck_params _ (jsonArrayExpr_params _ field) _)⟩

theorem renderTagStartsWith_recorded (r : Renderer) (field : Field) (pre : String) :
    Exists fun arg : Arg =>
      Recorded r (r.renderTagStartsWith field pre).1 (r.renderTagStartsWith field pre).2
        ([arg] ++ [.string ("%\"" ++ pre ++ "%")]) := by
  rcases renderListedTag_recorded r field pre with ⟨arg, exactly⟩
  have below := buildJSONArrayLike_recorded (r.renderListedTag field pre).2
    (jsonArrayExpr_params r.dialect field) ("%\"" ++ pre ++ "%")
  exact ⟨arg, exactly.join below (wrapWithNullCheck_params _ (jsonArrayExpr_params _ field) _)⟩

/-- The two remaining predicates are one pattern under the null check. -/
theorem wrappedLike_recorded (r : Renderer) (field : Field) (pattern : String) :
    let likeExpr := r.buildJSONArrayLike (jsonArrayExpr r.dialect field) pattern
    Recorded r (likeExpr.2.wrapWithNullCheck (jsonArrayExpr r.dialect field) likeExpr.1)
      likeExpr.2 [.string pattern] :=
  (buildJSONArrayLike_recorded r (jsonArrayExpr_params _ field) pattern).congr
    (wrapWithNullCheck_params _ (jsonArrayExpr_params _ field) _)

theorem renderListComprehension_recorded {predicate : PredicateExpr}
    (success : r.renderListComprehension name predicate = .ok (result, after)) :
    Exists fun recorded : List Arg => LeafRecorded r result after true recorded := by
  unfold renderListComprehension at success
  split at success
  · cases success
  · rename_i field _
    split at success
    case isFalse => cases success
    cases success
    cases predicate with
    | equals value =>
        rcases renderTagEquals_recorded r field value with ⟨arg, step⟩
        exact ⟨_, step, rfl, rfl, rfl, rfl⟩
    | startsWith pre =>
        rcases renderTagStartsWith_recorded r field pre with ⟨arg, step⟩
        exact ⟨_, step, rfl, rfl, rfl, rfl⟩
    | endsWith suffix =>
        exact ⟨_, wrappedLike_recorded r field ("%" ++ suffix ++ "\"%"), rfl, rfl, rfl, rfl⟩
    | contains substring =>
        exact ⟨_, wrappedLike_recorded r field ("%" ++ substring ++ "%"), rfl, rfl, rfl, rfl⟩

end Renderer

end Filter
end Memos
