import Mathlib.Data.List.Forall2
import Memos.Filter.Alignment
import Memos.Filter.SqlText

namespace Memos
namespace Filter
namespace OperatorTree

open Library Independence SqlText

/-!
# The operator tree of a rendered filter

Read as SQL, the text of a filter has the operator tree of its condition,
without the parts that constant folding removes, and every operand is a
comparison or stands in parentheses.  The exception is an empty list: the
renderer puts its parentheses around nothing, which no dialect reads after a
tag and only SQLite after `IN`.
-/

variable {π : Type}

/-! ## Operator trees -/

/-- One pair of comparisons for each tag of a list. -/
inductive TagPairs {α : Type} : Operators α -> Nat -> Prop where
  | one (complete below : α) : TagPairs (.or (.atom complete) (.atom below)) 1
  | more {tree : Operators α} {count : Nat} (complete below : α) :
      TagPairs tree count -> TagPairs (.or tree (.or (.atom complete) (.atom below))) (count + 1)

/-- The operator tree is the condition tree, without the parts that a constant
decides.  A tag list is a disjunction, a comprehension excludes the missing
list, and only SQLite's test that a boolean flag is false has a `NOT` of its
own. -/
inductive Mirrors {α : Type} : Operators α -> Condition -> Prop where
  | unsatisfiable {condition : Condition} (value : α) :
      constantValue condition = some false -> Mirrors (.atom value) condition
  | and {left right : Operators α} {leftCondition rightCondition : Condition} :
      constantValue leftCondition = none -> constantValue rightCondition = none ->
        Mirrors left leftCondition -> Mirrors right rightCondition ->
          Mirrors (.and left right) (.logical .and leftCondition rightCondition)
  | or {left right : Operators α} {leftCondition rightCondition : Condition} :
      constantValue leftCondition = none -> constantValue rightCondition = none ->
        Mirrors left leftCondition -> Mirrors right rightCondition ->
          Mirrors (.or left right) (.logical .or leftCondition rightCondition)
  | onlyLeft (operator : LogicalOperator) {tree : Operators α} {left right : Condition} :
      constantValue left = none -> constantValue right = some (!absorbing operator) ->
        Mirrors tree left -> Mirrors tree (.logical operator left right)
  | onlyRight (operator : LogicalOperator) {tree : Operators α} {left right : Condition} :
      constantValue left = some (!absorbing operator) -> constantValue right = none ->
        Mirrors tree right -> Mirrors tree (.logical operator left right)
  | not {tree : Operators α} {expr : Condition} :
      constantValue expr = none -> Mirrors tree expr -> Mirrors (.not tree) (.not expr)
  | fieldPredicate (value : α) (field : String) : Mirrors (.atom value) (.fieldPredicate field)
  | comparison (value : α) (left right : ValueExpr) (operator : ComparisonOperator) :
      Mirrors (.atom value) (.comparison left operator right)
  | falseFlag (value : α) (field : String) (operator : ComparisonOperator) (flag : Bool) :
      operator = (if flag then .neq else .eq) ->
        Mirrors (.not (.atom value)) (.comparison (.fieldRef field) operator (.literalValue (.bool flag)))
  | scalarList (value : α) (name : String) (values : List ValueExpr) :
      name ≠ "tag" -> Mirrors (.atom value) (.inList (.fieldRef name) values)
  | tagList {tree : Operators α} {values : List ValueExpr} :
      TagPairs tree values.length -> Mirrors tree (.inList (.fieldRef "tag") values)
  | elementIn (value : α) (element : ValueExpr) (field : String) :
      Mirrors (.atom value) (.elementIn element field)
  | contains (value : α) (field text : String) : Mirrors (.atom value) (.contains field text)
  | comprehension (value present nonempty : α) (kind : ComprehensionKind)
      (field iterVar : String) (predicate : PredicateExpr) :
      Mirrors (.and (.and (.atom value) (.atom present)) (.atom nonempty))
        (.listComprehension kind field iterVar predicate)
  | startsWith (complete begins present nonempty : α) (kind : ComprehensionKind)
      (field iterVar pre : String) :
      Mirrors (.and (.and (.or (.atom complete) (.atom begins)) (.atom present)) (.atom nonempty))
        (.listComprehension kind field iterVar (.startsWith pre))

/-- Every list that reaches the text has an element, or SQLite takes the empty
one as it takes the empty list of a scalar. -/
def filledLists (dialect : DialectName) : Condition -> Bool
  | .logical operator left right =>
      (constantValue (.logical operator left right)).isSome ||
        (filledLists dialect left && filledLists dialect right)
  | .not expr => filledLists dialect expr
  | .inList (.fieldRef name) values => !values.isEmpty || (name != "tag" && dialect == .sqlite)
  | _ => true

/-! ## Leaves -/

/-- The fragment renders the condition. -/
def Renders (dialect : DialectName) (sql : SqlCondition π) (condition : Condition) : Prop :=
  Exists fun tree => Formed dialect sql tree ∧ Mirrors tree condition

/-- The column expressions of the schema belong to their dialects. -/
def Fits (schema : Schema) : Prop :=
  ∀ name field, schema.field name = some field -> ∀ dialect format,
    field.expressions dialect = some format -> availableExpression dialect format = true

theorem fits_of_fields {schema : Schema}
    (fields : ∀ entry, entry ∈ schema.fields -> entry.2.expressions = (fun _ => none) ∨
      entry.2.expressions = timestampExpressions ∨ entry.2.expressions = creatorExpressions) :
    Fits schema := by
  intro name field found dialect format isFormat
  have member : (name, field) ∈ schema.fields := by
    rcases List.lookup_eq_some_iff.mp found with ⟨before, later, split, _⟩
    rw [split]
    exact List.mem_append_right before List.mem_cons_self
  rcases fields _ member with same | same | same
  · rw [same] at isFormat
    cases isFormat
  all_goals
    rw [same] at isFormat
    cases dialect <;> cases isFormat <;> rfl

theorem newSchema_fits : Fits newSchema := by
  refine fits_of_fields ?_
  simp [newSchema, jsonBoolField]

theorem newAttachmentSchema_fits : Fits newAttachmentSchema := by
  refine fits_of_fields ?_
  simp [newAttachmentSchema]

section Terms

variable (dialect : DialectName) (field : Field)

theorem available_columnExpr {schema : Schema} (fits : Fits schema) {name : String}
    (found : schema.field name = some field) :
    available dialect (field.columnExpr dialect : SqlTerm π) = true := by
  unfold Field.columnExpr
  cases isFormat : field.expressions dialect with
  | none => rfl
  | some format =>
      change (availableExpression dialect format && true) = true
      rw [fits name field found dialect format isFormat]
      rfl

theorem available_jsonArrayExpr :
    available dialect (jsonArrayExpr dialect field : SqlTerm π) = true := by
  cases dialect <;> rfl

theorem available_jsonArrayLengthExpr :
    available dialect (jsonArrayLengthExpr dialect field : SqlTerm π) = true := by
  cases dialect <;> rfl

end Terms

section Leaves

variable {r after : Renderer} {result : RenderResult} {field : Field} {op : ComparisonOperator}
  {left right : ValueExpr}

variable {name : String} {dialect : DialectName} {values : List ValueExpr}

theorem renderFieldPredicate_renders (success : r.renderFieldPredicate name = .ok (result, after)) :
    Renders r.dialect result.sql (.fieldPredicate name) := by
  unfold Renderer.renderFieldPredicate at success
  cases found : r.schema.field name with
  | none => rw [found] at success; cases success
  | some field =>
      rw [found] at success
      dsimp only at success
      cases kind : field.kind <;> rw [kind] at success <;> cases success
      · exact ⟨_, formed_comparison rfl rfl, .fieldPredicate _ name⟩
      · refine ⟨_, formed_comparison ?_ ?_, .fieldPredicate _ name⟩
        · cases r.dialect <;> rfl
        · cases r.dialect <;> rfl

/-- A term compared with the placeholder of an argument. -/
theorem compare_renders {term : SqlTerm Placeholder} (known : available dialect term = true)
    (placeholder : Placeholder) :
    Renders dialect (.compare op term (.param placeholder)) (.comparison left op right) :=
  ⟨_, formed_comparison rfl (by simp [comparison, known, available]), .comparison _ left right op⟩

theorem renderBoolColumnComparison_renders
    (success : r.renderBoolColumnComparison field op right = .ok (result, after)) :
    Renders r.dialect result.sql (.comparison left op right) := by
  rcases bind_eq_ok.mp success with ⟨value, _, finished⟩
  cases finished
  exact compare_renders rfl _

theorem expectBool_eq_ok {expr : ValueExpr} {value : Bool} (success : expectBool expr = .ok value) :
    expr = .literalValue (.bool value) := by
  cases expr with
  | literalValue literal => cases literal <;> cases success; rfl
  | fieldRef _ | functionValue _ _ => cases success

theorem renderJSONBoolComparison_renders
    (success : r.renderJSONBoolComparison field op right = .ok (result, after)) :
    Renders r.dialect result.sql (.comparison (.fieldRef name) op right) := by
  rcases bind_eq_ok.mp success with ⟨flag, literal, finished⟩
  cases expectBool_eq_ok literal
  have atom {sql : SqlCondition Placeholder} (formed : Formed r.dialect sql (.atom sql)) :
      Renders r.dialect sql (.comparison (.fieldRef name) op (.literalValue (.bool flag))) :=
    ⟨_, formed, .comparison _ _ _ op⟩
  cases dialect : r.dialect with
  | sqlite =>
      rw [dialect] at atom
      simp only [dialect] at finished
      have refuted (negated : op = (if flag then .neq else .eq)) : Renders .sqlite
          (.notIsTrue (jsonExtractExpr .sqlite field) : SqlCondition Placeholder)
          (.comparison (.fieldRef name) op (.literalValue (.bool flag))) :=
        ⟨_, formed_notIsTrue rfl, .falseFlag _ name op flag negated⟩
      cases op with
      | eq =>
          dsimp only at finished
          split at finished
          · cases finished
            exact atom (formed_comparison rfl rfl)
          · cases flag <;> cases finished
            · exact refuted rfl
            · exact atom (formed_comparison rfl rfl)
      | neq =>
          dsimp only at finished
          split at finished
          · cases finished
            exact atom (formed_comparison rfl rfl)
          · cases flag <;> cases finished
            · exact atom (formed_comparison rfl rfl)
            · exact refuted rfl
      | lt | lte | gt | gte => cases finished
  | mysql =>
      rw [dialect] at atom
      simp only [dialect] at finished
      cases finished
      exact atom (formed_comparison rfl rfl)
  | postgres =>
      simp only [dialect] at finished
      cases finished
      exact compare_renders rfl _

theorem renderScalarComparison_renders (fits : Fits r.schema) (found : r.schema.field name = some field)
    (success : r.renderScalarComparison field op right = .ok (result, after)) :
    Renders r.dialect result.sql (.comparison left op right) := by
  rcases bind_eq_ok.mp success with ⟨literal, _, finished⟩
  have known := @available_columnExpr Placeholder r.dialect field _ fits name found
  have compared : ∀ literal, (Renderer.scalarArg field literal >>= fun value =>
      (pure ({ sql := .compare op (field.columnExpr r.dialect) (.param (r.addArg value).1) },
        (r.addArg value).2) : Except String (RenderResult × Renderer))) = .ok (result, after) ->
      Renders r.dialect result.sql (.comparison left op right) := by
    intro literal finished
    rcases bind_eq_ok.mp finished with ⟨value, _, finished⟩
    cases finished
    exact compare_renders known _
  cases literal with
  | null =>
      rcases bind_eq_ok.mp finished with ⟨result, tested, finished⟩
      cases finished
      cases op <;> cases tested <;>
        exact ⟨_, formed_comparison rfl known, .comparison _ left right _⟩
  | bool value | int value | double value | string value => exact compared _ finished

theorem renderFunctionComparison_renders {args : List ValueExpr}
    (success : r.renderFunctionComparison name args op right = .ok (result, after)) :
    Renders r.dialect result.sql (.comparison left op right) := by
  unfold Renderer.renderFunctionComparison at success
  split at success
  case isFalse => cases success
  split at success
  case h_1 fieldName =>
    cases found : r.schema.field fieldName with
    | none => rw [found] at success; cases success
    | some field =>
        rw [found] at success
        dsimp only at success
        split at success
        case isFalse => cases success
        rcases bind_eq_ok.mp success with ⟨value, _, finished⟩
        cases finished
        exact compare_renders (available_jsonArrayLengthExpr _ field) _
  case h_2 => cases success
  case h_3 => cases success

theorem renderComparison_renders (fits : Fits r.schema)
    (success : r.renderComparison left op right = .ok (result, after)) :
    Renders r.dialect result.sql (.comparison left op right) := by
  cases left with
  | literalValue value => cases success
  | functionValue name args => exact renderFunctionComparison_renders success
  | fieldRef name =>
      unfold Renderer.renderComparison at success
      dsimp only at success
      cases found : r.schema.field name with
      | none => rw [found] at success; cases success
      | some field =>
          rw [found] at success
          dsimp only at success
          cases kind : field.kind <;> rw [kind] at success
          case scalar => exact renderScalarComparison_renders fits found success
          case boolColumn => exact renderBoolColumnComparison_renders success
          case jsonBool => exact renderJSONBoolComparison_renders success
          case jsonList | virtualAlias => cases success

/-! ### Tags -/

theorem renderExactTag_formed (value : String) : Exists fun atom =>
    Formed r.dialect (r.renderExactTag field value).1 (.atom atom) ∧
      (r.renderExactTag field value).2.dialect = r.dialect := by
  unfold Renderer.renderExactTag
  cases dialect : r.dialect <;> refine ⟨_, formed_comparison rfl rfl, ?_⟩ <;> exact dialect

theorem buildJSONArrayLike_formed {arrayExpr : SqlTerm Placeholder} (pattern : String) (same : r.dialect = dialect)
    (known : available dialect arrayExpr = true) :
    Exists fun atom => Formed dialect (r.buildJSONArrayLike arrayExpr pattern).1 (.atom atom) ∧
      (r.buildJSONArrayLike arrayExpr pattern).2.dialect = dialect := by
  have kept : (r.addArg (.string pattern)).2.dialect = dialect := same
  unfold Renderer.buildJSONArrayLike
  dsimp only
  rw [kept]
  cases dialect <;> refine ⟨_, formed_comparison rfl ?_, same⟩ <;>
    simp [comparison, available, known]

/-- A pair of comparisons in parentheses. -/
def FormedPair (dialect : DialectName) (sql : SqlCondition π)
    (tree : Operators (SqlCondition π)) : Prop :=
  Formed dialect sql tree ∧ Exists fun complete => Exists fun below =>
    tree = .or (.atom complete) (.atom below)

theorem renderTagConditions_formed {conditions : List (SqlCondition Placeholder)}
    (success : r.renderTagConditions field values = .ok (conditions, after)) :
    conditions.length = values.length ∧ Exists fun trees =>
      List.Forall₂ (FormedPair r.dialect) conditions trees := by
  induction values generalizing r conditions with
  | nil =>
      cases success
      exact ⟨rfl, [], .nil⟩
  | cons value rest ih =>
      rcases bind_eq_ok.mp success with ⟨literal, _, tagged⟩
      cases literal with
      | null | bool _ | int _ | double _ => cases tagged
      | string text =>
          rcases @renderExactTag_formed r field text with ⟨exactly, formedExact, sameExact⟩
          have known : available r.dialect (jsonArrayExpr (r.renderExactTag field text).2.dialect
              field : SqlTerm Placeholder) = true := by
            rw [sameExact]
            exact available_jsonArrayExpr r.dialect field
          rcases buildJSONArrayLike_formed (Renderer.hierarchyPattern text) sameExact known with
            ⟨below, formedBelow, sameBelow⟩
          rcases bind_eq_ok.mp tagged with ⟨⟨others, last⟩, continued, finished⟩
          cases finished
          rcases ih continued with ⟨length, trees, formed⟩
          have formedRest : List.Forall₂ (FormedPair r.dialect) others trees := by
            rw [← sameBelow]
            exact formed
          refine ⟨congrArg (· + 1) length, .or (.atom exactly) (.atom below) :: trees, ?_⟩
          exact .cons ⟨formed_or formedExact formedBelow, exactly, below, rfl⟩ formedRest

theorem lexemes_joinOr (conditions : List (SqlCondition Placeholder)) :
    lexemes (joinOr conditions) = separate (conditions.map lexemes) := by
  induction conditions with
  | nil => rfl
  | cons condition rest ih =>
      cases rest with
      | nil => rfl
      | cons next others =>
          change lexemes condition ++ _ ++ lexemes (joinOr (next :: others)) = _
          rw [ih]
          rfl

theorem comparisons_joinOr {conditions : List (SqlCondition Placeholder)}
    {trees : List (Operators (SqlCondition Placeholder))}
    (formed : List.Forall₂ (FormedPair dialect) conditions trees) (value : SqlCondition Placeholder)
    (member : .atom value ∈ lexemes (joinOr conditions)) :
    comparison dialect value = true := by
  induction formed with
  | nil => cases member
  | cons first rest ih =>
      cases rest with
      | nil => exact first.1.comparisons value member
      | cons _ _ =>
          simp only [joinOr, lexemes, List.mem_append, List.mem_cons, reduceCtorEq,
            List.not_mem_nil, or_false] at member
          exact member.elim (first.1.comparisons value) ih

theorem tagPairs_foldl {conditions : List (SqlCondition π)} {tree : Operators (SqlCondition π)}
    {trees : List (Operators (SqlCondition π))} {count : Nat} (pairs : TagPairs tree count)
    (formed : List.Forall₂ (FormedPair dialect) conditions trees) :
    TagPairs (trees.foldl .or tree) (count + conditions.length) := by
  induction formed generalizing tree count with
  | nil => exact pairs
  | @cons _ _ rest _ first _ ih =>
      rcases first with ⟨_, complete, below, rfl⟩
      have further := ih (.more complete below pairs)
      rw [Nat.add_assoc, Nat.add_comm 1] at further
      exact further

theorem renderTagInList_renders (filled : values ≠ []) (success : r.renderTagInList values = .ok (result, after)) :
    Renders r.dialect result.sql (.inList (.fieldRef "tag") values) := by
  unfold Renderer.renderTagInList at success
  cases resolved : r.schema.resolveAlias "tag" with
  | none => rw [resolved] at success; cases success
  | some field =>
      rw [resolved] at success
      rcases bind_eq_ok.mp success with ⟨⟨conditions, last⟩, rendered, finished⟩
      rcases renderTagConditions_formed rendered with ⟨length, trees, formed⟩
      cases formed with
      | nil =>
          cases values with
          | nil => exact absurd rfl filled
          | cons _ _ => cases length
      | @cons condition tree others trees first rest =>
          rcases first with ⟨formedFirst, complete, below, rfl⟩
          have pairs : TagPairs (trees.foldl .or (.or (.atom complete) (.atom below))) values.length := by
            rw [← length, List.length_cons, Nat.add_comm]
            exact tagPairs_foldl (.one complete below) rest
          have operands : List.Forall₂ Operand (others.map lexemes) trees := by
            rw [List.forall₂_map_left_iff]
            exact rest.imp fun _ _ pair => pair.1.operand
          have read : parse (lexemes (joinOr (condition :: others))) =
              some (trees.foldl .or (.or (.atom complete) (.atom below))) := by
            rw [lexemes_joinOr]
            exact parse_separate formedFirst.operand operands
          have known := comparisons_joinOr (.cons ⟨formedFirst, complete, below, rfl⟩ rest)
          cases rest with
          | nil =>
              cases finished
              exact ⟨_, formedFirst, .tagList pairs⟩
          | cons _ _ =>
              cases finished
              exact ⟨_, formed_paren read known, .tagList pairs⟩

theorem renderElementInCondition_renders {element : ValueExpr}
    (success : r.renderElementInCondition element name = .ok (result, after)) :
    Renders r.dialect result.sql (.elementIn element name) := by
  unfold Renderer.renderElementInCondition at success
  cases found : r.schema.field name with
  | none => rw [found] at success; cases success
  | some field =>
      rw [found] at success
      dsimp only at success
      split at success
      case isFalse => cases success
      rcases bind_eq_ok.mp success with ⟨literal, _, tagged⟩
      cases literal with
      | null | bool _ | int _ | double _ => cases tagged
      | string text =>
          rcases @renderExactTag_formed r field text with ⟨atom, formed, _⟩
          cases tagged
          exact ⟨_, formed, .elementIn atom element name⟩

theorem renderListedTag_formed (value : String) : Exists fun atom =>
    Formed r.dialect (r.renderListedTag field value).1 (.atom atom) ∧
      (r.renderListedTag field value).2.dialect = r.dialect := by
  have known := @available_jsonArrayExpr Placeholder r.dialect field
  unfold Renderer.renderListedTag
  split
  · exact renderExactTag_formed value
  · exact buildJSONArrayLike_formed (Renderer.exactPattern value) rfl known

/-- The check around a comprehension takes its condition as one operand. -/
theorem wrapWithNullCheck_formed {sql : SqlCondition Placeholder} {tree : Operators (SqlCondition Placeholder)}
    (same : r.dialect = dialect) (formed : Formed dialect sql tree) : Exists fun present => Exists fun nonempty =>
      Formed dialect (r.wrapWithNullCheck (jsonArrayExpr dialect field) sql)
        (.and (.and tree (.atom present)) (.atom nonempty)) := by
  have known := @available_jsonArrayExpr Placeholder dialect field
  have present : Formed dialect (.isNotNull (jsonArrayExpr dialect field)) _ :=
    formed_comparison rfl known
  unfold Renderer.wrapWithNullCheck
  rw [same]
  cases dialect <;> exact ⟨_, _, formed_and_and formed present (formed_comparison rfl rfl)⟩

theorem renderListComprehension_renders {kind : ComprehensionKind} {name iterVar : String}
    {predicate : PredicateExpr} (success : r.renderListComprehension name predicate = .ok (result, after)) :
    Renders r.dialect result.sql (.listComprehension kind name iterVar predicate) := by
  unfold Renderer.renderListComprehension at success
  cases found : r.schema.field name with
  | none => rw [found] at success; cases success
  | some field =>
      rw [found] at success
      dsimp only at success
      split at success
      case isFalse => cases success
      have known := @available_jsonArrayExpr Placeholder r.dialect field
      have wrapped : ∀ {r' : Renderer} {sql : SqlCondition Placeholder}
          {atom : SqlCondition Placeholder}, r'.dialect = r.dialect ->
          Formed r.dialect sql (.atom atom) ->
          Renders r.dialect (r'.wrapWithNullCheck (jsonArrayExpr r.dialect field) sql)
            (.listComprehension kind name iterVar predicate) := by
        intro r' sql atom same formed
        rcases @wrapWithNullCheck_formed r' field _ _ _ same formed with ⟨present, nonempty, formed⟩
        exact ⟨_, formed, .comprehension atom present nonempty kind name iterVar predicate⟩
      cases predicate with
      | equals value =>
          rcases @renderListedTag_formed r field value with ⟨atom, formed, same⟩
          cases success
          exact wrapped same formed
      | endsWith suffix =>
          rcases buildJSONArrayLike_formed ("%" ++ suffix ++ "\"%") rfl known with
            ⟨atom, formed, same⟩
          cases success
          exact wrapped same formed
      | contains substring =>
          rcases buildJSONArrayLike_formed ("%" ++ substring ++ "%") rfl known with
            ⟨atom, formed, same⟩
          cases success
          exact wrapped same formed
      | startsWith pre =>
          rcases @renderListedTag_formed r field pre with ⟨complete, formed, same⟩
          rcases buildJSONArrayLike_formed ("%\"" ++ pre ++ "%") same known with
            ⟨begins, formedLike, sameLike⟩
          cases success
          rcases @wrapWithNullCheck_formed _ field _ _ _ sameLike (formed_or formed formedLike) with
            ⟨present, nonempty, formed⟩
          exact ⟨_, formed, .startsWith complete begins present nonempty kind name iterVar pre⟩

/-! ### Scalars -/

theorem renderContainsCondition_renders (fits : Fits r.schema) {name value : String}
    (success : r.renderContainsCondition name value = .ok (result, after)) :
    Renders r.dialect result.sql (.contains name value) := by
  unfold Renderer.renderContainsCondition at success
  cases found : r.schema.field name with
  | none => rw [found] at success; cases success
  | some field =>
      have known := @available_columnExpr Placeholder r.dialect field _ fits name found
      rw [found] at success
      dsimp only at success
      have kept : (r.addArg (.string ("%" ++ value ++ "%"))).2.dialect = r.dialect := rfl
      rw [kept] at success
      cases dialect : r.dialect <;> rw [dialect] at known success <;> cases success <;>
        exact ⟨_, formed_comparison rfl (by
          simp [comparison, available, availableFunction, known]), .contains _ name value⟩

theorem addScalarArgs_length {placeholders : List Placeholder}
    (success : r.addScalarArgs field values = .ok (placeholders, after)) :
    placeholders.length = values.length := by
  induction values generalizing r placeholders with
  | nil => cases success; rfl
  | cons value rest ih =>
      rcases bind_eq_ok.mp success with ⟨literal, _, scalar⟩
      rcases bind_eq_ok.mp scalar with ⟨arg, _, continued⟩
      rcases bind_eq_ok.mp continued with ⟨⟨others, last⟩, recursive, finished⟩
      cases finished
      exact congrArg (· + 1) (ih recursive)

theorem renderScalarInCondition_eq (success : r.renderScalarInCondition field values = .ok (result, after)) :
    Exists fun placeholders => result.sql = .inList (field.columnExpr r.dialect) placeholders ∧
      placeholders.length = values.length := by
  rcases bind_eq_ok.mp success with ⟨⟨placeholders, last⟩, added, finished⟩
  cases finished
  exact ⟨placeholders, rfl, addScalarArgs_length added⟩

end Leaves

/-! ## Trees -/

/-- The text has no reading, or contains what is no comparison. -/
def Broken (dialect : DialectName) (sql : SqlCondition π) : Prop :=
  [Lexeme.opening, .closing] <:+: lexemes sql ∨
    Exists fun value => .atom value ∈ lexemes sql ∧ comparison dialect value = false

variable {dialect : DialectName}

/-- A broken part breaks the whole. -/
theorem Broken.within {part whole : SqlCondition π} (broken : Broken dialect part)
    (inside : lexemes part <:+: lexemes whole) :
    Broken dialect whole := by
  rcases broken with nothing | ⟨value, member, unknown⟩
  · exact .inl (nothing.trans inside)
  · exact .inr ⟨value, inside.subset member, unknown⟩

/-- What has a reading of its own is not broken. -/
theorem not_broken {sql : SqlCondition π} {tree : Operators (SqlCondition π)} (read : parse (lexemes sql) = some tree)
    (known : ∀ value, .atom value ∈ lexemes sql -> comparison dialect value = true) :
    ¬ Broken dialect sql := by
  rintro (nothing | ⟨value, member, unknown⟩)
  · rw [parse_of_nothing nothing] at read
    cases read
  · rw [known value member] at unknown
    cases unknown

/-- A rendered text is one operand exactly when its lists are filled. -/
structure Fragment (dialect : DialectName) (sql : SqlCondition π) (condition : Condition) :
    Prop where
  renders : filledLists dialect condition = true -> Renders dialect sql condition
  broken : filledLists dialect condition = false -> Broken dialect sql

theorem Renders.fragment {sql : SqlCondition π} {condition : Condition} (renders : Renders dialect sql condition)
    (filled : filledLists dialect condition = true) :
    Fragment dialect sql condition :=
  ⟨fun _ => renders, fun unfilled => by rw [filled] at unfilled; cases unfilled⟩

section Trees

variable {r after : Renderer} {result : RenderResult}

theorem renderInCondition_fragment (fits : Fits r.schema) {left : ValueExpr}
    {values : List ValueExpr} (success : r.renderInCondition left values = .ok (result, after)) :
    Fragment r.dialect result.sql (.inList left values) := by
  cases left with
  | literalValue _ | functionValue _ _ => cases success
  | fieldRef name =>
      unfold Renderer.renderInCondition at success
      dsimp only at success
      split at success
      case isTrue isTag =>
        rw [isTag]
        cases values with
        | cons value rest =>
            exact (renderTagInList_renders (List.cons_ne_nil value rest) success).fragment rfl
        | nil =>
            refine ⟨fun filled => (by cases filled), fun _ => .inl ?_⟩
            unfold Renderer.renderTagInList at success
            cases resolved : r.schema.resolveAlias "tag" with
            | none => rw [resolved] at success; cases success
            | some field =>
                rw [resolved] at success
                cases success
                exact List.infix_rfl
      case isFalse notTag =>
        cases found : r.schema.field name with
        | none => rw [found] at success; cases success
        | some field =>
            rw [found] at success
            dsimp only at success
            split at success
            case isFalse => cases success
            rcases renderScalarInCondition_eq success with ⟨placeholders, isList, length⟩
            have known := @available_columnExpr Placeholder r.dialect field _ fits name found
            have sameEmpty : placeholders.isEmpty = values.isEmpty := by
              cases placeholders <;> cases values <;> first | rfl | cases length
            have accepted : comparison r.dialect result.sql =
                filledLists r.dialect (.inList (.fieldRef name) values) := by
              rw [isList]
              simp only [comparison, filledLists, known, sameEmpty, Bool.true_and]
              rw [bne_iff_ne.mpr notTag, Bool.true_and, Bool.or_comm]
            have single : lexemes result.sql = [.atom result.sql] := by
              rw [isList]
              rfl
            refine ⟨fun filled => ?_, fun unfilled => .inr ⟨result.sql, ?_, accepted.trans unfilled⟩⟩
            · exact ⟨_, formed_comparison single (accepted.trans filled), .scalarList _ name values notTag⟩
            · rw [single]
              exact List.mem_singleton_self _

open RenderResult

/-- The text of a connective whose operands both have one. -/
def connected : LogicalOperator -> SqlCondition π -> SqlCondition π -> SqlCondition π
  | .and, left, right => .paren (.and left right)
  | .or, left, right => .paren (.or left right)

theorem combine_open (operator : LogicalOperator) {left right : RenderResult}
    (leftFolded : left.Folded none) (rightFolded : right.Folded none) :
    (combine operator left right).sql = connected operator left.sql right.sql := by
  rcases leftFolded.flags with ⟨leftTrivial, leftUnsatisfiable⟩
  rcases rightFolded.flags with ⟨rightTrivial, rightUnsatisfiable⟩
  cases operator <;>
    simp [combine, combineAnd, combineOr, leftTrivial, leftUnsatisfiable, rightTrivial,
      rightUnsatisfiable, connected]

theorem connected_fragment {dialect : DialectName} (operator : LogicalOperator)
    {leftSql rightSql : SqlCondition π} {left right : Condition}
    (proper : constantValue (.logical operator left right) = none)
    (leftProper : constantValue left = none) (rightProper : constantValue right = none)
    (leftFragment : Fragment dialect leftSql left) (rightFragment : Fragment dialect rightSql right) :
    Fragment dialect (connected operator leftSql rightSql) (.logical operator left right) := by
  refine ⟨fun filled => ?_, fun unfilled => ?_⟩
  · rw [filledLists, proper, Option.isSome_none, Bool.false_or, Bool.and_eq_true] at filled
    rcases leftFragment.renders filled.1 with ⟨leftTree, leftFormed, leftMirrors⟩
    rcases rightFragment.renders filled.2 with ⟨rightTree, rightFormed, rightMirrors⟩
    cases operator with
    | and => exact ⟨_, formed_and leftFormed rightFormed, .and leftProper rightProper leftMirrors rightMirrors⟩
    | or => exact ⟨_, formed_or leftFormed rightFormed, .or leftProper rightProper leftMirrors rightMirrors⟩
  · rw [filledLists, proper, Option.isSome_none, Bool.false_or, Bool.and_eq_false_iff] at unfilled
    rcases unfilled with unfilled | unfilled
    · refine (leftFragment.broken unfilled).within ?_
      cases operator
      · exact ⟨[.opening], [.blank, .and, .blank] ++ lexemes rightSql ++ [.closing],
          by simp [connected, lexemes]⟩
      · exact ⟨[.opening], [.blank, .or, .blank] ++ lexemes rightSql ++ [.closing],
          by simp [connected, lexemes]⟩
    · refine (rightFragment.broken unfilled).within ?_
      cases operator
      · exact ⟨[.opening] ++ lexemes leftSql ++ [.blank, .and, .blank], [.closing],
          by simp [connected, lexemes]⟩
      · exact ⟨[.opening] ++ lexemes leftSql ++ [.blank, .or, .blank], [.closing],
          by simp [connected, lexemes]⟩

theorem filledLists_of_constant {dialect : DialectName} {condition : Condition} {value : Bool}
    (folds : constantValue condition = some value) : filledLists dialect condition = true := by
  induction condition generalizing value with
  | logical operator left right =>
      rw [filledLists, folds]
      rfl
  | not expr ih =>
      rcases Option.map_eq_some_iff.mp folds with ⟨inner, isInner, _⟩
      exact ih isInner
  | inList left values => cases folds
  | _ => rfl

/-- The operand that a constant next to it leaves alone. -/
theorem Fragment.only {dialect : DialectName} {sql : SqlCondition π} {part whole : Condition}
    (fragment : Fragment dialect sql part) (same : filledLists dialect whole = filledLists dialect part)
    (mirrors : ∀ tree : Operators (SqlCondition π), Mirrors tree part -> Mirrors tree whole) :
    Fragment dialect sql whole := by
  refine ⟨fun filled => ?_, fun unfilled => fragment.broken (same ▸ unfilled)⟩
  rw [same] at filled
  rcases fragment.renders filled with ⟨tree, formed, mirrored⟩
  exact ⟨tree, formed, mirrors tree mirrored⟩

theorem renderCondition_fragment {condition : Condition} (fits : Fits r.schema)
    (success : r.renderCondition condition = .ok (result, after))
    (proper : constantValue condition = none) : Fragment r.dialect result.sql condition := by
  induction condition generalizing r result after with
  | logical operator left right leftHypothesis rightHypothesis =>
      rcases bind_eq_ok.mp success with ⟨⟨leftResult, middle⟩, leftSuccess, continued⟩
      rcases bind_eq_ok.mp continued with ⟨⟨rightResult, last⟩, rightSuccess, finished⟩
      rcases renderCondition_recorded leftSuccess with ⟨first, leftTree⟩
      rcases renderCondition_recorded rightSuccess with ⟨second, rightTree⟩
      have isCombined : result = combine operator leftResult rightResult := by
        cases operator <;> cases finished <;> rfl
      have sameSchema : middle.schema = r.schema := by rw [leftTree.after_eq]; rfl
      have sameDialect : middle.dialect = r.dialect := by rw [leftTree.after_eq]; rfl
      have leftFragment := leftHypothesis fits leftSuccess
      have rightFragment := rightHypothesis (sameSchema ▸ fits) rightSuccess
      rw [sameDialect] at rightFragment
      have folds := proper
      unfold constantValue at folds
      split at folds
      case isTrue => cases folds
      case isFalse kept =>
        rcases not_or.mp kept with ⟨leftKept, rightKept⟩
        rw [isCombined]
        rcases combine_kept operator leftTree.folded rightTree.folded leftKept rightKept with
          ⟨leftNeutral, combined⟩ | ⟨leftProper, rightNeutral, combined⟩ |
            ⟨leftProper, rightProper, _⟩
        · rw [if_pos leftNeutral] at folds
          rw [combined]
          refine (rightFragment folds).only ?_ fun tree => .onlyRight operator leftNeutral folds
          rw [filledLists, proper, filledLists_of_constant leftNeutral]
          rfl
        · rw [combined]
          refine (leftFragment leftProper).only ?_ fun tree =>
            .onlyLeft operator leftProper rightNeutral
          rw [filledLists, proper, filledLists_of_constant rightNeutral, Bool.and_true]
          rfl
        · have leftFolded := leftTree.folded
          have rightFolded := rightTree.folded
          rw [leftProper] at leftFolded
          rw [rightProper] at rightFolded
          rw [combine_open operator leftFolded rightFolded]
          exact connected_fragment operator proper leftProper rightProper (leftFragment leftProper)
            (rightFragment rightProper)
  | not expr ih =>
      rcases bind_eq_ok.mp success with ⟨⟨child, last⟩, childSuccess, finished⟩
      rcases renderCondition_recorded childSuccess with ⟨values, childTree⟩
      have childProper : constantValue expr = none := Option.map_eq_none_iff.mp proper
      rcases childTree.folded.flags with ⟨trivial, unsatisfiable⟩
      rw [childProper] at trivial unsatisfiable
      have isNegated : result.sql = .not child.sql := by
        cases finished
        simp [combineNot, trivial, unsatisfiable]
      have fragment := ih fits childSuccess childProper
      rw [isNegated]
      refine ⟨fun filled => ?_, fun unfilled => ?_⟩
      · rcases fragment.renders filled with ⟨tree, formed, mirrors⟩
        exact ⟨.not tree, formed.not, .not childProper mirrors⟩
      · exact (fragment.broken unfilled).within
          ⟨[.not, .blank, .opening], [.closing], by simp [lexemes]⟩
  | constant value => cases proper
  | fieldPredicate field => exact (renderFieldPredicate_renders success).fragment rfl
  | comparison left operator right => exact (renderComparison_renders fits success).fragment rfl
  | inList left values => exact renderInCondition_fragment fits success
  | elementIn element field => exact (renderElementInCondition_renders success).fragment rfl
  | contains field text => exact (renderContainsCondition_renders fits success).fragment rfl
  | listComprehension kind field iterVar predicate =>
      exact (renderListComprehension_renders success).fragment rfl

end Trees

/-! ## Statements -/

/-- The text has one reading as a boolean expression of the dialect, its
operator tree is the condition tree, and in parentheses it is one operand of
whatever surrounds it. -/
structure WellFormed (dialect : DialectName) (condition : Condition) (sql : SqlCondition π)
    (tree : Operators (SqlCondition π)) : Prop where
  read : parse (lexemes sql) = some tree
  comparisons : ∀ value, .atom value ∈ lexemes sql -> comparison dialect value = true
  mirrors : Mirrors tree condition
  embedded : Operand ([.opening] ++ lexemes sql ++ [.closing]) tree

/-- The text is empty or well-formed. -/
def Valid (dialect : DialectName) (condition : Condition) (sql : SqlCondition π) : Prop :=
  sql = .empty ∨ Exists fun tree => WellFormed dialect condition sql tree

theorem wellFormed_of_formed {sql : SqlCondition π} {condition : Condition} {tree : Operators (SqlCondition π)}
    (formed : Formed dialect sql tree) (mirrors : Mirrors tree condition) : WellFormed dialect condition sql tree :=
  ⟨formed.operand.parse, formed.comparisons, mirrors, operand_paren formed.operand.parse⟩

section Statements

variable {schema : Schema} {dialect : DialectName} {offset : Nat} {condition : Condition}
  {statement : Statement}

theorem render_fragment (fits : Fits schema) (proper : constantValue condition = none)
    (success : (Renderer.new schema dialect offset).render condition = .ok statement) :
    Fragment dialect statement.sql condition := by
  rcases render_eq_ok success with ⟨result, after, rendered, _, isSql⟩
  rcases renderCondition_recorded rendered with ⟨values, tree⟩
  rcases tree.folded.flags with ⟨trivial, unsatisfiable⟩
  rw [proper] at trivial unsatisfiable
  have same : statement.sql = result.sql := by
    rw [isSql, trivial, unsatisfiable]
    rfl
  rw [same]
  exact @renderCondition_fragment (Renderer.new schema dialect offset) after result condition fits
    rendered proper

theorem valid_of_filledLists (fits : Fits schema)
    (success : (Renderer.new schema dialect offset).render condition = .ok statement)
    (filled : filledLists dialect condition = true) : Valid dialect condition statement.sql := by
  cases folds : constantValue condition with
  | none =>
      rcases (render_fragment fits folds success).renders filled with ⟨tree, formed, mirrors⟩
      exact .inr ⟨tree, wellFormed_of_formed formed mirrors⟩
  | some value =>
      rcases render_eq_ok success with ⟨result, after, rendered, _, isSql⟩
      rcases renderCondition_recorded rendered with ⟨values, recorded⟩
      rcases recorded.folded.flags with ⟨trivial, unsatisfiable⟩
      rw [isSql, trivial, unsatisfiable, folds]
      cases value with
      | true => exact .inl rfl
      | false =>
          refine .inr ⟨.atom .falsum, ?_⟩
          exact wellFormed_of_formed (formed_comparison rfl rfl) (.unsatisfiable _ folds)

theorem filledLists_of_valid (fits : Fits schema)
    (success : (Renderer.new schema dialect offset).render condition = .ok statement)
    (valid : Valid dialect condition statement.sql) : filledLists dialect condition = true := by
  cases folds : constantValue condition with
  | some value => exact filledLists_of_constant folds
  | none =>
      by_contra unfilled
      have broken := (render_fragment fits folds success).broken (eq_false_of_ne_true unfilled)
      rcases valid with empty | ⟨tree, wellFormed⟩
      · rw [empty] at broken
        rcases broken with ⟨before, later, impossible⟩ | ⟨value, impossible, _⟩
        · cases before <;> cases impossible
        · cases impossible
      · exact not_broken wellFormed.read wellFormed.comparisons broken

end Statements

/-- The text of a condition is empty or well-formed unless an empty list
reaches it, whether the condition comes from an accepted filter or not. -/
theorem render_valid_iff (engine : Engine)
    (known : engine.schema = newSchema ∨ engine.schema = newAttachmentSchema) {condition : Condition}
    {dialect : DialectName} {offset : Nat} {statement : Statement}
    (rendered : (Renderer.new engine.schema dialect offset).render condition = .ok statement) :
    Valid dialect condition statement.sql ↔ filledLists dialect condition = true := by
  have fits : Fits engine.schema := by
    rcases known with same | same
    · rw [same]
      exact newSchema_fits
    · rw [same]
      exact newAttachmentSchema_fits
  exact ⟨filledLists_of_valid fits rendered, valid_of_filledLists fits rendered⟩

/-- An engine that knows `tag in [...]` for one list of tags. -/
def tagEngine (tags : List String) : Engine where
  schema := newSchema
  celCompile := fun _ => .ok (.callExpr none "@in" [.identExpr "tag",
    .listExpr (tags.map fun tag => .constExpr (.stringValue tag))])

theorem render_valid_tags : Exists fun condition => Exists fun statement =>
    (tagEngine ["a", "b"]).compile 0 "tag in [\"a\", \"b\"]" = .ok condition ∧
      (Renderer.new newSchema .mysql 0).render condition = .ok statement ∧
      Valid .mysql condition statement.sql :=
  ⟨_, _, rfl, rfl, (@render_valid_iff (tagEngine ["a", "b"]) (.inl rfl) _ .mysql 0 _ rfl).mpr rfl⟩

/-- The filter `tag in []` is accepted, and its text is `()`. -/
theorem emptyTagList_unreadable :
    (tagEngine []).compile 0 "tag in []" = .ok (.inList (.fieldRef "tag") []) ∧
    (Renderer.new newSchema .sqlite 0).render (.inList (.fieldRef "tag") []) =
      .ok ⟨.paren .empty, []⟩ ∧
    text .sqlite (.paren .empty) = "()" ∧
    ¬ Valid .sqlite (.inList (.fieldRef "tag") []) (.paren (.empty : SqlCondition Placeholder)) := by
  refine ⟨rfl, rfl, rfl, ?_⟩
  rintro (impossible | ⟨tree, wellFormed⟩)
  · cases impossible
  · cases wellFormed.read

end OperatorTree
end Filter
end Memos
