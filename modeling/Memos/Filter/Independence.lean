import Memos.Filter.Render
import Memos.Library.TwoRuns

namespace Memos
namespace Filter
namespace Independence

open Library

/-!
# The text of a statement and its literals

Two conditions of the same shape differ in the values of their strings and
integers only.  Rendered side by side, they fail together, or give the same
text and arguments of the same types: what a user writes between quotes never
becomes a part of the text.
-/

/-! ## Text -/

/-- The spelling of a marker. -/
def markerText : Marker -> String
  | .question => "?"
  | .dollar number => "$" ++ toString number

def tokenText : Token Marker -> String
  | .raw text => text
  | .param marker => markerText marker

/-- The SQL string of a statement. -/
def text (dialect : DialectName) (sql : SqlCondition Placeholder) : String :=
  String.join (((sql.map Placeholder.marker).tokens dialect).map tokenText)

/-! ## Shapes -/

/-- The literals differ at most in the value of a string or of an integer. -/
inductive SameLiteral : Literal -> Literal -> Prop where
  | int (first second : Int) : SameLiteral (.int first) (.int second)
  | string (first second : String) : SameLiteral (.string first) (.string second)
  | same (literal : Literal) : SameLiteral literal literal

inductive SameValue : ValueExpr -> ValueExpr -> Prop where
  | fieldRef (name : String) : SameValue (.fieldRef name) (.fieldRef name)
  | literalValue {first second : Literal} :
      SameLiteral first second -> SameValue (.literalValue first) (.literalValue second)
  | functionValue (name : String) {first second : List ValueExpr} :
      List.Forall₂ SameValue first second ->
        SameValue (.functionValue name first) (.functionValue name second)

inductive SamePredicate : PredicateExpr -> PredicateExpr -> Prop where
  | startsWith (first second : String) : SamePredicate (.startsWith first) (.startsWith second)
  | endsWith (first second : String) : SamePredicate (.endsWith first) (.endsWith second)
  | contains (first second : String) : SamePredicate (.contains first) (.contains second)
  | equals (first second : String) : SamePredicate (.equals first) (.equals second)

/-- The condition trees have the same shape. -/
inductive SameShape : Condition -> Condition -> Prop where
  | logical (operator : LogicalOperator) {left left' right right' : Condition} :
      SameShape left left' -> SameShape right right' ->
        SameShape (.logical operator left right) (.logical operator left' right')
  | not {expr expr' : Condition} : SameShape expr expr' -> SameShape (.not expr) (.not expr')
  | fieldPredicate (field : String) : SameShape (.fieldPredicate field) (.fieldPredicate field)
  | comparison (operator : ComparisonOperator) {left left' right right' : ValueExpr} :
      SameValue left left' -> SameValue right right' ->
        SameShape (.comparison left operator right) (.comparison left' operator right')
  | inList {left left' : ValueExpr} {values values' : List ValueExpr} :
      SameValue left left' -> List.Forall₂ SameValue values values' ->
        SameShape (.inList left values) (.inList left' values')
  | elementIn (field : String) {element element' : ValueExpr} :
      SameValue element element' -> SameShape (.elementIn element field) (.elementIn element' field)
  | contains (field value value' : String) :
      SameShape (.contains field value) (.contains field value')
  | constant (value : Bool) : SameShape (.constant value) (.constant value)
  | listComprehension (kind : ComprehensionKind) (field iterVar : String)
      {predicate predicate' : PredicateExpr} : SamePredicate predicate predicate' ->
        SameShape (.listComprehension kind field iterVar predicate)
          (.listComprehension kind field iterVar predicate')

/-! ## Side by side -/

/-- The type of an argument. -/
inductive ArgType where
  | string
  | int
  | bool
deriving DecidableEq

def argType : Arg -> ArgType
  | .string _ => .string
  | .int _ => .int
  | .bool _ => .bool

def SameArg (first second : Arg) : Prop := argType first = argType second

theorem sameArg_refl (arg : Arg) : SameArg arg arg := rfl

/-- The renderers differ at most in the values of their arguments. -/
def Alike (first second : Renderer) : Prop :=
  Exists fun args => second = { first with args := args } ∧
    args.map argType = first.args.map argType

/-- The texts are the same. -/
def SameText (first second : SqlCondition Placeholder) : Prop :=
  first.map Placeholder.marker = second.map Placeholder.marker

theorem SameText.and {first first' second second' : SqlCondition Placeholder}
    (sameFirst : SameText first first') (sameSecond : SameText second second') :
    SameText (.paren (.and first second)) (.paren (.and first' second')) := by
  unfold SameText at sameFirst sameSecond ⊢
  simp only [SqlCondition.map, sameFirst, sameSecond]

theorem SameText.or {first first' second second' : SqlCondition Placeholder}
    (sameFirst : SameText first first') (sameSecond : SameText second second') :
    SameText (.paren (.or first second)) (.paren (.or first' second')) := by
  unfold SameText at sameFirst sameSecond ⊢
  simp only [SqlCondition.map, sameFirst, sameSecond]

/-- The fragments have the same text. -/
def AlikeSql (first second : SqlCondition Placeholder × Renderer) : Prop :=
  SameText first.1 second.1 ∧ Alike first.2 second.2

structure AlikeResult (first second : RenderResult × Renderer) : Prop where
  sql : SameText first.1.sql second.1.sql
  trivial : first.1.trivial = second.1.trivial
  unsatisfiable : first.1.unsatisfiable = second.1.unsatisfiable
  renderer : Alike first.2 second.2

theorem alike_self (r : Renderer) : Alike r r := ⟨r.args, rfl, rfl⟩

/-! ### Literals -/

section Literals

variable {first second : ValueExpr} {left right : Literal}

theorem expectLiteral_related (same : SameValue first second) :
    Related SameLiteral (expectLiteral first) (expectLiteral second) := by
  cases same with
  | fieldRef name => exact related_error
  | literalValue same => exact same
  | functionValue name same => exact related_error

theorem expectBool_related (same : SameValue first second) :
    Related Eq (expectBool first) (expectBool second) := by
  refine related_bind (expectLiteral_related same) fun left right same => ?_
  cases same with
  | int | string => exact related_error
  | same literal => exact related_self (fun _ => rfl) _

theorem toInt64_related (same : SameLiteral left right) :
    Related (fun _ _ => True) (toInt64 left) (toInt64 right) := by
  cases same with
  | int first second => exact trivial
  | string first second => exact related_error
  | same literal => exact related_self (fun _ => trivial) _

theorem scalarArg_related (field : Field) (same : SameLiteral left right) :
    Related SameArg (Renderer.scalarArg field left) (Renderer.scalarArg field right) := by
  unfold Renderer.scalarArg
  cases field.type with
  | string =>
      cases same with
      | int first second => exact related_error
      | string first second => exact rfl
      | same literal => exact related_self sameArg_refl _
  | bool => exact related_error
  | int | timestamp =>
      cases same with
      | int first second => exact rfl
      | string first second => exact related_error
      | same literal => exact related_self sameArg_refl _

theorem scalarInArg_related (field : Field) (same : SameLiteral left right) :
    Related SameArg (Renderer.scalarInArg field left) (Renderer.scalarInArg field right) := by
  unfold Renderer.scalarInArg
  cases field.type with
  | string =>
      cases same with
      | int first second => exact related_error
      | string first second => exact rfl
      | same literal => exact related_self sameArg_refl _
  | bool | timestamp => exact related_error
  | int =>
      cases same with
      | int first second => exact rfl
      | string first second => exact related_error
      | same literal => exact related_self sameArg_refl _

end Literals

/-! ### Arguments -/

section SideBySide

variable {r other : Renderer} {first second : Arg}

/-- Arguments of one type get the same marker. -/
theorem addArg_alike (alike : Alike r other) (same : SameArg first second) :
    (r.addArg first).1.marker = (other.addArg second).1.marker ∧
      Alike (r.addArg first).2 (other.addArg second).2 := by
  rcases alike with ⟨args, rfl, sameArgs⟩
  refine ⟨rfl, args ++ [second], rfl, ?_⟩
  change (args ++ [second]).map argType = (r.args ++ [first]).map argType
  rw [List.map_append, List.map_append, sameArgs]
  simp only [List.map_cons, List.map_nil]
  rw [same]

theorem Alike.schema (alike : Alike r other) : other.schema = r.schema := by
  rcases alike with ⟨args, rfl, _⟩
  rfl

theorem Alike.dialect (alike : Alike r other) : other.dialect = r.dialect := by
  rcases alike with ⟨args, rfl, _⟩
  rfl

/-- The results of two runs with the same fragment around one argument. -/
theorem compare_alike {op : ComparisonOperator} {term : SqlTerm Placeholder} (alike : Alike r other)
    (same : SameArg first second) :
    AlikeResult ({ sql := .compare op term (.param (r.addArg first).1) }, (r.addArg first).2)
      ({ sql := .compare op term (.param (other.addArg second).1) }, (other.addArg second).2) where
  sql := by
    unfold SameText
    simp only [SqlCondition.map, SqlTerm.map, (addArg_alike alike same).1]
  trivial := rfl
  unsatisfiable := rfl
  renderer := (addArg_alike alike same).2

/-- A fragment without arguments. -/
theorem constant_alike (result : RenderResult) (alike : Alike r other) :
    AlikeResult (result, r) (result, other) := ⟨rfl, rfl, rfl, alike⟩

/-! ### Leaves -/

variable {left left' right right' : ValueExpr} {field : Field} {op : ComparisonOperator}

theorem renderFieldPredicate_related (name : String) (alike : Alike r other) :
    Related AlikeResult (r.renderFieldPredicate name) (other.renderFieldPredicate name) := by
  unfold Renderer.renderFieldPredicate
  rw [alike.schema, alike.dialect]
  cases r.schema.field name with
  | none => exact related_error
  | some field =>
      dsimp only
      cases field.kind with
      | boolColumn | jsonBool => exact constant_alike _ alike
      | scalar | jsonList | virtualAlias => exact related_error

theorem renderBoolColumnComparison_related (alike : Alike r other) (same : SameValue right right') :
    Related AlikeResult (r.renderBoolColumnComparison field op right)
      (other.renderBoolColumnComparison field op right') := by
  refine related_bind (expectBool_related same) ?_
  rintro value _ rfl
  unfold Renderer.addBoolArg
  rw [alike.dialect]
  cases r.dialect <;> exact compare_alike alike rfl

theorem renderJSONBoolComparison_related (alike : Alike r other) (same : SameValue right right') :
    Related AlikeResult (r.renderJSONBoolComparison field op right)
      (other.renderJSONBoolComparison field op right') := by
  refine related_bind (expectBool_related same) ?_
  rintro value _ rfl
  rw [alike.dialect]
  cases r.dialect with
  | sqlite =>
      cases op with
      | eq | neq =>
          dsimp only
          split
          · exact constant_alike _ alike
          · split <;> exact constant_alike _ alike
      | lt | lte | gt | gte => exact related_error
  | mysql => exact constant_alike _ alike
  | postgres => exact compare_alike alike rfl

theorem renderScalarComparison_related (alike : Alike r other) (same : SameValue right right') :
    Related AlikeResult (r.renderScalarComparison field op right)
      (other.renderScalarComparison field op right') := by
  refine related_bind (expectLiteral_related same) fun literal literal' same => ?_
  have recorded : ∀ {literal literal' : Literal}, SameLiteral literal literal' ->
      Related AlikeResult (Renderer.scalarArg field literal >>= fun value =>
          (pure ({ sql := .compare op (field.columnExpr r.dialect) (.param (r.addArg value).1) },
            (r.addArg value).2) : Except String (RenderResult × Renderer)))
        (Renderer.scalarArg field literal' >>= fun value =>
          (pure ({ sql := .compare op (field.columnExpr r.dialect) (.param (other.addArg value).1) },
            (other.addArg value).2) : Except String (RenderResult × Renderer))) := by
    intro literal literal' same
    exact related_bind (scalarArg_related field same) fun value value' sameArg =>
      compare_alike alike sameArg
  rw [alike.dialect]
  cases same with
  | int first second => exact recorded (.int first second)
  | string first second => exact recorded (.string first second)
  | same literal =>
      cases literal with
      | null =>
          refine related_bind (related_self (@rfl RenderResult) _) ?_
          rintro result _ rfl
          exact constant_alike result alike
      | bool value | int value | double value | string value => exact recorded (.same _)

theorem renderFunctionComparison_related {name : String} {args args' : List ValueExpr}
    (alike : Alike r other) (sameArgs : List.Forall₂ SameValue args args') (same : SameValue right right') :
    Related AlikeResult (r.renderFunctionComparison name args op right)
      (other.renderFunctionComparison name args' op right') := by
  unfold Renderer.renderFunctionComparison
  split
  case isFalse => exact related_error
  cases sameArgs with
  | nil => exact related_error
  | cons first rest =>
      cases first with
      | literalValue _ | functionValue _ _ => cases rest <;> exact related_error
      | fieldRef fieldName =>
          cases rest with
          | cons second others => exact related_error
          | nil =>
              dsimp only
              rw [alike.schema, alike.dialect]
              cases r.schema.field fieldName with
              | none => exact related_error
              | some field =>
                  dsimp only
                  split
                  case isFalse => exact related_error
                  have number : Related (fun _ _ => True) (expectNumericLiteral right)
                      (expectNumericLiteral right') :=
                    related_bind (expectLiteral_related same) fun _ _ => toInt64_related
                  exact related_bind number fun value value' _ => compare_alike alike rfl

theorem renderComparison_related (alike : Alike r other) (sameLeft : SameValue left left')
    (same : SameValue right right') :
    Related AlikeResult (r.renderComparison left op right) (other.renderComparison left' op right') := by
  cases sameLeft with
  | literalValue _ => exact related_error
  | functionValue name sameArgs => exact renderFunctionComparison_related alike sameArgs same
  | fieldRef name =>
      unfold Renderer.renderComparison
      dsimp only
      rw [alike.schema]
      cases r.schema.field name with
      | none => exact related_error
      | some field =>
          dsimp only
          cases field.kind with
          | boolColumn => exact renderBoolColumnComparison_related alike same
          | jsonBool => exact renderJSONBoolComparison_related alike same
          | scalar => exact renderScalarComparison_related alike same
          | jsonList | virtualAlias => exact related_error

/-! ### Lists -/

/-- The placeholders of two lists have the same markers. -/
def AlikePlaceholders (first second : List Placeholder × Renderer) : Prop :=
  first.1.map Placeholder.marker = second.1.map Placeholder.marker ∧ Alike first.2 second.2

theorem addScalarArgs_related {values values' : List ValueExpr} (alike : Alike r other)
    (same : List.Forall₂ SameValue values values') :
    Related AlikePlaceholders (r.addScalarArgs field values) (other.addScalarArgs field values') := by
  induction same generalizing r other with
  | nil => exact ⟨rfl, alike⟩
  | cons first rest ih =>
      refine related_bind (expectLiteral_related first) fun literal literal' sameLiteral => ?_
      refine related_bind (scalarInArg_related field sameLiteral) fun arg arg' sameArg => ?_
      rcases addArg_alike alike sameArg with ⟨sameMarker, alikeAfter⟩
      refine related_bind (ih alikeAfter) ?_
      rintro ⟨others, last⟩ ⟨others', last'⟩ ⟨sameMarkers, alikeLast⟩
      exact ⟨congrArg₂ List.cons sameMarker sameMarkers, alikeLast⟩

theorem renderScalarInCondition_related {values values' : List ValueExpr} (alike : Alike r other)
    (same : List.Forall₂ SameValue values values') :
    Related AlikeResult (r.renderScalarInCondition field values)
      (other.renderScalarInCondition field values') := by
  refine related_bind (addScalarArgs_related alike same) ?_
  rintro ⟨placeholders, last⟩ ⟨placeholders', last'⟩ ⟨sameMarkers, alikeLast⟩
  refine ⟨?_, rfl, rfl, alikeLast⟩
  rw [alike.dialect]
  unfold SameText
  simp only [SqlCondition.map, sameMarkers]

/-- The texts of two lists of conditions are the same. -/
def AlikeConditions (first second : List (SqlCondition Placeholder) × Renderer) : Prop :=
  List.Forall₂ SameText first.1 second.1 ∧ Alike first.2 second.2

theorem renderExactTag_alike (alike : Alike r other) (value value' : String) :
    AlikeSql (r.renderExactTag field value) (other.renderExactTag field value') := by
  unfold Renderer.renderExactTag
  rw [alike.dialect]
  cases r.dialect with
  | sqlite =>
      rcases addArg_alike alike (show SameArg (.string (Renderer.exactPattern value))
        (.string (Renderer.exactPattern value')) from rfl) with ⟨sameMarker, alikeAfter⟩
      refine ⟨?_, alikeAfter⟩
      unfold SameText
      simp only [SqlCondition.map, SqlTerm.map, sameMarker]
  | mysql | postgres =>
      rcases addArg_alike alike (show SameArg (.string (Renderer.quotedValue value))
        (.string (Renderer.quotedValue value')) from rfl) with ⟨sameMarker, alikeAfter⟩
      refine ⟨?_, alikeAfter⟩
      unfold SameText
      simp only [SqlCondition.map, SqlTerm.map, sameMarker]

theorem buildJSONArrayLike_alike (alike : Alike r other) (arrayExpr : SqlTerm Placeholder)
    (pattern pattern' : String) :
    AlikeSql (r.buildJSONArrayLike arrayExpr pattern) (other.buildJSONArrayLike arrayExpr pattern') := by
  rcases addArg_alike alike (show SameArg (.string pattern) (.string pattern') from rfl) with
    ⟨sameMarker, alikeAfter⟩
  unfold Renderer.buildJSONArrayLike
  dsimp only
  rw [alikeAfter.dialect]
  cases (r.addArg (.string pattern)).2.dialect <;>
  · refine ⟨?_, alikeAfter⟩
    unfold SameText
    simp only [SqlCondition.map, SqlTerm.map, sameMarker]

theorem renderTagConditions_related {values values' : List ValueExpr} (alike : Alike r other)
    (same : List.Forall₂ SameValue values values') :
    Related AlikeConditions (r.renderTagConditions field values)
      (other.renderTagConditions field values') := by
  induction same generalizing r other with
  | nil => exact ⟨.nil, alike⟩
  | @cons _ _ others others' first rest ih =>
      have tagged : ∀ text text' : String, Related AlikeConditions
          (r.renderTagConditions field (.literalValue (.string text) :: others))
          (other.renderTagConditions field (.literalValue (.string text') :: others')) := by
        intro text text'
        rcases @renderExactTag_alike r other field alike text text' with ⟨sameExact, alikeExact⟩
        have alikeLike : AlikeSql
            ((r.renderExactTag field text).2.buildJSONArrayLike
              (jsonArrayExpr (r.renderExactTag field text).2.dialect field)
              (Renderer.hierarchyPattern text))
            ((other.renderExactTag field text').2.buildJSONArrayLike
              (jsonArrayExpr (other.renderExactTag field text').2.dialect field)
              (Renderer.hierarchyPattern text')) := by
          rw [alikeExact.dialect]
          exact buildJSONArrayLike_alike alikeExact _ _ _
        rcases alikeLike with ⟨samePrefix, alikePrefix⟩
        refine @related_bind _ _ _ _ _ _ _ _ _ _
          (Renderer.renderTagConditions _ field others) (Renderer.renderTagConditions _ field others')
          (ih alikePrefix) ?_
        rintro ⟨conditions, last⟩ ⟨conditions', last'⟩ ⟨sameConditions, alikeLast⟩
        exact ⟨.cons (sameExact.or samePrefix) sameConditions, alikeLast⟩
      cases first with
      | fieldRef _ | functionValue _ _ => exact related_error
      | literalValue sameLiteral =>
          cases sameLiteral with
          | int _ _ => exact related_error
          | string text text' => exact tagged text text'
          | same =>
              rename_i literal
              cases literal with
              | string text => exact tagged text text
              | null | bool _ | int _ | double _ => exact related_error

theorem joinOr_alike {conditions conditions' : List (SqlCondition Placeholder)}
    (same : List.Forall₂ SameText conditions conditions') :
    SameText (joinOr conditions) (joinOr conditions') := by
  induction same with
  | nil => rfl
  | cons first rest ih =>
      cases rest with
      | nil => exact first
      | cons second others =>
          unfold SameText at first ih ⊢
          simp only [joinOr, SqlCondition.map, first, ih]

theorem renderTagInList_related {values values' : List ValueExpr} (alike : Alike r other)
    (same : List.Forall₂ SameValue values values') :
    Related AlikeResult (r.renderTagInList values) (other.renderTagInList values') := by
  unfold Renderer.renderTagInList
  rw [alike.schema]
  cases r.schema.resolveAlias "tag" with
  | none => exact related_error
  | some field =>
      refine related_bind (renderTagConditions_related alike same) ?_
      rintro ⟨conditions, last⟩ ⟨conditions', last'⟩ ⟨sameConditions, alikeLast⟩
      have joined : SameText (.paren (joinOr conditions)) (.paren (joinOr conditions')) :=
        congrArg SqlCondition.paren (joinOr_alike sameConditions)
      cases sameConditions with
      | nil => exact ⟨joined, rfl, rfl, alikeLast⟩
      | cons first rest =>
          cases rest with
          | nil => exact ⟨first, rfl, rfl, alikeLast⟩
          | cons second others => exact ⟨joined, rfl, rfl, alikeLast⟩

theorem renderInCondition_related {values values' : List ValueExpr} (alike : Alike r other)
    (sameLeft : SameValue left left') (same : List.Forall₂ SameValue values values') :
    Related AlikeResult (r.renderInCondition left values) (other.renderInCondition left' values') := by
  cases sameLeft with
  | literalValue _ | functionValue _ _ => exact related_error
  | fieldRef name =>
      unfold Renderer.renderInCondition
      dsimp only
      split
      · exact renderTagInList_related alike same
      · rw [alike.schema]
        cases r.schema.field name with
        | none => exact related_error
        | some field =>
            dsimp only
            split
            · exact renderScalarInCondition_related alike same
            · exact related_error

/-! ### Texts and tags -/

theorem renderElementInCondition_related {element element' : ValueExpr} (name : String)
    (alike : Alike r other) (same : SameValue element element') :
    Related AlikeResult (r.renderElementInCondition element name)
      (other.renderElementInCondition element' name) := by
  unfold Renderer.renderElementInCondition
  rw [alike.schema]
  cases r.schema.field name with
  | none => exact related_error
  | some field =>
      dsimp only
      split
      case isFalse => exact related_error
      have tagged : ∀ text text' : String, AlikeResult
          ({ sql := (r.renderExactTag field text).1 }, (r.renderExactTag field text).2)
          ({ sql := (other.renderExactTag field text').1 }, (other.renderExactTag field text').2) := by
        intro text text'
        rcases @renderExactTag_alike r other field alike text text' with ⟨sameExact, alikeExact⟩
        exact ⟨sameExact, rfl, rfl, alikeExact⟩
      refine related_bind (expectLiteral_related same) fun literal literal' sameLiteral => ?_
      cases sameLiteral with
      | int _ _ => exact related_error
      | string text text' => exact tagged text text'
      | same literal =>
          cases literal with
          | string text => exact tagged text text
          | null | bool _ | int _ | double _ => exact related_error

theorem renderContainsCondition_related (name value value' : String) (alike : Alike r other) :
    Related AlikeResult (r.renderContainsCondition name value)
      (other.renderContainsCondition name value') := by
  unfold Renderer.renderContainsCondition
  rw [alike.schema, alike.dialect]
  cases r.schema.field name with
  | none => exact related_error
  | some field =>
      rcases addArg_alike alike (show SameArg (.string ("%" ++ value ++ "%"))
        (.string ("%" ++ value' ++ "%")) from rfl) with ⟨sameMarker, alikeAfter⟩
      dsimp only
      rw [alikeAfter.dialect]
      cases (r.addArg (.string ("%" ++ value ++ "%"))).2.dialect <;>
      · refine ⟨?_, rfl, rfl, alikeAfter⟩
        unfold SameText
        simp only [SqlCondition.map, SqlTerm.map, sameMarker]

theorem wrapWithNullCheck_alike {condition condition' : SqlCondition Placeholder}
    (alike : Alike r other) (arrayExpr : SqlTerm Placeholder) (same : SameText condition condition') :
    SameText (r.wrapWithNullCheck arrayExpr condition) (other.wrapWithNullCheck arrayExpr condition') := by
  unfold SameText at same ⊢
  unfold Renderer.wrapWithNullCheck
  rw [alike.dialect]
  simp only [SqlCondition.map, same]

theorem renderListedTag_alike (alike : Alike r other) (value value' : String) :
    AlikeSql (r.renderListedTag field value) (other.renderListedTag field value') := by
  unfold Renderer.renderListedTag
  rw [alike.dialect]
  cases r.dialect with
  | sqlite | mysql => exact buildJSONArrayLike_alike alike _ _ _
  | postgres => exact renderExactTag_alike alike _ _

/-- Three of the comprehensions wrap one fragment. -/
theorem wrapped_alike {first second : SqlCondition Placeholder × Renderer}
    (arrayExpr : SqlTerm Placeholder) (alike : AlikeSql first second) :
    AlikeSql (first.2.wrapWithNullCheck arrayExpr first.1, first.2)
      (second.2.wrapWithNullCheck arrayExpr second.1, second.2) :=
  ⟨wrapWithNullCheck_alike alike.2 arrayExpr alike.1, alike.2⟩

theorem renderTagStartsWith_alike (alike : Alike r other) (pre pre' : String) :
    AlikeSql (r.renderTagStartsWith field pre) (other.renderTagStartsWith field pre') := by
  unfold Renderer.renderTagStartsWith
  rw [alike.dialect]
  rcases @renderListedTag_alike r other field alike pre pre' with ⟨sameExact, alikeExact⟩
  rcases buildJSONArrayLike_alike alikeExact (jsonArrayExpr r.dialect field) ("%\"" ++ pre ++ "%")
    ("%\"" ++ pre' ++ "%") with ⟨samePrefix, alikePrefix⟩
  exact ⟨wrapWithNullCheck_alike alikePrefix _ (sameExact.or samePrefix), alikePrefix⟩

theorem renderListComprehension_related (name : String) {predicate predicate' : PredicateExpr}
    (alike : Alike r other) (same : SamePredicate predicate predicate') :
    Related AlikeResult (r.renderListComprehension name predicate)
      (other.renderListComprehension name predicate') := by
  unfold Renderer.renderListComprehension
  rw [alike.schema]
  cases r.schema.field name with
  | none => exact related_error
  | some field =>
      dsimp only
      split
      case isFalse => exact related_error
      have ofSql : ∀ {first second : SqlCondition Placeholder × Renderer}, AlikeSql first second ->
          AlikeResult ({ sql := first.1 }, first.2) ({ sql := second.1 }, second.2) :=
        fun alikeSql => ⟨alikeSql.1, rfl, rfl, alikeSql.2⟩
      have dialects : other.dialect = r.dialect := alike.dialect
      cases same with
      | startsWith first second => exact ofSql (renderTagStartsWith_alike alike first second)
      | equals first second =>
          refine ofSql ?_
          unfold Renderer.renderTagEquals
          rw [dialects]
          exact wrapped_alike _ (renderListedTag_alike alike first second)
      | endsWith first second =>
          refine ofSql ?_
          unfold Renderer.renderTagEndsWith
          rw [dialects]
          exact wrapped_alike _ (buildJSONArrayLike_alike alike _ _ _)
      | contains first second =>
          refine ofSql ?_
          unfold Renderer.renderTagContains
          rw [dialects]
          exact wrapped_alike _ (buildJSONArrayLike_alike alike _ _ _)

/-! ### Trees -/

section Combining

variable {left left' right right' : RenderResult × Renderer} {last last' : Renderer}

theorem combineAnd_alike (first : AlikeResult left left') (second : AlikeResult right right')
    (alike : Alike last last') :
    AlikeResult (combineAnd left.1 right.1, last) (combineAnd left'.1 right'.1, last') := by
  unfold combineAnd
  rw [← first.unsatisfiable, ← first.trivial, ← second.unsatisfiable, ← second.trivial]
  split
  · exact constant_alike _ alike
  · split
    · exact ⟨second.sql, second.trivial, second.unsatisfiable, alike⟩
    · split
      · exact ⟨first.sql, first.trivial, first.unsatisfiable, alike⟩
      · exact ⟨first.sql.and second.sql, rfl, rfl, alike⟩

theorem combineOr_alike (first : AlikeResult left left') (second : AlikeResult right right')
    (alike : Alike last last') :
    AlikeResult (combineOr left.1 right.1, last) (combineOr left'.1 right'.1, last') := by
  unfold combineOr
  rw [← first.unsatisfiable, ← first.trivial, ← second.unsatisfiable, ← second.trivial]
  split
  · exact constant_alike _ alike
  · split
    · exact ⟨second.sql, second.trivial, second.unsatisfiable, alike⟩
    · split
      · exact ⟨first.sql, first.trivial, first.unsatisfiable, alike⟩
      · exact ⟨first.sql.or second.sql, rfl, rfl, alike⟩

theorem combineNot_alike (child : AlikeResult left left') :
    AlikeResult (combineNot left.1, left.2) (combineNot left'.1, left'.2) := by
  unfold combineNot
  rw [← child.unsatisfiable, ← child.trivial]
  split
  · exact constant_alike _ child.renderer
  · split
    · exact constant_alike _ child.renderer
    · exact ⟨congrArg SqlCondition.not child.sql, rfl, rfl, child.renderer⟩

end Combining

/-- Side by side, two conditions of the same shape fail together or give the
same text. -/
theorem renderCondition_related {condition condition' : Condition} (alike : Alike r other)
    (same : SameShape condition condition') :
    Related AlikeResult (r.renderCondition condition) (other.renderCondition condition') := by
  induction same generalizing r other with
  | logical operator _ _ leftHypothesis rightHypothesis =>
      refine related_bind (leftHypothesis alike) fun left left' sameLeft => ?_
      refine related_bind (rightHypothesis sameLeft.renderer) fun right right' sameRight => ?_
      cases operator with
      | and => exact combineAnd_alike sameLeft sameRight sameRight.renderer
      | or => exact combineOr_alike sameLeft sameRight sameRight.renderer
  | not _ ih =>
      exact related_bind (ih alike) fun _ _ same => combineNot_alike same
  | fieldPredicate field => exact renderFieldPredicate_related field alike
  | comparison operator sameLeft sameRight => exact renderComparison_related alike sameLeft sameRight
  | inList sameLeft sameValues => exact renderInCondition_related alike sameLeft sameValues
  | elementIn field sameElement => exact renderElementInCondition_related field alike sameElement
  | contains field value value' => exact renderContainsCondition_related field value value' alike
  | constant value => cases value <;> exact constant_alike _ alike
  | listComprehension kind field iterVar samePredicate =>
      exact renderListComprehension_related field alike samePredicate

end SideBySide

/-- The statements have one SQL text, and arguments of the same types. -/
def SameStatement (dialect : DialectName) (first second : Statement) : Prop :=
  text dialect first.sql = text dialect second.sql ∧
    first.args.map argType = second.args.map argType

theorem SameText.text_eq {first second : SqlCondition Placeholder} (same : SameText first second)
    (dialect : DialectName) : text dialect first = text dialect second := by
  unfold text
  rw [same]

/-- Whatever the values of the strings and integers in a filter are, `Render`
gives the same text and asks for arguments of the same types. -/
theorem render_related (schema : Schema) (dialect : DialectName) (offset : Nat)
    {condition condition' : Condition} (same : SameShape condition condition') :
    Related (SameStatement dialect) ((Renderer.new schema dialect offset).render condition)
      ((Renderer.new schema dialect offset).render condition') := by
  refine related_bind (renderCondition_related (alike_self _) same) ?_
  rintro ⟨result, r⟩ ⟨result', other⟩ alike
  have types : r.args.map argType = other.args.map argType := by
    rcases alike.renderer with ⟨args, rfl, sameTypes⟩
    exact sameTypes.symm
  have unsatisfiable : result.unsatisfiable = result'.unsatisfiable := alike.unsatisfiable
  have trivial : result.trivial = result'.trivial := alike.trivial
  dsimp only
  rw [← unsatisfiable, ← trivial]
  split
  · exact ⟨rfl, types⟩
  · split
    · exact ⟨rfl, types⟩
    · exact ⟨alike.sql.text_eq dialect, types⟩

/-- A quotation mark in a search text stays in its argument. -/
theorem render_related_search :
    Related (SameStatement .postgres)
      ((Renderer.new newSchema .postgres 0).render (.contains "content" "a"))
      ((Renderer.new newSchema .postgres 0).render (.contains "content" "' OR 1 = 1 --")) :=
  render_related newSchema .postgres 0 (.contains "content" "a" "' OR 1 = 1 --")

end Independence
end Filter
end Memos
