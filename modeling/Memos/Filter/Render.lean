import Memos.Filter.Parser
import Memos.Filter.Sql

namespace Memos
namespace Filter

/-!
# The renderer

A translation of `render.go`.  The receiver of the source is mutable: `addArg`
appends to an argument slice shared by the whole tree while the text is put
together from the leaves upwards.  Here every function takes the renderer and
returns it.  The rendered text is an `SqlCondition` over placeholders, and a
placeholder remembers the call of `addArg` that produced it.
-/

/-- An argument of a statement. -/
inductive Arg where
  | string (value : String)
  | int (value : Int)
  | bool (value : Bool)
deriving DecidableEq

/-- The spelling of a placeholder: `?`, or `$n` with its number. -/
inductive Marker where
  | question
  | dollar (number : Nat)
deriving DecidableEq

/-- A placeholder, with the 1-based index of the `addArg` call behind it and
the literal of that call.  Only the marker is part of the text. -/
structure Placeholder where
  argument : Nat
  literal : Arg
  marker : Marker
deriving DecidableEq

/-- The mutable state of the source's renderer. -/
structure Renderer where
  schema : Schema
  dialect : DialectName
  placeholderOffset : Nat
  placeholderCounter : Nat := 0
  args : List Arg := []

/-- A rendered condition and the constant folding flags. -/
structure RenderResult where
  sql : SqlCondition Placeholder := .empty
  trivial : Bool := false
  unsatisfiable : Bool := false

/-- A rendered statement.  The SQL text is empty for a trivial condition. -/
structure Statement where
  sql : SqlCondition Placeholder
  args : List Arg

namespace Renderer

/-- `newRenderer` -/
def new (schema : Schema) (dialect : DialectName) (placeholderOffset : Nat) : Renderer where
  schema := schema
  dialect := dialect
  placeholderOffset := placeholderOffset

/-- Record an argument and return the placeholder for it. -/
def addArg (r : Renderer) (value : Arg) : Placeholder × Renderer :=
  let counter := r.placeholderCounter + 1
  let marker := match r.dialect with
    | .postgres => Marker.dollar (r.placeholderOffset + counter)
    | _ => Marker.question
  (⟨counter, value, marker⟩, { r with placeholderCounter := counter, args := r.args ++ [value] })

/-- SQLite receives booleans as integers. -/
def addBoolArg (r : Renderer) (value : Bool) : Placeholder × Renderer :=
  match r.dialect with
  | .sqlite => r.addArg (.int (if value then 1 else 0))
  | _ => r.addArg (.bool value)

end Renderer

/-! ## Literals and column expressions -/

def expectLiteral : ValueExpr -> Except String Literal
  | .literalValue value => .ok value
  | _ => .error "expression must be a literal"

def expectBool (expr : ValueExpr) : Except String Bool := do
  match ← expectLiteral expr with
  | .bool value => return value
  | _ => .error "boolean literal required"

/-- Floating-point literals are truncated. -/
def toInt64 : Literal -> Except String Int
  | .int value => .ok value
  | .double value => .ok (truncate64 value)
  | .string _ => .error "cannot convert string to int64"
  | .bool _ => .error "cannot convert bool to int64"
  | .null => .error "cannot convert <nil> to int64"

def expectNumericLiteral (expr : ValueExpr) : Except String Int := do
  toInt64 (← expectLiteral expr)

variable {π : Type}

/-- `Field.columnExpr` -/
def Field.columnExpr (field : Field) (dialect : DialectName) : SqlTerm π :=
  match field.expressions dialect with
  | some format => .expression format (.column field.column)
  | none => .column field.column

def jsonExtractExpr (dialect : DialectName) (field : Field) : SqlTerm π :=
  match dialect with
  | .postgres => .jsonAccessor field.column field.jsonPath true
  | _ => .jsonExtract field.column field.jsonPath

def jsonArrayExpr (dialect : DialectName) (field : Field) : SqlTerm π :=
  match dialect with
  | .postgres => .jsonAccessor field.column field.jsonPath false
  | _ => .jsonExtract field.column field.jsonPath

def jsonArrayLengthExpr (dialect : DialectName) (field : Field) : SqlTerm π :=
  match dialect with
  | .sqlite => .call .jsonArrayLength (.coalesce (jsonArrayExpr dialect field) .jsonEmptyArray)
  | .mysql => .call .jsonLength (.coalesce (jsonArrayExpr dialect field) .jsonEmptyArray)
  | .postgres =>
      .call .jsonbArrayLength (.coalesce (jsonArrayExpr dialect field) .jsonbEmptyArray)

/-! ## Constant folding -/

/-- The result of a condition that no row satisfies. -/
def unsatisfiableResult : RenderResult := { sql := .falsum, unsatisfiable := true }

/-- The result of a condition that every row satisfies. -/
def trivialResult : RenderResult := { trivial := true }

def combineAnd (left right : RenderResult) : RenderResult :=
  if left.unsatisfiable || right.unsatisfiable then unsatisfiableResult
  else if left.trivial then right
  else if right.trivial then left
  else { sql := .paren (.and left.sql right.sql) }

def combineOr (left right : RenderResult) : RenderResult :=
  if left.trivial || right.trivial then trivialResult
  else if left.unsatisfiable then right
  else if right.unsatisfiable then left
  else { sql := .paren (.or left.sql right.sql) }

/-- `renderNotCondition` after its child is rendered. -/
def combineNot (child : RenderResult) : RenderResult :=
  if child.trivial then unsatisfiableResult
  else if child.unsatisfiable then trivialResult
  else { sql := .not child.sql }

/-- `strings.Join(conditions, " OR ")` -/
def joinOr : List (SqlCondition π) -> SqlCondition π
  | [] => .empty
  | [condition] => condition
  | condition :: rest => .or condition (joinOr rest)

namespace Renderer

/-! ## Scalar and boolean fields -/

def jsonBoolPredicate (dialect : DialectName) (field : Field) : SqlCondition π :=
  match dialect with
  | .sqlite => .isTrue (jsonExtractExpr dialect field)
  | .mysql =>
      .compare .eq (.coalesce (jsonExtractExpr dialect field) (.jsonBool false)) (.jsonBool true)
  | .postgres => .isTrue (.castBoolean (jsonExtractExpr dialect field))

def renderFieldPredicate (r : Renderer) (name : String) : Except String (RenderResult × Renderer) :=
  match r.schema.field name with
  | none => .error ("unknown field " ++ quoted name)
  | some field =>
      match field.kind with
      | .boolColumn => .ok ({ sql := .isTrue (.column field.column) }, r)
      | .jsonBool => .ok ({ sql := jsonBoolPredicate r.dialect field }, r)
      | _ => .error ("field " ++ quoted name ++ " cannot be used as a predicate")

def renderBoolColumnComparison (r : Renderer) (field : Field) (op : ComparisonOperator)
    (right : ValueExpr) : Except String (RenderResult × Renderer) := do
  let value ← expectBool right
  let (placeholder, r) := r.addBoolArg value
  return ({ sql := .compare op (.column field.column) (.param placeholder) }, r)

/-- The SQLite branch compares `has_task_list` with a number and tests the
truth of the other flags. -/
def renderJSONBoolComparison (r : Renderer) (field : Field) (op : ComparisonOperator)
    (right : ValueExpr) : Except String (RenderResult × Renderer) := do
  let value ← expectBool right
  let jsonExpr : SqlTerm Placeholder := jsonExtractExpr r.dialect field
  match r.dialect with
  | .sqlite =>
      match op with
      | .eq =>
          if field.name = "has_task_list" then
            return ({ sql := .compare .eq jsonExpr (.digit value) }, r)
          else if value then return ({ sql := .isTrue jsonExpr }, r)
          else return ({ sql := .notIsTrue jsonExpr }, r)
      | .neq =>
          if field.name = "has_task_list" then
            return ({ sql := .compare .neq jsonExpr (.digit value) }, r)
          else if value then return ({ sql := .notIsTrue jsonExpr }, r)
          else return ({ sql := .isTrue jsonExpr }, r)
      | _ => .error ("operator " ++ sqlOperator op ++ " not supported for boolean JSON field")
  | .mysql => return ({ sql := .compare op jsonExpr (.jsonBool value) }, r)
  | .postgres =>
      let (placeholder, r) := r.addArg (.bool value)
      return ({ sql := .compare op (.castBoolean jsonExpr) (.param placeholder) }, r)

/-- Comparison with `null`, which only equality tests admit. -/
def renderNullComparison (column : SqlTerm Placeholder) (op : ComparisonOperator) :
    Except String RenderResult :=
  match op with
  | .eq => .ok { sql := .isNull column }
  | .neq => .ok { sql := .isNotNull column }
  | _ => .error ("operator " ++ sqlOperator op ++ " not supported for null comparison")

/-- The argument that a scalar field of this type is compared with. -/
def scalarArg (field : Field) (literal : Literal) : Except String Arg :=
  match field.type with
  | .string =>
      match literal with
      | .string value => .ok (.string value)
      | _ => .error ("field " ++ quoted field.name ++ " expects string value")
  | .int | .timestamp =>
      match toInt64 literal with
      | .ok value => .ok (.int value)
      | .error cause =>
          .error ("field " ++ quoted field.name ++ " expects integer value: " ++ cause)
  | .bool => .error ("unsupported data type \"bool\" for field " ++ field.name)

def renderScalarComparison (r : Renderer) (field : Field) (op : ComparisonOperator)
    (right : ValueExpr) : Except String (RenderResult × Renderer) := do
  let literal ← expectLiteral right
  let columnExpr : SqlTerm Placeholder := field.columnExpr r.dialect
  match literal with
  | .null =>
      let result ← renderNullComparison columnExpr op
      return (result, r)
  | literal =>
      let value ← scalarArg field literal
      let (placeholder, r) := r.addArg value
      return ({ sql := .compare op columnExpr (.param placeholder) }, r)

/-- `size(field)` against a number. -/
def renderFunctionComparison (r : Renderer) (name : String) (args : List ValueExpr)
    (op : ComparisonOperator) (right : ValueExpr) : Except String (RenderResult × Renderer) :=
  if name = "size" then
    match args with
    | [.fieldRef fieldName] =>
        match r.schema.field fieldName with
        | none => .error ("unknown field " ++ quoted fieldName)
        | some field =>
            if field.kind = .jsonList then do
              let value ← expectNumericLiteral right
              let expr : SqlTerm Placeholder := jsonArrayLengthExpr r.dialect field
              let (placeholder, r) := r.addArg (.int value)
              return ({ sql := .compare op expr (.param placeholder) }, r)
            else .error ("size() only supports tag lists, got " ++ quoted field.name)
    | [_] => .error "size() argument must be a field"
    | _ => .error "size() expects one argument"
  else .error ("unsupported function " ++ name ++ " in comparison")

def renderComparison (r : Renderer) (left : ValueExpr) (op : ComparisonOperator)
    (right : ValueExpr) : Except String (RenderResult × Renderer) :=
  match left with
  | .fieldRef name =>
      match r.schema.field name with
      | none => .error ("unknown field " ++ quoted name)
      | some field =>
          match field.kind with
          | .boolColumn => r.renderBoolColumnComparison field op right
          | .jsonBool => r.renderJSONBoolComparison field op right
          | .scalar => r.renderScalarComparison field op right
          | _ => .error ("field " ++ quoted field.name ++ " does not support comparison")
  | .functionValue name args => r.renderFunctionComparison name args op right
  | .literalValue _ =>
      .error "comparison must start with a field reference or supported function"

/-- The argument that a value of an `IN` list becomes. -/
def scalarInArg (field : Field) (literal : Literal) : Except String Arg :=
  match field.type with
  | .string =>
      match literal with
      | .string text => .ok (.string text)
      | _ => .error ("field " ++ quoted field.name ++ " expects string values")
  | .int => Arg.int <$> toInt64 literal
  | _ => .error ("field " ++ quoted field.name ++ " does not support IN() comparisons")

/-- The placeholders of an `IN` list, one argument for each value. -/
def addScalarArgs (r : Renderer) (field : Field) :
    List ValueExpr -> Except String (List Placeholder × Renderer)
  | [] => .ok ([], r)
  | value :: rest => do
      let literal ← expectLiteral value
      let arg ← scalarInArg field literal
      let (placeholder, r) := r.addArg arg
      let (placeholders, r) ← r.addScalarArgs field rest
      return (placeholder :: placeholders, r)

def renderScalarInCondition (r : Renderer) (field : Field) (values : List ValueExpr) :
    Except String (RenderResult × Renderer) := do
  let column : SqlTerm Placeholder := field.columnExpr r.dialect
  let (placeholders, r) ← r.addScalarArgs field values
  return ({ sql := .inList column placeholders }, r)

/-! ## Text and tags -/

/-- `%%"%s"%%`, the pattern of a complete tag inside the serialized list. -/
def exactPattern (value : String) : String := "%\"" ++ value ++ "\"%"

/-- `%%"%s/%%`, the pattern of a tag below the given one. -/
def hierarchyPattern (value : String) : String := "%\"" ++ value ++ "/%"

/-- `"%s"`, the value between quotes. -/
def quotedValue (value : String) : String := "\"" ++ value ++ "\""

/-- The membership test of a complete tag, as `in` uses it. -/
def renderExactTag (r : Renderer) (field : Field) (value : String) :
    SqlCondition Placeholder × Renderer :=
  let arrayExpr : SqlTerm Placeholder := jsonArrayExpr r.dialect field
  match r.dialect with
  | .sqlite =>
      let (placeholder, r) := r.addArg (.string (exactPattern value))
      (.like arrayExpr (.param placeholder), r)
  | .mysql =>
      let (placeholder, r) := r.addArg (.string (quotedValue value))
      (.jsonContains arrayExpr (.param placeholder), r)
  | .postgres =>
      let (placeholder, r) := r.addArg (.string (quotedValue value))
      (.jsonbContains arrayExpr (.call .jsonbBuildArray (.castJson (.param placeholder))), r)

/-- `buildJSONArrayLike` -/
def buildJSONArrayLike (r : Renderer) (arrayExpr : SqlTerm Placeholder) (pattern : String) :
    SqlCondition Placeholder × Renderer :=
  let (placeholder, r) := r.addArg (.string pattern)
  match r.dialect with
  | .postgres => (.like (.castText arrayExpr) (.param placeholder), r)
  | _ => (.like arrayExpr (.param placeholder), r)

/-- Exact tag or a tag below it, for each value of the list in turn. -/
def renderTagConditions (r : Renderer) (field : Field) :
    List ValueExpr -> Except String (List (SqlCondition Placeholder) × Renderer)
  | [] => .ok ([], r)
  | value :: rest => do
      match ← expectLiteral value with
      | .string text =>
          let (exactMatch, r) := r.renderExactTag field text
          let (prefixMatch, r) :=
            r.buildJSONArrayLike (jsonArrayExpr r.dialect field) (hierarchyPattern text)
          let (conditions, r) ← r.renderTagConditions field rest
          return (.paren (.or exactMatch prefixMatch) :: conditions, r)
      | _ => .error "tags must be compared with string literals"

def renderTagInList (r : Renderer) (values : List ValueExpr) :
    Except String (RenderResult × Renderer) :=
  match r.schema.resolveAlias "tag" with
  | none => .error "tag attribute is not configured"
  | some field => do
      let (conditions, r) ← r.renderTagConditions field values
      match conditions with
      | [condition] => return ({ sql := condition }, r)
      | conditions => return ({ sql := .paren (joinOr conditions) }, r)

def renderInCondition (r : Renderer) (left : ValueExpr) (values : List ValueExpr) :
    Except String (RenderResult × Renderer) :=
  match left with
  | .fieldRef name =>
      if name = "tag" then r.renderTagInList values
      else
        match r.schema.field name with
        | none => .error ("unknown field " ++ quoted name)
        | some field =>
            if field.kind = .scalar then r.renderScalarInCondition field values
            else .error ("field " ++ quoted name ++ " does not support IN()")
  | _ => .error "IN operator requires a field on the left-hand side"

def renderElementInCondition (r : Renderer) (element : ValueExpr) (name : String) :
    Except String (RenderResult × Renderer) :=
  match r.schema.field name with
  | none => .error ("unknown field " ++ quoted name)
  | some field =>
      if field.kind = .jsonList then do
        match ← expectLiteral element with
        | .string text =>
            let (condition, r) := r.renderExactTag field text
            return ({ sql := condition }, r)
        | _ => .error "tags membership requires string literal"
      else .error ("field " ++ quoted name ++ " is not a tag list")

def renderContainsCondition (r : Renderer) (name value : String) :
    Except String (RenderResult × Renderer) :=
  match r.schema.field name with
  | none => .error ("unknown field " ++ quoted name)
  | some field =>
      let column : SqlTerm Placeholder := field.columnExpr r.dialect
      let (placeholder, r) := r.addArg (.string ("%" ++ value ++ "%"))
      match r.dialect with
      | .sqlite =>
          .ok ({ sql := .like (.call .memosUnicodeLower column)
                          (.call .memosUnicodeLower (.param placeholder)) }, r)
      | .postgres => .ok ({ sql := .ilike column (.param placeholder) }, r)
      | .mysql => .ok ({ sql := .like column (.param placeholder) }, r)

/-- Exclude the absent and the empty list. -/
def wrapWithNullCheck (r : Renderer) (arrayExpr : SqlTerm Placeholder)
    (condition : SqlCondition Placeholder) : SqlCondition Placeholder :=
  let nonempty : SqlCondition Placeholder :=
    match r.dialect with
    | .sqlite => .compare .neq arrayExpr .emptyArrayText
    | .mysql => .compare .gt (.call .jsonLength arrayExpr) (.digit false)
    | .postgres => .compare .gt (.call .jsonbArrayLength arrayExpr) (.digit false)
  .paren (.and (.and condition (.isNotNull arrayExpr)) nonempty)

/-- The test for a complete tag that two of the comprehensions begin with. -/
def renderListedTag (r : Renderer) (field : Field) (value : String) :
    SqlCondition Placeholder × Renderer :=
  match r.dialect with
  | .postgres => r.renderExactTag field value
  | _ => r.buildJSONArrayLike (jsonArrayExpr r.dialect field) (exactPattern value)

/-- `tags.exists(t, t == "value")` -/
def renderTagEquals (r : Renderer) (field : Field) (value : String) :
    SqlCondition Placeholder × Renderer :=
  let arrayExpr : SqlTerm Placeholder := jsonArrayExpr r.dialect field
  let (exactMatch, r) := r.renderListedTag field value
  (r.wrapWithNullCheck arrayExpr exactMatch, r)

/-- `tags.exists(t, t.startsWith("prefix"))` -/
def renderTagStartsWith (r : Renderer) (field : Field) (pre : String) :
    SqlCondition Placeholder × Renderer :=
  let arrayExpr : SqlTerm Placeholder := jsonArrayExpr r.dialect field
  let (exactMatch, r) := r.renderListedTag field pre
  let (prefixMatch, r) := r.buildJSONArrayLike arrayExpr ("%\"" ++ pre ++ "%")
  (r.wrapWithNullCheck arrayExpr (.paren (.or exactMatch prefixMatch)), r)

/-- `tags.exists(t, t.endsWith("suffix"))` -/
def renderTagEndsWith (r : Renderer) (field : Field) (suffix : String) :
    SqlCondition Placeholder × Renderer :=
  let arrayExpr : SqlTerm Placeholder := jsonArrayExpr r.dialect field
  let (likeExpr, r) := r.buildJSONArrayLike arrayExpr ("%" ++ suffix ++ "\"%")
  (r.wrapWithNullCheck arrayExpr likeExpr, r)

/-- `tags.exists(t, t.contains("substring"))` -/
def renderTagContains (r : Renderer) (field : Field) (substring : String) :
    SqlCondition Placeholder × Renderer :=
  let arrayExpr : SqlTerm Placeholder := jsonArrayExpr r.dialect field
  let (likeExpr, r) := r.buildJSONArrayLike arrayExpr ("%" ++ substring ++ "%")
  (r.wrapWithNullCheck arrayExpr likeExpr, r)

def renderListComprehension (r : Renderer) (name : String) (predicate : PredicateExpr) :
    Except String (RenderResult × Renderer) :=
  match r.schema.field name with
  | none => .error ("unknown field " ++ quoted name)
  | some field =>
      if field.kind = .jsonList then
        let (condition, r) :=
          match predicate with
          | .equals value => r.renderTagEquals field value
          | .startsWith pre => r.renderTagStartsWith field pre
          | .endsWith suffix => r.renderTagEndsWith field suffix
          | .contains substring => r.renderTagContains field substring
        .ok ({ sql := condition }, r)
      else .error ("field " ++ quoted name ++ " is not a JSON list")

/-! ## The tree -/

def renderCondition (r : Renderer) : Condition -> Except String (RenderResult × Renderer)
  | .logical operator left right => do
      let (left, r) ← r.renderCondition left
      let (right, r) ← r.renderCondition right
      match operator with
      | .and => return (combineAnd left right, r)
      | .or => return (combineOr left right, r)
  | .not expr => do
      let (child, r) ← r.renderCondition expr
      return (combineNot child, r)
  | .fieldPredicate field => r.renderFieldPredicate field
  | .comparison left operator right => r.renderComparison left operator right
  | .inList left values => r.renderInCondition left values
  | .elementIn element field => r.renderElementInCondition element field
  | .contains field value => r.renderContainsCondition field value
  | .listComprehension _ field _ predicate => r.renderListComprehension field predicate
  | .constant true => .ok (trivialResult, r)
  | .constant false => .ok (unsatisfiableResult, r)

/-- `Render`: the statement of a whole tree, with every recorded argument. -/
def render (r : Renderer) (condition : Condition) : Except String Statement := do
  let (result, r) ← r.renderCondition condition
  if result.unsatisfiable then return ⟨.falsum, r.args⟩
  else if result.trivial then return ⟨.empty, r.args⟩
  else return ⟨result.sql, r.args⟩

end Renderer

end Filter
end Memos
