import Memos.Filter.Schema

namespace Memos
namespace Filter

/-!
# The SQL fragments of the renderer

The renderer of the source assembles text.  Every format string it uses is one
constructor here, and `tokens` writes the same text out again, as fixed pieces
with placeholders between them.  The type of the placeholders is a parameter:
`Placeholder` for a rendered fragment, and the argument itself for a fragment
in which every placeholder has received its value.
-/

/-- A piece of SQL text. -/
inductive Token (π : Type) where
  | raw (text : String)
  | param (placeholder : π)

/-- The functions of one argument. -/
inductive SqlFunction where
  | jsonArrayLength
  | jsonLength
  | jsonbArrayLength
  | jsonbBuildArray
  | memosUnicodeLower
deriving DecidableEq

/-- A scalar SQL expression. -/
inductive SqlTerm (π : Type) where
  | column (column : Column)
  | expression (format : Expression) (base : SqlTerm π)
  | param (placeholder : π)
  /-- The integer literals `0` and `1`. -/
  | digit (value : Bool)
  /-- `JSON_EXTRACT(column, '$.path')` -/
  | jsonExtract (column : Column) (path : List String)
  /-- `column->'a'->>'b'`, or with `->` throughout -/
  | jsonAccessor (column : Column) (path : List String) (terminalText : Bool)
  /-- `CAST('true' AS JSON)` -/
  | jsonBool (value : Bool)
  /-- `JSON_ARRAY()` -/
  | jsonEmptyArray
  /-- `'[]'::jsonb` -/
  | jsonbEmptyArray
  /-- `'[]'` -/
  | emptyArrayText
  /-- `(term)::boolean` -/
  | castBoolean (term : SqlTerm π)
  /-- `(term)::text` -/
  | castText (term : SqlTerm π)
  /-- `term::json` -/
  | castJson (term : SqlTerm π)
  /-- `COALESCE(term, fallback)` -/
  | coalesce (term fallback : SqlTerm π)
  | call (function : SqlFunction) (argument : SqlTerm π)

/-- A boolean SQL expression.  Connectives add no parentheses of their own;
`paren` stands where a format string writes them. -/
inductive SqlCondition (π : Type) where
  /-- The empty text. -/
  | empty
  /-- `1 = 0` -/
  | falsum
  /-- `1 = 1`, with which the drivers start their clauses -/
  | verum
  | compare (op : ComparisonOperator) (left right : SqlTerm π)
  | like (left right : SqlTerm π)
  | ilike (left right : SqlTerm π)
  /-- `JSON_CONTAINS(left, right)` -/
  | jsonContains (left right : SqlTerm π)
  /-- `left @> right` -/
  | jsonbContains (left right : SqlTerm π)
  | isTrue (term : SqlTerm π)
  /-- `NOT(term IS TRUE)` -/
  | notIsTrue (term : SqlTerm π)
  | isNull (term : SqlTerm π)
  | isNotNull (term : SqlTerm π)
  /-- `term IN (?,?)` -/
  | inList (term : SqlTerm π) (placeholders : List π)
  /-- `NOT (condition)` -/
  | not (condition : SqlCondition π)
  | and (left right : SqlCondition π)
  | or (left right : SqlCondition π)
  | paren (condition : SqlCondition π)

/-! ## Text -/

/-- `qualifyColumn` -/
def qualifyColumn (dialect : DialectName) (column : Column) : String :=
  match dialect with
  | .postgres => column.table ++ "." ++ column.name
  | _ => "`" ++ column.table ++ "`.`" ++ column.name ++ "`"

/-- `jsonPath` -/
def jsonPath (path : List String) : String := "$." ++ String.intercalate "." path

/-- `buildPostgresJSONAccessor` -/
def buildPostgresJSONAccessor (base : String) (terminalText : Bool) : List String -> String
  | [] => base
  | [part] =>
      if terminalText then base ++ "->>'" ++ part ++ "'" else base ++ "->'" ++ part ++ "'"
  | part :: rest => buildPostgresJSONAccessor (base ++ "->'" ++ part ++ "'") terminalText rest

def SqlFunction.text : SqlFunction -> String
  | .jsonArrayLength => "JSON_ARRAY_LENGTH"
  | .jsonLength => "JSON_LENGTH"
  | .jsonbArrayLength => "jsonb_array_length"
  | .jsonbBuildArray => "jsonb_build_array"
  | .memosUnicodeLower => "memos_unicode_lower"

variable {π ρ : Type}

namespace SqlTerm

/-- The text of a term. -/
def tokens (dialect : DialectName) : SqlTerm π -> List (Token π)
  | .column col => [.raw (qualifyColumn dialect col)]
  | .expression .concatOperator base =>
      [.raw "('users/' || "] ++ base.tokens dialect ++ [.raw ")"]
  | .expression .concatFunction base =>
      [.raw "CONCAT('users/', "] ++ base.tokens dialect ++ [.raw ")"]
  | .expression .unixTimestamp base =>
      [.raw "UNIX_TIMESTAMP("] ++ base.tokens dialect ++ [.raw ")"]
  | .expression .bare base => base.tokens dialect
  | .param placeholder => [.param placeholder]
  | .digit value => [.raw (if value then "1" else "0")]
  | .jsonExtract col path =>
      [.raw ("JSON_EXTRACT(" ++ qualifyColumn dialect col ++ ", '" ++ jsonPath path ++ "')")]
  | .jsonAccessor col path terminalText =>
      [.raw (buildPostgresJSONAccessor (qualifyColumn dialect col) terminalText path)]
  | .jsonBool value => [.raw ("CAST('" ++ (if value then "true" else "false") ++ "' AS JSON)")]
  | .jsonEmptyArray => [.raw "JSON_ARRAY()"]
  | .jsonbEmptyArray => [.raw "'[]'::jsonb"]
  | .emptyArrayText => [.raw "'[]'"]
  | .castBoolean term => [.raw "("] ++ term.tokens dialect ++ [.raw ")::boolean"]
  | .castText term => [.raw "("] ++ term.tokens dialect ++ [.raw ")::text"]
  | .castJson term => term.tokens dialect ++ [.raw "::json"]
  | .coalesce term fallback =>
      [.raw "COALESCE("] ++ term.tokens dialect ++ [.raw ", "] ++ fallback.tokens dialect
        ++ [.raw ")"]
  | .call function argument =>
      [.raw (function.text ++ "(")] ++ argument.tokens dialect ++ [.raw ")"]

/-- Replace every placeholder. -/
def map (f : π -> ρ) : SqlTerm π -> SqlTerm ρ
  | .column col => .column col
  | .expression format base => .expression format (base.map f)
  | .param placeholder => .param (f placeholder)
  | .digit value => .digit value
  | .jsonExtract col path => .jsonExtract col path
  | .jsonAccessor col path terminalText => .jsonAccessor col path terminalText
  | .jsonBool value => .jsonBool value
  | .jsonEmptyArray => .jsonEmptyArray
  | .jsonbEmptyArray => .jsonbEmptyArray
  | .emptyArrayText => .emptyArrayText
  | .castBoolean term => .castBoolean (term.map f)
  | .castText term => .castText (term.map f)
  | .castJson term => .castJson (term.map f)
  | .coalesce term fallback => .coalesce (term.map f) (fallback.map f)
  | .call function argument => .call function (argument.map f)

end SqlTerm

/-- Placeholders separated by commas. -/
def commaTokens : List π -> List (Token π)
  | [] => []
  | [placeholder] => [.param placeholder]
  | placeholder :: rest => [.param placeholder, .raw ","] ++ commaTokens rest

namespace SqlCondition

/-- The text of a condition. -/
def tokens (dialect : DialectName) : SqlCondition π -> List (Token π)
  | .empty => []
  | .falsum => [.raw "1 = 0"]
  | .verum => [.raw "1 = 1"]
  | .compare op left right =>
      left.tokens dialect ++ [.raw (" " ++ sqlOperator op ++ " ")] ++ right.tokens dialect
  | .like left right => left.tokens dialect ++ [.raw " LIKE "] ++ right.tokens dialect
  | .ilike left right => left.tokens dialect ++ [.raw " ILIKE "] ++ right.tokens dialect
  | .jsonContains left right =>
      [.raw "JSON_CONTAINS("] ++ left.tokens dialect ++ [.raw ", "] ++ right.tokens dialect
        ++ [.raw ")"]
  | .jsonbContains left right => left.tokens dialect ++ [.raw " @> "] ++ right.tokens dialect
  | .isTrue term => term.tokens dialect ++ [.raw " IS TRUE"]
  | .notIsTrue term => [.raw "NOT("] ++ term.tokens dialect ++ [.raw " IS TRUE)"]
  | .isNull term => term.tokens dialect ++ [.raw " IS NULL"]
  | .isNotNull term => term.tokens dialect ++ [.raw " IS NOT NULL"]
  | .inList term placeholders =>
      term.tokens dialect ++ [.raw " IN ("] ++ commaTokens placeholders ++ [.raw ")"]
  | .not condition => [.raw "NOT ("] ++ condition.tokens dialect ++ [.raw ")"]
  | .and left right => left.tokens dialect ++ [.raw " AND "] ++ right.tokens dialect
  | .or left right => left.tokens dialect ++ [.raw " OR "] ++ right.tokens dialect
  | .paren condition => [.raw "("] ++ condition.tokens dialect ++ [.raw ")"]

/-- Whether the text is empty. -/
def isEmpty : SqlCondition π -> Bool
  | .empty => true
  | _ => false

/-- Replace every placeholder. -/
def map (f : π -> ρ) : SqlCondition π -> SqlCondition ρ
  | .empty => .empty
  | .falsum => .falsum
  | .verum => .verum
  | .compare op left right => .compare op (left.map f) (right.map f)
  | .like left right => .like (left.map f) (right.map f)
  | .ilike left right => .ilike (left.map f) (right.map f)
  | .jsonContains left right => .jsonContains (left.map f) (right.map f)
  | .jsonbContains left right => .jsonbContains (left.map f) (right.map f)
  | .isTrue term => .isTrue (term.map f)
  | .notIsTrue term => .notIsTrue (term.map f)
  | .isNull term => .isNull (term.map f)
  | .isNotNull term => .isNotNull (term.map f)
  | .inList term placeholders => .inList (term.map f) (placeholders.map f)
  | .not condition => .not (condition.map f)
  | .and left right => .and (left.map f) (right.map f)
  | .or left right => .or (left.map f) (right.map f)
  | .paren condition => .paren (condition.map f)

end SqlCondition

/-! ## Placeholders in reading order -/

/-- The placeholders of a text, read from left to right. -/
def tokenParams : List (Token π) -> List π
  | [] => []
  | .raw _ :: rest => tokenParams rest
  | .param placeholder :: rest => placeholder :: tokenParams rest

@[simp] theorem tokenParams_append (first second : List (Token π)) :
    tokenParams (first ++ second) = tokenParams first ++ tokenParams second := by
  induction first with
  | nil => rfl
  | cons token rest ih =>
      cases token with
      | raw text => exact ih
      | param placeholder => exact congrArg (List.cons placeholder) ih

theorem tokenParams_commaTokens (placeholders : List π) :
    tokenParams (commaTokens placeholders) = placeholders := by
  induction placeholders with
  | nil => rfl
  | cons placeholder rest ih =>
      cases rest with
      | nil => rfl
      | cons next others =>
          simp only [commaTokens, tokenParams_append, ih]
          rfl

/-- The placeholders of a term, without the text around them. -/
def SqlTerm.params : SqlTerm π -> List π
  | .expression _ base => base.params
  | .param placeholder => [placeholder]
  | .castBoolean term => term.params
  | .castText term => term.params
  | .castJson term => term.params
  | .coalesce term fallback => term.params ++ fallback.params
  | .call _ argument => argument.params
  | _ => []

/-- The placeholders of a condition, without the text around them. -/
def SqlCondition.params : SqlCondition π -> List π
  | .empty => []
  | .falsum => []
  | .verum => []
  | .compare _ left right => left.params ++ right.params
  | .like left right => left.params ++ right.params
  | .ilike left right => left.params ++ right.params
  | .jsonContains left right => left.params ++ right.params
  | .jsonbContains left right => left.params ++ right.params
  | .isTrue term => term.params
  | .notIsTrue term => term.params
  | .isNull term => term.params
  | .isNotNull term => term.params
  | .inList term placeholders => term.params ++ placeholders
  | .not condition => condition.params
  | .and left right => left.params ++ right.params
  | .or left right => left.params ++ right.params
  | .paren condition => condition.params

theorem SqlTerm.tokenParams_tokens (dialect : DialectName) (term : SqlTerm π) :
    tokenParams (term.tokens dialect) = term.params := by
  induction term with
  | expression format base ih =>
      cases format <;>
        simp only [tokens, params, tokenParams_append, ih, tokenParams,
          List.nil_append, List.append_nil]
  | coalesce term fallback first second =>
      simp only [tokens, params, tokenParams_append, first, second, tokenParams,
        List.nil_append, List.append_nil]
  | castBoolean term ih | castText term ih
  | castJson term ih | call function term ih =>
      simp only [tokens, params, tokenParams_append, ih, tokenParams,
        List.nil_append, List.append_nil]
  | _ => rfl

/-- Reading the text of a condition meets its placeholders in the order of
the tree, in every dialect. -/
theorem SqlCondition.tokenParams_tokens (dialect : DialectName) (condition : SqlCondition π) :
    tokenParams (condition.tokens dialect) = condition.params := by
  induction condition with
  | inList term placeholders =>
      simp only [tokens, params, tokenParams_append, SqlTerm.tokenParams_tokens,
        tokenParams_commaTokens, tokenParams, List.append_nil]
  | not condition ih | paren condition ih =>
      simp only [tokens, params, tokenParams_append, ih, tokenParams,
        List.nil_append, List.append_nil]
  | and left right first second | or left right first second =>
      simp only [tokens, params, tokenParams_append, first, second, tokenParams,
        List.append_nil]
  | _ =>
      simp only [tokens, params, tokenParams_append, SqlTerm.tokenParams_tokens, tokenParams,
        List.nil_append, List.append_nil]

/-! ## Positional binding -/

/-- Give the placeholders of a term the values of a list from left to right.
The rest of the list is returned; there is no result when it is too short. -/
def SqlTerm.bind : SqlTerm π -> List ρ -> Option (SqlTerm ρ × List ρ)
  | .column col, values => some (.column col, values)
  | .expression format base, values => do
      let (base, values) ← base.bind values
      return (.expression format base, values)
  | .param _, [] => none
  | .param _, value :: values => some (.param value, values)
  | .digit value, values => some (.digit value, values)
  | .jsonExtract col path, values => some (.jsonExtract col path, values)
  | .jsonAccessor col path terminalText, values =>
      some (.jsonAccessor col path terminalText, values)
  | .jsonBool value, values => some (.jsonBool value, values)
  | .jsonEmptyArray, values => some (.jsonEmptyArray, values)
  | .jsonbEmptyArray, values => some (.jsonbEmptyArray, values)
  | .emptyArrayText, values => some (.emptyArrayText, values)
  | .castBoolean term, values => do
      let (term, values) ← term.bind values
      return (.castBoolean term, values)
  | .castText term, values => do
      let (term, values) ← term.bind values
      return (.castText term, values)
  | .castJson term, values => do
      let (term, values) ← term.bind values
      return (.castJson term, values)
  | .coalesce term fallback, values => do
      let (term, values) ← term.bind values
      let (fallback, values) ← fallback.bind values
      return (.coalesce term fallback, values)
  | .call function argument, values => do
      let (argument, values) ← argument.bind values
      return (.call function argument, values)

/-- Bind the two operands of a binary construct, the left one first. -/
def bindPair (build : SqlTerm ρ -> SqlTerm ρ -> SqlCondition ρ) (left right : SqlTerm π)
    (values : List ρ) : Option (SqlCondition ρ × List ρ) := do
  let (left, values) ← left.bind values
  let (right, values) ← right.bind values
  return (build left right, values)

/-- Bind the operand of a unary construct. -/
def bindSingle (build : SqlTerm ρ -> SqlCondition ρ) (term : SqlTerm π)
    (values : List ρ) : Option (SqlCondition ρ × List ρ) := do
  let (term, values) ← term.bind values
  return (build term, values)

/-- Give the placeholders of a condition the values of a list from left to
right, as the drivers with `?` placeholders do. -/
def SqlCondition.bind : SqlCondition π -> List ρ -> Option (SqlCondition ρ × List ρ)
  | .empty, values => some (.empty, values)
  | .falsum, values => some (.falsum, values)
  | .verum, values => some (.verum, values)
  | .compare op left right, values => bindPair (.compare op) left right values
  | .like left right, values => bindPair .like left right values
  | .ilike left right, values => bindPair .ilike left right values
  | .jsonContains left right, values => bindPair .jsonContains left right values
  | .jsonbContains left right, values => bindPair .jsonbContains left right values
  | .isTrue term, values => bindSingle .isTrue term values
  | .notIsTrue term, values => bindSingle .notIsTrue term values
  | .isNull term, values => bindSingle .isNull term values
  | .isNotNull term, values => bindSingle .isNotNull term values
  | .inList term placeholders, values => do
      let (term, values) ← term.bind values
      if placeholders.length ≤ values.length then
        return (.inList term (values.take placeholders.length),
          values.drop placeholders.length)
      else none
  | .not condition, values => do
      let (condition, values) ← condition.bind values
      return (.not condition, values)
  | .and left right, values => do
      let (left, values) ← left.bind values
      let (right, values) ← right.bind values
      return (.and left right, values)
  | .or left right, values => do
      let (left, values) ← left.bind values
      let (right, values) ← right.bind values
      return (.or left right, values)
  | .paren condition, values => do
      let (condition, values) ← condition.bind values
      return (.paren condition, values)

/-- A term whose placeholders receive their own values. -/
theorem SqlTerm.bind_params (f : π -> ρ) (term : SqlTerm π) (rest : List ρ) :
    term.bind (term.params.map f ++ rest) = some (term.map f, rest) := by
  induction term generalizing rest with
  | coalesce term fallback first second =>
      simp only [params, map, bind, List.map_append, List.append_assoc, first, second,
        Option.bind_eq_bind, Option.bind_some, Option.pure_def]
  | expression format base ih
  | castBoolean term ih | castText term ih
  | castJson term ih | call function term ih =>
      simp only [params, map, bind, ih, Option.bind_eq_bind,
        Option.bind_some, Option.pure_def]
  | _ => rfl

theorem bindPair_params (f : π -> ρ) (build : SqlTerm ρ -> SqlTerm ρ -> SqlCondition ρ)
    (left right : SqlTerm π) (rest : List ρ) :
    bindPair build left right ((left.params ++ right.params).map f ++ rest) =
      some (build (left.map f) (right.map f), rest) := by
  simp only [bindPair, List.map_append, List.append_assoc, SqlTerm.bind_params,
    Option.bind_eq_bind, Option.bind_some, Option.pure_def]

theorem bindSingle_params (f : π -> ρ) (build : SqlTerm ρ -> SqlCondition ρ)
    (term : SqlTerm π) (rest : List ρ) :
    bindSingle build term (term.params.map f ++ rest) = some (build (term.map f), rest) := by
  simp only [bindSingle, SqlTerm.bind_params, Option.bind_eq_bind, Option.bind_some,
    Option.pure_def]

/-- A condition whose placeholders receive their own values: binding by
position then agrees with replacing each placeholder by its value. -/
theorem SqlCondition.bind_params (f : π -> ρ) (condition : SqlCondition π) (rest : List ρ) :
    condition.bind (condition.params.map f ++ rest) = some (condition.map f, rest) := by
  induction condition generalizing rest with
  | empty | falsum | verum => rfl
  | compare op left right => exact bindPair_params f _ left right rest
  | like left right | ilike left right | jsonContains left right | jsonbContains left right =>
      exact bindPair_params f _ left right rest
  | isTrue term | notIsTrue term | isNull term | isNotNull term =>
      exact bindSingle_params f _ term rest
  | inList term placeholders =>
      have enough : placeholders.length ≤ (placeholders.map f ++ rest).length := by
        rw [List.length_append, List.length_map]
        exact Nat.le_add_right _ _
      have lengths : placeholders.length = (placeholders.map f).length := by
        rw [List.length_map]
      simp only [params, map, bind, List.map_append, List.append_assoc, SqlTerm.bind_params,
        Option.bind_eq_bind, Option.bind_some, Option.pure_def, if_pos enough]
      rw [lengths, List.take_left, List.drop_left]
  | not condition ih | paren condition ih =>
      simp only [params, map, bind, ih, Option.bind_eq_bind,
        Option.bind_some, Option.pure_def]
  | and left right first second | or left right first second =>
      simp only [params, map, bind, List.map_append, List.append_assoc, first, second,
        Option.bind_eq_bind, Option.bind_some, Option.pure_def]

end Filter
end Memos
