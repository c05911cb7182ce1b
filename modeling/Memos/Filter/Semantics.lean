import Memos.Library.ThreeValued
import Memos.Library.Like
import Memos.Filter.Json
import Memos.Filter.Render

namespace Memos
namespace Filter

open Library

/-!
# What the databases make of a rendered condition

The meaning of `SqlCondition` on one row of the joined memo table, for each
dialect.  A condition is a three-valued truth, or an error that the database
reports for the whole statement: a malformed text, operands that cannot be
compared, or a failed cast.  Collation and Unicode case mapping belong to the
database server and to a text library; they are parameters.
-/

/-- A value of a column or of an expression. -/
inductive SqlValue where
  | null
  | int (value : Int)
  | text (value : String)
  | bool (value : Bool)
  /-- A `TIMESTAMP` of MySQL, as its epoch second. -/
  | timestamp (seconds : Int)
  | json (value : Json)

/-- How a database rejects a statement. -/
inductive SqlError where
  | malformed
  | typeMismatch
  | invalidInput
deriving DecidableEq

/-- The text behaviour that a server or a library decides. -/
structure TextRules where
  /-- The collation of the text columns, which is binary in SQLite. -/
  collate : String -> String -> Ordering
  /-- Equality of characters in `ILIKE` and under the collation of MySQL. -/
  sameLetter : Char -> Char -> Bool
  /-- `cases.Fold` on one character. -/
  fold : Char -> List Char
  /-- How an integer compares in SQLite with the number that a text spells, if
  it spells one. -/
  compareNumber : Int -> String -> Option Ordering

/-- The values of the columns of one row. -/
abbrev Row := Column -> SqlValue

/-- Whether an operator holds for operands in this order. -/
def ComparisonOperator.holds : ComparisonOperator -> Ordering -> Bool
  | .eq, order => order == .eq
  | .neq, order => order != .eq
  | .lt, order => order == .lt
  | .lte, order => order != .gt
  | .gt, order => order == .gt
  | .gte, order => order != .lt

/-- A space follows the commas of a JSON text, except in SQLite. -/
def jsonSpace : DialectName -> String
  | .sqlite => ""
  | _ => " "

/-- The value that a driver sends for an argument.  Only Postgres has a
boolean type. -/
def Arg.value (dialect : DialectName) : Arg -> SqlValue
  | .string value => .text value
  | .int value => .int value
  | .bool value =>
      match dialect with
      | .postgres => .bool value
      | _ => .int (if value then 1 else 0)

/-! ## Terms -/

/-- What `JSON_EXTRACT` returns for a part of the document: SQLite converts
scalars to its own values and MySQL keeps them. -/
def extracted (dialect : DialectName) : Option Json -> SqlValue
  | none => .null
  | some part =>
      match dialect, part with
      | .sqlite, .null => .null
      | .sqlite, .bool value => .int (if value then 1 else 0)
      | .sqlite, .string value => .text value
      | _, part => .json part

/-- What `->>` returns for a part of the document. -/
def extractedText : Option Json -> SqlValue
  | none => .null
  | some .null => .null
  | some (.string value) => .text value
  | some part => .text (part.text " ")

/-- Cast to `boolean` in Postgres. -/
def castToBoolean : SqlValue -> Except SqlError SqlValue
  | .null => .ok .null
  | .bool value => .ok (.bool value)
  | .text "true" => .ok (.bool true)
  | .text "false" => .ok (.bool false)
  | .text _ => .error .invalidInput
  | _ => .error .typeMismatch

/-- Cast to `text`. -/
def castToText (dialect : DialectName) : SqlValue -> Except SqlError SqlValue
  | .null => .ok .null
  | .text value => .ok (.text value)
  | .json value => .ok (.text (value.text (jsonSpace dialect)))
  | _ => .error .typeMismatch

/-- Cast to `json`, of the quoted values that the renderer sends. -/
def castToJson : SqlValue -> Except SqlError SqlValue
  | .null => .ok .null
  | .text value =>
      match parseQuoted value with
      | some json => .ok (.json json)
      | none => .error .invalidInput
  | _ => .error .typeMismatch

/-- The functions of one argument. -/
def SqlFunction.apply (rules : TextRules) : SqlFunction -> SqlValue -> Except SqlError SqlValue
  | .jsonArrayLength, .null => .ok .null
  | .jsonArrayLength, .json (.array elements) => .ok (.int elements.length)
  | .jsonArrayLength, .json _ => .ok (.int 0)
  | .jsonLength, .null => .ok .null
  | .jsonLength, .json (.array elements) => .ok (.int elements.length)
  | .jsonLength, .json (.object members) => .ok (.int members.length)
  | .jsonLength, .json _ => .ok (.int 1)
  | .jsonbArrayLength, .null => .ok .null
  | .jsonbArrayLength, .json (.array elements) => .ok (.int elements.length)
  | .jsonbBuildArray, .null => .ok (.json (.array [.null]))
  | .jsonbBuildArray, .json value => .ok (.json (.array [value]))
  | .memosUnicodeLower, .text value =>
      .ok (.text (String.ofList (value.toList.flatMap rules.fold)))
  | .memosUnicodeLower, value => .ok value
  | _, _ => .error .typeMismatch

/-- The column expressions of the schema. -/
def Expression.apply : Expression -> SqlValue -> Except SqlError SqlValue
  | .bare, value => .ok value
  | _, .null => .ok .null
  | .concatOperator, .text value => .ok (.text ("users/" ++ value))
  | .concatFunction, .text value => .ok (.text ("users/" ++ value))
  | .unixTimestamp, .timestamp seconds => .ok (.int seconds)
  | _, _ => .error .typeMismatch

variable (rules : TextRules) (dialect : DialectName) (row : Row)

/-- The document of a JSON column. -/
def documentAt (col : Column) : Except SqlError (Option Json) :=
  match row col with
  | .null => .ok none
  | .json document => .ok (some document)
  | _ => .error .typeMismatch

/-- The value of a term on a row. -/
def SqlTerm.eval : SqlTerm Arg -> Except SqlError SqlValue
  | .column col => .ok (row col)
  | .expression format base => base.eval >>= format.apply
  | .param value => .ok (value.value dialect)
  | .digit value => .ok (.int (if value then 1 else 0))
  | .jsonExtract col path =>
      (fun document => extracted dialect (document.bind (Json.get path))) <$> documentAt row col
  | .jsonAccessor col path terminalText =>
      (fun document =>
        if terminalText then extractedText (document.bind (Json.get path))
        else extracted dialect (document.bind (Json.get path))) <$> documentAt row col
  | .jsonBool value => .ok (.json (.bool value))
  | .jsonEmptyArray => .ok (.json (.array []))
  | .jsonbEmptyArray => .ok (.json (.array []))
  | .emptyArrayText => .ok (.text "[]")
  | .castBoolean term => term.eval >>= castToBoolean
  | .castText term => term.eval >>= castToText dialect
  | .castJson term => term.eval >>= castToJson
  | .coalesce term fallback => do
      match ← term.eval with
      | .null => fallback.eval
      | value => return value
  | .call function argument => argument.eval >>= function.apply rules

/-! ## Comparisons -/

/-- The term is a column, which has the affinity of its type. -/
def SqlTerm.isColumn {π : Type} : SqlTerm π -> Bool
  | .column _ => true
  | .expression .bare base => base.isColumn
  | _ => false

/-- An integer and a text in SQLite.  Against a numeric column a text is read as
the number that it spells, against a text column an integer is written out, and
otherwise integers come before texts. -/
def compareIntText (numeric textual : Bool) (number : Int) (text : String) : Ordering :=
  if numeric then (rules.compareNumber number text).getD .lt
  else if textual then compare (toString number) text
  else .lt

/-- A JSON value of SQLite is its text. -/
def SqlValue.inSqlite : SqlValue -> SqlValue
  | .json value => .text (value.text "")
  | value => value

/-- SQLite compares integers and texts in any combination, and has neither
booleans nor timestamps. -/
def compareInSqlite (leftColumn rightColumn : Bool) :
    SqlValue -> SqlValue -> Except SqlError (Option Ordering)
  | .null, _ => .ok none
  | _, .null => .ok none
  | .int left, .int right => .ok (some (compare left right))
  | .text left, .text right => .ok (some (compare left right))
  | .int left, .text right => .ok (some (compareIntText rules leftColumn rightColumn left right))
  | .text left, .int right =>
      .ok (some (compareIntText rules rightColumn leftColumn right left).swap)
  | _, _ => .error .typeMismatch

/-- The comparison of the other databases.  That MySQL would turn both sides
into floating-point numbers where their types differ is left out. -/
def compareTyped : SqlValue -> SqlValue -> Except SqlError (Option Ordering)
  | .null, _ => .ok none
  | _, .null => .ok none
  | .int left, .int right => .ok (some (compare left right))
  | .text left, .text right => .ok (some (rules.collate left right))
  | .bool left, .bool right => .ok (some (compare left right))
  | .json (.bool left), .json (.bool right) => .ok (some (compare left right))
  | _, _ => .error .typeMismatch

/-- The order of two values, unknown when one of them is missing. -/
def compareValues (leftColumn rightColumn : Bool) (left right : SqlValue) :
    Except SqlError (Option Ordering) :=
  match dialect with
  | .sqlite => compareInSqlite rules leftColumn rightColumn left.inSqlite right.inSqlite
  | _ => compareTyped rules left right

/-- The truth of a comparison whose operands are in this order. -/
def orderTruth (op : ComparisonOperator) : Option Ordering -> Truth
  | none => .unknown
  | some order => .ofBool (op.holds order)

/-- The truth of `IN`: a match, or a missing element, or neither. -/
def anyEqual (column : Bool) (value : SqlValue) : List SqlValue -> Except SqlError Truth
  | [] => .ok .no
  | element :: rest => do
      let order ← compareValues rules dialect column false value element
      let others ← anyEqual column value rest
      return (orderTruth .eq order).or others

/-- The text that a pattern is matched against. -/
def patternText : SqlValue -> Except SqlError (Option String)
  | .null => .ok none
  | .text value => .ok (some value)
  | .int value =>
      match dialect with
      | .postgres => .error .typeMismatch
      | _ => .ok (some (toString value))
  | .json value =>
      match dialect with
      | .postgres => .error .typeMismatch
      | _ => .ok (some (value.text (jsonSpace dialect)))
  | _ => .error .typeMismatch

/-- ASCII letters are equal up to case. -/
def asciiSame (first second : Char) : Bool := first.toLower == second.toLower

/-- The comparison of characters in `LIKE`.  The text of a JSON value has a
binary collation in MySQL. -/
def likeSame : SqlValue -> Char -> Char -> Bool
  | left =>
      match dialect, left with
      | .sqlite, _ => asciiSame
      | .mysql, .text _ => rules.sameLetter
      | _, _ => fun first second => first == second

/-- Only SQLite has no escape character. -/
def likeEscape : Option Char :=
  match dialect with
  | .sqlite => none
  | _ => some '\\'

/-- The truth of `left LIKE right`. -/
def likeTruth (same : Char -> Char -> Bool) (left right : SqlValue) : Except SqlError Truth := do
  match ← patternText dialect left, ← patternText dialect right with
  | some value, some pattern =>
      match readPattern (likeEscape dialect) pattern.toList with
      | some items => return .ofBool (matchesPattern same items value.toList)
      | none => .error .invalidInput
  | _, _ => return .unknown

/-- Whether an array holds a string. -/
def Json.holdsString (value : String) : Json -> Bool
  | .array elements =>
      elements.any fun element =>
        match element with
        | .string other => other == value
        | _ => false
  | _ => false

/-- `JSON_CONTAINS(left, right)` with the text of a quoted value on the right. -/
def jsonContainsTruth : SqlValue -> SqlValue -> Except SqlError Truth
  | .null, _ => .ok .unknown
  | _, .null => .ok .unknown
  | .json list, .text source =>
      match parseQuoted source with
      | some (.string value) => .ok (.ofBool (list.holdsString value))
      | _ => .error .invalidInput
  | _, _ => .error .typeMismatch

/-- `left @> right` with a one-element array of a string on the right. -/
def jsonbContainsTruth : SqlValue -> SqlValue -> Except SqlError Truth
  | .null, _ => .ok .unknown
  | _, .null => .ok .unknown
  | .json list, .json (.array [.string value]) => .ok (.ofBool (list.holdsString value))
  | _, _ => .error .typeMismatch

/-- `IS TRUE` is never unknown. -/
def isTrueTruth : SqlValue -> Except SqlError Truth
  | .null => .ok .no
  | .int value => .ok (.ofBool (value != 0))
  | .bool value => .ok (.ofBool value)
  | _ => .error .typeMismatch

/-- `IS NULL` is never unknown. -/
def isNullTruth : SqlValue -> Truth
  | .null => .yes
  | _ => .no

/-- The truth of a condition on a row.  An empty text and, outside of SQLite,
an empty `IN` list are not well formed. -/
def SqlCondition.eval : SqlCondition Arg -> Except SqlError Truth
  | .empty => .error .malformed
  | .falsum => .ok .no
  | .verum => .ok .yes
  | .compare op left right => do
      let first ← left.eval rules dialect row
      let second ← right.eval rules dialect row
      return orderTruth op (← compareValues rules dialect left.isColumn right.isColumn first second)
  | .like left right => do
      let first ← left.eval rules dialect row
      let second ← right.eval rules dialect row
      likeTruth dialect (likeSame rules dialect first) first second
  | .ilike left right => do
      let first ← left.eval rules dialect row
      let second ← right.eval rules dialect row
      likeTruth dialect rules.sameLetter first second
  | .jsonContains left right => do
      let first ← left.eval rules dialect row
      let second ← right.eval rules dialect row
      jsonContainsTruth first second
  | .jsonbContains left right => do
      let first ← left.eval rules dialect row
      let second ← right.eval rules dialect row
      jsonbContainsTruth first second
  | .isTrue term => term.eval rules dialect row >>= isTrueTruth
  | .notIsTrue term => Truth.not <$> (term.eval rules dialect row >>= isTrueTruth)
  | .isNull term => isNullTruth <$> term.eval rules dialect row
  | .isNotNull term => (fun value => (isNullTruth value).not) <$> term.eval rules dialect row
  | .inList term list =>
      if list.isEmpty ∧ dialect ≠ .sqlite then .error .malformed
      else do
        let value ← term.eval rules dialect row
        anyEqual rules dialect term.isColumn value (list.map (Arg.value dialect))
  | .not condition => Truth.not <$> condition.eval
  | .and left right => do
      let first ← left.eval
      let second ← right.eval
      return first.and second
  | .or left right => do
      let first ← left.eval
      let second ← right.eval
      return first.or second
  | .paren condition => condition.eval

/-! ## Rows of stored memos -/

/-- The flags of a payload. -/
structure Property where
  hasLink : Bool
  hasTaskList : Bool
  hasCode : Bool
  hasIncompleteTasks : Bool
deriving DecidableEq

/-- The parts of a memo payload that a filter can reach. -/
structure MemoPayload where
  property : Option Property
  tags : List String
deriving DecidableEq

/-- `protojson` leaves out false flags. -/
def Property.toJson (property : Property) : Json :=
  .object (
    (if property.hasLink then [("hasLink", .bool true)] else []) ++
    (if property.hasTaskList then [("hasTaskList", .bool true)] else []) ++
    (if property.hasCode then [("hasCode", .bool true)] else []) ++
    (if property.hasIncompleteTasks then [("hasIncompleteTasks", .bool true)] else []))

/-- `protojson` leaves out an unset message and an empty list. -/
def MemoPayload.toJson (payload : MemoPayload) : Json :=
  .object (
    (match payload.property with
      | some property => [("property", property.toJson)]
      | none => []) ++
    (if payload.tags.isEmpty then [] else [("tags", .array (payload.tags.map .string))]))

end Filter
end Memos
