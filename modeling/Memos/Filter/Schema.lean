import Mathlib.Data.List.Basic

namespace Memos
namespace Filter

/-!
# The filter schema

`schema.go` declares which identifiers a filter may mention, how each one is
stored, and which comparisons it admits.  A schema is a finite table of
fields.  The column expressions of the source are format strings with exactly
one hole for the qualified column; they are kept as an enumeration because
the database semantics has to tell them apart.
-/

/-- The supported SQL dialects. -/
inductive DialectName where
  | sqlite
  | mysql
  | postgres
deriving DecidableEq

/-- The logical type of a field. -/
inductive FieldType where
  | string
  | int
  | bool
  | timestamp
deriving DecidableEq

/-- How a field is stored. -/
inductive FieldKind where
  | scalar
  | boolColumn
  | jsonBool
  | jsonList
  | virtualAlias
deriving DecidableEq

/-- The backing table column. -/
structure Column where
  table : String
  name : String
deriving DecidableEq

/-- The comparison operators of the intermediate representation. -/
inductive ComparisonOperator where
  | eq
  | neq
  | lt
  | lte
  | gt
  | gte
deriving DecidableEq

/-- The SQL spelling of an operator. -/
def sqlOperator : ComparisonOperator -> String
  | .eq => "="
  | .neq => "!="
  | .lt => "<"
  | .lte => "<="
  | .gt => ">"
  | .gte => ">="

/-- A column expression of `Field.Expressions`, a format string with one hole. -/
inductive Expression where
  /-- `('users/' || %s)` -/
  | concatOperator
  /-- `CONCAT('users/', %s)` -/
  | concatFunction
  /-- `UNIX_TIMESTAMP(%s)` -/
  | unixTimestamp
  /-- `%s` -/
  | bare
deriving DecidableEq

/-- Schema metadata of one exposed identifier.  `allowedComparisonOps` is
`none` where the source leaves the map nil, which admits every operator. -/
structure Field where
  name : String
  kind : FieldKind
  type : FieldType
  column : Column := ⟨"", ""⟩
  jsonPath : List String := []
  aliasFor : String := ""
  supportsContains : Bool := false
  expressions : DialectName -> Option Expression := fun _ => none
  allowedComparisonOps : Option (List ComparisonOperator) := none

/-- A schema is its name and its field table. -/
structure Schema where
  name : String
  fields : List (String × Field)

namespace Schema

/-- The field metadata, if the identifier is declared. -/
def field (schema : Schema) (name : String) : Option Field :=
  schema.fields.lookup name

/-- Resolve a virtual alias to its target field. -/
def resolveAlias (schema : Schema) (name : String) : Option Field :=
  match schema.field name with
  | none => none
  | some field =>
      if field.kind = .virtualAlias then schema.field field.aliasFor else some field

end Schema

/-- The operator set of the fields that only admit equality tests. -/
def equalityOps : Option (List ComparisonOperator) := some [.eq, .neq]

/-- MySQL stores the timestamps as `TIMESTAMP`, the others as epoch seconds. -/
def timestampExpressions : DialectName -> Option Expression
  | .mysql => some .unixTimestamp
  | .postgres => some .bare
  | .sqlite => some .bare

/-- The user name prefix is concatenated by a function in MySQL. -/
def creatorExpressions : DialectName -> Option Expression
  | .sqlite => some .concatOperator
  | .mysql => some .concatFunction
  | .postgres => some .concatOperator

/-- One of the four payload flags. -/
def jsonBoolField (name property : String) : Field where
  name := name
  kind := .jsonBool
  type := .bool
  column := ⟨"memo", "payload"⟩
  jsonPath := ["property", property]
  allowedComparisonOps := equalityOps

/-- `NewSchema`: the memo filter schema. -/
def newSchema : Schema where
  name := "memo"
  fields := [
    ("content", { name := "content", kind := .scalar, type := .string
                  column := ⟨"memo", "content"⟩, supportsContains := true }),
    ("creator", { name := "creator", kind := .scalar, type := .string
                  column := ⟨"memo_creator", "username"⟩, expressions := creatorExpressions
                  allowedComparisonOps := equalityOps }),
    ("creator_id", { name := "creator_id", kind := .scalar, type := .int
                     column := ⟨"memo", "creator_id"⟩
                     allowedComparisonOps := equalityOps }),
    ("created_ts", { name := "created_ts", kind := .scalar, type := .timestamp
                     column := ⟨"memo", "created_ts"⟩, expressions := timestampExpressions }),
    ("updated_ts", { name := "updated_ts", kind := .scalar, type := .timestamp
                     column := ⟨"memo", "updated_ts"⟩, expressions := timestampExpressions }),
    ("pinned", { name := "pinned", kind := .boolColumn, type := .bool
                 column := ⟨"memo", "pinned"⟩, allowedComparisonOps := equalityOps }),
    ("visibility", { name := "visibility", kind := .scalar, type := .string
                     column := ⟨"memo", "visibility"⟩
                     allowedComparisonOps := equalityOps }),
    ("tags", { name := "tags", kind := .jsonList, type := .string
               column := ⟨"memo", "payload"⟩, jsonPath := ["tags"] }),
    ("tag", { name := "tag", kind := .virtualAlias, type := .string, aliasFor := "tags" }),
    ("has_task_list", jsonBoolField "has_task_list" "hasTaskList"),
    ("has_link", jsonBoolField "has_link" "hasLink"),
    ("has_code", jsonBoolField "has_code" "hasCode"),
    ("has_incomplete_tasks", jsonBoolField "has_incomplete_tasks" "hasIncompleteTasks")]

/-- `NewAttachmentSchema`: the attachment filter schema. -/
def newAttachmentSchema : Schema where
  name := "attachment"
  fields := [
    ("filename", { name := "filename", kind := .scalar, type := .string
                   column := ⟨"attachment", "filename"⟩, supportsContains := true }),
    ("mime_type", { name := "mime_type", kind := .scalar, type := .string
                    column := ⟨"attachment", "type"⟩ }),
    ("create_time", { name := "create_time", kind := .scalar, type := .timestamp
                      column := ⟨"attachment", "created_ts"⟩
                      expressions := timestampExpressions }),
    ("memo_id", { name := "memo_id", kind := .scalar, type := .int
                  column := ⟨"attachment", "memo_id"⟩
                  allowedComparisonOps := equalityOps })]

end Filter
end Memos
