import Memos.Filter.Render

namespace Memos
namespace Filter

/-!
# The engine and its use by the drivers

`engine.go` joins the phases and `helpers.go` appends compiled filters to the
`WHERE` clause under construction.  The CEL environment is third-party code:
`celCompile` stands for parsing and type checking a filter string into the
expression protobuf.
-/

/-- An engine for one schema. -/
structure Engine where
  schema : Schema
  celCompile : String -> Except String Expr

/-- The white space that `strings.TrimSpace` removes. -/
def isSpace (c : Char) : Bool :=
  c ∈ ['\t', '\n', '\x0b', '\x0c', '\r', ' ', '\u0085', '\u00a0', '\u1680', '\u2028', '\u2029',
    '\u202f', '\u205f', '\u3000'] || ('\u2000' ≤ c && c ≤ '\u200a')

/-- `strings.TrimSpace` -/
def trimSpace (text : String) : String :=
  String.ofList ((text.toList.dropWhile isSpace).reverse.dropWhile isSpace).reverse

namespace Engine

/-- Parse a filter into its condition tree. -/
def compile (engine : Engine) (now : Int) (filter : String) : Except String Condition :=
  if filter.toList.all isSpace then .error "filter expression is empty"
  else
    match engine.celCompile filter with
    | .error issue => .error ("failed to compile filter: " ++ issue)
    | .ok expr => buildCondition now engine.schema expr

/-- Compile and render in a single step. -/
def compileToStatement (engine : Engine) (now : Int) (filter : String) (dialect : DialectName)
    (placeholderOffset : Nat) : Except String Statement := do
  let condition ← engine.compile now filter
  (Renderer.new engine.schema dialect placeholderOffset).render condition

end Engine

/-- A `WHERE` clause under construction: conjuncts and arguments. -/
structure Where where
  conjuncts : List (SqlCondition Placeholder)
  args : List Arg

/-- Append one statement.  A statement without text is skipped together with
its arguments. -/
def Where.append (clause : Where) (statement : Statement) : Where :=
  match statement.sql with
  | .empty => clause
  | sql => ⟨clause.conjuncts ++ [.paren sql], clause.args ++ statement.args⟩

/-- Compile each filter at the current number of arguments and append it. -/
def appendConditions (engine : Engine) (now : Int) (dialect : DialectName) (clause : Where) :
    List String -> Except String Where
  | [] => .ok clause
  | filter :: rest => do
      let statement ← engine.compileToStatement now filter dialect clause.args.length
      appendConditions engine now dialect (clause.append statement) rest

end Filter
end Memos
