import Memos.Filter.Schema

namespace Memos
namespace Filter

/-!
# Source and target of the filter parser

The parser consumes the CEL expression protobuf and produces the condition
tree of `ir.go`.  Both are plain data.  The CEL parser and type checker are a
third-party library; the expression type below is the interface they hand
over, with the parts of each node that some function of the package reads.
-/

/-- A CEL constant.  A double is a finite binary fraction, so a rational
number states its value exactly. -/
inductive Constant where
  | nullValue
  | boolValue (value : Bool)
  | int64Value (value : Int)
  | uint64Value (value : Nat)
  | doubleValue (value : Rat)
  | stringValue (value : String)
  | bytesValue
deriving DecidableEq

/-- A CEL expression.  Of a comprehension only the parts that recognize
`exists` are kept, and nothing reads the contents of a message literal. -/
inductive Expr where
  | constExpr (value : Constant)
  | identExpr (name : String)
  | selectExpr (operand : Expr) (field : String) (testOnly : Bool)
  | callExpr (target : Option Expr) (function : String) (args : List Expr)
  | listExpr (elements : List Expr)
  | structExpr
  | comprehensionExpr (iterVar : String) (iterRange accuInit loopStep : Expr)

/-- The dynamic values that a literal of the condition tree may hold. -/
inductive Literal where
  | null
  | bool (value : Bool)
  | int (value : Int)
  | double (value : Rat)
  | string (value : String)
deriving DecidableEq

/-- A scalar expression whose result feeds a comparison. -/
inductive ValueExpr where
  | fieldRef (name : String)
  | literalValue (value : Literal)
  | functionValue (name : String) (args : List ValueExpr)

/-- The logical connectives with two operands. -/
inductive LogicalOperator where
  | and
  | or
deriving DecidableEq

/-- Only `exists` is supported. -/
inductive ComprehensionKind where
  | exists
deriving DecidableEq

/-- The predicates that a comprehension may test. -/
inductive PredicateExpr where
  | startsWith (pre : String)
  | endsWith (suffix : String)
  | contains (substring : String)
  | equals (value : String)
deriving DecidableEq

/-- The dialect-agnostic condition tree. -/
inductive Condition where
  | logical (operator : LogicalOperator) (left right : Condition)
  | not (expr : Condition)
  | fieldPredicate (field : String)
  | comparison (left : ValueExpr) (operator : ComparisonOperator) (right : ValueExpr)
  | inList (left : ValueExpr) (values : List ValueExpr)
  | elementIn (element : ValueExpr) (field : String)
  | contains (field value : String)
  | constant (value : Bool)
  | listComprehension (kind : ComprehensionKind) (field iterVar : String)
      (predicate : PredicateExpr)

end Filter
end Memos
