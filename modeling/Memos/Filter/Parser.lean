import Mathlib.Algebra.Ring.Int.Defs
import Mathlib.Algebra.Ring.Nat
import Memos.Filter.Ir

namespace Memos
namespace Filter

/-!
# From CEL expressions to condition trees

A translation of `parser.go`.  The only outside influence is the clock behind
`now()`, which is passed as the epoch second `now` of the compilation.
Machine integers are integers reduced into the signed 64-bit range.
-/

/-- Quote a name as the error texts do. -/
def quoted (name : String) : String := "\"" ++ name ++ "\""

/-- Reduce an integer to the signed 64-bit value with the same low bits. -/
def wrap64 (value : Int) : Int := Int.bmod value (2 ^ 64)

/-- The conversion of a floating-point value to `int64`: truncation toward
zero, and the smallest integer where the result is out of range. -/
def truncate64 (value : Rat) : Int :=
  let whole := Int.tdiv value.num value.den
  if -(2 ^ 63) ≤ whole ∧ whole < 2 ^ 63 then whole else -(2 ^ 63)

def getIdentName : Expr -> Except String String
  | .identExpr name => .ok name
  | _ => .error "expression is not an identifier"

/-- An unsigned literal is reinterpreted as a signed one. -/
def getConstValue : Expr -> Except String Literal
  | .constExpr (.stringValue value) => .ok (.string value)
  | .constExpr (.int64Value value) => .ok (.int value)
  | .constExpr (.uint64Value value) => .ok (.int (wrap64 value))
  | .constExpr (.doubleValue value) => .ok (.double value)
  | .constExpr (.boolValue value) => .ok (.bool value)
  | .constExpr .nullValue => .ok .null
  | .constExpr .bytesValue => .error "unsupported constant"
  | _ => .error "expression is not a literal"

/-- The boolean value of a constant expression, if it has one. -/
def evaluateBoolExpr : Expr -> Except String (Option Bool)
  | .callExpr _ function args =>
      if function = "!_" then
        match args with
        | [operand] => do
            let value ← evaluateBoolExpr operand
            return value.map not
        | _ => .error "NOT expects exactly one argument"
      else .ok none
  | expr =>
      match getConstValue expr with
      | .ok (.bool value) => .ok (some value)
      | _ => .ok none

/-- The arithmetic of two folded operands, in 64-bit machine integers. -/
def evaluateArithmetic (function : String) (left right : Int) : Except String (Option Int) :=
  if function = "_+_" then .ok (some (wrap64 (left + right)))
  else if function = "_-_" then .ok (some (wrap64 (left - right)))
  else if function = "_*_" then .ok (some (wrap64 (left * right)))
  else .error ("unsupported arithmetic operator " ++ quoted function)

/-- The integer value of a constant arithmetic expression, if it has one. -/
def evaluateNumeric (now : Int) : Expr -> Except String (Option Int)
  | .callExpr _ function args =>
      if function = "now" then .ok (some now)
      else if function = "_+_" ∨ function = "_-_" ∨ function = "_*_" then
        match args with
        | [leftExpr, rightExpr] => do
            match ← evaluateNumeric now leftExpr with
            | none => return none
            | some left =>
                match ← evaluateNumeric now rightExpr with
                | none => return none
                | some right => evaluateArithmetic function left right
        | _ => .error "arithmetic requires two arguments"
      else .ok none
  | expr =>
      match getConstValue expr with
      | .ok (.int value) => .ok (some value)
      | .ok (.double value) => .ok (some (truncate64 value))
      | _ => .ok none

/-- Identifiers, then literals, then constant arithmetic and constant boolean
expressions, and at last `size(...)`.  The source also lists `now` and the
arithmetic calls after these; both were decided by then. -/
def buildValueExpr (now : Int) (schema : Schema) : Expr -> Except String ValueExpr
  | .identExpr name =>
      match schema.field name with
      | none => .error ("unknown identifier " ++ quoted name)
      | some _ => .ok (.fieldRef name)
  | .constExpr value =>
      match getConstValue (.constExpr value) with
      | .ok literal => .ok (.literalValue literal)
      | .error _ => .error "unsupported value expression"
  | .callExpr target function args => do
      match ← evaluateNumeric now (.callExpr target function args) with
      | some value => return .literalValue (.int value)
      | none =>
          match ← evaluateBoolExpr (.callExpr target function args) with
          | some value => return .literalValue (.bool value)
          | none =>
              if function = "size" then
                match args with
                | [operand] => do
                    let arg ← buildValueExpr now schema operand
                    return .functionValue "size" [arg]
                | _ => .error "size() expects one argument"
              else .error "unsupported value expression"
  | _ => .error "unsupported value expression"

def toComparisonOperator (function : String) : Except String ComparisonOperator :=
  if function = "_==_" then .ok .eq
  else if function = "_!=_" then .ok .neq
  else if function = "_<_" then .ok .lt
  else if function = "_>_" then .ok .gt
  else if function = "_<=_" then .ok .lte
  else if function = "_>=_" then .ok .gte
  else .error ("unsupported comparison operator " ++ quoted function)

/-- The operator check on a field that stands on the left of a comparison. -/
def checkComparisonOperator (schema : Schema) (op : ComparisonOperator) :
    ValueExpr -> Except String Unit
  | .fieldRef name =>
      match schema.field name with
      | none => .error ("unknown identifier " ++ quoted name)
      | some declared => do
          let def' ←
            if declared.kind = .virtualAlias then
              match schema.resolveAlias name with
              | none => .error ("invalid alias " ++ quoted name)
              | some target => .ok target
            else .ok declared
          match def'.allowedComparisonOps with
          | none => return ()
          | some allowed =>
              if op ∈ allowed then return ()
              else .error ("operator " ++ sqlOperator op ++ " not allowed for field " ++ quoted name)
  | _ => .ok ()

def buildComparisonCondition (now : Int) (schema : Schema) (function : String) :
    List Expr -> Except String Condition
  | [leftExpr, rightExpr] => do
      let op ← toComparisonOperator function
      let left ← buildValueExpr now schema leftExpr
      let right ← buildValueExpr now schema rightExpr
      checkComparisonOperator schema op left
      return .comparison left op right
  | _ => .error "comparison expects two arguments"

/-- `value in identifier`, the second reading of the `in` operator. -/
def buildElementInCondition (now : Int) (schema : Schema) (elementExpr listExpr : Expr) :
    Except String Condition :=
  match getIdentName listExpr with
  | .error _ => .error "invalid use of in operator"
  | .ok identName =>
      match schema.field identName with
      | none => .error ("unknown identifier " ++ quoted identName)
      | some _ => do
          let element ← buildValueExpr now schema elementExpr
          return .elementIn element identName

/-- An identifier on the left must be declared, whatever stands on the right. -/
def buildInCondition (now : Int) (schema : Schema) : List Expr -> Except String Condition
  | [leftExpr, rightExpr] =>
      match getIdentName leftExpr with
      | .error _ => buildElementInCondition now schema leftExpr rightExpr
      | .ok identName => do
          match schema.field identName with
          | none => .error ("unknown identifier " ++ quoted identName)
          | some field =>
              if field.kind = .virtualAlias ∧ (schema.resolveAlias identName).isNone then
                .error ("invalid alias " ++ quoted identName)
              else
                match rightExpr with
                | .listExpr elements => do
                    let values ← elements.mapM (buildValueExpr now schema)
                    return .inList (.fieldRef identName) values
                | _ => buildElementInCondition now schema leftExpr rightExpr
  | _ => .error "in operator expects two arguments"

def buildContainsCondition (schema : Schema) (target : Option Expr) (args : List Expr) :
    Except String Condition :=
  match target with
  | none => .error "contains requires a target"
  | some targetExpr => do
      let targetName ← getIdentName targetExpr
      match schema.field targetName with
      | none => .error ("unknown identifier " ++ quoted targetName)
      | some field =>
          if field.supportsContains then
            match args with
            | [arg] =>
                match getConstValue arg with
                | .error cause => .error ("contains only supports literal arguments: " ++ cause)
                | .ok (.string value) => return .contains targetName value
                | .ok _ => .error "contains argument must be a string"
            | _ => .error "contains expects exactly one argument"
          else .error ("identifier " ++ quoted targetName ++ " does not support contains()")

/-! ## Comprehensions -/

/-- The boolean reading of a constant, false where it is not a boolean. -/
def Constant.getBoolValue : Constant -> Bool
  | .boolValue value => value
  | _ => false

def detectComprehensionKind (accuInit loopStep : Expr) : Except String ComprehensionKind :=
  match accuInit with
  | .constExpr value =>
      match value.getBoolValue, loopStep with
      | false, .callExpr _ "_||_" _ => .ok .exists
      | true, .callExpr _ "_&&_" _ =>
          .error "all() comprehension is not supported; use exists() instead"
      | _, _ => .error "unsupported comprehension type; only exists() is supported"
  | _ => .error "comprehension accumulator must be initialized with a constant"

def isIterVarExpr (iterVar : String) : Expr -> Bool
  | .identExpr name => name == iterVar
  | _ => false

/-- The string that a predicate compares with. -/
def getConstString (subject : String) (expr : Expr) : Except String String :=
  match getConstValue expr with
  | .error cause => .error (subject ++ " argument must be a constant string: " ++ cause)
  | .ok (.string value) => .ok value
  | .ok _ => .error (subject ++ " argument must be a string")

def buildEqualsPredicate (iterVar : String) : List Expr -> Except String PredicateExpr
  | [first, second] =>
      if isIterVarExpr iterVar first then .equals <$> getConstString "equality" second
      else if isIterVarExpr iterVar second then .equals <$> getConstString "equality" first
      else .error ("equality predicate must compare against the iteration variable "
        ++ quoted iterVar)
  | _ => .error "equality predicate expects exactly two arguments"

/-- The three method predicates share their checks and differ in the
constructor and in the method name of the error texts. -/
def buildMethodPredicate (method : String) (build : String -> PredicateExpr) (iterVar : String)
    (target : Option Expr) (args : List Expr) : Except String PredicateExpr :=
  match target with
  | some (.identExpr name) =>
      if name = iterVar then
        match args with
        | [arg] => build <$> getConstString method arg
        | _ => .error (method ++ " expects exactly one argument")
      else .error (method ++ " target must be the iteration variable " ++ quoted iterVar)
  | _ => .error (method ++ " target must be the iteration variable " ++ quoted iterVar)

def buildStartsWithPredicate := buildMethodPredicate "startsWith" .startsWith
def buildEndsWithPredicate := buildMethodPredicate "endsWith" .endsWith
def buildContainsPredicate := buildMethodPredicate "contains" .contains

def extractPredicate (iterVar : String) (loopStep : Expr) : Except String PredicateExpr :=
  match loopStep with
  | .callExpr _ _ [_, .callExpr target function args] =>
      if function = "_==_" then buildEqualsPredicate iterVar args
      else if function = "startsWith" then buildStartsWithPredicate iterVar target args
      else if function = "endsWith" then buildEndsWithPredicate iterVar target args
      else if function = "contains" then buildContainsPredicate iterVar target args
      else .error ("unsupported predicate function " ++ quoted function
        ++ " in comprehension (supported: ==, startsWith, endsWith, contains)")
  | .callExpr _ _ [_, _] => .error "comprehension predicate must be a function call"
  | .callExpr _ _ _ => .error "comprehension loop step must have two arguments"
  | _ => .error "comprehension loop step must be a call expression"

def buildComprehensionCondition (schema : Schema) (iterVar : String)
    (iterRange accuInit loopStep : Expr) : Except String Condition := do
  let kind ← detectComprehensionKind accuInit loopStep
  match iterRange with
  | .identExpr fieldName =>
      match schema.field fieldName with
      | none => .error ("unknown field " ++ quoted fieldName ++ " in comprehension")
      | some field =>
          if field.kind = .jsonList then do
            let predicate ← extractPredicate iterVar loopStep
            return .listComprehension kind fieldName iterVar predicate
          else .error ("field " ++ quoted fieldName
            ++ " does not support comprehension (must be a list)")
  | _ => .error "comprehension range must be a field identifier"

/-! ## Conditions -/

/-- `buildCondition` and `buildCallCondition` in one recursion. -/
def buildCondition (now : Int) (schema : Schema) : Expr -> Except String Condition
  | .callExpr target function args =>
      if function = "_&&_" then
        match args with
        | [leftExpr, rightExpr] => do
            let left ← buildCondition now schema leftExpr
            let right ← buildCondition now schema rightExpr
            return .logical .and left right
        | _ => .error "logical AND expects two arguments"
      else if function = "_||_" then
        match args with
        | [leftExpr, rightExpr] => do
            let left ← buildCondition now schema leftExpr
            let right ← buildCondition now schema rightExpr
            return .logical .or left right
        | _ => .error "logical OR expects two arguments"
      else if function = "!_" then
        match args with
        | [operand] => do
            let child ← buildCondition now schema operand
            return .not child
        | _ => .error "logical NOT expects one argument"
      else if function ∈ ["_==_", "_!=_", "_<_", "_>_", "_<=_", "_>=_"] then
        buildComparisonCondition now schema function args
      else if function = "@in" then buildInCondition now schema args
      else if function = "contains" then buildContainsCondition schema target args
      else do
        match ← evaluateBoolExpr (.callExpr target function args) with
        | some value => return .constant value
        | none => .error ("unsupported call expression " ++ quoted function)
  | .constExpr value => do
      match ← getConstValue (.constExpr value) with
      | .bool constant => return .constant constant
      | _ => .error "filter must evaluate to a boolean value"
  | .identExpr name =>
      match schema.field name with
      | none => .error ("unknown identifier " ++ quoted name)
      | some field =>
          if field.type = .bool then return .fieldPredicate name
          else .error ("identifier " ++ quoted name ++ " is not boolean")
  | .comprehensionExpr iterVar iterRange accuInit loopStep =>
      buildComprehensionCondition schema iterVar iterRange accuInit loopStep
  | _ => .error "unsupported top-level expression"

end Filter
end Memos
