import Memos.Filter.Alignment

namespace Memos
namespace Filter
namespace Folding

open Library Renderer

/-!
# Numbers in filters

The parser folds constant arithmetic before it renders, in machine integers,
and the renderer turns every numeric literal into a machine integer.  CEL has
checked arithmetic, and integers, unsigned integers and doubles are different
numbers for it.  An operand reaches the column unchanged exactly if its numbers
and its value are machine integers.
-/

/-! ## Operands -/

/-- The values of `int64`. -/
def InRange (value : Int) : Prop := -2 ^ 63 ≤ value ∧ value < 2 ^ 63

instance (value : Int) : Decidable (InRange value) := by
  unfold InRange
  infer_instance

/-- An operand of a comparison that has a numeric value. -/
inductive Operand where
  | literal (value : Int64)
  | double (value : Rat)
  | unsigned (value : UInt64)
  | now
  | add (left right : Operand)
  | sub (left right : Operand)
  | mul (left right : Operand)

namespace Operand

/-- The expression of the CEL parser. -/
def expr : Operand -> Expr
  | .literal value => .constExpr (.int64Value value.toInt)
  | .double value => .constExpr (.doubleValue value)
  | .unsigned value => .constExpr (.uint64Value value.toNat)
  | .now => .callExpr none "now" []
  | .add left right => .callExpr none "_+_" [left.expr, right.expr]
  | .sub left right => .callExpr none "_-_" [left.expr, right.expr]
  | .mul left right => .callExpr none "_*_" [left.expr, right.expr]

/-- The number that the operand denotes. -/
def value (now : Int64) : Operand -> Rat
  | .literal value => value.toInt
  | .double value => value
  | .unsigned value => value.toNat
  | .now => now.toInt
  | .add left right => left.value now + right.value now
  | .sub left right => left.value now - right.value now
  | .mul left right => left.value now * right.value now

/-- Its value over all integers, when each number is converted alone. -/
def converted (now : Int64) : Operand -> Int
  | .literal value => value.toInt
  | .double value => truncate64 value
  | .unsigned value => wrap64 value.toNat
  | .now => now.toInt
  | .add left right => left.converted now + right.converted now
  | .sub left right => left.converted now - right.converted now
  | .mul left right => left.converted now * right.converted now

/-- The machine integer that the code makes of it. -/
def stored (now : Int64) (operand : Operand) : Int := wrap64 (operand.converted now)

/-- The numbers of the operand. -/
def numbers : Operand -> List Operand
  | .add left right | .sub left right | .mul left right => left.numbers ++ right.numbers
  | number => [number]

/-- All of them are integer literals or the clock. -/
def OverIntegers : Operand -> Prop
  | .literal _ | .now => True
  | .double _ | .unsigned _ => False
  | .add left right | .sub left right | .mul left right => left.OverIntegers ∧ right.OverIntegers

/-- A result of CEL is a machine integer, or there is none. -/
def checked (value : Int) : Option Int := if InRange value then some value else none

/-- CEL evaluates integers with overflow checks; another number is no integer. -/
def celEvaluate (now : Int64) : Operand -> Option Int
  | .literal value => some value.toInt
  | .now => some now.toInt
  | .double _ | .unsigned _ => none
  | .add left right => do checked ((← left.celEvaluate now) + (← right.celEvaluate now))
  | .sub left right => do checked ((← left.celEvaluate now) - (← right.celEvaluate now))
  | .mul left right => do checked ((← left.celEvaluate now) * (← right.celEvaluate now))

/-- A number that is a value of `int64`. -/
def IsInt64 : Operand -> Prop
  | .double value => value.den = 1 ∧ InRange value.num
  | .unsigned value => value.toNat < 2 ^ 63
  | _ => True

end Operand

/-! ## Where operands stand -/

def celFunction : ComparisonOperator -> String
  | .eq => "_==_"
  | .neq => "_!=_"
  | .lt => "_<_"
  | .lte => "_<=_"
  | .gt => "_>_"
  | .gte => "_>=_"

/-- A condition on a field with an operand. -/
inductive Use where
  | compare (op : ComparisonOperator)
  | size (op : ComparisonOperator)
  | member (before later : List Expr)

def Use.expr (field : String) (operand : Expr) : Use -> Expr
  | .compare op => .callExpr none (celFunction op) [.identExpr field, operand]
  | .size op => .callExpr none (celFunction op) [.callExpr none "size" [.identExpr field], operand]
  | .member before later =>
      .callExpr none "@in" [.identExpr field, .listExpr (before ++ operand :: later)]

/-- The number of the operand among the arguments. -/
def Use.position : Use -> Nat
  | .compare _ => 0
  | .size _ => 0
  | .member before _ => before.length

/-- The statement of the condition. -/
def statement (now : Int64) (schema : Schema) (dialect : DialectName) (offset : Nat) (field : String)
    (use : Use) (operand : Operand) : Except String Statement := do
  let condition ← buildCondition now.toInt schema (use.expr field operand.expr)
  (Renderer.new schema dialect offset).render condition

/-! ## Machine integers -/

variable {value : Int}

theorem wrap64_eq_self : wrap64 value = value ↔ InRange value := by
  unfold wrap64 InRange
  constructor
  · intro same
    have low := Int.le_bmod (x := value) (m := 2 ^ 64) (by decide)
    have high := Int.bmod_lt (x := value) (m := 2 ^ 64) (by decide)
    rw [same] at low high
    omega
  · rintro ⟨low, high⟩
    apply Int.bmod_eq_of_le
    · omega
    · omega

theorem inRange_toInt (value : Int64) : InRange value.toInt :=
  ⟨value.le_toInt, value.toInt_lt⟩

/-- Truncation keeps a value exactly if it is a machine integer. -/
theorem truncate64_eq_self {value : Rat} :
    (truncate64 value : Rat) = value ↔ value.den = 1 ∧ InRange value.num := by
  constructor
  · intro same
    have whole : value.den = 1 := by
      rw [← same]
      exact Rat.den_intCast _
    have number : value.num = truncate64 value := by
      rw [← same, Rat.num_intCast, same]
    refine ⟨whole, ?_⟩
    rw [number]
    unfold truncate64
    dsimp only
    split
    · next inside => exact inside
    · exact ⟨Int.le_refl _, by decide⟩
  · rintro ⟨whole, inside⟩
    have unchanged : truncate64 value = value.num := by
      unfold truncate64
      rw [whole]
      simp only [Nat.cast_one, Int.tdiv_one]
      exact if_pos inside
    rw [unchanged]
    exact Rat.ext rfl whole.symm

theorem inRange_truncate64 (value : Rat) : InRange (truncate64 value) := by
  unfold truncate64
  dsimp only
  split
  · next inside => exact inside
  · exact ⟨Int.le_refl _, by decide⟩

theorem inRange_wrap64 (value : Int) : InRange (wrap64 value) :=
  wrap64_eq_self.mp (Int.bmod_bmod)

/-! ## Folding -/

theorem evaluateNumeric_operand (now : Int64) (operand : Operand) :
    evaluateNumeric now.toInt operand.expr = .ok (some (operand.stored now)) := by
  unfold Operand.stored
  induction operand with
  | literal value =>
      rw [Operand.converted, wrap64_eq_self.mpr (inRange_toInt value)]
      rfl
  | double value =>
      rw [Operand.converted, wrap64_eq_self.mpr (inRange_truncate64 value)]
      rfl
  | unsigned value =>
      rw [Operand.converted, wrap64_eq_self.mpr (inRange_wrap64 _)]
      rfl
  | now =>
      rw [Operand.converted, wrap64_eq_self.mpr (inRange_toInt now)]
      rfl
  | add left right ofLeft ofRight =>
      rw [Operand.expr, evaluateNumeric]
      simp only [ofLeft, ofRight, ok_bind]
      change Except.ok (some (wrap64 (wrap64 _ + wrap64 _))) = _
      simp only [wrap64, Int.bmod_add_bmod, Int.add_bmod_bmod, Operand.converted]
  | sub left right ofLeft ofRight =>
      rw [Operand.expr, evaluateNumeric]
      simp only [ofLeft, ofRight, ok_bind]
      change Except.ok (some (wrap64 (wrap64 _ - wrap64 _))) = _
      simp only [wrap64, Int.bmod_sub_bmod, Int.sub_bmod_bmod, Operand.converted]
  | mul left right ofLeft ofRight =>
      rw [Operand.expr, evaluateNumeric]
      simp only [ofLeft, ofRight, ok_bind]
      change Except.ok (some (wrap64 (wrap64 _ * wrap64 _))) = _
      simp only [wrap64, Int.bmod_mul_bmod, Int.mul_bmod_bmod, Operand.converted]

theorem checked_eq_some {result value : Int} (success : Operand.checked result = some value) :
    value = result ∧ InRange value := by
  unfold Operand.checked at success
  split at success
  · next inside =>
    cases success
    exact ⟨rfl, inside⟩
  · cases success

/-- Where CEL has a value, it is the exact one and a machine integer. -/
theorem celEvaluate_eq_some {now : Int64} {operand : Operand} (evaluates : operand.celEvaluate now = some value) :
    value = operand.converted now ∧ InRange value := by
  induction operand generalizing value with
  | literal value =>
      cases evaluates
      exact ⟨rfl, inRange_toInt _⟩
  | now =>
      cases evaluates
      exact ⟨rfl, inRange_toInt _⟩
  | double value | unsigned value => cases evaluates
  | add left right ofLeft ofRight | sub left right ofLeft ofRight | mul left right ofLeft ofRight =>
      rcases Option.bind_eq_some_iff.mp evaluates with ⟨first, firstEvaluates, continued⟩
      rcases Option.bind_eq_some_iff.mp continued with ⟨second, secondEvaluates, success⟩
      rcases ofLeft firstEvaluates with ⟨rfl, _⟩
      rcases ofRight secondEvaluates with ⟨rfl, _⟩
      exact checked_eq_some success

/-! ## From the operand to the argument -/

/-- The parser makes a literal of the expression, and the renderer this
number of the literal. -/
def Converts (now : Int64) (schema : Schema) (expr : Expr) (number : Int) : Prop :=
  Exists fun literal => buildValueExpr now.toInt schema expr = .ok (.literalValue literal) ∧
    toInt64 literal = .ok number

theorem buildValueExpr_folded {now : Int} {schema : Schema} {target : Option Expr} {function : String}
    {args : List Expr} (folds : evaluateNumeric now (.callExpr target function args) = .ok (some value)) :
    buildValueExpr now schema (.callExpr target function args) = .ok (.literalValue (.int value)) := by
  unfold buildValueExpr
  rw [folds]
  rfl

theorem Operand.converts (now : Int64) (schema : Schema) (operand : Operand) :
    Converts now schema operand.expr (operand.stored now) := by
  have folds := evaluateNumeric_operand now operand
  cases operand with
  | literal value =>
      refine ⟨.int value.toInt, rfl, ?_⟩
      rw [stored, converted, wrap64_eq_self.mpr (inRange_toInt value)]
      rfl
  | double value =>
      refine ⟨.double value, rfl, ?_⟩
      rw [stored, converted, wrap64_eq_self.mpr (inRange_truncate64 value)]
      rfl
  | unsigned value =>
      refine ⟨.int (wrap64 value.toNat), rfl, ?_⟩
      rw [stored, converted, wrap64_eq_self.mpr (inRange_wrap64 _)]
      rfl
  | now | add left right | sub left right | mul left right =>
      exact ⟨_, buildValueExpr_folded folds, rfl⟩

section Rendering

variable {now : Int64} {schema : Schema} {dialect : DialectName} {offset : Nat} {literal : Literal}
  {number : Int} {r after : Renderer} {result : RenderResult}

/-- Only a number is converted. -/
theorem toInt64_eq_ok (converts : toInt64 literal = .ok number) :
    (Exists fun value => literal = .int value) ∨ Exists fun value => literal = .double value := by
  cases literal with
  | int value => exact .inl ⟨value, rfl⟩
  | double value => exact .inr ⟨value, rfl⟩
  | null | bool value | string value => cases converts

variable {field : Field}

theorem scalarArg_eq_ok {arg : Arg} (converts : toInt64 literal = .ok number)
    (success : scalarArg field literal = .ok arg) : arg = .int number := by
  unfold scalarArg at success
  cases type : field.type with
  | string =>
      rcases toInt64_eq_ok converts with ⟨value, rfl⟩ | ⟨value, rfl⟩ <;>
      · rw [type] at success
        cases success
  | bool =>
      rw [type] at success
      cases success
  | int | timestamp =>
      rw [type, converts] at success
      cases success
      rfl

theorem scalarInArg_eq_ok {arg : Arg} (converts : toInt64 literal = .ok number)
    (success : scalarInArg field literal = .ok arg) : arg = .int number := by
  unfold scalarInArg at success
  cases type : field.type with
  | string =>
      rcases toInt64_eq_ok converts with ⟨value, rfl⟩ | ⟨value, rfl⟩ <;>
      · rw [type] at success
        cases success
  | bool | timestamp =>
      rw [type] at success
      cases success
  | int =>
      rw [type, converts] at success
      cases success
      rfl

theorem expectBool_number (converts : toInt64 literal = .ok number) {value : Bool} :
    expectBool (.literalValue literal) ≠ .ok value := by
  rcases toInt64_eq_ok converts with ⟨value, rfl⟩ | ⟨value, rfl⟩ <;> exact nofun

/-- A comparison with a number records the number. -/
theorem renderScalarComparison_number {op : ComparisonOperator} (converts : toInt64 literal = .ok number)
    (success : r.renderScalarComparison field op (.literalValue literal) = .ok (result, after)) :
    after.args = r.args ++ [.int number] := by
  have recorded : (scalarArg field literal >>= fun value =>
      (pure ({ sql := .compare op (field.columnExpr r.dialect) (.param (r.addArg value).1) },
        (r.addArg value).2) : Except String (RenderResult × Renderer))) = .ok (result, after) := by
    rcases toInt64_eq_ok converts with ⟨value, rfl⟩ | ⟨value, rfl⟩ <;> exact success
  rcases bind_eq_ok.mp recorded with ⟨value, isArg, finished⟩
  cases finished
  rw [scalarArg_eq_ok converts isArg]
  rfl

theorem renderComparison_number {left : ValueExpr} {op : ComparisonOperator}
    (converts : toInt64 literal = .ok number)
    (success : r.renderComparison left op (.literalValue literal) = .ok (result, after)) :
    after.args = r.args ++ [.int number] := by
  cases left with
  | literalValue value => cases success
  | functionValue name args =>
      change r.renderFunctionComparison name args op (.literalValue literal) = _ at success
      unfold Renderer.renderFunctionComparison at success
      split at success
      case isFalse => cases success
      split at success
      · split at success
        · cases success
        · split at success
          case isFalse => cases success
          rcases bind_eq_ok.mp success with ⟨value, expected, finished⟩
          cases finished
          have same : toInt64 literal = .ok value := expected
          rw [converts] at same
          cases same
          rfl
      · cases success
      · cases success
  | fieldRef name =>
      cases declared : r.schema.field name with
      | none => simp only [Renderer.renderComparison, declared] at success; cases success
      | some field =>
          simp only [Renderer.renderComparison, declared] at success
          cases kind : field.kind with
          | boolColumn | jsonBool =>
              simp only [kind] at success
              rcases bind_eq_ok.mp success with ⟨value, expected, _⟩
              exact absurd expected (expectBool_number converts)
          | scalar =>
              simp only [kind] at success
              exact renderScalarComparison_number converts success
          | jsonList | virtualAlias => simp only [kind] at success; cases success

/-- A number among tags is refused. -/
theorem renderTagConditions_number {values : List ValueExpr} {rendered : List (SqlCondition Placeholder) × Renderer}
    (converts : toInt64 literal = .ok number) (member : .literalValue literal ∈ values) :
    r.renderTagConditions field values ≠ .ok rendered := by
  induction values generalizing r rendered with
  | nil => cases member
  | cons value rest ih =>
      intro success
      rcases bind_eq_ok.mp success with ⟨found, expected, continued⟩
      cases found with
      | string text =>
          rcases List.mem_cons.mp member with same | later
          · rw [← same] at expected
            cases expected
            cases converts
          · rcases bind_eq_ok.mp continued with ⟨others, tail, _⟩
            exact ih later tail
      | null | bool value | int value | double value => cases continued

/-- A number in an `IN` list is recorded at its place. -/
theorem addScalarArgs_number {values : List ValueExpr} {index : Nat} {placeholders : List Placeholder}
    (converts : toInt64 literal = .ok number) (there : values[index]? = some (.literalValue literal))
    (success : r.addScalarArgs field values = .ok (placeholders, after)) :
    after.args[r.args.length + index]? = some (.int number) := by
  induction values generalizing r placeholders index with
  | nil => cases there
  | cons value rest ih =>
      rcases bind_eq_ok.mp success with ⟨found, expected, typed⟩
      rcases bind_eq_ok.mp typed with ⟨arg, isArg, added⟩
      rcases bind_eq_ok.mp added with ⟨⟨others, final⟩, tail, finished⟩
      cases finished
      cases index with
      | zero =>
          cases there
          cases expected
          rcases Renderer.addScalarArgs_recorded tail with ⟨recorded, rfl, _, _⟩
          rw [scalarInArg_eq_ok converts isArg]
          simp [Renderer.advance]
      | succ index =>
          have later := ih there tail
          rw [← later]
          congr 1
          simp only [List.length_append, List.length_singleton]
          omega

end Rendering

/-! ## The argument of a statement -/

section Statements

variable {now : Int64} {schema : Schema} {dialect : DialectName} {offset : Nat} {field : String}
  {use : Use} {operand : Operand} {rendered : Statement}

theorem buildCondition_compare (now : Int) (op : ComparisonOperator) (left right : Expr) :
    buildCondition now schema (.callExpr none (celFunction op) [left, right]) =
      buildComparisonCondition now schema (celFunction op) [left, right] := by
  cases op <;> rfl

/-- A comparison with the operand on its right compares with its number. -/
theorem args_compare {left : Expr} {op : ComparisonOperator} {condition : Condition}
    (built : buildCondition now.toInt schema (.callExpr none (celFunction op) [left, operand.expr]) =
      .ok condition)
    (success : (Renderer.new schema dialect offset).render condition = .ok rendered) :
    rendered.args = [.int (operand.stored now)] := by
  rw [buildCondition_compare] at built
  rcases bind_eq_ok.mp built with ⟨_, _, ofLeft⟩
  rcases bind_eq_ok.mp ofLeft with ⟨field, _, ofRight⟩
  rcases bind_eq_ok.mp ofRight with ⟨right, isRight, checking⟩
  rcases bind_eq_ok.mp checking with ⟨_, _, finished⟩
  cases finished
  rcases operand.converts now schema with ⟨literal, isLiteral, converts⟩
  rw [isLiteral] at isRight
  cases isRight
  rcases render_eq_ok success with ⟨result, after, ofTree, sameArgs, _⟩
  have recorded := renderComparison_number converts ofTree
  rw [sameArgs, recorded]
  rfl

theorem getElem?_mapM {values : List ValueExpr} {elements : List Expr} {index : Nat} {element : Expr}
    {build : Expr -> Except String ValueExpr} (success : elements.mapM build = .ok values)
    (there : elements[index]? = some element) :
    Exists fun value => values[index]? = some value ∧ build element = .ok value := by
  induction elements generalizing values index with
  | nil => cases there
  | cons first rest ih =>
      rw [List.mapM_cons] at success
      rcases bind_eq_ok.mp success with ⟨value, isValue, continued⟩
      rcases bind_eq_ok.mp continued with ⟨others, tail, finished⟩
      cases finished
      cases index with
      | zero =>
          cases there
          exact ⟨value, rfl, isValue⟩
      | succ index =>
          have inRest : rest[index]? = some element := there
          rcases ih tail inRest with ⟨found, isThere, isValue⟩
          exact ⟨found, isThere, isValue⟩

/-- A list with the operand compares with its number at its place. -/
theorem args_member {before later : List Expr} {condition : Condition}
    (built : buildCondition now.toInt schema ((Use.member before later).expr field operand.expr) =
      .ok condition)
    (success : (Renderer.new schema dialect offset).render condition = .ok rendered) :
    rendered.args[before.length]? = some (.int (operand.stored now)) := by
  rcases operand.converts now schema with ⟨literal, isLiteral, converts⟩
  have reads : buildCondition now.toInt schema ((Use.member before later).expr field operand.expr) =
      buildInCondition now.toInt schema
        [.identExpr field, .listExpr (before ++ operand.expr :: later)] := by
    simp [Use.expr, buildCondition]
  rw [reads] at built
  unfold buildInCondition at built
  dsimp only [getIdentName] at built
  cases declared : schema.field field with
  | none => rw [declared] at built; cases built
  | some definition =>
      simp only [declared] at built
      split at built
      case isTrue => cases built
      rcases bind_eq_ok.mp built with ⟨values, mapped, finished⟩
      cases finished
      rcases @getElem?_mapM _ _ before.length operand.expr _ mapped (by simp) with
        ⟨value, there, isValue⟩
      rw [isLiteral] at isValue
      cases isValue
      rcases render_eq_ok success with ⟨result, after, ofTree, sameArgs, _⟩
      change Renderer.renderInCondition _ (.fieldRef field) values = _ at ofTree
      unfold Renderer.renderInCondition at ofTree
      dsimp only at ofTree
      split at ofTree
      · -- Tags are not compared with numbers.
        unfold Renderer.renderTagInList at ofTree
        split at ofTree
        · cases ofTree
        · rcases bind_eq_ok.mp ofTree with ⟨tags, success, _⟩
          exact absurd success (renderTagConditions_number converts (List.mem_of_getElem? there))
      · split at ofTree
        · cases ofTree
        · split at ofTree
          case isFalse => cases ofTree
          rcases bind_eq_ok.mp ofTree with ⟨⟨placeholders, final⟩, added, finished⟩
          cases finished
          have recorded := addScalarArgs_number converts there added
          rw [sameArgs, ← recorded]
          change _ = after.args[0 + before.length]?
          rw [Nat.zero_add]

/-- Whatever the condition, the statement compares with the number that the
code makes of the operand. -/
theorem args_statement (success : statement now schema dialect offset field use operand = .ok rendered) :
    rendered.args[use.position]? = some (.int (operand.stored now)) := by
  rcases bind_eq_ok.mp success with ⟨condition, built, ofTree⟩
  cases use with
  | compare op | size op =>
      rw [args_compare built ofTree]
      rfl
  | member before later => exact args_member built ofTree

end Statements

/-! ## Agreement -/

/-- Folding returns the exact value or fails where CEL fails, no number is
converted to another one, and the column is compared with the number that the
operand denotes. -/
structure Faithful (now : Int64) (operand : Operand) : Prop where
  folded : operand.OverIntegers ->
    (Exists fun number => evaluateNumeric now.toInt operand.expr = .ok (some number) ∧
      (number : Rat) = operand.value now) ∨
    (Exists fun cause => evaluateNumeric now.toInt operand.expr = .error cause ∧
      operand.celEvaluate now = none)
  kept : ∀ single, single ∈ operand.numbers -> ∀ number,
    evaluateNumeric now.toInt single.expr = .ok (some number) -> (number : Rat) = single.value now
  compared : ∀ (schema : Schema) (dialect : DialectName) (offset : Nat) (field : String)
    (use : Use) (rendered : Statement),
    statement now schema dialect offset field use operand = .ok rendered ->
      Exists fun number => rendered.args[use.position]? = some (.int number) ∧
        (number : Rat) = operand.value now

/-- The numbers of the operand and its value are values of `int64`. -/
structure Representable (now : Int64) (operand : Operand) : Prop where
  numbers : ∀ single, single ∈ operand.numbers -> single.IsInt64
  value : ((-2 ^ 63 : Int) : Rat) ≤ operand.value now ∧ operand.value now < ((2 ^ 63 : Int) : Rat)

section Agreement

variable {now : Int64} {operand : Operand}

/-- Folding agrees with CEL wherever CEL has a value. -/
theorem evaluateNumeric_of_celEvaluate {value : Int} (evaluates : operand.celEvaluate now = some value) :
    evaluateNumeric now.toInt operand.expr = .ok (some value) := by
  rcases celEvaluate_eq_some evaluates with ⟨rfl, inside⟩
  rw [evaluateNumeric_operand, Operand.stored, wrap64_eq_self.mpr inside]

/-- A number is kept exactly if it is a value of `int64`. -/
theorem stored_single {single : Operand} (isNumber : single ∈ operand.numbers) :
    (single.stored now : Rat) = single.value now ↔ single.IsInt64 := by
  unfold Operand.stored
  induction operand with
  | literal value | now =>
      rw [List.mem_singleton.mp isNumber, Operand.converted, wrap64_eq_self.mpr (inRange_toInt _)]
      exact ⟨fun _ => trivial, fun _ => rfl⟩
  | double value =>
      rw [List.mem_singleton.mp isNumber, Operand.converted,
        wrap64_eq_self.mpr (inRange_truncate64 value)]
      exact truncate64_eq_self
  | unsigned value =>
      rw [List.mem_singleton.mp isNumber, Operand.converted, wrap64_eq_self.mpr (inRange_wrap64 _)]
      change ((wrap64 value.toNat : Int) : Rat) = ((value.toNat : Int) : Rat) ↔ _
      rw [Rat.intCast_inj, wrap64_eq_self]
      unfold InRange Operand.IsInt64
      omega
  | add left right ofLeft ofRight | sub left right ofLeft ofRight | mul left right ofLeft ofRight =>
      rcases List.mem_append.mp isNumber with inLeft | inRight
      · exact ofLeft inLeft
      · exact ofRight inRight

/-- When the numbers are kept, only the arithmetic can go wrong. -/
theorem converted_eq_value (kept : ∀ single, single ∈ operand.numbers -> single.IsInt64) :
    (operand.converted now : Rat) = operand.value now := by
  induction operand with
  | literal value | now => rfl
  | double value =>
      exact truncate64_eq_self.mpr (kept _ List.mem_cons_self)
  | unsigned value =>
      have alone : Operand.unsigned value ∈ (Operand.unsigned value).numbers := List.mem_cons_self
      have same : ((Operand.unsigned value).stored now : Rat) = _ := (stored_single alone).mpr (kept _ alone)
      rwa [Operand.stored, Operand.converted, wrap64_eq_self.mpr (inRange_wrap64 _)] at same
  | add left right ofLeft ofRight =>
      rw [Operand.converted, Operand.value, Rat.intCast_add,
        ofLeft fun single member => kept single (List.mem_append_left _ member),
        ofRight fun single member => kept single (List.mem_append_right _ member)]
  | sub left right ofLeft ofRight =>
      rw [Operand.converted, Operand.value, Rat.intCast_sub,
        ofLeft fun single member => kept single (List.mem_append_left _ member),
        ofRight fun single member => kept single (List.mem_append_right _ member)]
  | mul left right ofLeft ofRight =>
      rw [Operand.converted, Operand.value, Rat.intCast_mul,
        ofLeft fun single member => kept single (List.mem_append_left _ member),
        ofRight fun single member => kept single (List.mem_append_right _ member)]

theorem stored_eq_value (kept : ∀ single, single ∈ operand.numbers -> single.IsInt64) :
    (operand.stored now : Rat) = operand.value now ↔
      ((-2 ^ 63 : Int) : Rat) ≤ operand.value now ∧ operand.value now < ((2 ^ 63 : Int) : Rat) := by
  rw [← converted_eq_value kept, Operand.stored, Rat.intCast_inj, wrap64_eq_self,
    Rat.intCast_le_intCast, Rat.intCast_lt_intCast]
  rfl

/-- Some condition compares the identifier of a memo with the operand. -/
theorem exists_statement (now : Int64) (operand : Operand) : Exists fun rendered =>
    statement now newAttachmentSchema .sqlite 0 "memo_id" (.compare .eq) operand = .ok rendered := by
  rcases operand.converts now newAttachmentSchema with ⟨literal, isLiteral, converts⟩
  unfold statement Use.expr
  dsimp only
  rw [buildCondition_compare]
  have built : buildComparisonCondition now.toInt newAttachmentSchema (celFunction .eq)
      [.identExpr "memo_id", operand.expr] =
        .ok (.comparison (.fieldRef "memo_id") .eq (.literalValue literal)) := by
    change (do
      let right ← buildValueExpr now.toInt newAttachmentSchema operand.expr
      checkComparisonOperator newAttachmentSchema .eq (.fieldRef "memo_id")
      return .comparison (.fieldRef "memo_id") .eq right : Except String Condition) = _
    rw [isLiteral]
    rfl
  rw [built]
  rcases toInt64_eq_ok converts with ⟨value, rfl⟩ | ⟨value, rfl⟩
  · exact ⟨_, rfl⟩
  · exact ⟨_, rfl⟩

/-- The condition is needed. -/
theorem representable_of_faithful (faithful : Faithful now operand) : Representable now operand := by
  have kept : ∀ single, single ∈ operand.numbers -> single.IsInt64 := fun single isNumber =>
    (stored_single isNumber).mp (faithful.kept single isNumber _ (evaluateNumeric_operand now single))
  refine ⟨kept, ?_⟩
  rcases exists_statement now operand with ⟨rendered, success⟩
  rcases faithful.compared _ _ _ _ _ rendered success with ⟨number, there, same⟩
  rw [args_statement success] at there
  cases there
  exact (stored_eq_value kept).mp same

/-- Folding agrees with CEL, and no number is converted to another one, exactly
if the numbers of the operand and its value are values of `int64`. -/
theorem faithful_iff : Faithful now operand ↔ Representable now operand := by
  constructor
  · exact representable_of_faithful
  · intro representable
    have exact := (stored_eq_value representable.numbers).mpr representable.value
    refine ⟨fun _ => .inl ⟨_, evaluateNumeric_operand now operand, exact⟩, ?_, ?_⟩
    · intro single isNumber number folds
      rw [evaluateNumeric_operand] at folds
      cases folds
      exact (stored_single isNumber).mpr (representable.numbers single isNumber)
    · intro schema dialect offset field use rendered success
      exact ⟨_, args_statement success, exact⟩

/-- The greatest machine integer wraps around, a half is cut off, alone and in
a sum, and the greatest unsigned integer becomes negative. -/
theorem unfaithful_operands :
    ¬ Faithful 0 (.add (.literal 9223372036854775807) (.literal 1)) ∧ ¬ Faithful 0 (.double (3 / 2)) ∧
      ¬ Faithful 0 (.add (.double (3 / 2)) (.double (3 / 2))) ∧
      ¬ Faithful 0 (.unsigned 18446744073709551615) := by
  refine ⟨fun faithful => ?_, fun faithful => ?_, fun faithful => ?_, fun faithful => ?_⟩
  · exact absurd (representable_of_faithful faithful).value.2 (by decide +kernel)
  · exact absurd ((representable_of_faithful faithful).numbers _ List.mem_cons_self).1 (by decide +kernel)
  · exact absurd ((representable_of_faithful faithful).numbers _ List.mem_cons_self).1 (by decide +kernel)
  · have small : (18446744073709551615 : UInt64).toNat < 2 ^ 63 :=
      (representable_of_faithful faithful).numbers _ List.mem_cons_self
    exact absurd small (by decide)

end Agreement

end Folding
end Filter
end Memos
