import Memos.Filter.Engine
import Memos.Library.Except

namespace Memos
namespace Filter

open Library

/-!
# Filters without a clock

The time of a compilation reaches the condition through `now()` only, so a
filter without that call is compiled to the same statement at any time.
-/

mutual

/-- The expression contains the call `now()`. -/
def Expr.callsNow : Expr -> Bool
  | .callExpr target function args =>
      function == "now" || optionCallsNow target || anyCallsNow args
  | .listExpr elements => anyCallsNow elements
  | .selectExpr operand _ _ => operand.callsNow
  | .comprehensionExpr _ iterRange accuInit loopStep =>
      iterRange.callsNow || accuInit.callsNow || loopStep.callsNow
  | _ => false

def optionCallsNow : Option Expr -> Bool
  | none => false
  | some expr => expr.callsNow

def anyCallsNow : List Expr -> Bool
  | [] => false
  | expr :: rest => expr.callsNow || anyCallsNow rest

end

theorem anyCallsNow_eq_false {exprs : List Expr} :
    anyCallsNow exprs = false ↔ ∀ expr, expr ∈ exprs -> expr.callsNow = false := by
  induction exprs with
  | nil =>
      constructor
      · exact fun _ _ impossible => absurd impossible List.not_mem_nil
      · exact fun _ => rfl
  | cons first rest ih =>
      unfold anyCallsNow
      rw [Bool.or_eq_false_iff, ih, List.forall_mem_cons]

/-- What a call without `now()` is made of. -/
theorem callsNow_call {target : Option Expr} {function : String} {args : List Expr}
    (timeless : (Expr.callExpr target function args).callsNow = false) :
    function ≠ "now" ∧ ∀ expr, expr ∈ args -> expr.callsNow = false := by
  unfold Expr.callsNow at timeless
  rw [Bool.or_eq_false_iff, Bool.or_eq_false_iff, anyCallsNow_eq_false] at timeless
  exact ⟨beq_eq_false_iff_ne.mp timeless.1.1, timeless.2⟩

section Timeless

variable (now later : Int) {schema : Schema}

theorem evaluateNumeric_timeless {expr : Expr} (timeless : expr.callsNow = false) :
    evaluateNumeric now expr = evaluateNumeric later expr := by
  induction expr using evaluateNumeric.induct with
  | case1 target args => exact absurd rfl (callsNow_call timeless).1
  | case2 target function notNow arithmetic leftExpr rightExpr ofLeft ofRight =>
      have parts := (callsNow_call timeless).2
      have left := ofLeft (parts leftExpr List.mem_cons_self)
      have right := ofRight (parts rightExpr (List.mem_cons_of_mem _ List.mem_cons_self))
      unfold evaluateNumeric
      rw [if_neg notNow, if_pos arithmetic, if_neg notNow, if_pos arithmetic]
      dsimp only
      rw [left, right]
  | case3 target function args notNow arithmetic other =>
      unfold evaluateNumeric
      rw [if_neg notNow, if_pos arithmetic, if_neg notNow, if_pos arithmetic]
      split
      · exact absurd rfl (other _ _)
      · rfl
  | case4 target function args notNow other =>
      unfold evaluateNumeric
      rw [if_neg notNow, if_neg other, if_neg notNow, if_neg other]
  | case5 expr notCall value literal
  | case6 expr notCall value literal
  | case7 expr notCall =>
      cases expr with
      | callExpr target function args => exact absurd rfl (notCall _ _ _)
      | _ => rfl

theorem buildValueExpr_timeless {expr : Expr} (timeless : expr.callsNow = false) :
    buildValueExpr now schema expr = buildValueExpr later schema expr := by
  induction expr using buildValueExpr.induct schema with
  | case5 target function args ofOperand =>
      have parts := (callsNow_call timeless).2
      unfold buildValueExpr
      rw [evaluateNumeric_timeless now later timeless]
      rcases args with _ | ⟨operand, _ | ⟨second, rest⟩⟩
      · rfl
      · dsimp only
        rw [ofOperand (parts operand List.mem_cons_self)]
      · rfl
  | case6 expr notIdent notConst notCall =>
      cases expr with
      | callExpr target function args => exact absurd rfl (notCall _ _ _)
      | constExpr value => exact absurd rfl (notConst _)
      | identExpr name => exact absurd rfl (notIdent _)
      | _ => rfl
  | _ => rfl

theorem buildValues_timeless {values : List Expr}
    (timeless : ∀ expr, expr ∈ values -> expr.callsNow = false) :
    values.mapM (buildValueExpr now schema) = values.mapM (buildValueExpr later schema) := by
  induction values with
  | nil => rfl
  | cons first rest ih =>
      rcases List.forall_mem_cons.mp timeless with ⟨ofFirst, ofRest⟩
      rw [List.mapM_cons, List.mapM_cons, ih ofRest,
        buildValueExpr_timeless now later ofFirst]

theorem buildComparisonCondition_timeless {function : String} {args : List Expr}
    (timeless : ∀ expr, expr ∈ args -> expr.callsNow = false) :
    buildComparisonCondition now schema function args
      = buildComparisonCondition later schema function args := by
  unfold buildComparisonCondition
  split
  · rename_i leftExpr rightExpr
    have ofLeft := timeless leftExpr List.mem_cons_self
    have ofRight := timeless rightExpr (List.mem_cons_of_mem _ List.mem_cons_self)
    rw [buildValueExpr_timeless now later ofLeft, buildValueExpr_timeless now later ofRight]
  · rfl

theorem buildElementInCondition_timeless {elementExpr listExpr : Expr}
    (timeless : elementExpr.callsNow = false) :
    buildElementInCondition now schema elementExpr listExpr
      = buildElementInCondition later schema elementExpr listExpr := by
  unfold buildElementInCondition
  rw [buildValueExpr_timeless now later timeless]

theorem callsNow_list {elements : List Expr} (timeless : (Expr.listExpr elements).callsNow = false) :
    ∀ expr, expr ∈ elements -> expr.callsNow = false := by
  unfold Expr.callsNow at timeless
  exact anyCallsNow_eq_false.mp timeless

theorem buildInCondition_timeless {args : List Expr}
    (timeless : ∀ expr, expr ∈ args -> expr.callsNow = false) :
    buildInCondition now schema args = buildInCondition later schema args := by
  unfold buildInCondition
  split
  · rename_i leftExpr rightExpr
    have ofLeft := timeless leftExpr List.mem_cons_self
    have ofRight := timeless rightExpr (List.mem_cons_of_mem _ List.mem_cons_self)
    rw [buildElementInCondition_timeless now later ofLeft]
    cases rightExpr with
    | listExpr elements =>
        dsimp only
        rw [buildValues_timeless now later (callsNow_list ofRight)]
    | _ => rfl
  · rfl

theorem buildCondition_timeless {expr : Expr} (timeless : expr.callsNow = false) :
    buildCondition now schema expr = buildCondition later schema expr := by
  induction expr using buildCondition.induct schema with
  | case1 target leftExpr rightExpr ofLeft ofRight
  | case3 target leftExpr rightExpr notAnd ofLeft ofRight =>
      have parts := (callsNow_call timeless).2
      have left := ofLeft (parts leftExpr List.mem_cons_self)
      have right := ofRight (parts rightExpr (List.mem_cons_of_mem _ List.mem_cons_self))
      unfold buildCondition
      simp only [left, right, buildComparisonCondition_timeless now later parts,
        buildInCondition_timeless now later parts]
  | case5 target operand notAnd notOr ofOperand =>
      have parts := (callsNow_call timeless).2
      have child := ofOperand (parts operand List.mem_cons_self)
      unfold buildCondition
      simp only [child, buildComparisonCondition_timeless now later parts,
        buildInCondition_timeless now later parts]
  | case2 target args other =>
      unfold buildCondition
      rw [if_pos rfl, if_pos rfl]
      split
      · exact absurd rfl (other _ _)
      · rfl
  | case4 target args other notAnd =>
      unfold buildCondition
      rw [if_neg notAnd, if_neg notAnd, if_pos rfl, if_pos rfl]
      split
      · exact absurd rfl (other _ _)
      · rfl
  | case6 target args other notAnd notOr =>
      unfold buildCondition
      rw [if_neg notAnd, if_neg notOr, if_neg notAnd, if_neg notOr, if_pos rfl, if_pos rfl]
      split
      · exact absurd rfl (other _)
      · rfl
  | case7 target function args notAnd notOr notNot
  | case8 target args notAnd notOr notNot
  | case9 target args notAnd notOr notNot
  | case10 target function args notAnd notOr notNot =>
      have parts := (callsNow_call timeless).2
      unfold buildCondition
      rw [if_neg notAnd, if_neg notOr, if_neg notNot, if_neg notAnd, if_neg notOr, if_neg notNot,
        buildComparisonCondition_timeless now later parts, buildInCondition_timeless now later parts]
  | case16 expr notCall notConst notIdent notComprehension =>
      cases expr with
      | callExpr target function args => exact absurd rfl (notCall _ _ _)
      | constExpr value => exact absurd rfl (notConst _)
      | identExpr name => exact absurd rfl (notIdent _)
      | comprehensionExpr iterVar iterRange accuInit loopStep =>
          exact absurd rfl (notComprehension _ _ _ _)
      | _ => rfl
  | _ => rfl

end Timeless

/-- The filters of this engine that compile to an expression without `now()`. -/
def Engine.Timeless (engine : Engine) (filter : String) : Prop :=
  ∀ expr, engine.celCompile filter = .ok expr -> expr.callsNow = false

variable {engine : Engine}

theorem compileToStatement_timeless (now later : Int) {filter : String}
    (timeless : engine.Timeless filter) (dialect : DialectName) (placeholderOffset : Nat) :
    engine.compileToStatement now filter dialect placeholderOffset
      = engine.compileToStatement later filter dialect placeholderOffset := by
  have same : engine.compile now filter = engine.compile later filter := by
    unfold Engine.compile
    split
    · rfl
    · split
      · rfl
      · rename_i expr compiled
        exact buildCondition_timeless now later (timeless expr compiled)
  unfold Engine.compileToStatement
  rw [same]

theorem appendConditions_timeless (now later : Int) (dialect : DialectName) {filters : List String}
    (timeless : ∀ filter, filter ∈ filters -> engine.Timeless filter) (clause : Where) :
    appendConditions engine now dialect clause filters
      = appendConditions engine later dialect clause filters := by
  induction filters generalizing clause with
  | nil => rfl
  | cons filter rest ih =>
      rcases List.forall_mem_cons.mp timeless with ⟨ofFilter, ofRest⟩
      unfold appendConditions
      rw [compileToStatement_timeless now later ofFilter]
      have same := ih ofRest
      simp only [same]

end Filter
end Memos
