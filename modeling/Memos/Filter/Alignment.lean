import Memos.Filter.Recording

namespace Memos
namespace Filter

open Library

/-!
# Placeholders against arguments

Rendering a tree records every argument below it, but constant folding can
throw the text of a subtree away.  The placeholders of the result are then
fewer than the recorded arguments.  `keepsArguments` describes the trees on
which this cannot happen: no operand of a connective that a constant decides
has recorded anything.  On these trees, and on no others, the text and the
argument list correspond.
-/

/-- The operand that decides a connective: `false && x`, `true || x`. -/
def absorbing : LogicalOperator -> Bool
  | .and => false
  | .or => true

/-- The value to which the renderer folds a condition, if it does. -/
def constantValue : Condition -> Option Bool
  | .logical operator left right =>
      if constantValue left = some (absorbing operator) ∨
          constantValue right = some (absorbing operator) then some (absorbing operator)
      else if constantValue left = some (!absorbing operator) then constantValue right
      else if constantValue right = some (!absorbing operator) then constantValue left
      else none
  | .not expr => (constantValue expr).map Bool.not
  | .constant value => some value
  | _ => none

/-- Whether no text is dropped after its argument was recorded. -/
def keepsArguments (schema : Schema) (dialect : DialectName) : Condition -> Bool
  | .logical operator left right =>
      keepsArguments schema dialect left && keepsArguments schema dialect right &&
        (if constantValue left = some (absorbing operator) ∨
            constantValue right = some (absorbing operator) then
          !recordsArgument schema dialect left && !recordsArgument schema dialect right
        else true)
  | .not expr => keepsArguments schema dialect expr
  | _ => true

/-- A filter that a statement leaves out is harmless whatever it recorded. -/
def bindsArguments (schema : Schema) (dialect : DialectName) (condition : Condition) : Bool :=
  constantValue condition == some true || keepsArguments schema dialect condition

/-! ## Folding -/

namespace RenderResult

/-- The folding flags as a value. -/
def constant (result : RenderResult) : Option Bool :=
  if result.unsatisfiable then some false
  else if result.trivial then some true
  else none

/-- The result of a folded condition. -/
def ofConstant : Bool -> RenderResult
  | true => trivialResult
  | false => unsatisfiableResult

/-- The two connectives by name. -/
def combine : LogicalOperator -> RenderResult -> RenderResult -> RenderResult
  | .and => combineAnd
  | .or => combineOr

/-- A result carries at most one flag, and a folded result is the standard
one for its value. -/
structure Folded (result : RenderResult) (value : Option Bool) : Prop where
  constant_eq : result.constant = value
  exclusive : result.trivial = true -> result.unsatisfiable = false

variable {left right : RenderResult} {first second : Option Bool}

theorem ofConstant_folded (value : Bool) : (ofConstant value).Folded (some value) := by
  cases value
  · exact ⟨rfl, fun impossible => by cases impossible⟩
  · exact ⟨rfl, fun _ => rfl⟩

@[simp] theorem ofConstant_params (value : Bool) : (ofConstant value).sql.params = [] := by
  cases value <;> rfl

theorem Folded.flags (folded : left.Folded first) :
    left.trivial = (first == some true) ∧ left.unsatisfiable = (first == some false) := by
  rcases folded with ⟨rfl, exclusive⟩
  rcases left with ⟨sql, trivial, unsatisfiable⟩
  cases trivial <;> cases unsatisfiable
  · exact ⟨rfl, rfl⟩
  · exact ⟨rfl, rfl⟩
  · exact ⟨rfl, rfl⟩
  · cases exclusive rfl

theorem combine_absorbed (operator : LogicalOperator) (leftFolded : left.Folded first)
    (rightFolded : right.Folded second)
    (absorbed : first = some (absorbing operator) ∨ second = some (absorbing operator)) :
    combine operator left right = ofConstant (absorbing operator) := by
  rcases leftFolded.flags with ⟨leftTrivial, leftUnsatisfiable⟩
  rcases rightFolded.flags with ⟨rightTrivial, rightUnsatisfiable⟩
  cases operator with
  | and =>
      have either : (left.unsatisfiable || right.unsatisfiable) = true := by
        rcases absorbed with rfl | rfl
        · rw [leftUnsatisfiable]; rfl
        · rw [rightUnsatisfiable]; exact Bool.or_true _
      rw [combine, combineAnd, if_pos either]
      rfl
  | or =>
      have either : (left.trivial || right.trivial) = true := by
        rcases absorbed with rfl | rfl
        · rw [leftTrivial]; rfl
        · rw [rightTrivial]; exact Bool.or_true _
      rw [combine, combineOr, if_pos either]
      rfl

/-- Without a deciding operand, a neutral one disappears and two proper ones
are joined between parentheses. -/
theorem combine_kept (operator : LogicalOperator) (leftFolded : left.Folded first)
    (rightFolded : right.Folded second) (leftKept : first ≠ some (absorbing operator))
    (rightKept : second ≠ some (absorbing operator)) :
    (first = some (!absorbing operator) ∧ combine operator left right = right) ∨
    (first = none ∧ second = some (!absorbing operator) ∧
      combine operator left right = left) ∨
    (first = none ∧ second = none ∧ (combine operator left right).Folded none ∧
      (combine operator left right).sql.isEmpty = false ∧
      (combine operator left right).sql.params = left.sql.params ++ right.sql.params) := by
  rcases leftFolded.flags with ⟨leftTrivial, leftUnsatisfiable⟩
  rcases rightFolded.flags with ⟨rightTrivial, rightUnsatisfiable⟩
  cases operator <;> rcases first with _ | _ | _ <;> rcases second with _ | _ | _
  all_goals first
    | exact absurd rfl leftKept
    | exact absurd rfl rightKept
    | simp [combine, combineAnd, combineOr, leftTrivial, leftUnsatisfiable, rightTrivial,
        rightUnsatisfiable, absorbing, SqlCondition.params, SqlCondition.isEmpty]
  all_goals exact ⟨rfl, fun impossible => by cases impossible⟩

end RenderResult

open RenderResult

/-! ## The tree -/

/-- Rendering a condition folds it to `constantValue`, records `values`, and
keeps all of their placeholders exactly when `keepsArguments` says so. -/
structure TreeRecorded (r : Renderer) (condition : Condition) (result : RenderResult)
    (after : Renderer) (values : List Arg) : Prop where
  after_eq : after = r.advance values
  records_eq : recordsArgument r.schema r.dialect condition = !values.isEmpty
  folded : result.Folded (constantValue condition)
  constant_params : constantValue condition ≠ none -> result.sql.params = []
  kept : keepsArguments r.schema r.dialect condition = true ->
    result.sql.params = r.emitted values
  dropped : keepsArguments r.schema r.dialect condition = false ->
    result.sql.params.length < values.length
  nonempty : constantValue condition = none -> result.sql.isEmpty = false

namespace TreeRecorded

variable {r middle after : Renderer} {condition : Condition} {result : RenderResult}
  {values : List Arg}

theorem params_length_le (tree : TreeRecorded r condition result after values) :
    result.sql.params.length ≤ values.length := by
  cases keeps : keepsArguments r.schema r.dialect condition with
  | true =>
      exact Nat.le_of_eq (by rw [tree.kept keeps, Renderer.length_emitted])
  | false => exact Nat.le_of_lt (tree.dropped keeps)

/-- A leaf neither folds nor drops anything. -/
theorem of_leaf (leaf : Renderer.LeafRecorded r result after
      (recordsArgument r.schema r.dialect condition) values)
    (proper : constantValue condition = none)
    (keeps : keepsArguments r.schema r.dialect condition = true) :
    TreeRecorded r condition result after values where
  after_eq := leaf.recorded.after_eq
  records_eq := leaf.records_eq
  folded := by
    refine ⟨?_, fun _ => leaf.not_unsatisfiable⟩
    rw [constant, leaf.not_trivial, leaf.not_unsatisfiable, proper]
    rfl
  constant_params := fun folds => absurd proper folds
  kept := fun _ => leaf.recorded.params_eq
  dropped := fun drops => by rw [keeps] at drops; cases drops
  nonempty := fun _ => leaf.nonempty

/-- A constant records nothing. -/
theorem of_constant (value : Bool) :
    TreeRecorded r (.constant value) (ofConstant value) r [] where
  after_eq := r.advance_nil.symm
  records_eq := rfl
  folded := ofConstant_folded value
  constant_params := fun _ => ofConstant_params value
  kept := fun _ => ofConstant_params value
  dropped := fun impossible => by cases impossible
  nonempty := fun impossible => by cases impossible

/-- The negation of a folded condition is folded, and any other one keeps the
placeholders of its operand. -/
theorem not (child : TreeRecorded r condition result after values) :
    TreeRecorded r (.not condition) (combineNot result) after values := by
  rcases child.folded.flags with ⟨trivial, unsatisfiable⟩
  cases value : constantValue condition with
  | none =>
      have same : combineNot result = { sql := .not result.sql } := by
        rw [combineNot, trivial, unsatisfiable, value]
        rfl
      rw [same]
      refine ⟨child.after_eq, child.records_eq, ⟨?_, ?_⟩, ?_, child.kept, child.dropped,
        fun _ => rfl⟩
      · rw [constantValue, value]
        rfl
      · intro impossible
        cases impossible
      · intro folds
        rw [constantValue, value] at folds
        exact absurd rfl folds
  | some constant =>
      have same : combineNot result = ofConstant (!constant) := by
        rw [combineNot, trivial, unsatisfiable, value]
        cases constant <;> rfl
      have none_left : result.sql.params = [] :=
        child.constant_params (by rw [value]; exact Option.some_ne_none _)
      rw [same]
      refine ⟨child.after_eq, child.records_eq, ?_, fun _ => ofConstant_params _, ?_, ?_, ?_⟩
      · rw [constantValue, value]
        exact ofConstant_folded _
      · intro keeps
        rw [ofConstant_params, ← child.kept keeps, none_left]
      · intro drops
        rw [ofConstant_params, ← none_left]
        exact child.dropped drops
      · intro impossible
        rw [constantValue, value] at impossible
        cases impossible

variable {leftCondition rightCondition : Condition} {left right : RenderResult}
  {first second : List Arg}

/-- What a connective records is empty when neither operand records. -/
theorem records_append (leftTree : TreeRecorded r leftCondition left middle first)
    (rightTree : TreeRecorded middle rightCondition right after second) :
    (recordsArgument r.schema r.dialect leftCondition ||
      recordsArgument r.schema r.dialect rightCondition) = !(first ++ second).isEmpty := by
  have rightRecords := rightTree.records_eq
  rw [leftTree.after_eq, Renderer.advance_schema, Renderer.advance_dialect] at rightRecords
  rw [leftTree.records_eq, rightRecords]
  cases first <;> cases second <;> rfl

/-- The placeholders of two complete operands, side by side. -/
theorem params_append (leftTree : TreeRecorded r leftCondition left middle first)
    (rightTree : TreeRecorded middle rightCondition right after second)
    (keeps : (keepsArguments r.schema r.dialect leftCondition &&
      keepsArguments r.schema r.dialect rightCondition) = true) :
    left.sql.params ++ right.sql.params = r.emitted (first ++ second) := by
  rcases (Bool.and_eq_true _ _).mp keeps with ⟨leftKeeps, rightKeeps⟩
  have rightKept := rightTree.kept
  rw [leftTree.after_eq, Renderer.advance_schema, Renderer.advance_dialect] at rightKept
  rw [leftTree.kept leftKeeps, rightKept rightKeeps, Renderer.emitted_append]

/-- When one operand is incomplete, so are both together. -/
theorem params_append_length (leftTree : TreeRecorded r leftCondition left middle first)
    (rightTree : TreeRecorded middle rightCondition right after second)
    (drops : (keepsArguments r.schema r.dialect leftCondition &&
      keepsArguments r.schema r.dialect rightCondition) = false) :
    left.sql.params.length + right.sql.params.length < (first ++ second).length := by
  have leftLength := leftTree.params_length_le
  have rightLength := rightTree.params_length_le
  have rightDropped := rightTree.dropped
  rw [leftTree.after_eq, Renderer.advance_schema, Renderer.advance_dialect] at rightDropped
  rw [List.length_append]
  rcases Bool.and_eq_false_iff.mp drops with leftDrops | rightDrops
  · have fewer := leftTree.dropped leftDrops
    omega
  · have fewer := rightDropped rightDrops
    omega

/-- A constant decides the connective: all text is gone, so nothing may have
been recorded. -/
theorem logical_absorbed (operator : LogicalOperator)
    (leftTree : TreeRecorded r leftCondition left middle first)
    (rightTree : TreeRecorded middle rightCondition right after second)
    (absorbed : constantValue leftCondition = some (absorbing operator) ∨
      constantValue rightCondition = some (absorbing operator)) :
    TreeRecorded r (.logical operator leftCondition rightCondition)
      (combine operator left right) after (first ++ second) := by
  have records := records_append leftTree rightTree
  have keepsEq : keepsArguments r.schema r.dialect
      (.logical operator leftCondition rightCondition) =
        ((keepsArguments r.schema r.dialect leftCondition &&
          keepsArguments r.schema r.dialect rightCondition) && (first ++ second).isEmpty) := by
    rw [keepsArguments, if_pos absorbed, ← Bool.not_or, records, Bool.not_not]
  rw [combine_absorbed operator leftTree.folded rightTree.folded absorbed]
  refine ⟨?_, records, ?_, fun _ => ofConstant_params _, ?_, ?_, ?_⟩
  · rw [rightTree.after_eq, leftTree.after_eq, Renderer.advance_append]
  · rw [constantValue, if_pos absorbed]
    exact ofConstant_folded _
  · intro keeps
    rw [keepsEq, Bool.and_eq_true, List.isEmpty_iff] at keeps
    rw [keeps.2, ofConstant_params]
    rfl
  · intro drops
    rw [ofConstant_params, List.length_nil]
    rw [keepsEq, Bool.and_eq_false_iff] at drops
    rcases drops with drops | recorded
    · have fewer := params_append_length leftTree rightTree drops
      omega
    · exact List.length_pos_iff.mpr (List.isEmpty_eq_false_iff.mp recorded)
  · intro impossible
    rw [constantValue, if_pos absorbed] at impossible
    cases impossible

/-- No constant decides the connective: a neutral operand has no
placeholders, so the result has those of both operands in every case. -/
theorem logical_kept (operator : LogicalOperator) (leftTree : TreeRecorded r leftCondition left middle first)
    (rightTree : TreeRecorded middle rightCondition right after second)
    (leftOpen : constantValue leftCondition ≠ some (absorbing operator))
    (rightOpen : constantValue rightCondition ≠ some (absorbing operator)) :
    TreeRecorded r (.logical operator leftCondition rightCondition)
      (combine operator left right) after (first ++ second) := by
  have notAbsorbed := not_or.mpr ⟨leftOpen, rightOpen⟩
  have keepsEq : keepsArguments r.schema r.dialect
      (.logical operator leftCondition rightCondition) =
        (keepsArguments r.schema r.dialect leftCondition &&
          keepsArguments r.schema r.dialect rightCondition) := by
    rw [keepsArguments, if_neg notAbsorbed, Bool.and_true]
  have outcome : (combine operator left right).Folded
        (constantValue (.logical operator leftCondition rightCondition)) ∧
      (constantValue (.logical operator leftCondition rightCondition) ≠ none ->
        (combine operator left right).sql.params = []) ∧
      (constantValue (.logical operator leftCondition rightCondition) = none ->
        (combine operator left right).sql.isEmpty = false) ∧
      (combine operator left right).sql.params = left.sql.params ++ right.sql.params := by
    rw [constantValue, if_neg notAbsorbed]
    rcases combine_kept operator leftTree.folded rightTree.folded leftOpen rightOpen with
      ⟨neutral, same⟩ | ⟨proper, neutral, same⟩ |
      ⟨leftProper, rightProper, folded, nonempty, both⟩
    · have gone : left.sql.params = [] :=
        leftTree.constant_params (by rw [neutral]; exact Option.some_ne_none _)
      rw [if_pos neutral, same, gone]
      exact ⟨rightTree.folded, rightTree.constant_params, rightTree.nonempty, rfl⟩
    · have gone : right.sql.params = [] :=
        rightTree.constant_params (by rw [neutral]; exact Option.some_ne_none _)
      rw [if_neg (by rw [proper]; exact (Option.some_ne_none _).symm), if_pos neutral, same,
        gone, List.append_nil]
      exact ⟨leftTree.folded, leftTree.constant_params, leftTree.nonempty, rfl⟩
    · rw [if_neg (by rw [leftProper]; exact (Option.some_ne_none _).symm),
        if_neg (by rw [rightProper]; exact (Option.some_ne_none _).symm)]
      exact ⟨folded, fun impossible => absurd rfl impossible, fun _ => nonempty, both⟩
  rcases outcome with ⟨folded, constantParams, nonempty, both⟩
  refine ⟨?_, records_append leftTree rightTree, folded, constantParams, ?_, ?_, nonempty⟩
  · rw [rightTree.after_eq, leftTree.after_eq, Renderer.advance_append]
  · intro keeps
    rw [both]
    exact params_append leftTree rightTree (keepsEq ▸ keeps)
  · intro drops
    rw [both, List.length_append]
    exact params_append_length leftTree rightTree (keepsEq ▸ drops)

theorem logical (operator : LogicalOperator) (leftTree : TreeRecorded r leftCondition left middle first)
    (rightTree : TreeRecorded middle rightCondition right after second) :
    TreeRecorded r (.logical operator leftCondition rightCondition)
      (combine operator left right) after (first ++ second) := by
  by_cases absorbed : constantValue leftCondition = some (absorbing operator) ∨
      constantValue rightCondition = some (absorbing operator)
  · exact logical_absorbed operator leftTree rightTree absorbed
  · rcases not_or.mp absorbed with ⟨leftOpen, rightOpen⟩
    exact logical_kept operator leftTree rightTree leftOpen rightOpen

end TreeRecorded

variable {condition : Condition} {dialect : DialectName}

/-- Every successful rendering is described by `TreeRecorded`. -/
theorem renderCondition_recorded {r after : Renderer} {result : RenderResult}
    (success : r.renderCondition condition = .ok (result, after)) :
    Exists fun values => TreeRecorded r condition result after values := by
  induction condition generalizing r result after with
  | logical operator left right leftHypothesis rightHypothesis =>
      rcases bind_eq_ok.mp success with ⟨⟨leftResult, middle⟩, leftSuccess, continued⟩
      rcases bind_eq_ok.mp continued with ⟨⟨rightResult, final⟩, rightSuccess, finished⟩
      rcases leftHypothesis leftSuccess with ⟨first, leftTree⟩
      rcases rightHypothesis rightSuccess with ⟨second, rightTree⟩
      have tree := TreeRecorded.logical operator leftTree rightTree
      refine ⟨first ++ second, ?_⟩
      cases operator <;> cases finished <;> exact tree
  | not expr ih =>
      rcases bind_eq_ok.mp success with ⟨⟨child, final⟩, childSuccess, finished⟩
      rcases ih childSuccess with ⟨values, childTree⟩
      cases finished
      exact ⟨values, childTree.not⟩
  | constant value =>
      refine ⟨[], ?_⟩
      cases value <;> cases success <;> exact TreeRecorded.of_constant _
  | fieldPredicate field =>
      exact ⟨_, .of_leaf (Renderer.renderFieldPredicate_recorded success) rfl rfl⟩
  | comparison left operator right =>
      rcases Renderer.renderComparison_recorded success with ⟨values, leaf⟩
      exact ⟨values, .of_leaf leaf rfl rfl⟩
  | inList left list =>
      rcases Renderer.renderInCondition_recorded success with ⟨values, leaf⟩
      exact ⟨values, .of_leaf leaf rfl rfl⟩
  | elementIn element field =>
      rcases Renderer.renderElementInCondition_recorded success with ⟨value, leaf⟩
      exact ⟨[value], .of_leaf leaf rfl rfl⟩
  | contains field text =>
      rcases Renderer.renderContainsCondition_recorded success with ⟨value, leaf⟩
      exact ⟨[value], .of_leaf leaf rfl rfl⟩
  | listComprehension kind field iterVar predicate =>
      rcases Renderer.renderListComprehension_recorded success with ⟨values, leaf⟩
      exact ⟨values, .of_leaf leaf rfl rfl⟩

/-! ## Statements -/

/-- What `Render` returns: the text of the tree, or the text of its constant. -/
theorem render_eq_ok {r : Renderer} {statement : Statement} (success : r.render condition = .ok statement) :
    Exists fun result => Exists fun after =>
      r.renderCondition condition = .ok (result, after) ∧ statement.args = after.args ∧
        statement.sql = (if result.unsatisfiable then .falsum
          else if result.trivial then .empty else result.sql) := by
  rcases bind_eq_ok.mp success with ⟨⟨result, after⟩, rendered, finished⟩
  refine ⟨result, after, rendered, ?_⟩
  cases unsatisfiable : result.unsatisfiable
  · cases trivial : result.trivial
    all_goals
      simp only [unsatisfiable, trivial] at finished
      cases finished
      exact ⟨rfl, rfl⟩
  · simp only [unsatisfiable] at finished
    cases finished
    exact ⟨rfl, rfl⟩

/-- A tree that is constantly false leaves no other text. -/
theorem render_never {schema : Schema} {offset : Nat} {statement : Statement}
    (never : constantValue condition = some false)
    (success : (Renderer.new schema dialect offset).render condition = .ok statement) :
    statement.sql = .falsum := by
  rcases render_eq_ok success with ⟨result, after, rendered, _, sqlEq⟩
  rcases renderCondition_recorded rendered with ⟨values, tree⟩
  rw [sqlEq, tree.folded.flags.2, never]
  rfl

/-- The statement of a tree, rendered from a fresh renderer. -/
structure StatementRecorded (schema : Schema) (dialect : DialectName) (offset : Nat)
    (condition : Condition) (statement : Statement) : Prop where
  kept : keepsArguments schema dialect condition = true ->
    statement.sql.params = placeholdersFrom dialect offset 0 statement.args
  dropped : keepsArguments schema dialect condition = false ->
    statement.sql.params.length < statement.args.length
  empty_eq : statement.sql.isEmpty = (constantValue condition == some true)

theorem render_recorded {schema : Schema} {offset : Nat} {statement : Statement}
    (success : (Renderer.new schema dialect offset).render condition = .ok statement) :
    StatementRecorded schema dialect offset condition statement := by
  rcases render_eq_ok success with ⟨result, after, rendered, argsEq, sqlEq⟩
  rcases renderCondition_recorded rendered with ⟨values, tree⟩
  rcases tree.folded.flags with ⟨trivial, unsatisfiable⟩
  have recorded : statement.args = values := by
    rw [argsEq, tree.after_eq]
    rfl
  have same : statement.sql.params = result.sql.params ∧
      statement.sql.isEmpty = (constantValue condition == some true) := by
    rw [sqlEq, unsatisfiable, trivial]
    cases folds : constantValue condition with
    | none => exact ⟨rfl, tree.nonempty folds⟩
    | some value =>
        rw [tree.constant_params (by rw [folds]; exact Option.some_ne_none _)]
        cases value <;> exact ⟨rfl, rfl⟩
  refine ⟨?_, ?_, same.2⟩
  · intro keeps
    rw [same.1, recorded]
    exact tree.kept keeps
  · intro drops
    rw [same.1, recorded]
    exact tree.dropped drops

/-! ## Clauses under construction -/

/-- The argument that a placeholder receives: the numbered one, or the one at
the position of the placeholder. -/
def argumentAt (args : List Arg) (position : Nat) : Marker -> Option Arg
  | .question => args[position]?
  | .dollar number => args[number - 1]?

namespace Where

/-- The placeholders of the whole clause in reading order. -/
def placeholders (clause : Where) (dialect : DialectName) : List Placeholder :=
  tokenParams (clause.conjuncts.flatMap (SqlCondition.tokens dialect))

/-- There are as many placeholders as arguments, and each one receives the
literal it was rendered from. -/
structure Aligned (clause : Where) (dialect : DialectName) : Prop where
  length_eq : (clause.placeholders dialect).length = clause.args.length
  bound : ∀ position placeholder,
    (clause.placeholders dialect)[position]? = some placeholder ->
      argumentAt clause.args position placeholder.marker = some placeholder.literal

/-- Some argument has no placeholder. -/
def Short (clause : Where) (dialect : DialectName) : Prop :=
  (clause.placeholders dialect).length < clause.args.length

theorem Short.not_aligned {clause : Where} {dialect : DialectName}
    (short : clause.Short dialect) : ¬ clause.Aligned dialect := by
  intro aligned
  exact absurd aligned.length_eq (Nat.ne_of_lt short)

theorem placeholders_append (dialect : DialectName) (clause : Where) (more : List Arg)
    (sql : SqlCondition Placeholder) :
    placeholders ⟨clause.conjuncts ++ [.paren sql], clause.args ++ more⟩ dialect =
      clause.placeholders dialect ++ sql.params := by
  have last : tokenParams (SqlCondition.tokens dialect (.paren sql)) = sql.params :=
    SqlCondition.tokenParams_tokens dialect (.paren sql)
  rw [placeholders, List.flatMap_append, tokenParams_append, List.flatMap_singleton, last]
  rfl

/-- Only a statement with a text changes the clause. -/
theorem append_of_isEmpty {statement : Statement} (clause : Where)
    (isEmpty : statement.sql.isEmpty = true) : clause.append statement = clause := by
  unfold append
  cases sql : statement.sql with
  | empty => rfl
  | _ => rw [sql] at isEmpty; cases isEmpty

theorem append_of_nonempty {statement : Statement} (clause : Where)
    (nonempty : statement.sql.isEmpty = false) :
    clause.append statement =
      ⟨clause.conjuncts ++ [.paren statement.sql], clause.args ++ statement.args⟩ := by
  unfold append
  cases sql : statement.sql with
  | empty => rw [sql] at nonempty; cases nonempty
  | _ => rfl

variable {schema : Schema} {dialect : DialectName} {condition : Condition}
  {statement : Statement} {clause : Where}

theorem append_aligned (aligned : clause.Aligned dialect)
    (recorded : StatementRecorded schema dialect clause.args.length condition statement)
    (binds : bindsArguments schema dialect condition = true) :
    (clause.append statement).Aligned dialect := by
  cases isEmpty : statement.sql.isEmpty with
  | true =>
      rw [append_of_isEmpty clause isEmpty]
      exact aligned
  | false =>
      have keeps : keepsArguments schema dialect condition = true := by
        rw [bindsArguments, ← recorded.empty_eq, isEmpty, Bool.false_or] at binds
        exact binds
      have params := recorded.kept keeps
      rw [append_of_nonempty clause isEmpty]
      refine ⟨?_, ?_⟩
      · rw [placeholders_append, params, List.length_append, aligned.length_eq,
          length_placeholdersFrom, List.length_append]
      · intro position placeholder found
        rw [placeholders_append, params] at found
        by_cases old : position < (clause.placeholders dialect).length
        · rw [List.getElem?_append_left old] at found
          have before := aligned.bound position placeholder found
          cases marker : placeholder.marker with
          | question =>
              rw [marker] at before
              rw [aligned.length_eq] at old
              exact (List.getElem?_append_left old).trans before
          | dollar number =>
              rw [marker] at before
              have inside := (List.getElem?_eq_some_iff.mp before).1
              exact (List.getElem?_append_left inside).trans before
        · have past : clause.args.length ≤ position := by
            rw [← aligned.length_eq]
            exact Nat.le_of_not_lt old
          rw [List.getElem?_append_right (Nat.le_of_not_lt old), aligned.length_eq,
            placeholdersFrom_getElem] at found
          rcases Option.map_eq_some_iff.mp found with ⟨value, at_position, rfl⟩
          have fetched : (clause.args ++ statement.args)[position]? = some value := by
            rw [List.getElem?_append_right past]
            exact at_position
          have number : clause.args.length + (0 + (position - clause.args.length) + 1) - 1 =
              position := by omega
          cases dialect with
          | sqlite | mysql => exact fetched
          | postgres =>
              simp only [markerAt, argumentAt, number]
              exact fetched

theorem append_short (aligned : clause.Aligned dialect)
    (recorded : StatementRecorded schema dialect clause.args.length condition statement)
    (drops : bindsArguments schema dialect condition = false) :
    (clause.append statement).Short dialect := by
  rcases Bool.or_eq_false_iff.mp drops with ⟨notTrue, loses⟩
  have nonempty : statement.sql.isEmpty = false := recorded.empty_eq.trans notTrue
  have fewer := recorded.dropped loses
  have lengths := aligned.length_eq
  rw [append_of_nonempty clause nonempty, Short, placeholders_append, List.length_append,
    List.length_append]
  omega

/-- Later statements have too few placeholders of their own to make up for a
missing one. -/
theorem append_stays_short (short : clause.Short dialect)
    (recorded : StatementRecorded schema dialect clause.args.length condition statement) :
    (clause.append statement).Short dialect := by
  have fewer : statement.sql.params.length ≤ statement.args.length := by
    cases keeps : keepsArguments schema dialect condition with
    | true =>
        exact Nat.le_of_eq (by rw [recorded.kept keeps, length_placeholdersFrom])
    | false => exact Nat.le_of_lt (recorded.dropped keeps)
  have missing : (clause.placeholders dialect).length < clause.args.length := short
  cases isEmpty : statement.sql.isEmpty with
  | true =>
      rw [append_of_isEmpty clause isEmpty]
      exact short
  | false =>
      rw [append_of_nonempty clause isEmpty, Short, placeholders_append, List.length_append,
        List.length_append]
      omega

end Where

/-! ## Lists of filters -/

/-- Every filter of the list leaves a text that binds its arguments. -/
def AllBind (engine : Engine) (now : Int) (dialect : DialectName) (filters : List String) :
    Prop :=
  ∀ filter, filter ∈ filters -> ∀ condition,
    engine.compile now filter = .ok condition ->
      bindsArguments engine.schema dialect condition = true

theorem appendConditions_short {engine : Engine} {now : Int} {filters : List String} {clause out : Where}
    (short : clause.Short dialect) (success : appendConditions engine now dialect clause filters = .ok out) :
    out.Short dialect := by
  induction filters generalizing clause with
  | nil =>
      cases success
      exact short
  | cons filter rest ih =>
      rcases bind_eq_ok.mp success with ⟨statement, compiled, continued⟩
      rcases bind_eq_ok.mp compiled with ⟨condition, _, rendered⟩
      exact ih (Where.append_stays_short short (render_recorded rendered))
        continued

theorem appendConditions_aligned_iff {engine : Engine} {now : Int} {filters : List String} {clause out : Where}
    (aligned : clause.Aligned dialect) (success : appendConditions engine now dialect clause filters = .ok out) :
    out.Aligned dialect ↔ AllBind engine now dialect filters := by
  induction filters generalizing clause with
  | nil =>
      cases success
      exact ⟨fun _ _ impossible => absurd impossible List.not_mem_nil, fun _ => aligned⟩
  | cons filter rest ih =>
      rcases bind_eq_ok.mp success with ⟨statement, compiled, continued⟩
      rcases bind_eq_ok.mp compiled with ⟨condition, parsed, rendered⟩
      have recorded := render_recorded rendered
      cases binds : bindsArguments engine.schema dialect condition with
      | true =>
          rw [ih (Where.append_aligned aligned recorded binds) continued]
          constructor
          · intro others name member parsedCondition parsedName
            rcases List.mem_cons.mp member with rfl | later
            · rw [parsed] at parsedName
              cases parsedName
              exact binds
            · exact others name later parsedCondition parsedName
          · intro all name later
            exact all name (List.mem_cons_of_mem _ later)
      | false =>
          have short := appendConditions_short
            (Where.append_short aligned recorded binds) continued
          constructor
          · intro impossible
            exact absurd impossible short.not_aligned
          · intro all
            have claimed := all filter List.mem_cons_self condition parsed
            rw [binds] at claimed
            cases claimed

/-! ## The correspondence -/

/-- The text of a statement corresponds to its argument list exactly when the
tree keeps its arguments, and a clause stays in correspondence exactly when
every appended filter either is left out or keeps its arguments. -/
theorem placeholder_correspondence (engine : Engine) (now : Int) (dialect : DialectName) :
    (∀ offset condition statement,
      (Renderer.new engine.schema dialect offset).render condition = .ok statement ->
        (tokenParams (statement.sql.tokens dialect) =
            placeholdersFrom dialect offset 0 statement.args ↔
          keepsArguments engine.schema dialect condition = true)) ∧
    (∀ clause filters out, clause.Aligned dialect ->
      appendConditions engine now dialect clause filters = .ok out ->
        (out.Aligned dialect ↔ AllBind engine now dialect filters)) := by
  refine ⟨?_, fun clause filters out => appendConditions_aligned_iff⟩
  intro offset condition statement success
  have recorded := render_recorded success
  rw [SqlCondition.tokenParams_tokens]
  constructor
  · intro corresponds
    cases keeps : keepsArguments engine.schema dialect condition with
    | true => rfl
    | false =>
        have fewer := recorded.dropped keeps
        rw [corresponds, length_placeholdersFrom] at fewer
        exact absurd fewer (Nat.lt_irrefl _)
  · exact recorded.kept

/-- The clause with which the drivers start. -/
theorem Where.start_aligned (dialect : DialectName) (conjunct : SqlCondition Placeholder)
    (plain : conjunct.params = []) : Aligned ⟨[conjunct], []⟩ dialect := by
  have nothing : placeholders ⟨[conjunct], []⟩ dialect = [] := by
    rw [placeholders, List.flatMap_singleton, SqlCondition.tokenParams_tokens, plain]
  refine ⟨by rw [nothing]; rfl, ?_⟩
  intro position placeholder found
  rw [nothing] at found
  cases found

/-- A comparison of the content with a text, as CEL hands it over. -/
def contentEquals (text : String) : Expr :=
  .callExpr none "_==_" [.identExpr "content", .constExpr (.stringValue text)]

/-- The filter `(content == "a" || true) && content == "b"`. -/
def droppingFilter : Expr :=
  .callExpr none "_&&_" [
    .callExpr none "_||_" [contentEquals "a", .constExpr (.boolValue true)],
    contentEquals "b"]

/-- The condition of a comparison with a text. -/
def contentIs (text : String) : Condition :=
  .comparison (.fieldRef "content") .eq (.literalValue (.string text))

/-- On SQLite the filter leaves one placeholder, the one of `b`, and two
arguments, of which `a` comes first. -/
theorem droppingFilter_statement :
    buildCondition 0 newSchema droppingFilter =
        .ok (.logical .and (.logical .or (contentIs "a") (.constant true)) (contentIs "b")) ∧
      (Renderer.new newSchema .sqlite 0).render
          (.logical .and (.logical .or (contentIs "a") (.constant true)) (contentIs "b")) =
        .ok ⟨.compare .eq (.column ⟨"memo", "content"⟩) (.param ⟨2, .string "b", .question⟩),
          [.string "a", .string "b"]⟩ :=
  ⟨rfl, rfl⟩

/-- Not every tree that the parser produces keeps its arguments. -/
theorem placeholder_lost :
    ¬ ∀ (now : Int) (expr : Expr) (condition : Condition) (dialect : DialectName)
        (offset : Nat) (statement : Statement),
      buildCondition now newSchema expr = .ok condition ->
      (Renderer.new newSchema dialect offset).render condition = .ok statement ->
      tokenParams (statement.sql.tokens dialect) =
        placeholdersFrom dialect offset 0 statement.args := by
  intro claimed
  rcases droppingFilter_statement with ⟨parsed, rendered⟩
  have both := congrArg List.length (claimed 0 droppingFilter _ .sqlite 0 _ parsed rendered)
  rw [SqlCondition.tokenParams_tokens] at both
  cases both

/-- An engine that knows one filter. -/
def contentEngine : Engine where
  schema := newSchema
  celCompile := fun _ => .ok (contentEquals "a")

/-- The clause `1 = 1` with one filter appended. -/
theorem placeholder_correspondence_contentEngine :
    (tokenParams (SqlCondition.tokens .postgres (.compare .eq (.column ⟨"memo", "content"⟩)
        (.param ⟨1, .string "a", .dollar 4⟩))) =
      placeholdersFrom .postgres 3 0 [.string "a"]) ∧
    Where.Aligned ⟨[.verum, .paren (.compare .eq (.column ⟨"memo", "content"⟩)
        (.param ⟨1, .string "a", .question⟩))], [.string "a"]⟩ .sqlite := by
  refine ⟨?_, ?_⟩
  · exact (((placeholder_correspondence contentEngine 0 .postgres).1 3 (contentIs "a")
      ⟨.compare .eq (.column ⟨"memo", "content"⟩) (.param ⟨1, .string "a", .dollar 4⟩),
        [.string "a"]⟩) rfl).mpr rfl
  · refine (((placeholder_correspondence contentEngine 0 .sqlite).2 ⟨[.verum], []⟩
      ["content == \"a\""] _) (Where.start_aligned .sqlite .verum rfl) rfl).mpr ?_
    intro filter member condition parsed
    rcases List.mem_singleton.mp member with rfl
    cases parsed
    rfl

end Filter
end Memos
