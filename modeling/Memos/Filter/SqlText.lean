import Memos.Filter.Independence
import Memos.Library.Connectives

namespace Memos
namespace Filter
namespace SqlText

open Library Independence

/-!
# The lexemes of a rendered text

The text of a condition is read back as SQL: comparisons, parentheses and
connectives, with the precedence that SQL gives them.  A comparison counts as
one piece when the dialect has every construct in it.  What the renderer puts
between parentheses is one operand wherever it stands.
-/

/-! ## The constructs of a dialect -/

def availableFunction : DialectName -> SqlFunction -> Bool
  | .sqlite, .jsonArrayLength | .sqlite, .memosUnicodeLower => true
  | .mysql, .jsonLength => true
  | .postgres, .jsonbArrayLength | .postgres, .jsonbBuildArray => true
  | _, _ => false

/-- In MySQL `||` is a connective. -/
def availableExpression : DialectName -> Expression -> Bool
  | _, .bare => true
  | .mysql, format => format == .concatFunction || format == .unixTimestamp
  | _, format => format == .concatOperator

variable {π : Type}

/-- The dialect has every construct of the term. -/
def available (dialect : DialectName) : SqlTerm π -> Bool
  | .column _ | .param _ | .digit _ | .emptyArrayText => true
  | .expression format base => availableExpression dialect format && available dialect base
  | .jsonExtract _ _ | .jsonEmptyArray => dialect != .postgres
  | .jsonAccessor _ _ _ | .jsonbEmptyArray => dialect == .postgres
  | .jsonBool _ => dialect == .mysql
  | .castBoolean term | .castText term | .castJson term =>
      dialect == .postgres && available dialect term
  | .coalesce term fallback => available dialect term && available dialect fallback
  | .call function argument => availableFunction dialect function && available dialect argument

/-- The condition is one comparison, in the syntax of the dialect.  Only SQLite
accepts `IN ()`. -/
def comparison (dialect : DialectName) : SqlCondition π -> Bool
  | .falsum | .verum => true
  | .compare _ left right | .like left right => available dialect left && available dialect right
  | .ilike left right | .jsonbContains left right =>
      dialect == .postgres && available dialect left && available dialect right
  | .jsonContains left right => dialect == .mysql && available dialect left && available dialect right
  | .isTrue term | .isNull term | .isNotNull term => available dialect term
  | .inList term placeholders =>
      available dialect term && (dialect == .sqlite || !placeholders.isEmpty)
  | .empty | .notIsTrue _ | .not _ | .and _ _ | .or _ _ | .paren _ => false

/-! ## Lexemes -/

/-- The text of a condition, with every comparison as one piece. -/
def lexemes : SqlCondition π -> List (Lexeme (SqlCondition π))
  | .empty => []
  | .notIsTrue term => [.not, .opening, .atom (.isTrue term), .closing]
  | .not condition => [.not, .blank] ++ ([.opening] ++ lexemes condition ++ [.closing])
  | .and left right => lexemes left ++ [.blank, .and, .blank] ++ lexemes right
  | .or left right => lexemes left ++ [.blank, .or, .blank] ++ lexemes right
  | .paren condition => [.opening] ++ lexemes condition ++ [.closing]
  | condition => [.atom condition]

/-- The spelling of a piece. -/
def spelling (dialect : DialectName) : Lexeme (SqlCondition Placeholder) -> String
  | .atom condition => text dialect condition
  | .opening => "("
  | .closing => ")"
  | .and => "AND"
  | .or => "OR"
  | .not => "NOT"
  | .blank => " "

/-- The pieces spell the text. -/
theorem text_lexemes (dialect : DialectName) (condition : SqlCondition Placeholder) :
    text dialect condition = String.join ((lexemes condition).map (spelling dialect)) := by
  have single : ∀ condition : SqlCondition Placeholder,
      text dialect condition = String.join [text dialect condition] := by
    intro condition
    simp
  induction condition with
  | not condition ih =>
      simp only [lexemes, List.map_append, String.join_append, ← ih]
      simp [text, SqlCondition.map, SqlCondition.tokens, tokenText, spelling, String.append_assoc]
      exact @String.append_assoc "NOT " "(" _
  | paren condition ih =>
      simp only [lexemes, List.map_append, String.join_append, ← ih]
      simp [text, SqlCondition.map, SqlCondition.tokens, tokenText, spelling, String.append_assoc]
  | and left right first second | or left right first second =>
      simp only [lexemes, List.map_append, String.join_append, ← first, ← second]
      simp [text, SqlCondition.map, SqlCondition.tokens, tokenText, spelling, String.append_assoc]
  | notIsTrue term =>
      simp [text, lexemes, SqlCondition.map, SqlCondition.tokens, tokenText, spelling,
        String.append_assoc]
      exact @String.append_assoc "NOT" "(" _
  | empty => rfl
  | _ => exact single _

/-! ## Fragments -/

/-- The fragment is one operand wherever it stands, made of comparisons of the
dialect. -/
structure Formed (dialect : DialectName) (sql : SqlCondition π)
    (tree : Operators (SqlCondition π)) : Prop where
  operand : Operand (lexemes sql) tree
  comparisons : ∀ value, .atom value ∈ lexemes sql -> comparison dialect value = true

section Fragments

variable {dialect : DialectName} {sql first second third : SqlCondition π}
  {tree left right last : Operators (SqlCondition π)}

theorem formed_comparison (single : lexemes sql = [.atom sql])
    (known : comparison dialect sql = true) : Formed dialect sql (.atom sql) := by
  refine ⟨?_, ?_⟩
  · rw [single]
    exact operand_atom sql
  · intro value member
    rw [single] at member
    cases List.mem_singleton.mp member
    exact known

/-- In parentheses, any text with a reading is an operand. -/
theorem formed_paren (read : parse (lexemes sql) = some tree)
    (known : ∀ value, .atom value ∈ lexemes sql -> comparison dialect value = true) :
    Formed dialect (.paren sql) tree := by
  refine ⟨operand_paren read, ?_⟩
  intro value member
  refine known value ?_
  simpa [lexemes] using member

theorem Formed.not (formed : Formed dialect sql tree) : Formed dialect (.not sql) (.not tree) := by
  have inner := formed_paren formed.operand.parse formed.comparisons
  refine ⟨operand_not inner.operand, ?_⟩
  intro value member
  refine formed.comparisons value ?_
  simpa [lexemes] using member

theorem formed_notIsTrue {term : SqlTerm π} (known : available dialect term = true) :
    Formed dialect (.notIsTrue term) (.not (.atom (.isTrue term))) := by
  refine ⟨operand_not (operand_paren (operand_atom _).parse), ?_⟩
  intro value member
  simp only [lexemes, List.mem_cons, reduceCtorEq, List.not_mem_nil, or_false, false_or,
    Lexeme.atom.injEq] at member
  rw [member]
  exact known

theorem formed_and (formedFirst : Formed dialect first left) (formedSecond : Formed dialect second right) :
    Formed dialect (.paren (.and first second)) (.and left right) := by
  refine formed_paren (parse_and formedFirst.operand formedSecond.operand) ?_
  intro value member
  simp only [lexemes, List.mem_append, List.mem_cons, reduceCtorEq, List.not_mem_nil,
    or_false] at member
  exact member.elim (formedFirst.comparisons value) (formedSecond.comparisons value)

theorem formed_or (formedFirst : Formed dialect first left) (formedSecond : Formed dialect second right) :
    Formed dialect (.paren (.or first second)) (.or left right) := by
  refine formed_paren (@parse_separate _ _ _ [lexemes second] [right] formedFirst.operand
    (.cons formedSecond.operand .nil)) ?_
  intro value member
  simp only [lexemes, List.mem_append, List.mem_cons, reduceCtorEq, List.not_mem_nil,
    or_false] at member
  exact member.elim (formedFirst.comparisons value) (formedSecond.comparisons value)

theorem formed_and_and (formedFirst : Formed dialect first left)
    (formedSecond : Formed dialect second right) (formedThird : Formed dialect third last) :
    Formed dialect (.paren (.and (.and first second) third)) (.and (.and left right) last) := by
  refine formed_paren (parse_and_and formedFirst.operand formedSecond.operand formedThird.operand) ?_
  intro value member
  simp only [lexemes, List.mem_append, List.mem_cons, reduceCtorEq, List.not_mem_nil,
    or_false] at member
  rcases member with (member | member) | member
  · exact formedFirst.comparisons value member
  · exact formedSecond.comparisons value member
  · exact formedThird.comparisons value member

end Fragments

end SqlText
end Filter
end Memos
