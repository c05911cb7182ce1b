import Mathlib.Data.List.Basic

namespace Memos
namespace Library

/-!
# Expressions of and, or and not

A text of atoms, parentheses and connectives is read from left to right: `NOT`
binds closest, then `AND`, then `OR`, and a chain of one connective groups to
the left.  The reader keeps what it has read of every open parenthesis, so it
takes one lexeme at a time and any list of lexemes has at most one reading.

`Operand` says that a text is read as one operand wherever an operand can
stand.  A text in parentheses is an operand as soon as it has a reading of its
own; operands make up longer texts, and what they mean does not depend on
what surrounds them.
-/

/-- A piece of the text.  The atoms are the comparisons between the
connectives. -/
inductive Lexeme (α : Type) where
  | atom (value : α)
  | opening
  | closing
  | and
  | or
  | not
  | blank
deriving DecidableEq

/-- The operator tree of a text. -/
inductive Operators (α : Type) where
  | atom (value : α)
  | and (left right : Operators α)
  | or (left right : Operators α)
  | not (operand : Operators α)
deriving DecidableEq

variable {α : Type}

/-- What stands before the operand that is read next, back to the innermost
open parenthesis. -/
structure Frame (α : Type) where
  disjunction : Option (Operators α) := none
  conjunction : Option (Operators α) := none
  negations : Nat := 0

namespace Frame

/-- An operand with the negations before it. -/
def negate (operand : Operators α) : Nat -> Operators α
  | 0 => operand
  | count + 1 => .not (negate operand count)

/-- The conjunction that ends with an operand. -/
def conjoin (frame : Frame α) (operand : Operators α) : Operators α :=
  match frame.conjunction with
  | none => operand
  | some first => .and first operand

/-- The disjunction that ends with an operand. -/
def disjoin (frame : Frame α) (operand : Operators α) : Operators α :=
  match frame.disjunction with
  | none => frame.conjoin operand
  | some first => .or first (frame.conjoin operand)

/-- The frame after its negations have found their operand. -/
def settle (frame : Frame α) : Frame α := { frame with negations := 0 }

end Frame

/-- The reader waits for an operand, or holds one and waits for an operator.
The frames of the enclosing parentheses come innermost first. -/
inductive Reading (α : Type) where
  | operand (frame : Frame α) (outer : List (Frame α))
  | operator (frame : Frame α) (value : Operators α) (outer : List (Frame α))

namespace Reading

/-- The operand after `NOT`s is complete. -/
def complete (frame : Frame α) (value : Operators α) (outer : List (Frame α)) : Reading α :=
  .operator frame.settle (Frame.negate value frame.negations) outer

/-- One lexeme. -/
def step : Reading α -> Lexeme α -> Option (Reading α)
  | reading, .blank => some reading
  | .operand frame outer, .atom value => some (complete frame (.atom value) outer)
  | .operand frame outer, .not =>
      some (.operand { frame with negations := frame.negations + 1 } outer)
  | .operand frame outer, .opening => some (.operand {} (frame :: outer))
  | .operator frame value outer, .and =>
      some (.operand { frame with conjunction := some (frame.conjoin value) } outer)
  | .operator frame value outer, .or =>
      some (.operand { disjunction := some (frame.disjoin value) } outer)
  | .operator frame value (enclosing :: outer), .closing =>
      some (complete enclosing (frame.disjoin value) outer)
  | _, _ => none

/-- A whole text. -/
def steps (reading : Reading α) (lexemes : List (Lexeme α)) : Option (Reading α) :=
  lexemes.foldlM step reading

/-- The reading inside further parentheses. -/
def inside (enclosing : List (Frame α)) : Reading α -> Reading α
  | .operand frame outer => .operand frame (outer ++ enclosing)
  | .operator frame value outer => .operator frame value (outer ++ enclosing)

theorem steps_append (reading : Reading α) (first second : List (Lexeme α)) :
    reading.steps (first ++ second) = (reading.steps first).bind fun middle => middle.steps second :=
  List.foldlM_append

theorem steps_cons (reading : Reading α) (lexeme : Lexeme α) (rest : List (Lexeme α)) :
    reading.steps (lexeme :: rest) = (reading.step lexeme).bind fun middle => middle.steps rest :=
  rfl

/-- What surrounds an open parenthesis plays no part inside it. -/
theorem step_inside (enclosing : List (Frame α)) {reading next : Reading α} {lexeme : Lexeme α}
    (stepped : reading.step lexeme = some next) :
    (reading.inside enclosing).step lexeme = some (next.inside enclosing) := by
  cases reading with
  | operand frame outer => cases lexeme <;> cases stepped <;> rfl
  | operator frame value outer =>
      cases lexeme with
      | closing =>
          cases outer with
          | nil => cases stepped
          | cons enclosing outer => cases stepped; rfl
      | atom | opening | and | or | not | blank => cases stepped <;> rfl

theorem steps_inside (enclosing : List (Frame α)) {reading next : Reading α}
    {lexemes : List (Lexeme α)} (read : reading.steps lexemes = some next) :
    (reading.inside enclosing).steps lexemes = some (next.inside enclosing) := by
  induction lexemes generalizing reading with
  | nil => cases read; rfl
  | cons lexeme rest ih =>
      rw [steps_cons] at read ⊢
      rcases Option.bind_eq_some_iff.mp read with ⟨middle, stepped, continued⟩
      rw [step_inside enclosing stepped]
      exact ih continued

end Reading

/-- The operator tree of a text, if it has one. -/
def parse (lexemes : List (Lexeme α)) : Option (Operators α) :=
  match (Reading.operand {} []).steps lexemes with
  | some (.operator frame value []) => some (frame.disjoin value)
  | _ => none

theorem parse_eq_some {lexemes : List (Lexeme α)} {tree : Operators α} :
    parse lexemes = some tree ↔ Exists fun frame => Exists fun value =>
      (Reading.operand {} []).steps lexemes = some (.operator frame value []) ∧
        frame.disjoin value = tree := by
  unfold parse
  constructor
  · intro read
    split at read
    case h_1 frame value stepped =>
      cases read
      exact ⟨frame, value, stepped, rfl⟩
    case h_2 => cases read
  · rintro ⟨frame, value, stepped, rfl⟩
    rw [stepped]

/-! ## Operands -/

/-- Wherever an operand can stand, the text is read as one with this tree. -/
def Operand (lexemes : List (Lexeme α)) (tree : Operators α) : Prop :=
  ∀ (frame : Frame α) (outer : List (Frame α)),
    (Reading.operand frame outer).steps lexemes = some (Reading.complete frame tree outer)

variable {first second lexemes : List (Lexeme α)} {left right tree : Operators α}

theorem operand_atom (value : α) : Operand [.atom value] (.atom value) := fun _ _ => rfl

theorem operand_not (operand : Operand lexemes tree) : Operand (.not :: lexemes) (.not tree) := by
  intro frame outer
  have negated : ∀ count, Frame.negate tree (count + 1) = Frame.negate (.not tree) count := by
    intro count
    induction count with
    | zero => rfl
    | succ count ih => exact congrArg Operators.not ih
  rw [Reading.steps_cons]
  refine (operand _ outer).trans ?_
  change some (Reading.operator frame.settle (Frame.negate tree (frame.negations + 1)) outer) = _
  rw [negated]
  rfl

/-- An operand is a text of its own. -/
theorem Operand.parse (operand : Operand lexemes tree) : parse lexemes = some tree :=
  parse_eq_some.mpr ⟨_, _, operand {} [], rfl⟩

/-- A text in parentheses is an operand: it cannot be regrouped by what
surrounds it. -/
theorem operand_paren (read : Library.parse lexemes = some tree) :
    Operand ([.opening] ++ lexemes ++ [.closing]) tree := by
  rcases parse_eq_some.mp read with ⟨last, value, stepped, rfl⟩
  intro frame outer
  have within := Reading.steps_inside (frame :: outer) stepped
  rw [List.append_assoc, List.singleton_append, Reading.steps_cons, Reading.step,
    Option.bind_some, Reading.steps_append]
  change Option.bind ((Reading.inside (frame :: outer) (.operand {} [])).steps lexemes) _ = _
  rw [within]
  rfl

/-! ## Chains -/

/-- Two operands with `AND` between them. -/
theorem parse_and (readLeft : Operand first left) (readRight : Operand second right) :
    Library.parse (first ++ [.blank, .and, .blank] ++ second) = some (.and left right) := by
  refine parse_eq_some.mpr ⟨{ conjunction := some left }, right, ?_, rfl⟩
  rw [Reading.steps_append, Reading.steps_append, readLeft]
  exact readRight _ _

/-- Three operands with `AND` between them. -/
theorem parse_and_and {third : List (Lexeme α)} {last : Operators α} (readLeft : Operand first left)
    (readRight : Operand second right) (readLast : Operand third last) :
    Library.parse (first ++ [.blank, .and, .blank] ++ second ++ [.blank, .and, .blank] ++ third) =
      some (.and (.and left right) last) := by
  refine parse_eq_some.mpr ⟨{ conjunction := some (.and left right) }, last, ?_, rfl⟩
  rw [Reading.steps_append, Reading.steps_append, Reading.steps_append, Reading.steps_append,
    readLeft]
  have middle := readRight { conjunction := some left } []
  change Option.bind (Option.bind
    ((Reading.operand { conjunction := some left } []).steps second) _) _ = _
  rw [middle]
  exact readLast _ _

/-- Texts with `OR` between them. -/
def separate : List (List (Lexeme α)) -> List (Lexeme α)
  | [] => []
  | [text] => text
  | text :: rest => text ++ [.blank, .or, .blank] ++ separate rest

/-- A further operand of a disjunction. -/
def Operators.also : Option (Operators α) -> Operators α -> Operators α
  | none, tree => tree
  | some before, tree => .or before tree

theorem steps_separate {text : List (Lexeme α)} {tree : Operators α}
    {texts : List (List (Lexeme α))} {trees : List (Operators α)} (before : Option (Operators α))
    (read : Operand text tree) (others : List.Forall₂ Operand texts trees) :
    Exists fun frame => Exists fun value =>
      (Reading.operand { disjunction := before } []).steps (separate (text :: texts)) =
          some (.operator frame value []) ∧
        frame.disjoin value = trees.foldl .or (Operators.also before tree) := by
  induction others generalizing text tree before with
  | nil =>
      refine ⟨{ disjunction := before }, tree, read _ _, ?_⟩
      cases before <;> rfl
  | cons next _ ih =>
      rcases ih (some (Operators.also before tree)) next with
        ⟨frame, value, stepped, folded⟩
      refine ⟨frame, value, ?_, folded⟩
      rw [separate, Reading.steps_append, Reading.steps_append, read]
      · cases before <;> exact stepped
      · exact fun impossible => by cases impossible

/-- A chain of `OR` groups to the left. -/
theorem parse_separate {text : List (Lexeme α)} {tree : Operators α}
    {texts : List (List (Lexeme α))} {trees : List (Operators α)} (read : Operand text tree)
    (others : List.Forall₂ Operand texts trees) :
    parse (separate (text :: texts)) = some (trees.foldl .or tree) :=
  parse_eq_some.mpr (steps_separate none read others)

/-! ## Texts without a reading -/

/-- Nothing is read from a text with an empty pair of parentheses. -/
theorem parse_of_nothing (nothing : [Lexeme.opening, .closing] <:+: lexemes) :
    parse lexemes = none := by
  rcases nothing with ⟨before, after, rfl⟩
  have stuck : ∀ reading : Reading α,
      reading.steps ([.opening, .closing] ++ after) = none := by
    intro reading
    cases reading <;> rfl
  unfold parse
  rw [List.append_assoc, Reading.steps_append]
  cases (Reading.operand {} []).steps before with
  | none => rfl
  | some reading => rw [Option.bind_some, stuck]

end Library
end Memos
