import Mathlib.Data.List.Basic

namespace Memos
namespace Library
namespace HeaderBlock

/-!
# Header blocks

A message is a block of header fields, an empty line and a body.  Lines end
with a carriage return and a line feed; a lenient reader lets either of the two
end a line alone.  Fields whose names and values have neither are read as they
were written, by a strict reader and by a lenient one, whatever the body is.
-/

abbrev Text := List Char

structure HeaderField where
  name : Text
  value : Text
deriving DecidableEq

def crlf : Text := ['\r', '\n']

/-- A text without the characters that end a line. -/
def Unbroken (text : Text) : Prop := ∀ c, c ∈ text -> c ≠ '\r' ∧ c ≠ '\n'

namespace HeaderField

def line (field : HeaderField) : Text := field.name ++ ([':', ' '] ++ field.value)

/-- The name ends at its colon, and neither part ends the line. -/
structure WellFormed (field : HeaderField) : Prop where
  named : ':' ∉ field.name
  unbrokenName : Unbroken field.name
  unbrokenValue : Unbroken field.value

/-- The field of a line. -/
def read (line : Text) : Option HeaderField :=
  match line.dropWhile (· ≠ ':') with
  | _ :: ' ' :: value => some { name := line.takeWhile (· ≠ ':'), value }
  | _ => none

end HeaderField

/-- The header fields, one on a line, the empty line and the body. -/
def writeMessage (fields : List HeaderField) (body : Text) : Text :=
  fields.flatMap (fun field => field.line ++ crlf) ++ (crlf ++ body)

/-- What follows the end of a line at the beginning of the text. -/
def afterBreak (lenient : Bool) : Text -> Option Text
  | [] => none
  | c :: rest =>
      if c = '\r' ∧ rest.head? = some '\n' then some rest.tail
      else if lenient = true ∧ (c = '\r' ∨ c = '\n') then some rest
      else none

theorem length_afterBreak {lenient : Bool} {text rest : Text}
    (broken : afterBreak lenient text = some rest) : rest.length < text.length := by
  cases text with
  | nil => contradiction
  | cons c text =>
      rw [afterBreak] at broken
      rw [List.length_cons]
      split at broken
      · rw [<- Option.some.inj broken, List.length_tail]
        omega
      · split at broken
        · rw [<- Option.some.inj broken]
          omega
        · contradiction

/-- The lines up to the first empty one, and the rest of the text; the
beginning of the first line has been read. -/
def readLines (lenient : Bool) (line text : Text) : Option (List Text × Text) :=
  match _broken : afterBreak lenient text with
  | some rest =>
      if line = [] then some ([], rest)
      else (readLines lenient [] rest).map fun block => (line :: block.1, block.2)
  | none =>
      match text with
      | [] => none
      | c :: rest => readLines lenient (line ++ [c]) rest
termination_by text.length
decreasing_by
  · exact length_afterBreak _broken
  · exact Nat.lt_succ_self _

/-- The header fields and the body of a message. -/
def readMessage (lenient : Bool) (text : Text) : Option (List HeaderField × Text) :=
  (readLines lenient [] text).bind fun block =>
    (block.1.mapM HeaderField.read).map fun fields => (fields, block.2)

theorem unbroken_of_all {text : Text}
    (plain : text.all (fun c => decide (c ≠ '\r' ∧ c ≠ '\n')) = true) : Unbroken text :=
  fun c member => of_decide_eq_true (List.all_eq_true.mp plain c member)

theorem Unbroken.append {first second : Text} (unbroken : Unbroken first)
    (others : Unbroken second) : Unbroken (first ++ second) := by
  intro c member
  rcases List.mem_append.mp member with inFirst | inSecond
  · exact unbroken c inFirst
  · exact others c inSecond

theorem afterBreak_unbroken (lenient : Bool) {c : Char} (rest : Text) (plain : c ≠ '\r' ∧ c ≠ '\n') :
    afterBreak lenient (c :: rest) = none := by
  rw [afterBreak, if_neg fun both => plain.1 both.1, if_neg]
  rintro ⟨_, isReturn | isFeed⟩
  · exact plain.1 isReturn
  · exact plain.2 isFeed

theorem afterBreak_crlf (lenient : Bool) (rest : Text) :
    afterBreak lenient (crlf ++ rest) = some rest := by
  rw [crlf, List.cons_append, afterBreak, if_pos ⟨rfl, rfl⟩]
  rfl

theorem readLines_unbroken (lenient : Bool) (line : Text) {more : Text} (unbroken : Unbroken more)
    (rest : Text) : readLines lenient line (more ++ rest) = readLines lenient (line ++ more) rest := by
  induction more generalizing line with
  | nil => rw [List.nil_append, List.append_nil]
  | cons c more ih =>
      rw [List.cons_append, readLines]
      split
      · rename_i broken
        rw [afterBreak_unbroken lenient _ (unbroken c List.mem_cons_self)] at broken
        contradiction
      · dsimp only
        rw [ih (line ++ [c]) fun other member =>
            unbroken other (List.mem_cons_of_mem c member),
          List.append_assoc, List.singleton_append]

theorem readLines_crlf (lenient : Bool) (line rest : Text) :
    readLines lenient line (crlf ++ rest) =
      if line = [] then some ([], rest)
      else (readLines lenient [] rest).map fun block => (line :: block.1, block.2) := by
  rw [readLines]
  split
  · rename_i other broken
    rw [afterBreak_crlf] at broken
    rw [Option.some.inj broken]
  · rename_i unbroken
    rw [afterBreak_crlf] at unbroken
    contradiction

namespace HeaderField

theorem line_ne_nil (field : HeaderField) : field.line ≠ [] := by
  rw [line]
  simp

theorem WellFormed.unbroken {field : HeaderField} (wellFormed : field.WellFormed) :
    Unbroken field.line := by
  have colon : Unbroken [':', ' '] := unbroken_of_all (by decide)
  exact wellFormed.unbrokenName.append (colon.append wellFormed.unbrokenValue)

theorem read_line {field : HeaderField} (wellFormed : field.WellFormed) :
    read field.line = some field := by
  have passed : ∀ c, c ∈ field.name -> decide (c ≠ ':') = true := by
    intro c member
    rw [decide_eq_true_eq]
    rintro rfl
    exact wellFormed.named member
  rw [read, line, List.dropWhile_append_of_pos passed, List.takeWhile_append_of_pos passed]
  simp

end HeaderField

theorem readLines_fields (lenient : Bool) {fields : List HeaderField}
    (wellFormed : ∀ field, field ∈ fields -> field.WellFormed) (body : Text) :
    readLines lenient [] (writeMessage fields body) =
      some (fields.map HeaderField.line, body) := by
  unfold writeMessage
  induction fields with
  | nil => rw [List.flatMap_nil, List.nil_append, readLines_crlf, if_pos rfl, List.map_nil]
  | cons field fields ih =>
      rw [List.flatMap_cons, List.append_assoc, List.append_assoc,
        readLines_unbroken lenient [] (wellFormed field List.mem_cons_self).unbroken,
        List.nil_append, readLines_crlf, if_neg field.line_ne_nil,
        ih fun other member => wellFormed other (List.mem_cons_of_mem field member)]
      rfl

theorem mapM_read_line {fields : List HeaderField}
    (wellFormed : ∀ field, field ∈ fields -> field.WellFormed) :
    (fields.map HeaderField.line).mapM HeaderField.read = some fields := by
  induction fields with
  | nil => rfl
  | cons field fields ih =>
      rw [List.map_cons, List.mapM_cons, HeaderField.read_line (wellFormed field List.mem_cons_self),
        ih fun other member => wellFormed other (List.mem_cons_of_mem field member)]
      rfl

/-- A message is read as it was written. -/
theorem readMessage_writeMessage (lenient : Bool) {fields : List HeaderField}
    (wellFormed : ∀ field, field ∈ fields -> field.WellFormed) (body : Text) :
    readMessage lenient (writeMessage fields body) = some (fields, body) := by
  rw [readMessage, readLines_fields lenient wellFormed, Option.bind_some,
    mapM_read_line wellFormed, Option.map_some]

end HeaderBlock
end Library
end Memos
