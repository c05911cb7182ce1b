import Mathlib.Data.List.TakeWhile
import Memos.Library.Edits
import Memos.Library.Lines

namespace Memos
namespace Web
namespace TaskText

open Library

/-!
# The check boxes in a text

A task is a list item that begins with `[ ]` or `[x]`.  The client has the
tasks found by a Markdown parser, which is a library, and then looks for the
mark between the brackets with a regular expression on the line where the item
starts.
-/

abbrev Text := List Char

/-- `\s` of a regular expression. -/
def isSpace (c : Char) : Bool :=
  c ∈ ['\t', '\n', '\x0b', '\x0c', '\r', ' ', '\u00a0', '\u1680', '\u2000', '\u2001', '\u2002',
    '\u2003', '\u2004', '\u2005', '\u2006', '\u2007', '\u2008', '\u2009', '\u200a', '\u2028',
    '\u2029', '\u202f', '\u205f', '\u3000', '\ufeff']

/-- `[ xX]` -/
def isMark (c : Char) : Bool := c = ' ' || c = 'x' || c = 'X'

/-- The mark that both actions write. -/
def markOf (checked : Bool) : Char := if checked then 'x' else ' '

def isChecked (c : Char) : Bool := c = 'x' || c = 'X'

theorem isMark_markOf (checked : Bool) : isMark (markOf checked) = true := by
  cases checked <;> rfl

theorem isChecked_markOf (checked : Bool) : isChecked (markOf checked) = checked := by
  cases checked <;> rfl

theorem ne_bracket_of_isMark {c : Char} (mark : isMark c = true) : c ≠ '[' := by
  rintro rfl
  exact absurd mark (by decide)

theorem ne_newline_of_isMark {c : Char} (mark : isMark c = true) : c ≠ '\n' := by
  rintro rfl
  exact absurd mark (by decide)

theorem eq_space_of_isMark {c : Char} (mark : isMark c = true) (unchecked : isChecked c = false) :
    c = ' ' := by
  simp only [isMark, isChecked, Bool.or_eq_true, decide_eq_true_eq, Bool.or_eq_false_iff,
    decide_eq_false_iff_not] at mark unchecked
  tauto

/-! ## The parser -/

/-- What the client reads of a `listItem` with a boolean `checked`: the line
where the item starts and the position of the mark. -/
structure Task where
  line : Nat
  marker : Nat
  checked : Bool
deriving DecidableEq

/-- A mark before and a mark after, at the same position. -/
structure Remarked (text after : Text) (position : Nat) : Prop where
  was : ∀ c, text[position]? = some c -> isMark c = true
  is : ∀ c, after[position]? = some c -> isMark c = true

/-- A parser of Markdown with task lists: the tasks of a text in the order of
the tree.  The mark of a task stands right behind a bracket, no two tasks share
one, and it says whether the task is checked.  To write another mark in its
place changes no more than that. -/
structure TaskParser where
  tasks : Text -> List Task
  markers_nodup : ∀ text, ((tasks text).map Task.marker).Nodup
  bracketed : ∀ text task, task ∈ tasks text ->
    Exists fun before => task.marker = before + 1 ∧ text[before]? = some '['
  marked : ∀ text task, task ∈ tasks text ->
    Exists fun c => text[task.marker]? = some c ∧ task.checked = isChecked c
  stable : ∀ text after,
    DiffersAt (fun position => Remarked text after position ∧
      position ∈ (tasks text).map Task.marker) text after ->
    (tasks after).map (fun task => (task.line, task.marker)) =
      (tasks text).map (fun task => (task.line, task.marker))

variable (parser : TaskParser) {text after : Text}

/-- The marks of the tasks of a text. -/
def TaskParser.markers (text : Text) : List Nat := (parser.tasks text).map Task.marker

variable {parser}

/-- After such a change every task says what its mark says. -/
theorem TaskParser.tasks_of_remarked
    (differs : DiffersAt (fun position => Remarked text after position ∧
      position ∈ parser.markers text) text after) {number : Nat} {task : Task}
    (found : (parser.tasks text)[number]? = some task) :
    Exists fun c => after[task.marker]? = some c ∧
      (parser.tasks after)[number]? = some { task with checked := isChecked c } := by
  have same := parser.stable text after differs
  have here := congrArg (fun places => places[number]?) same
  simp only [List.getElem?_map, found, Option.map_some] at here
  rcases Option.map_eq_some_iff.mp here with ⟨other, foundOther, places⟩
  rw [Prod.mk.injEq] at places
  rcases parser.marked after other (List.mem_of_getElem? foundOther) with ⟨c, stands, state⟩
  refine ⟨c, ?_, ?_⟩
  · rw [← places.2]
    exact stands
  · rw [foundOther]
    cases other
    simp only at places state
    rw [places.1, places.2, state]

theorem TaskParser.length_tasks
    (differs : DiffersAt (fun position => Remarked text after position ∧
      position ∈ parser.markers text) text after) :
    (parser.tasks after).length = (parser.tasks text).length := by
  have same := congrArg List.length (parser.stable text after differs)
  rw [List.length_map, List.length_map] at same
  exact same

theorem TaskParser.markers_of_remarked
    (differs : DiffersAt (fun position => Remarked text after position ∧
      position ∈ parser.markers text) text after) :
    parser.markers after = parser.markers text := by
  have same := congrArg (List.map Prod.snd) (parser.stable text after differs)
  rw [List.map_map, List.map_map] at same
  exact same

/-! ## The regular expressions -/

/-- `^(\s*)`, a list marker, `(\s+)\[([ xX])\]`: what stands before the
bracket, the mark and what follows. -/
def matchTask (listMarker : Text -> Option (Text × Text)) (line : Text) :
    Option (Text × Char × Text) :=
  let indent := line.takeWhile isSpace
  match listMarker (line.dropWhile isSpace) with
  | none => none
  | some (bullet, rest) =>
      let gap := rest.takeWhile isSpace
      if gap = [] then none
      else
        match rest.dropWhile isSpace with
        | '[' :: c :: ']' :: suffix =>
            if isMark c then some (indent ++ bullet ++ gap, c, suffix) else none
        | _ => none

/-- `[-*+]` -/
def bulletMarker : Text -> Option (Text × Text)
  | c :: rest => if c = '-' || c = '*' || c = '+' then some ([c], rest) else none
  | [] => none

/-- `(?:[-*+])|(?:\d+[.)])` -/
def anyMarker (text : Text) : Option (Text × Text) :=
  match bulletMarker text with
  | some found => some found
  | none =>
      match text.dropWhile Char.isDigit with
      | c :: rest =>
          if text.takeWhile Char.isDigit ≠ [] && (c = '.' || c = ')') then
            some (text.takeWhile Char.isDigit ++ [c], rest)
          else none
      | [] => none

/-- What is asked of a list marker: it starts with a character that is not white
space, holds no bracket, and is found again whatever follows. -/
structure Bullet (listMarker : Text -> Option (Text × Text)) : Prop where
  parts : ∀ {text bullet rest}, listMarker text = some (bullet, rest) -> text = bullet ++ rest
  solid : ∀ {text bullet rest}, listMarker text = some (bullet, rest) ->
    Exists fun c => Exists fun more => bullet = c :: more ∧ isSpace c = false
  clear : ∀ {text bullet rest}, listMarker text = some (bullet, rest) -> '[' ∉ bullet
  again : ∀ {text bullet rest}, listMarker text = some (bullet, rest) ->
    ∀ other, listMarker (bullet ++ other) = some (bullet, other)

theorem bulletMarker_eq_some {text bullet rest : Text} (found : bulletMarker text = some (bullet, rest)) :
    Exists fun c => (c = '-' ∨ c = '*' ∨ c = '+') ∧ bullet = [c] ∧ text = c :: rest := by
  cases text with
  | nil => exact absurd found (by simp [bulletMarker])
  | cons c others =>
      rw [bulletMarker] at found
      split at found
      next isBullet =>
        rw [Option.some.injEq, Prod.mk.injEq] at found
        simp only [Bool.or_eq_true, decide_eq_true_eq] at isBullet
        exact ⟨c, by tauto, found.1.symm, by rw [found.2]⟩
      next => exact absurd found (by simp)

theorem bullet_bulletMarker : Bullet bulletMarker where
  parts := by
    intro text bullet rest found
    rcases bulletMarker_eq_some found with ⟨c, _, rfl, rfl⟩
    rfl
  solid := by
    intro text bullet rest found
    rcases bulletMarker_eq_some found with ⟨c, isBullet, rfl, rfl⟩
    refine ⟨c, [], rfl, ?_⟩
    rcases isBullet with rfl | rfl | rfl <;> decide
  clear := by
    intro text bullet rest found
    rcases bulletMarker_eq_some found with ⟨c, isBullet, rfl, rfl⟩
    rcases isBullet with rfl | rfl | rfl <;> decide
  again := by
    intro text bullet rest found other
    rcases bulletMarker_eq_some found with ⟨c, isBullet, rfl, rfl⟩
    rcases isBullet with rfl | rfl | rfl <;> rfl

/-- A number and a period or a parenthesis. -/
structure Numbered (text bullet rest : Text) (digits : Text) (c : Char) : Prop where
  some_digit : digits ≠ []
  all_digits : ∀ digit, digit ∈ digits -> digit.isDigit = true
  ends : c = '.' ∨ c = ')'
  bullet_eq : bullet = digits ++ [c]
  text_eq : text = digits ++ c :: rest

theorem isSpace_of_isDigit {c : Char} (digit : c.isDigit = true) : isSpace c = false := by
  rw [Bool.eq_false_iff]
  intro space
  simp only [isSpace, List.mem_cons, List.not_mem_nil, or_false, decide_eq_true_eq] at space
  rcases space with h | h | h | h | h | h | h | h | h | h | h | h | h | h | h | h | h | h | h | h |
    h | h | h | h | h <;> subst h <;> exact absurd digit (by decide)

theorem anyMarker_eq_some {text bullet rest : Text} (found : anyMarker text = some (bullet, rest)) :
    bulletMarker text = some (bullet, rest) ∨
      Exists fun digits => Exists fun c => Numbered text bullet rest digits c := by
  rw [anyMarker] at found
  split at found
  next pair isBullet =>
    left
    rw [isBullet, found]
  next =>
    right
    split at found
    next c more dropped =>
      split at found
      next ends =>
        rw [Option.some.injEq, Prod.mk.injEq] at found
        simp only [Bool.and_eq_true, Bool.or_eq_true, decide_eq_true_eq] at ends
        refine ⟨text.takeWhile Char.isDigit, c, ends.1, ?_, ends.2, found.1.symm, ?_⟩
        · intro digit member
          exact List.mem_takeWhile_imp member
        · rw [← found.2, ← dropped, List.takeWhile_append_dropWhile]
      next => exact absurd found (by simp)
    next => exact absurd found (by simp)

theorem bulletMarker_of_isDigit {c : Char} (digit : c.isDigit = true) (rest : Text) :
    bulletMarker (c :: rest) = none := by
  rw [bulletMarker, if_neg]
  simp only [Bool.or_eq_true, decide_eq_true_eq]
  rintro ((rfl | rfl) | rfl) <;> exact absurd digit (by decide)

theorem Numbered.found {text bullet rest digits other : Text} {c : Char}
    (numbered : Numbered text bullet rest digits c) :
    anyMarker (bullet ++ other) = some (bullet, other) := by
  have ended : c.isDigit = false := by
    rcases numbered.ends with rfl | rfl <;> decide
  have taken : (digits ++ c :: other).takeWhile Char.isDigit = digits := by
    rw [List.takeWhile_append_of_pos numbered.all_digits, List.takeWhile_cons_of_neg (by simp [ended]),
      List.append_nil]
  have dropped : (digits ++ c :: other).dropWhile Char.isDigit = c :: other := by
    rw [List.dropWhile_append_of_pos numbered.all_digits, List.dropWhile_cons_of_neg (by simp [ended])]
  have noBullet : bulletMarker (digits ++ c :: other) = none := by
    cases digits with
    | nil => exact absurd rfl numbered.some_digit
    | cons digit more => exact bulletMarker_of_isDigit (numbered.all_digits digit (by simp)) _
  rw [numbered.bullet_eq, List.append_assoc, List.cons_append, List.nil_append, anyMarker, noBullet,
    dropped, taken]
  have ends : (digits ≠ [] && (c = '.' || c = ')') : Bool) = true := by
    have := numbered.some_digit
    have := numbered.ends
    simp only [Bool.and_eq_true, Bool.or_eq_true, decide_eq_true_eq]
    tauto
  exact if_pos ends

theorem bullet_anyMarker : Bullet anyMarker where
  parts := by
    intro text bullet rest found
    rcases anyMarker_eq_some found with isBullet | ⟨digits, c, numbered⟩
    · exact bullet_bulletMarker.parts isBullet
    · rw [numbered.bullet_eq, numbered.text_eq, List.append_assoc]
      rfl
  solid := by
    intro text bullet rest found
    rcases anyMarker_eq_some found with isBullet | ⟨digits, c, numbered⟩
    · exact bullet_bulletMarker.solid isBullet
    · cases digits with
      | nil => exact absurd rfl numbered.some_digit
      | cons digit more =>
          exact ⟨digit, more ++ [c], numbered.bullet_eq,
            isSpace_of_isDigit (numbered.all_digits digit (by simp))⟩
  clear := by
    intro text bullet rest found
    rcases anyMarker_eq_some found with isBullet | ⟨digits, c, numbered⟩
    · exact bullet_bulletMarker.clear isBullet
    · rw [numbered.bullet_eq, List.mem_append, List.mem_singleton]
      rintro (inside | same)
      · exact absurd (numbered.all_digits _ inside) (by decide)
      · rcases numbered.ends with ends | ends <;> exact absurd (same.trans ends) (by decide)
  again := by
    intro text bullet rest found other
    rcases anyMarker_eq_some found with isBullet | ⟨digits, c, numbered⟩
    · rw [anyMarker, bullet_bulletMarker.again isBullet]
    · exact numbered.found

/-- What a match says: where the bracket is, and that it is found there again
whatever mark stands in it and whatever follows. -/
structure Matched (listMarker : Text -> Option (Text × Text)) (line front : Text) (c : Char)
    (suffix : Text) : Prop where
  line_eq : line = front ++ '[' :: c :: ']' :: suffix
  clear : '[' ∉ front
  mark : isMark c = true
  again : ∀ other more, isMark other = true ->
    matchTask listMarker (front ++ '[' :: other :: ']' :: more) = some (front, other, more)

theorem bracket_notMem_spaces {text : Text} : '[' ∉ text.takeWhile isSpace := by
  intro inside
  exact absurd (List.mem_takeWhile_imp inside) (by decide)

theorem matchTask_of_parts {listMarker : Text -> Option (Text × Text)} {indent bullet gap others : Text}
    {first : Char} (indented : ∀ symbol, symbol ∈ indent -> isSpace symbol = true)
    (bullet_eq : bullet = first :: others) (solid : isSpace first = false)
    (again : ∀ other, listMarker (bullet ++ other) = some (bullet, other))
    (gapped : ∀ symbol, symbol ∈ gap -> isSpace symbol = true) (some_gap : gap ≠ [])
    {c : Char} (mark : isMark c = true) (more : Text) :
    matchTask listMarker (indent ++ bullet ++ gap ++ '[' :: c :: ']' :: more) =
      some (indent ++ bullet ++ gap, c, more) := by
  have line : indent ++ bullet ++ gap ++ '[' :: c :: ']' :: more =
      indent ++ (bullet ++ (gap ++ '[' :: c :: ']' :: more)) := by
    rw [List.append_assoc, List.append_assoc]
  have indentTaken : (indent ++ (bullet ++ (gap ++ '[' :: c :: ']' :: more))).takeWhile isSpace = indent := by
    rw [List.takeWhile_append_of_pos indented, bullet_eq, List.cons_append,
      List.takeWhile_cons_of_neg (by simp [solid]), List.append_nil]
  have indentDropped : (indent ++ (bullet ++ (gap ++ '[' :: c :: ']' :: more))).dropWhile isSpace =
      bullet ++ (gap ++ '[' :: c :: ']' :: more) := by
    rw [List.dropWhile_append_of_pos indented, bullet_eq, List.cons_append,
      List.dropWhile_cons_of_neg (by simp [solid])]
  have gapTaken : (gap ++ '[' :: c :: ']' :: more).takeWhile isSpace = gap := by
    rw [List.takeWhile_append_of_pos gapped, List.takeWhile_cons_of_neg (by decide), List.append_nil]
  have gapDropped : (gap ++ '[' :: c :: ']' :: more).dropWhile isSpace = '[' :: c :: ']' :: more := by
    rw [List.dropWhile_append_of_pos gapped, List.dropWhile_cons_of_neg (by decide)]
  rw [line, matchTask]
  simp only [indentTaken, indentDropped, again, gapTaken, gapDropped, if_neg some_gap, if_pos mark]

theorem matched_of_matchTask {listMarker : Text -> Option (Text × Text)} (bullets : Bullet listMarker)
    {line front suffix : Text} {c : Char} (found : matchTask listMarker line = some (front, c, suffix)) :
    Matched listMarker line front c suffix := by
  rw [matchTask] at found
  simp only at found
  split at found
  next => exact absurd found (by simp)
  next bullet rest isBullet =>
    split at found
    next => exact absurd found (by simp)
    next gap =>
      split at found
      next d more dropped =>
        split at found
        next mark =>
          simp only [Option.some.injEq, Prod.mk.injEq] at found
          rcases found with ⟨rfl, rfl, rfl⟩
          rcases bullets.solid isBullet with ⟨first, others, bullet_eq, solid⟩
          refine ⟨?_, ?_, mark, ?_⟩
          · rw [← dropped, List.append_assoc, List.append_assoc, List.takeWhile_append_dropWhile,
              ← bullets.parts isBullet, List.takeWhile_append_dropWhile]
          · rw [List.mem_append, List.mem_append]
            rintro ((inside | inside) | inside)
            · exact bracket_notMem_spaces inside
            · exact bullets.clear isBullet inside
            · exact bracket_notMem_spaces inside
          · intro other after markOther
            exact matchTask_of_parts (fun symbol inside => List.mem_takeWhile_imp inside) bullet_eq solid
              (bullets.again isBullet) (fun symbol inside => List.mem_takeWhile_imp inside) gap
              markOther after
        next => exact absurd found (by simp)
      next => exact absurd found (by simp)

/-- A line with other marks behind its brackets is matched at the same place. -/
theorem Matched.remarked {listMarker : Text -> Option (Text × Text)} {row front suffix other : Text}
    {c : Char} (matched : Matched listMarker row front c suffix) (long : other.length = row.length)
    (same : ∀ position : Nat, position < row.length ->
      other[position]? = row[position]? ∨
        (∀ d, other[position]? = some d -> isMark d = true) ∧
          Exists fun before => position = before + 1 ∧ row[before]? = some '[') :
    Exists fun d => Exists fun more => matchTask listMarker other = some (front, d, more) := by
  have beforeFront : ∀ position, position ≤ front.length -> other[position]? = row[position]? := by
    intro position inside
    have bound : position < row.length := by
      rw [matched.line_eq, List.length_append, List.length_cons]
      omega
    rcases same position bound with kept | ⟨_, before, place, bracket⟩
    · exact kept
    · rw [matched.line_eq, List.getElem?_append_left (by omega)] at bracket
      exact absurd (List.mem_of_getElem? bracket) matched.clear
  have atMark : Exists fun d => other[front.length + 1]? = some d ∧ isMark d = true := by
    have bound : front.length + 1 < row.length := by
      rw [matched.line_eq, List.length_append]
      simp
    have stands : row[front.length + 1]? = some c := by
      rw [matched.line_eq, List.getElem?_append_right (by omega), Nat.add_sub_cancel_left]
      rfl
    rcases same _ bound with kept | ⟨mark, _⟩
    · exact ⟨c, kept.trans stands, matched.mark⟩
    · have inside : front.length + 1 < other.length := by omega
      exact ⟨other[front.length + 1], List.getElem?_eq_getElem inside,
        mark _ (List.getElem?_eq_getElem inside)⟩
  have atClose : other[front.length + 2]? = some ']' := by
    have bound : front.length + 2 < row.length := by
      rw [matched.line_eq, List.length_append]
      simp
    have stands : row[front.length + 2]? = some ']' := by
      rw [matched.line_eq, List.getElem?_append_right (by omega), Nat.add_sub_cancel_left]
      rfl
    rcases same _ bound with kept | ⟨_, before, place, bracket⟩
    · exact kept.trans stands
    · have here : before = front.length + 1 := by omega
      rw [here, matched.line_eq, List.getElem?_append_right (by omega), Nat.add_sub_cancel_left] at bracket
      exact absurd (Option.some.inj bracket) (ne_bracket_of_isMark matched.mark)
  rcases atMark with ⟨d, stands, mark⟩
  have parts : other = front ++ '[' :: d :: ']' :: other.drop (front.length + 3) := by
    apply List.ext_getElem?
    intro position
    by_cases early : position < front.length
    · rw [List.getElem?_append_left early, beforeFront position (by omega), matched.line_eq,
        List.getElem?_append_left early]
    · obtain ⟨offset, rfl⟩ : Exists fun offset => position = front.length + offset :=
        ⟨position - front.length, by omega⟩
      rw [List.getElem?_append_right (by omega), Nat.add_sub_cancel_left]
      rcases offset with _ | _ | _ | offset
      · rw [beforeFront _ (by omega), matched.line_eq, List.getElem?_append_right (by omega),
          Nat.add_sub_cancel_left]
        rfl
      · exact stands
      · exact atClose
      · rw [List.getElem?_cons_succ, List.getElem?_cons_succ, List.getElem?_cons_succ,
          List.getElem?_drop]
        congr 1
        omega
  have found := matched.again d (other.drop (front.length + 3)) mark
  rw [← parts] at found
  exact ⟨d, other.drop (front.length + 3), found⟩

/-! ## Texts that differ in their marks -/

/-- A text of some tasks, with the line of each and the position of its mark. -/
structure Frame where
  text : Text
  places : List (Nat × Nat)
  nodup : (places.map Prod.snd).Nodup
  bracketed : ∀ place, place ∈ places -> Exists fun before => place.2 = before + 1 ∧ text[before]? = some '['
  marked : ∀ place, place ∈ places -> (text[place.2]?).any isMark = true

namespace Frame

variable (frame : Frame)

def marks : List Nat := frame.places.map Prod.snd

/-- The text has marks at the places, and is otherwise that of the frame. -/
def fits (text : Text) : Bool :=
  text.length = frame.text.length && (List.range text.length).all fun position =>
    if position ∈ frame.marks then (text[position]?).any isMark else text[position]? = frame.text[position]?

variable {frame} {text after : Text}

theorem fits_elsewhere (fits : frame.fits text = true) {position : Nat} (outside : position ∉ frame.marks) :
    text[position]? = frame.text[position]? := by
  unfold Frame.fits at fits
  rw [Bool.and_eq_true, decide_eq_true_eq] at fits
  by_cases inside : position < text.length
  · have here := List.all_eq_true.mp fits.2 position (List.mem_range.mpr inside)
    rw [if_neg outside] at here
    exact of_decide_eq_true here
  · rw [List.getElem?_eq_none (by omega), List.getElem?_eq_none (by omega)]

theorem fits_mark (fits : frame.fits text = true) {position : Nat} (inside : position ∈ frame.marks) :
    (text[position]?).any isMark = true := by
  have same := fits
  unfold Frame.fits at fits
  rw [Bool.and_eq_true, decide_eq_true_eq] at fits
  rcases List.mem_map.mp inside with ⟨place, isPlace, rfl⟩
  have below : place.2 < frame.text.length := by
    by_contra beyond
    have none := frame.marked place isPlace
    rw [List.getElem?_eq_none (by omega)] at none
    cases none
  have here := List.all_eq_true.mp fits.2 place.2 (List.mem_range.mpr (by omega))
  rwa [if_pos inside] at here

/-- Other marks at the places fit as well. -/
theorem fits_remarked (fits : frame.fits text = true)
    (differs : DiffersAt (fun position => Remarked text after position ∧ position ∈ frame.marks) text after) :
    frame.fits after = true := by
  have length : text.length = frame.text.length := by
    unfold Frame.fits at fits
    rw [Bool.and_eq_true, decide_eq_true_eq] at fits
    exact fits.1
  unfold Frame.fits
  rw [Bool.and_eq_true, decide_eq_true_eq]
  refine ⟨differs.length_eq.trans length, List.all_eq_true.mpr fun position below => ?_⟩
  have inside := List.mem_range.mp below
  by_cases place : position ∈ frame.marks
  · rw [if_pos place]
    by_cases again : Remarked text after position
    · rw [List.getElem?_eq_getElem inside]
      exact again.is _ (List.getElem?_eq_getElem inside)
    · rw [differs.elsewhere position fun both => again both.1]
      exact fits_mark fits place
  · rw [if_neg place, differs.elsewhere position fun both => place both.2]
    exact decide_eq_true (fits_elsewhere fits place)

def taskAt (text : Text) (place : Nat × Nat) : Task := ⟨place.1, place.2, (text[place.2]?).any isChecked⟩

/-- What the parser does on such texts, if it takes the brackets of the frame for
check boxes. -/
def tasks (frame : Frame) (text : Text) : List Task :=
  if frame.fits text = true then frame.places.map (taskAt text) else []

theorem mem_tasks {task : Task} (member : task ∈ frame.tasks text) :
    frame.fits text = true ∧ Exists fun place => place ∈ frame.places ∧ taskAt text place = task := by
  unfold tasks at member
  split at member
  next fits => exact ⟨fits, List.mem_map.mp member⟩
  next => exact absurd member List.not_mem_nil

def toParser (frame : Frame) : TaskParser where
  tasks := frame.tasks
  markers_nodup := by
    intro text
    unfold tasks
    split
    · rw [List.map_map]
      exact frame.nodup
    · exact List.nodup_nil
  bracketed := by
    intro text task member
    rcases mem_tasks member with ⟨fits, place, isPlace, rfl⟩
    rcases frame.bracketed place isPlace with ⟨before, next, bracket⟩
    refine ⟨before, next, ?_⟩
    rw [fits_elsewhere fits, bracket]
    intro isMark
    rcases List.mem_map.mp isMark with ⟨other, isOther, same⟩
    have mark := frame.marked other isOther
    rw [same, bracket] at mark
    exact absurd mark (by decide)
  marked := by
    intro text task member
    rcases mem_tasks member with ⟨fits, place, isPlace, rfl⟩
    have mark := fits_mark fits (List.mem_map_of_mem isPlace)
    cases stands : text[place.2]? with
    | none =>
        rw [stands] at mark
        cases mark
    | some c =>
        refine ⟨c, stands, ?_⟩
        unfold taskAt
        rw [stands]
        rfl
  stable := by
    intro text after differs
    by_cases fits : frame.fits text = true
    · have places : (frame.tasks text).map Task.marker = frame.marks := by
        unfold tasks
        rw [if_pos fits, List.map_map]
        rfl
      rw [places] at differs
      unfold tasks
      rw [if_pos fits, if_pos (fits_remarked fits differs), List.map_map, List.map_map]
      rfl
    · have none : frame.tasks text = [] := if_neg fits
      have unchanged : after = text := by
        apply List.ext_getElem?
        intro position
        apply differs.elsewhere
        rw [none]
        exact fun inside => List.not_mem_nil inside.2
      rw [unchanged]

end Frame

/-- The item of a quoted list. -/
def quotedItem : TaskParser :=
  Frame.toParser
    { text := "> - [ ] a".toList
      places := [(0, 5)]
      nodup := by decide
      bracketed := fun place member => ⟨4, by rw [List.mem_singleton.mp member], by decide⟩
      marked := by decide }

end TaskText
end Web
end Memos
