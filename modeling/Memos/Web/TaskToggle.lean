import Memos.Web.TaskText

namespace Memos
namespace Web
namespace TaskToggle

open Library
open TaskText

/-!
# A click on a check box

The rendered memo shows the tasks of one parser, which knows the extensions
the memo is rendered with.  A click passes the number of the check box on, the
text is parsed again without the extensions, and the task of that number is
looked for on its line.
-/

/-- `.` of a regular expression. -/
def isLineTerminator (c : Char) : Bool := c ∈ ['\n', '\r', '\u2028', '\u2029']

/-- `(\s+.*)$` -/
def matchSuffix (suffix : Text) : Bool :=
  suffix.takeWhile TaskText.isSpace ≠ [] && (suffix.dropWhile TaskText.isSpace).all fun c => !isLineTerminator c

/-- `taskPattern`: `^(\s*[-*+]\s+)\[([ xX])\](\s+.*)$` -/
def taskPattern (line : Text) : Option (Text × Text) :=
  match matchTask bulletMarker line with
  | none => none
  | some (front, _, suffix) => if matchSuffix suffix then some (front, suffix) else none

/-- The number of a line is never negative. -/
def toggleTaskAtLine (markdown : Text) (lineNumber : Nat) (checked : Bool) : Text :=
  let lines := markdown.splitOn '\n'
  match lines[lineNumber]? with
  | none => markdown
  | some line =>
      match taskPattern line with
      | none => markdown
      | some (front, suffix) =>
          ['\n'].intercalate
            (lines.set lineNumber (front ++ '[' :: markOf checked :: ']' :: suffix))

def toggleTaskAtIndex (parser : TaskParser) (markdown : Text) (taskIndex : Nat) (checked : Bool) :
    Text :=
  match (parser.tasks markdown)[taskIndex]? with
  | none => markdown
  | some task => toggleTaskAtLine markdown task.line checked

/-! ## Where the mark is written -/

/-- The position between the brackets that the pattern finds on the line. -/
def markOnLine (markdown : Text) (lineNumber : Nat) : Option Nat :=
  match (markdown.splitOn '\n')[lineNumber]? with
  | none => none
  | some line =>
      match taskPattern line with
      | none => none
      | some (front, _) => some (startOfLine '\n' markdown lineNumber + (front.length + 1))

/-- That position for the task of a number. -/
def markOfIndex (parser : TaskParser) (markdown : Text) (taskIndex : Nat) : Option Nat :=
  match (parser.tasks markdown)[taskIndex]? with
  | none => none
  | some task => markOnLine markdown task.line

theorem taskPattern_eq_some {line front suffix : Text} (found : taskPattern line = some (front, suffix)) :
    Exists fun c => Matched bulletMarker line front c suffix := by
  rw [taskPattern] at found
  split at found
  next => exact absurd found (by simp)
  next pattern c after isTask =>
    split at found
    next =>
      rw [Option.some.injEq, Prod.mk.injEq] at found
      rcases found with ⟨rfl, rfl⟩
      exact ⟨c, matched_of_matchTask bullet_bulletMarker isTask⟩
    next => exact absurd found (by simp)

/-- What stands at the position is a mark. -/
theorem markOnLine_eq_some {markdown : Text} {lineNumber position : Nat}
    (found : markOnLine markdown lineNumber = some position) :
    Exists fun c => markdown[position]? = some c ∧ isMark c = true := by
  rw [markOnLine] at found
  split at found
  next => exact absurd found (by simp)
  next line isLine =>
    split at found
    next => exact absurd found (by simp)
    next front suffix isTask =>
      rcases taskPattern_eq_some isTask with ⟨c, matched⟩
      refine ⟨c, ?_, matched.mark⟩
      have place := Option.some.inj found
      have inside : front.length + 1 < line.length := by
        rw [matched.line_eq]
        simp
      rw [← place, getElem?_of_line isLine inside, matched.line_eq,
        List.getElem?_append_right (by omega)]
      have one : front.length + 1 - front.length = 1 := by omega
      rw [one]
      rfl

/-- The change of the line is a change of one character of the text. -/
theorem toggleTaskAtLine_eq (markdown : Text) (lineNumber : Nat) (checked : Bool) :
    toggleTaskAtLine markdown lineNumber checked =
      match markOnLine markdown lineNumber with
      | none => markdown
      | some position => markdown.set position (markOf checked) := by
  rw [toggleTaskAtLine, markOnLine]
  cases isLine : (markdown.splitOn '\n')[lineNumber]? with
  | none => rfl
  | some line =>
      cases isTask : taskPattern line with
      | none => simp only [isTask]
      | some found =>
          rcases taskPattern_eq_some isTask with ⟨c, matched⟩
          have inside : found.1.length + 1 < line.length := by
            rw [matched.line_eq]
            simp
          have changed : found.1 ++ '[' :: markOf checked :: ']' :: found.2 =
              line.set (found.1.length + 1) (markOf checked) := by
            have one : found.1.length + 1 - found.1.length = 1 := by omega
            rw [matched.line_eq, List.set_append_right _ _ (by omega), one]
            rfl
          simp only [isTask]
          rw [changed, intercalate_set_line (markOf checked) isLine inside]

theorem toggleTaskAtIndex_eq (parser : TaskParser) (markdown : Text) (taskIndex : Nat) (checked : Bool) :
    toggleTaskAtIndex parser markdown taskIndex checked =
      match markOfIndex parser markdown taskIndex with
      | none => markdown
      | some position => markdown.set position (markOf checked) := by
  rw [toggleTaskAtIndex, markOfIndex]
  cases (parser.tasks markdown)[taskIndex]? with
  | none => rfl
  | some task => exact toggleTaskAtLine_eq markdown task.line checked

theorem markOfIndex_eq_some {parser : TaskParser} {markdown : Text} {taskIndex position : Nat}
    (found : markOfIndex parser markdown taskIndex = some position) :
    Exists fun c => markdown[position]? = some c ∧ isMark c = true := by
  rw [markOfIndex] at found
  split at found
  next => exact absurd found (by simp)
  next task _ => exact markOnLine_eq_some found

/-! ## What the user sees -/

/-- In the rendered text the task of that number is in the state, all others
are as before, and no character but its mark is another one. -/
structure TogglesOnly (rendered : TaskParser) (text after : Text) (taskIndex : Nat) (task : Task)
    (checked : Bool) : Prop where
  toggled : ((rendered.tasks after)[taskIndex]?).map Task.checked = some checked
  others : ∀ number, number ≠ taskIndex ->
    ((rendered.tasks after)[number]?).map Task.checked =
      ((rendered.tasks text)[number]?).map Task.checked
  text_eq : DiffersAt (· = task.marker) text after

/-- The pattern finds the mark of the task that was clicked, or else nothing
has to change and nothing is changed. -/
def FindsMark (parser : TaskParser) (text : Text) (taskIndex : Nat) (task : Task) (checked : Bool) :
    Prop :=
  match markOfIndex parser text taskIndex with
  | none => task.checked = checked
  | some position =>
      position = task.marker ∨ text[position]? = some (markOf checked) ∧ task.checked = checked

variable {rendered : TaskParser} {text : Text} {taskIndex : Nat} {task : Task}

theorem togglesOnly_self (isTask : (rendered.tasks text)[taskIndex]? = some task) {checked : Bool}
    (already : task.checked = checked) : TogglesOnly rendered text text taskIndex task checked where
  toggled := by
    rw [isTask, Option.map_some, already]
  others := fun _ _ => rfl
  text_eq := DiffersAt.refl text

/-- To write a mark in the place of the mark of a task toggles that task. -/
theorem togglesOnly_set (isTask : (rendered.tasks text)[taskIndex]? = some task) {c : Char}
    (stands : text[task.marker]? = some c) (mark : isMark c = true) (checked : Bool) :
    TogglesOnly rendered text (text.set task.marker (markOf checked)) taskIndex task checked := by
  have inside : task.marker < text.length := by
    by_contra outside
    rw [List.getElem?_eq_none (Nat.le_of_not_lt outside)] at stands
    exact absurd stands (by simp)
  have elsewhere : ∀ position, position ≠ task.marker ->
      (text.set task.marker (markOf checked))[position]? = text[position]? := by
    intro position other
    exact List.getElem?_set_ne (Ne.symm other)
  have here : (text.set task.marker (markOf checked))[task.marker]? = some (markOf checked) :=
    List.getElem?_set_self inside
  have text_eq : DiffersAt (· = task.marker) text (text.set task.marker (markOf checked)) :=
    ⟨List.length_set, elsewhere⟩
  have differs : DiffersAt (fun position => Remarked text (text.set task.marker (markOf checked)) position ∧
      position ∈ rendered.markers text) text (text.set task.marker (markOf checked)) := by
    refine text_eq.mono ?_
    rintro position rfl
    refine ⟨⟨?_, ?_⟩, List.mem_map_of_mem (List.mem_of_getElem? isTask)⟩
    · intro other standsOther
      rw [stands] at standsOther
      rw [← Option.some.inj standsOther]
      exact mark
    · intro other standsOther
      rw [here] at standsOther
      rw [← Option.some.inj standsOther]
      exact isMark_markOf checked
  refine ⟨?_, ?_, text_eq⟩
  · rcases rendered.tasks_of_remarked differs isTask with ⟨other, standsOther, found⟩
    rw [here] at standsOther
    rw [found, Option.map_some, ← Option.some.inj standsOther, isChecked_markOf]
  · intro number other
    cases isOther : (rendered.tasks text)[number]? with
    | none =>
        rw [List.getElem?_eq_none_iff] at isOther
        rw [List.getElem?_eq_none (by rw [rendered.length_tasks differs]; exact isOther)]
    | some another =>
        rcases rendered.tasks_of_remarked differs isOther with ⟨d, standsAfter, found⟩
        rcases rendered.marked text another (List.mem_of_getElem? isOther) with ⟨e, stood, state⟩
        have apart : another.marker ≠ task.marker := by
          intro same
          apply other
          have nodup := rendered.markers_nodup text
          have at_number : ((rendered.tasks text).map Task.marker)[number]? = some task.marker := by
            rw [List.getElem?_map, isOther, Option.map_some, same]
          have at_index : ((rendered.tasks text).map Task.marker)[taskIndex]? = some task.marker := by
            rw [List.getElem?_map, isTask, Option.map_some]
          exact (List.getElem?_inj (List.getElem?_eq_some_iff.mp at_number).1 nodup).mp
            (at_number.trans at_index.symm)
        rw [elsewhere another.marker apart, stood] at standsAfter
        rw [found, Option.map_some, Option.map_some, state, Option.some.inj standsAfter]

theorem togglesOnly_of_findsMark {parser : TaskParser} {checked : Bool}
    (isTask : (rendered.tasks text)[taskIndex]? = some task)
    (finds : FindsMark parser text taskIndex task checked) :
    TogglesOnly rendered text (toggleTaskAtIndex parser text taskIndex checked) taskIndex task checked := by
  rw [toggleTaskAtIndex_eq]
  rw [FindsMark] at finds
  cases located : markOfIndex parser text taskIndex with
  | none =>
      rw [located] at finds
      exact togglesOnly_self isTask finds
  | some position =>
      rw [located] at finds
      rcases markOfIndex_eq_some located with ⟨c, stands, mark⟩
      rcases finds with rfl | ⟨same, already⟩
      · exact togglesOnly_set isTask stands mark checked
      · have unchanged : text.set position (markOf checked) = text := by
          obtain ⟨inside, here⟩ := List.getElem?_eq_some_iff.mp same
          rw [← here]
          exact List.set_getElem_self inside
        simp only
        rw [unchanged]
        exact togglesOnly_self isTask already

theorem findsMark_of_togglesOnly {parser : TaskParser} {checked : Bool}
    (isTask : (rendered.tasks text)[taskIndex]? = some task)
    (toggles : TogglesOnly rendered text (toggleTaskAtIndex parser text taskIndex checked) taskIndex task
      checked) : FindsMark parser text taskIndex task checked := by
  rw [toggleTaskAtIndex_eq] at toggles
  rw [FindsMark]
  cases located : markOfIndex parser text taskIndex with
  | none =>
      rw [located] at toggles
      have state := toggles.toggled
      simp only [isTask, Option.map_some] at state
      exact Option.some.inj state
  | some position =>
      rw [located] at toggles
      simp only at toggles ⊢
      rcases markOfIndex_eq_some located with ⟨c, stands, mark⟩
      by_cases same : position = task.marker
      · left
        exact same
      · right
        obtain ⟨inside, here⟩ := List.getElem?_eq_some_iff.mp stands
        have kept := toggles.text_eq.elsewhere position same
        rw [List.getElem?_set_self inside] at kept
        have unchanged : text.set position (markOf checked) = text := by
          rw [stands] at kept
          rw [Option.some.inj kept, ← here]
          exact List.set_getElem_self inside
        rw [unchanged] at toggles
        have state := toggles.toggled
        rw [isTask, Option.map_some] at state
        exact ⟨kept.symm, Option.some.inj state⟩

/-- A click toggles its task and nothing else if and only if the pattern finds
the mark of that task, or nothing has to change and nothing is changed. -/
theorem toggleTaskAtIndex_iff (rendered parser : TaskParser) (text : Text) (taskIndex : Nat) (task : Task)
    (isTask : (rendered.tasks text)[taskIndex]? = some task) (checked : Bool) :
    TogglesOnly rendered text (toggleTaskAtIndex parser text taskIndex checked) taskIndex task checked ↔
      FindsMark parser text taskIndex task checked :=
  ⟨findsMark_of_togglesOnly isTask, togglesOnly_of_findsMark isTask⟩

/-- Two items of plain lists, of which the second is checked. -/
def plainItems : Frame where
  text := "- [ ] a\nsome text\n  * [X] b".toList
  places := [(0, 3), (2, 23)]
  nodup := by decide
  bracketed := by
    intro place member
    rcases List.mem_cons.mp member with rfl | second
    · exact ⟨2, rfl, by decide⟩
    · rw [List.mem_singleton.mp second]
      exact ⟨22, rfl, by decide⟩
  marked := by decide

/-- A click on the second box. -/
theorem toggle_plainItem :
    TogglesOnly plainItems.toParser plainItems.text (toggleTaskAtIndex plainItems.toParser plainItems.text 1 false) 1
        ⟨2, 23, true⟩ false ∧
      toggleTaskAtIndex plainItems.toParser plainItems.text 1 false = "- [ ] a\nsome text\n  * [ ] b".toList :=
  ⟨(toggleTaskAtIndex_iff _ _ _ _ _ (by decide) false).mpr (Or.inl (by decide)), by decide⟩

/-- A task in a quoted list, `> - [ ] a`, stays as it is. -/
theorem toggle_quotedItem_lost :
    quotedItem.tasks "> - [ ] a".toList = [⟨0, 5, false⟩] ∧
      ¬ TogglesOnly quotedItem "> - [ ] a".toList (toggleTaskAtIndex quotedItem "> - [ ] a".toList 0 true) 0
        ⟨0, 5, false⟩ true := by
  refine ⟨by decide, ?_⟩
  intro toggles
  have unchanged : toggleTaskAtIndex quotedItem "> - [ ] a".toList 0 true = "> - [ ] a".toList := by
    decide
  have state := toggles.toggled
  rw [unchanged] at state
  exact absurd state (by decide)

end TaskToggle
end Web
end Memos
