import Mathlib.Data.List.Nodup
import Mathlib.Data.List.Perm.Subperm
import Memos.Web.TaskText

namespace Memos
namespace Web
namespace TaskActions

open Library
open TaskText

/-!
# Checking and unchecking all tasks

The editor marks all tasks of a text at once: the tasks are found by the
parser, their marks by a table of the lines and a regular expression, and the
marks of all tasks in the other state are replaced.
-/

/-- The loop of `getLineStarts` from an index on. -/
def lineStartsFrom : Nat -> Text -> List Nat
  | _, [] => []
  | index, c :: rest =>
      if c = '\n' then (index + 1) :: lineStartsFrom (index + 1) rest
      else lineStartsFrom (index + 1) rest

def getLineStarts (markdown : Text) : List Nat := 0 :: lineStartsFrom 0 markdown

structure LineInfo where
  text : Text
  startOffset : Nat
  endOffset : Nat

/-- `markdown.slice(start, end)` -/
def slice (markdown : Text) (start stop : Nat) : Text := (markdown.take stop).drop start

def getLineInfo (markdown : Text) (lineStarts : List Nat) (lineNumber : Nat) : Option LineInfo :=
  match lineStarts[lineNumber]? with
  | none => none
  | some startOffset =>
      let endOffset :=
        match lineStarts[lineNumber + 1]? with
        | none => markdown.length
        | some nextLineStart => nextLineStart - 1
      some ⟨slice markdown startOffset endOffset, startOffset, endOffset⟩

structure SourceRange where
  start : Nat
  stop : Nat

structure ParsedTaskItem where
  checked : Bool
  checkboxMarker : SourceRange

/-- One list item with a boolean `checked`; `TASK_LINE_REGEXP` is
`^(\s*)((?:[-*+])|(?:\d+[.)]))(\s+)\[([ xX])\]`. -/
def parseTaskItem (markdown : Text) (lineStarts : List Nat) (task : Task) : Option ParsedTaskItem :=
  match getLineInfo markdown lineStarts task.line with
  | none => none
  | some lineInfo =>
      match matchTask anyMarker lineInfo.text with
      | none => none
      | some (front, _, _) =>
          let markerStart := lineInfo.startOffset + front.length + 1
          some ⟨task.checked, ⟨markerStart, markerStart + 1⟩⟩

def parseTaskItems (parser : TaskParser) (markdown : Text) : List ParsedTaskItem :=
  let lineStarts := getLineStarts markdown
  (parser.tasks markdown).filterMap (parseTaskItem markdown lineStarts)

structure MarkdownEdit where
  start : Nat
  stop : Nat
  replacement : Text

/-- The check of the sorted edits: each ends inside the text and starts behind
the one before it. -/
def editsFit (markdown : Text) : Nat -> List MarkdownEdit -> Bool
  | _, [] => true
  | previousEnd, edit :: edits =>
      if edit.stop < edit.start || markdown.length < edit.stop || edit.start < previousEnd then false
      else editsFit markdown edit.stop edits

def applyMarkdownEdit (edit : MarkdownEdit) (markdown : Text) : Text :=
  markdown.take edit.start ++ edit.replacement ++ markdown.drop edit.stop

/-- The last of the edits is made first. -/
def applyMarkdownEdits (markdown : Text) (edits : List MarkdownEdit) : Text :=
  let sortedEdits := edits.mergeSort fun first second => first.start ≤ second.start
  if editsFit markdown 0 sortedEdits then sortedEdits.foldr applyMarkdownEdit markdown else markdown

def setAllTaskMarkers (parser : TaskParser) (markdown : Text) (checked : Bool) : Text :=
  let edits := ((parseTaskItems parser markdown).filter fun task => task.checked ≠ checked).map fun task =>
    (⟨task.checkboxMarker.start, task.checkboxMarker.stop, [markOf checked]⟩ : MarkdownEdit)
  applyMarkdownEdits markdown edits

def uncheckAllTasks (parser : TaskParser) (markdown : Text) : Text :=
  setAllTaskMarkers parser markdown false

def checkAllTasks (parser : TaskParser) (markdown : Text) : Text :=
  setAllTaskMarkers parser markdown true

/-! ## The table of the lines -/

theorem lineStartsFrom_shift (index : Nat) (text : Text) :
    lineStartsFrom index text = (lineStartsFrom 0 text).map (· + index) := by
  induction text generalizing index with
  | nil => rfl
  | cons c rest ih =>
      have moved : (lineStartsFrom 1 rest).map (· + index) = lineStartsFrom (index + 1) rest := by
        rw [ih 1, ih (index + 1), List.map_map]
        apply List.map_congr_left
        intro start _
        simp only [Function.comp_apply]
        omega
      rw [lineStartsFrom, lineStartsFrom]
      split
      · rw [List.map_cons, Nat.zero_add, moved, Nat.add_comm 1 index]
      · rw [Nat.zero_add, moved]

theorem lineStartsFrom_line {line rest : Text} (index : Nat) (unmarked : '\n' ∉ line) :
    lineStartsFrom index (line ++ '\n' :: rest) =
      (index + line.length + 1) :: lineStartsFrom (index + line.length + 1) rest := by
  induction line generalizing index with
  | nil => rfl
  | cons c others ih =>
      rw [List.mem_cons, not_or] at unmarked
      rw [List.cons_append, lineStartsFrom, if_neg (Ne.symm unmarked.1), ih _ unmarked.2,
        List.length_cons]
      have same : index + 1 + others.length + 1 = index + (others.length + 1) + 1 := by omega
      rw [same]

theorem lineStartsFrom_last {line : Text} (index : Nat) (unmarked : '\n' ∉ line) :
    lineStartsFrom index line = [] := by
  induction line generalizing index with
  | nil => rfl
  | cons c others ih =>
      rw [List.mem_cons, not_or] at unmarked
      rw [lineStartsFrom, if_neg (Ne.symm unmarked.1), ih _ unmarked.2]

theorem getLineStarts_line {line rest : Text} (unmarked : '\n' ∉ line) :
    getLineStarts (line ++ '\n' :: rest) = 0 :: (getLineStarts rest).map (· + (line.length + 1)) := by
  rw [getLineStarts, lineStartsFrom_line 0 unmarked, lineStartsFrom_shift (0 + line.length + 1),
    getLineStarts, List.map_cons, Nat.zero_add, Nat.zero_add]

/-- Every line but the first starts behind a mark. -/
theorem one_le_of_lineStartsFrom {index start : Nat} {text : Text}
    (member : start ∈ lineStartsFrom index text) : 1 ≤ start := by
  induction text generalizing index with
  | nil => exact absurd member List.not_mem_nil
  | cons c rest ih =>
      rw [lineStartsFrom] at member
      split at member
      next =>
        rcases List.mem_cons.mp member with same | later
        · omega
        · exact ih later
      next => exact ih member

theorem slice_line (line rest : Text) : slice (line ++ rest) 0 line.length = line := by
  rw [slice, List.drop_zero, List.take_left]

theorem slice_later (line rest : Text) (start stop : Nat) :
    slice (line ++ '\n' :: rest) (start + (line.length + 1)) (stop + (line.length + 1)) =
      slice rest start stop := by
  have whole : line ++ '\n' :: rest = (line ++ ['\n']) ++ rest := by rw [List.append_assoc]; rfl
  have long : (line ++ ['\n']).length = line.length + 1 := by rw [List.length_append]; rfl
  rw [slice, slice, whole, Nat.add_comm stop, Nat.add_comm start, ← long, List.take_length_add_append,
    List.drop_length_add_append]

/-- The table of the rest, moved behind the first line. -/
theorem getLineInfo_later (line rest : Text) (number : Nat) :
    getLineInfo (line ++ '\n' :: rest) (0 :: (getLineStarts rest).map (· + (line.length + 1)))
        (number + 1) =
      (getLineInfo rest (getLineStarts rest) number).map fun lineInfo =>
        ⟨lineInfo.text, lineInfo.startOffset + (line.length + 1), lineInfo.endOffset + (line.length + 1)⟩ := by
  rw [getLineInfo, getLineInfo, List.getElem?_cons_succ, List.getElem?_cons_succ, List.getElem?_map,
    List.getElem?_map]
  cases (getLineStarts rest)[number]? with
  | none => rfl
  | some start =>
      cases next : (getLineStarts rest)[number + 1]? with
      | none =>
          have long : (line ++ '\n' :: rest).length = rest.length + (line.length + 1) := by
            rw [List.length_append, List.length_cons]
            omega
          simp only [Option.map_some, Option.map_none, long, slice_later]
      | some nextLineStart =>
          have member : nextLineStart ∈ lineStartsFrom 0 rest := by
            rw [getLineStarts, List.getElem?_cons_succ] at next
            exact List.mem_of_getElem? next
          have positive := one_le_of_lineStartsFrom member
          have stop : nextLineStart + (line.length + 1) - 1 = nextLineStart - 1 + (line.length + 1) := by
            omega
          simp only [Option.map_some, stop, slice_later]

/-- The lines of the table are the lines of the text. -/
theorem getLineInfo_eq (text : Text) (lineNumber : Nat) :
    getLineInfo text (getLineStarts text) lineNumber =
      ((text.splitOn '\n')[lineNumber]?).map fun line =>
        ⟨line, startOfLine '\n' text lineNumber, startOfLine '\n' text lineNumber + line.length⟩ := by
  induction text using lines_induction '\n' generalizing lineNumber with
  | last line unmarked =>
      have starts : getLineStarts line = [0] := by
        rw [getLineStarts, lineStartsFrom_last 0 unmarked]
      rw [starts, splitOn_last unmarked]
      cases lineNumber with
      | zero => simp [getLineInfo, slice]
      | succ number => rfl
  | more line rest unmarked ih =>
      rw [getLineStarts_line unmarked, splitOn_more unmarked]
      cases lineNumber with
      | zero =>
          have second : (0 :: (getLineStarts rest).map (· + (line.length + 1)))[0 + 1]? =
              some (0 + (line.length + 1)) := rfl
          rw [getLineInfo, List.getElem?_cons_zero, second]
          simp only [Nat.zero_add, Nat.add_sub_cancel, slice_line, List.getElem?_cons_zero, Option.map_some,
            startOfLine_zero]
      | succ number =>
          rw [getLineInfo_later, ih, List.getElem?_cons_succ, startOfLine_succ unmarked,
            Option.map_map]
          congr 1
          funext found
          simp only [Function.comp_apply, LineInfo.mk.injEq, true_and]
          omega

/-! ## The edits -/

/-- Where the edit of a task is made. -/
def markOfTask (markdown : Text) (task : Task) : Option Nat :=
  match (markdown.splitOn '\n')[task.line]? with
  | none => none
  | some line =>
      match matchTask anyMarker line with
      | none => none
      | some (front, _, _) => some (startOfLine '\n' markdown task.line + (front.length + 1))

theorem parseTaskItem_eq (markdown : Text) (task : Task) :
    parseTaskItem markdown (getLineStarts markdown) task =
      (markOfTask markdown task).map fun start => ⟨task.checked, ⟨start, start + 1⟩⟩ := by
  rw [parseTaskItem, getLineInfo_eq, markOfTask]
  cases (markdown.splitOn '\n')[task.line]? with
  | none => rfl
  | some line =>
      simp only [Option.map_some]
      cases matchTask anyMarker line with
      | none => rfl
      | some found => simp only [Option.map_some, Nat.add_assoc]

/-- The tasks in a state. -/
def tasksIn (parser : TaskParser) (text : Text) (checked : Bool) : List Task :=
  (parser.tasks text).filter fun task => task.checked = checked

/-- Where the marks of the tasks in a state are looked for. -/
def foundMarks (parser : TaskParser) (text : Text) (checked : Bool) : List Nat :=
  (tasksIn parser text checked).filterMap (markOfTask text)

variable {task : Task} {position : Nat} {checked : Bool}

/-- What stands there is a mark. -/
theorem markOfTask_eq_some {text : Text} (found : markOfTask text task = some position) :
    Exists fun c => text[position]? = some c ∧ isMark c = true := by
  rw [markOfTask] at found
  split at found
  next => exact absurd found (by simp)
  next line isLine =>
    split at found
    next => exact absurd found (by simp)
    next front c suffix isTask =>
      have matched := matched_of_matchTask bullet_anyMarker isTask
      have inside : front.length + 1 < line.length := by
        rw [matched.line_eq, List.length_append]
        simp
      refine ⟨c, ?_, matched.mark⟩
      rw [← Option.some.inj found, getElem?_of_line isLine inside, matched.line_eq,
        List.getElem?_append_right (by omega), Nat.add_sub_cancel_left]
      rfl

/-- The edit that writes a mark. -/
def markEdit (c : Char) (start : Nat) : MarkdownEdit := ⟨start, start + 1, [c]⟩

variable {markdown : Text} {c : Char} {starts : List Nat}

theorem editsFit_iff {previousEnd : Nat} :
    editsFit markdown previousEnd (starts.map (markEdit c)) = true ↔
      (∀ start, start ∈ starts -> previousEnd ≤ start ∧ start < markdown.length) ∧
        starts.Pairwise (· < ·) := by
  induction starts generalizing previousEnd with
  | nil => simp [editsFit]
  | cons start starts ih =>
      have first : editsFit markdown previousEnd ((start :: starts).map (markEdit c)) = true ↔
          (previousEnd ≤ start ∧ start < markdown.length) ∧
            editsFit markdown (start + 1) (starts.map (markEdit c)) = true := by
        rw [List.map_cons, editsFit, Bool.if_false_left, Bool.and_eq_true, Bool.not_eq_true',
          decide_eq_false_iff_not, Bool.not_eq_true, Bool.or_eq_false_iff, Bool.or_eq_false_iff,
          decide_eq_false_iff_not, decide_eq_false_iff_not, decide_eq_false_iff_not, not_lt, not_lt, not_lt]
        exact and_congr_left fun _ =>
          ⟨fun good => ⟨good.2, good.1.2⟩, fun good => ⟨⟨Nat.le_succ start, good.2⟩, good.1⟩⟩
      rw [first, ih, List.pairwise_cons]
      constructor
      · rintro ⟨here, inside, increasing⟩
        refine ⟨?_, fun other member => (inside other member).1, increasing⟩
        intro other member
        rcases List.mem_cons.mp member with rfl | member
        · exact here
        · have := inside other member
          omega
      · rintro ⟨inside, below, increasing⟩
        refine ⟨inside start List.mem_cons_self, ?_, increasing⟩
        intro other member
        exact ⟨below other member, (inside other (List.mem_cons_of_mem _ member)).2⟩

theorem foldr_markEdit (inside : ∀ start, start ∈ starts -> start < markdown.length) :
    (starts.map (markEdit c)).foldr applyMarkdownEdit markdown = overwrite c starts markdown := by
  induction starts with
  | nil => rfl
  | cons start starts ih =>
      have others := ih fun other member => inside other (List.mem_cons_of_mem _ member)
      have first := inside start List.mem_cons_self
      rw [List.map_cons, List.foldr_cons, others, applyMarkdownEdit]
      exact splice_eq_set (by rw [length_overwrite]; exact first) c

/-- Edits of one character each are all made, unless two are at one place: then
none is. -/
theorem applyMarkdownEdits_eq (inside : ∀ start, start ∈ starts -> start < markdown.length) :
    applyMarkdownEdits markdown (starts.map (markEdit c)) =
      if starts.Nodup then overwrite c starts markdown else markdown := by
  have sorted : (starts.map (markEdit c)).mergeSort (fun first second => first.start ≤ second.start) =
      (starts.mergeSort fun first second => first ≤ second).map (markEdit c) := by
    rw [List.map_mergeSort]
    intro first _ second _
    rfl
  have same : ∀ start, start ∈ starts.mergeSort (fun first second => first ≤ second) ↔ start ∈ starts :=
    fun start => List.mem_mergeSort
  have insideSorted : ∀ start, start ∈ starts.mergeSort (fun first second => first ≤ second) ->
      start < markdown.length := fun start member => inside start ((same start).mp member)
  rw [applyMarkdownEdits]
  simp only [sorted]
  rw [foldr_markEdit insideSorted, overwrite_congr same]
  have ordered : (starts.mergeSort fun first second => first ≤ second).Pairwise (· ≤ ·) := by
    have sorts := @List.pairwise_mergeSort Nat (fun first second => decide (first ≤ second))
      (fun a b c => by simp only [decide_eq_true_eq]; omega)
      (fun a b => by simp only [Bool.or_eq_true, decide_eq_true_eq]; omega) starts
    simpa only [decide_eq_true_eq] using sorts
  have distinct : starts.Nodup ↔ (starts.mergeSort fun first second => first ≤ second).Pairwise (· < ·) := by
    rw [← (List.mergeSort_perm starts fun first second => first ≤ second).nodup_iff]
    constructor
    · intro nodup
      exact (ordered.and nodup).imp fun both => Nat.lt_of_le_of_ne both.1 both.2
    · intro increasing
      exact increasing.imp fun less => Nat.ne_of_lt less
  have fits : editsFit markdown 0 ((starts.mergeSort fun first second => first ≤ second).map (markEdit c)) = true ↔
      starts.Nodup := by
    rw [editsFit_iff, distinct]
    exact ⟨fun both => both.2, fun increasing =>
      ⟨fun start member => ⟨Nat.zero_le start, insideSorted start member⟩, increasing⟩⟩
  by_cases nodup : starts.Nodup
  · rw [if_pos nodup, if_pos (fits.mpr nodup)]
  · rw [if_neg nodup, if_neg (fun good => nodup (fits.mp good))]

theorem edits_eq (parser : TaskParser) (text : Text) (checked : Bool) :
    (((parseTaskItems parser text).filter fun task => task.checked ≠ checked).map fun task =>
        (⟨task.checkboxMarker.start, task.checkboxMarker.stop, [markOf checked]⟩ : MarkdownEdit)) =
      (foundMarks parser text (!checked)).map (markEdit (markOf checked)) := by
  rw [parseTaskItems, foundMarks, tasksIn]
  induction parser.tasks text with
  | nil => rfl
  | cons task tasks ih =>
      rw [List.filterMap_cons, parseTaskItem_eq, List.filter_cons]
      have other : decide (task.checked = !checked) = decide (task.checked ≠ checked) := by
        cases task.checked <;> cases checked <;> rfl
      rw [other]
      cases located : markOfTask text task with
      | none =>
          simp only [Option.map_none]
          split
          · rw [List.filterMap_cons, located]
            exact ih
          · exact ih
      | some position =>
          simp only [Option.map_some]
          rw [List.filter_cons]
          split
          next =>
            rw [List.map_cons, ih, List.filterMap_cons, located]
            rfl
          next => exact ih

theorem foundMarks_lt {parser : TaskParser} {text : Text} (member : position ∈ foundMarks parser text checked) :
    position < text.length := by
  rcases List.mem_filterMap.mp member with ⟨task, _, located⟩
  rcases markOfTask_eq_some located with ⟨c, stands, _⟩
  exact (List.getElem?_eq_some_iff.mp stands).1

/-- The marks that are found are written, unless two of them are the same. -/
theorem setAllTaskMarkers_eq (parser : TaskParser) (text : Text) (checked : Bool) :
    setAllTaskMarkers parser text checked =
      if (foundMarks parser text (!checked)).Nodup then
        overwrite (markOf checked) (foundMarks parser text (!checked)) text
      else text := by
  rw [setAllTaskMarkers, edits_eq, applyMarkdownEdits_eq fun start member => foundMarks_lt member]

/-! ## What the actions do -/

/-- Every task of the new text is in the state, and only marks of tasks differ. -/
structure SetsAll (parser : TaskParser) (text after : Text) (checked : Bool) : Prop where
  all : ∀ task, task ∈ parser.tasks after -> task.checked = checked
  text_eq : DiffersAt (· ∈ parser.markers text) text after

/-- Both actions set all tasks, and to do one of them after another is to do
the last one. -/
structure BulkActions (parser : TaskParser) (text : Text) : Prop where
  check : SetsAll parser text (checkAllTasks parser text) true
  uncheck : SetsAll parser text (uncheckAllTasks parser text) false
  check_check : checkAllTasks parser (checkAllTasks parser text) = checkAllTasks parser text
  uncheck_uncheck : uncheckAllTasks parser (uncheckAllTasks parser text) = uncheckAllTasks parser text
  uncheck_check : uncheckAllTasks parser (checkAllTasks parser text) = uncheckAllTasks parser text

/-- The mark of every task is among those that are found for the tasks in its
state. -/
def FindsMarks (parser : TaskParser) (text : Text) : Prop :=
  ∀ task, task ∈ parser.tasks text -> task.marker ∈ foundMarks parser text task.checked

variable {parser : TaskParser} {text : Text}

/-- The marks of the tasks in a state. -/
def marksIn (parser : TaskParser) (text : Text) (checked : Bool) : List Nat :=
  (tasksIn parser text checked).map Task.marker

theorem mem_tasksIn :
    task ∈ tasksIn parser text checked ↔ task ∈ parser.tasks text ∧ task.checked = checked := by
  rw [tasksIn, List.mem_filter, decide_eq_true_eq]

theorem marksIn_nodup (checked : Bool) : (marksIn parser text checked).Nodup :=
  (List.filter_sublist.map Task.marker).nodup (parser.markers_nodup text)

/-- As many marks are found as there are tasks, so they are those of the tasks. -/
theorem foundMarks_perm (finds : FindsMarks parser text) (checked : Bool) :
    (marksIn parser text checked).Perm (foundMarks parser text checked) := by
  have less : marksIn parser text checked ⊆ foundMarks parser text checked := by
    intro position member
    rcases List.mem_map.mp member with ⟨task, isTask, rfl⟩
    rw [mem_tasksIn] at isTask
    rw [← isTask.2]
    exact finds task isTask.1
  have short : (foundMarks parser text checked).length ≤ (marksIn parser text checked).length := by
    rw [marksIn, List.length_map]
    exact List.length_filterMap_le _ _
  exact ((marksIn_nodup checked).subperm less).perm_of_length_le short

/-- Two tasks with one mark are the same task. -/
theorem eq_of_marker {first second : Task} (isFirst : first ∈ parser.tasks text)
    (isSecond : second ∈ parser.tasks text) (same : first.marker = second.marker) : first = second :=
  List.inj_on_of_nodup_map (parser.markers_nodup text) isFirst isSecond same

theorem mem_marksIn_iff (isTask : task ∈ parser.tasks text) :
    task.marker ∈ marksIn parser text checked ↔ task.checked = checked := by
  constructor
  · intro member
    rcases List.mem_map.mp member with ⟨other, isOther, same⟩
    rw [mem_tasksIn] at isOther
    rw [← eq_of_marker isOther.1 isTask same]
    exact isOther.2
  · intro state
    exact List.mem_map_of_mem (mem_tasksIn.mpr ⟨isTask, state⟩)

theorem setAll_of_findsMarks (finds : FindsMarks parser text) (checked : Bool) :
    setAllTaskMarkers parser text checked =
      overwrite (markOf checked) (marksIn parser text (!checked)) text := by
  have same := foundMarks_perm finds (!checked)
  rw [setAllTaskMarkers_eq, if_pos (same.nodup_iff.mp (marksIn_nodup _))]
  exact overwrite_congr (fun position => same.mem_iff.symm) _ _

/-- To write a mark at places that are marks and that are those of tasks. -/
theorem remarked_overwrite {places : List Nat} (marks : ∀ position, position ∈ places ->
      Exists fun c => text[position]? = some c ∧ isMark c = true)
    (text_eq : DiffersAt (· ∈ parser.markers text) text (overwrite (markOf checked) places text)) :
    DiffersAt (fun position => Remarked text (overwrite (markOf checked) places text) position ∧
      position ∈ parser.markers text) text (overwrite (markOf checked) places text) := by
  refine ⟨text_eq.length_eq, ?_⟩
  intro position outside
  by_cases isMarker : position ∈ parser.markers text
  · rw [getElem?_overwrite]
    by_cases written : position ∈ places ∧ position < text.length
    · rcases marks position written.1 with ⟨c, stands, mark⟩
      refine absurd ⟨⟨?_, ?_⟩, isMarker⟩ outside
      · intro d here
        rw [stands] at here
        rw [← Option.some.inj here]
        exact mark
      · intro d here
        rw [getElem?_overwrite, if_pos written] at here
        rw [← Option.some.inj here]
        exact isMark_markOf checked
    · rw [if_neg written]
  · exact text_eq.elsewhere position isMarker

theorem foundMarks_marks (member : position ∈ foundMarks parser text checked) :
    Exists fun c => text[position]? = some c ∧ isMark c = true := by
  rcases List.mem_filterMap.mp member with ⟨task, _, located⟩
  exact markOfTask_eq_some located

/-- What the actions do where all marks are found is a change of the marks. -/
theorem remarked_of_findsMarks (finds : FindsMarks parser text) (checked : Bool) :
    DiffersAt (fun position => Remarked text (setAllTaskMarkers parser text checked) position ∧
      position ∈ parser.markers text) text (setAllTaskMarkers parser text checked) := by
  rw [setAll_of_findsMarks finds]
  apply remarked_overwrite
  · intro position member
    exact foundMarks_marks ((foundMarks_perm finds (!checked)).mem_iff.mp member)
  · refine (overwrite_differsAt _ _ _).mono ?_
    intro position member
    exact (List.filter_sublist.map Task.marker).subset member

theorem setsAll_of_findsMarks (finds : FindsMarks parser text) (checked : Bool) :
    SetsAll parser text (setAllTaskMarkers parser text checked) checked := by
  have differs := remarked_of_findsMarks finds checked
  refine ⟨?_, differs.mono fun _ both => both.2⟩
  intro task isTask
  obtain ⟨number, found⟩ := List.mem_iff_getElem?.mp isTask
  have bound : number < (parser.tasks text).length := by
    rw [← parser.length_tasks differs]
    exact (List.getElem?_eq_some_iff.mp found).1
  have was : (parser.tasks text)[number]? = some (parser.tasks text)[number] :=
    List.getElem?_eq_getElem bound
  have isOld : (parser.tasks text)[number] ∈ parser.tasks text := List.getElem_mem bound
  rcases parser.tasks_of_remarked differs was with ⟨c, stands, now⟩
  rw [found] at now
  rw [Option.some.inj now]
  simp only
  rcases parser.marked text _ isOld with ⟨d, stood, state⟩
  have inside := (List.getElem?_eq_some_iff.mp stood).1
  rw [setAll_of_findsMarks finds, getElem?_overwrite] at stands
  simp only [mem_marksIn_iff isOld] at stands
  by_cases changed : (parser.tasks text)[number].checked = !checked
  · rw [if_pos ⟨changed, inside⟩] at stands
    rw [← Option.some.inj stands, isChecked_markOf]
  · rw [if_neg (fun both => changed both.1), stood] at stands
    rw [← Option.some.inj stands, ← state]
    revert changed
    cases (parser.tasks text)[number].checked <;> cases checked <;> simp

/-- Where all tasks are in the state nothing is done. -/
theorem setAll_of_all (all : ∀ task, task ∈ parser.tasks text -> task.checked = checked) :
    setAllTaskMarkers parser text checked = text := by
  have none : tasksIn parser text (!checked) = [] := by
    rw [tasksIn, List.filter_eq_nil_iff]
    intro task isTask
    rw [all task isTask]
    cases checked <;> decide
  have nothing : foundMarks parser text (!checked) = [] := by
    rw [foundMarks, none]
    rfl
  rw [setAllTaskMarkers_eq, nothing, if_pos List.nodup_nil, overwrite_nil]

/-- A task stays at its place when marks are replaced. -/
theorem markOfTask_remarked {after : Text} (differs : DiffersAt (fun position => Remarked text after position ∧
      position ∈ parser.markers text) text after) {task other : Task} (line_eq : other.line = task.line)
    (located : markOfTask text task = some position) :
    markOfTask after other = some position := by
  have newlines : SameMarks '\n' text after := by
    refine sameMarks_of_getElem? differs.length_eq ?_
    intro place
    by_cases changed : Remarked text after place ∧ place ∈ parser.markers text
    · constructor
      · intro here
        exact absurd rfl (ne_newline_of_isMark (changed.1.is _ here))
      · intro here
        exact absurd rfl (ne_newline_of_isMark (changed.1.was _ here))
    · rw [differs.elsewhere place changed]
  rw [markOfTask] at located
  split at located
  next => exact absurd located (by simp)
  next row isLine =>
    split at located
    next => exact absurd located (by simp)
    next front c suffix isTask =>
      rcases newlines.line isLine with ⟨otherLine, isOther, long, start⟩
      have matched := matched_of_matchTask bullet_anyMarker isTask
      have changes : ∀ offset : Nat, offset < row.length ->
          otherLine[offset]? = row[offset]? ∨
            (∀ d, otherLine[offset]? = some d -> isMark d = true) ∧
              Exists fun before => offset = before + 1 ∧ row[before]? = some '[' := by
        intro offset bound
        have here := getElem?_of_line isLine bound
        have there := getElem?_of_line isOther (long.symm ▸ bound)
        rw [start] at there
        by_cases changed : Remarked text after (startOfLine '\n' text task.line + offset) ∧
            startOfLine '\n' text task.line + offset ∈ parser.markers text
        · right
          refine ⟨fun d stands => changed.1.is d (there.trans stands), ?_⟩
          rcases List.mem_map.mp changed.2 with ⟨marked, isMarked, place⟩
          rcases parser.bracketed text marked isMarked with ⟨before, follows, bracket⟩
          rcases offset with _ | offset
          · have start_eq : startOfLine '\n' text task.line = before + 1 := by omega
            have newline := getElem?_before_line isLine start_eq
            rw [bracket] at newline
            exact absurd (Option.some.inj newline) (by decide)
          · refine ⟨offset, rfl, ?_⟩
            have same : before = startOfLine '\n' text task.line + offset := by omega
            rw [← getElem?_of_line isLine (by omega), ← same]
            exact bracket
        · left
          rw [← there, ← here]
          exact differs.elsewhere _ changed
      rcases matched.remarked long changes with ⟨d, more, found⟩
      rw [markOfTask, line_eq, isOther]
      simp only [found, start]
      exact located

/-- All marks are found again in the text whose tasks are all checked. -/
theorem findsMarks_after (finds : FindsMarks parser text) (checked : Bool) :
    FindsMarks parser (setAllTaskMarkers parser text checked) := by
  have differs := remarked_of_findsMarks finds checked
  have all := (setsAll_of_findsMarks finds checked).all
  intro task isTask
  obtain ⟨number, found⟩ := List.mem_iff_getElem?.mp isTask
  have bound : number < (parser.tasks text).length := by
    rw [← parser.length_tasks differs]
    exact (List.getElem?_eq_some_iff.mp found).1
  have was : (parser.tasks text)[number]? = some (parser.tasks text)[number] :=
    List.getElem?_eq_getElem bound
  rcases parser.tasks_of_remarked differs was with ⟨c, _, now⟩
  rw [found] at now
  have same := Option.some.inj now
  -- the edit at the mark is that of some task of the old text
  have member := finds _ (List.getElem_mem bound)
  rcases List.mem_filterMap.mp member with ⟨old, isOld, located⟩
  rw [mem_tasksIn] at isOld
  obtain ⟨index, at_index⟩ := List.mem_iff_getElem?.mp isOld.1
  rcases parser.tasks_of_remarked differs at_index with ⟨d, _, renewed⟩
  have isNew := List.mem_of_getElem? renewed
  have relocated : markOfTask (setAllTaskMarkers parser text checked) { old with checked := isChecked d } =
      some (parser.tasks text)[number].marker := markOfTask_remarked differs rfl located
  have marker_eq : task.marker = (parser.tasks text)[number].marker := by rw [same]
  rw [marker_eq]
  refine List.mem_filterMap.mpr ⟨_, mem_tasksIn.mpr ⟨isNew, ?_⟩, relocated⟩
  rw [all task isTask]
  exact all _ isNew

/-- To write one mark at some of the places where it is written later. -/
theorem uncheck_check_eq (finds : FindsMarks parser text) :
    uncheckAllTasks parser (checkAllTasks parser text) = uncheckAllTasks parser text := by
  have differs := remarked_of_findsMarks finds true
  have all := (setsAll_of_findsMarks finds true).all
  have every : marksIn parser (setAllTaskMarkers parser text true) true = parser.markers text := by
    have whole : tasksIn parser (setAllTaskMarkers parser text true) true =
        parser.tasks (setAllTaskMarkers parser text true) := by
      rw [tasksIn, List.filter_eq_self]
      intro task isTask
      rw [all task isTask]
      rfl
    rw [marksIn, whole]
    exact parser.markers_of_remarked differs
  rw [uncheckAllTasks, checkAllTasks, uncheckAllTasks, setAll_of_findsMarks (findsMarks_after finds true),
    setAll_of_findsMarks finds false, Bool.not_false, every]
  apply List.ext_getElem?
  intro position
  rw [getElem?_overwrite, getElem?_overwrite, differs.length_eq]
  by_cases isMarker : position ∈ parser.markers text
  · rcases List.mem_map.mp isMarker with ⟨task, isTask, rfl⟩
    rcases parser.marked text task isTask with ⟨c, stands, state⟩
    have inside := (List.getElem?_eq_some_iff.mp stands).1
    rw [if_pos ⟨isMarker, inside⟩]
    by_cases wasChecked : task.checked = true
    · rw [if_pos ⟨(mem_marksIn_iff isTask).mpr wasChecked, inside⟩]
    · rw [if_neg (fun both => wasChecked ((mem_marksIn_iff isTask).mp both.1)), stands]
      rcases foundMarks_marks (finds task isTask) with ⟨d, standsToo, mark⟩
      rw [stands] at standsToo
      rw [← Option.some.inj standsToo] at mark
      have space := eq_space_of_isMark mark (by rw [← state]; simpa using wasChecked)
      rw [space]
      rfl
  · have other : position ∉ marksIn parser text true := fun member =>
      isMarker ((List.filter_sublist.map Task.marker).subset member)
    rw [if_neg (fun both => isMarker both.1), if_neg (fun both => other both.1)]
    exact differs.elsewhere position fun both => isMarker both.2

theorem bulkActions_of_findsMarks (finds : FindsMarks parser text) : BulkActions parser text where
  check := setsAll_of_findsMarks finds true
  uncheck := setsAll_of_findsMarks finds false
  check_check := setAll_of_all (setsAll_of_findsMarks finds true).all
  uncheck_uncheck := setAll_of_all (setsAll_of_findsMarks finds false).all
  uncheck_check := uncheck_check_eq finds

/-- An action that sets all tasks has found the marks of those in the other
state. -/
theorem mem_foundMarks_of_setsAll (sets : SetsAll parser text (setAllTaskMarkers parser text checked) checked)
    (isTask : task ∈ parser.tasks text) (state : task.checked = !checked) :
    task.marker ∈ foundMarks parser text (!checked) := by
  have opposite : task.checked ≠ checked := by
    rw [state]
    cases checked <;> simp
  rw [setAllTaskMarkers_eq] at sets
  split at sets
  next =>
    have differs := remarked_overwrite
      (fun position (member : position ∈ foundMarks parser text (!checked)) => foundMarks_marks member)
      sets.text_eq
    obtain ⟨number, found⟩ := List.mem_iff_getElem?.mp isTask
    rcases parser.tasks_of_remarked differs found with ⟨c, stands, now⟩
    have set := sets.all _ (List.mem_of_getElem? now)
    simp only at set
    by_contra missed
    rw [getElem?_overwrite, if_neg (fun both => missed both.1)] at stands
    rcases parser.marked text task isTask with ⟨d, stood, was⟩
    rw [stood] at stands
    rw [Option.some.inj stands, set] at was
    exact opposite was
  next => exact absurd (sets.all task isTask) opposite

theorem findsMarks_of_bulkActions (actions : BulkActions parser text) : FindsMarks parser text := by
  intro task isTask
  cases state : task.checked with
  | false => exact mem_foundMarks_of_setsAll actions.check isTask state
  | true => exact mem_foundMarks_of_setsAll actions.uncheck isTask state

/-- The actions do what they say if and only if the line search finds the mark
of every task. -/
theorem bulkActions_iff (parser : TaskParser) (text : Text) :
    BulkActions parser text ↔ FindsMarks parser text :=
  ⟨findsMarks_of_bulkActions, bulkActions_of_findsMarks⟩

/-- A numbered item on a line that ends in `\r\n`, and a checked item below it. -/
def numberedItems : Frame where
  text := "1. [ ] a\r\n   - [x] b".toList
  places := [(0, 4), (1, 16)]
  nodup := by decide
  bracketed := by
    intro place member
    rcases List.mem_cons.mp member with rfl | second
    · exact ⟨3, rfl, by decide⟩
    · rw [List.mem_singleton.mp second]
      exact ⟨15, rfl, by decide⟩
  marked := by decide

theorem bulkActions_numberedItems : BulkActions numberedItems.toParser numberedItems.text ∧
    checkAllTasks numberedItems.toParser numberedItems.text = "1. [x] a\r\n   - [x] b".toList ∧
    uncheckAllTasks numberedItems.toParser numberedItems.text = "1. [ ] a\r\n   - [ ] b".toList := by
  refine ⟨(bulkActions_iff _ _).mpr ?_, by decide +kernel, by decide +kernel⟩
  unfold FindsMarks
  decide +kernel

/-- The task of a quoted list, `> - [ ] a`, cannot be checked. -/
theorem check_quotedItem_lost :
    quotedItem.tasks "> - [ ] a".toList = [⟨0, 5, false⟩] ∧ ¬ BulkActions quotedItem "> - [ ] a".toList := by
  refine ⟨by decide, ?_⟩
  intro actions
  have member := findsMarks_of_bulkActions actions ⟨0, 5, false⟩ (by decide)
  exact absurd member (by decide)

end TaskActions
end Web
end Memos
