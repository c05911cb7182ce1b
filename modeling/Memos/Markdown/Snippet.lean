import Mathlib.Data.List.Forall2
import Mathlib.Data.List.Induction
import Mathlib.Data.List.Infix
import Mathlib.Data.List.TakeWhile
import Memos.Filter.Engine
import Memos.Library.Visits

namespace Memos
namespace Markdown
namespace Snippet

open Library
open Filter (isSpace)

/-!
# Snippets

`GenerateSnippet` walks over the syntax tree of a memo, collects its text and
cuts it at a word.  A snippet should be the beginning of what a reader sees.
-/

/-! ## The syntax tree -/

/-- The nodes of the parser and its extensions, with what the walk reads. -/
inductive Label where
  | document
  | paragraph
  | textBlock
  | heading
  | blockquote
  | list
  | listItem
  | thematicBreak
  | codeBlock
  | fencedCodeBlock
  | htmlBlock
  | table
  | tableHeader
  | tableRow
  | tableCell
  | text (segment : List Char) (softLineBreak hardLineBreak : Bool)
  | codeSpan
  | emphasis
  | strikethrough
  | link
  | image
  | rawHTML
  | taskCheckBox
  | autoLink (protocol : Option (List Char)) (label : List Char)
  | tag (tag : List Char)
  | mention (username : List Char)
deriving DecidableEq

/-- The URL of an automatic link. -/
def url (protocol : Option (List Char)) (label : List Char) : List Char :=
  match protocol with
  | none => label
  | some protocol => protocol ++ "://".toList ++ label

/-! ## The walk -/

structure State where
  buf : List Char := []
  lastNodeWasBlock : Bool := false

def isCode : Label -> Bool
  | .codeBlock | .fencedCodeBlock => true
  | _ => false

/-- The kinds of blocks that the walk takes notice of. -/
def isNoted : Label -> Bool
  | .paragraph | .heading | .listItem | .tableCell | .tableRow | .tableHeader => true
  | _ => false

def isAutoLink : Label -> Bool
  | .autoLink _ _ => true
  | _ => false

/-- The blank before a block. -/
def blankBefore (label : Label) (state : State) : List Char :=
  if isNoted label && !state.buf.isEmpty && state.lastNodeWasBlock then [' '] else []

/-- The text that is written for a node. -/
def extracted : Label -> List Char
  | .text segment softLineBreak _ => segment ++ if softLineBreak then [' '] else []
  | .autoLink protocol label => url protocol label
  | .tag tag => '#' :: tag
  | _ => []

def utf8Size (text : List Char) : Nat := (text.map Char.utf8Size).sum

/-- `maxLength*2` in 64 bits -/
def doubled (maxLength : Nat) : Int := Int.bmod (2 * maxLength) (2 ^ 64)

def walker (maxLength : Nat) : Visit Label -> State -> State × WalkStatus
  | .enter label, state =>
      if isCode label then (state, .skipChildren)
      else
        let written : State :=
          { buf := state.buf ++ blankBefore label state ++ extracted label, lastNodeWasBlock := false }
        if isAutoLink label then (written, .skipChildren)
        else if doubled maxLength < utf8Size written.buf then (written, .stop)
        else (written, .proceed)
  | .leave label, state =>
      ({ state with lastNodeWasBlock := isNoted label || state.lastNodeWasBlock }, .proceed)

/-! ## The cut -/

def isBlank (c : Char) : Bool := c = ' ' || c = '\t' || c = '\n' || c = '\r'

/-- The text up to its last blank, with the blank. -/
def upToLastBlank (text : List Char) : List Char :=
  (text.reverse.dropWhile fun c => !isBlank c).reverse

/-- The text that is kept of a longer one. -/
def keptWords (maxLength : Nat) (text : List Char) : List Char :=
  let truncated := text.take maxLength
  if 1 < (upToLastBlank truncated).length then (upToLastBlank truncated).dropLast else truncated

def truncateAtWord (text : List Char) (maxLength : Nat) : List Char :=
  if text.length ≤ maxLength then text else keptWords maxLength text ++ " ...".toList

def trimSpace (text : List Char) : List Char :=
  ((text.dropWhile isSpace).reverse.dropWhile isSpace).reverse

/-- `GenerateSnippet`, for the tree that the parser returns. -/
def generateSnippet (tree : Rose Label) (maxLength : Nat) : List Char :=
  let snippet := (walk (walker maxLength) tree {}).1.buf
  trimSpace (if maxLength < utf8Size snippet then truncateAtWord snippet maxLength else snippet)

/-! ## What a reader sees -/

def isBlock : Label -> Bool
  | .document | .paragraph | .textBlock | .heading | .blockquote | .list | .listItem | .thematicBreak
  | .codeBlock | .fencedCodeBlock | .htmlBlock | .table | .tableHeader | .tableRow | .tableCell => true
  | _ => false

/-- A character, or a place where texts stand apart. -/
inductive Mark where
  | char (c : Char)
  | gap
deriving DecidableEq

def skips (label : Label) : Bool := isCode label || isAutoLink label

/-- What a reader sees when a node begins. -/
def opening : Label -> List Mark
  | .text segment softLineBreak hardLineBreak =>
      segment.map .char ++ if softLineBreak || hardLineBreak then [.gap] else []
  | .autoLink _ label => label.map .char
  | .tag tag => ('#' :: tag).map .char
  | .mention username => ('@' :: username).map .char
  | label => if isBlock label then [.gap] else []

def marks : Visit Label -> List Mark
  | .enter label => opening label
  | .leave label => if isBlock label then [.gap] else []

/-- The text of a tree outside its code blocks. -/
def visible (tree : Rose Label) : List Mark := (tree.visits skips).flatMap marks

/-- A text as it is shown: its white space sets apart. -/
def shown (text : List Char) : List Mark := text.map fun c => if isSpace c then .gap else .char c

/-- The characters other than white space, each with whether it stands apart
from the one before it. -/
def letters : Bool -> List Mark -> List (Bool × Char)
  | _, [] => []
  | _, .gap :: rest => letters true rest
  | apart, .char c :: rest => if isSpace c then letters apart rest else (apart, c) :: letters false rest

/-- The same character, which stands apart if it should. -/
def SameLetter (here there : Bool × Char) : Prop := here.2 = there.2 ∧ (there.1 = true -> here.1 = true)

/-- A snippet shows the beginning of what a reader sees, up to white space,
with texts apart that are apart in the tree and with an ellipsis exactly if
something is left out. -/
def Faithful (tree : Rose Label) (maxLength : Nat) (snippet : List Char) : Prop :=
  Exists fun body => Exists fun kept => Exists fun rest =>
    letters false (visible tree) = kept ++ rest ∧
    List.Forall₂ SameLetter (letters true (shown body)) kept ∧
    body.length ≤ maxLength ∧
    snippet = trimSpace (if rest = [] then body else body ++ " ...".toList)

/-! ## Letters -/

section Letters

/-- Whether what follows stands apart. -/
def apartAfter : Bool -> List Mark -> Bool
  | apart, [] => apart
  | _, .gap :: rest => apartAfter true rest
  | apart, .char c :: rest => if isSpace c then apartAfter apart rest else apartAfter false rest

theorem letters_append (apart : Bool) (first second : List Mark) :
    letters apart (first ++ second) = letters apart first ++ letters (apartAfter apart first) second := by
  induction first generalizing apart with
  | nil => rfl
  | cons mark first ih =>
      cases mark with
      | gap => exact ih true
      | char c =>
          rw [List.cons_append, letters, letters, apartAfter]
          split
          next => exact ih apart
          next => rw [ih false, List.cons_append]

theorem apartAfter_append (apart : Bool) (first second : List Mark) :
    apartAfter apart (first ++ second) = apartAfter (apartAfter apart first) second := by
  induction first generalizing apart with
  | nil => rfl
  | cons mark first ih =>
      cases mark with
      | gap => exact ih true
      | char c =>
          rw [List.cons_append, apartAfter, apartAfter]
          split
          next => exact ih apart
          next => exact ih false

/-- What stands apart changes no characters. -/
theorem letters_eq_nil_iff {first second : Bool} {list : List Mark} :
    letters first list = [] ↔ letters second list = [] := by
  induction list generalizing first second with
  | nil => exact Iff.rfl
  | cons mark list ih =>
      cases mark with
      | gap => exact Iff.rfl
      | char c =>
          rw [letters, letters]
          split
          next => exact ih
          next => simp

theorem shown_append (first second : List Char) : shown (first ++ second) = shown first ++ shown second :=
  List.map_append

/-- A text of white space has no letters. -/
theorem letters_shown_of_blank {text : List Char} (blank : ∀ c, c ∈ text -> isSpace c = true) (apart : Bool) :
    letters apart (shown text) = [] := by
  induction text generalizing apart with
  | nil => rfl
  | cons c text ih =>
      have first : isSpace c = true := blank c List.mem_cons_self
      rw [shown, List.map_cons, if_pos first, letters]
      exact ih (fun other member => blank other (List.mem_cons_of_mem _ member)) true

theorem letters_shown_ne_nil {text : List Char} {c : Char} (member : c ∈ text) (letter : isSpace c = false)
    (apart : Bool) : letters apart (shown text) ≠ [] := by
  induction text generalizing apart with
  | nil => cases member
  | cons first text ih =>
      rw [shown, List.map_cons]
      by_cases space : isSpace first = true
      · rw [if_pos space, letters]
        refine ih ?_ true
        rcases List.mem_cons.mp member with rfl | later
        · rw [letter] at space
          cases space
        · exact later
      · rw [if_neg space, letters, if_neg space]
        exact List.cons_ne_nil _ _

/-- A text shows its own letters, apart if its beginning should be and is. -/
theorem sameLetters_of_imp {here there : Bool} (segment : List Char) (apart : there = true -> here = true) :
    List.Forall₂ SameLetter (letters here (shown segment)) (letters there (segment.map Mark.char)) := by
  induction segment generalizing here there with
  | nil => exact List.Forall₂.nil
  | cons c segment ih =>
      rw [shown, List.map_cons, List.map_cons, letters]
      by_cases space : isSpace c = true
      · rw [if_pos space, letters, if_pos space]
        exact ih fun _ => rfl
      · rw [if_neg space, letters, if_neg space, if_neg space]
        refine List.Forall₂.cons ⟨rfl, apart⟩ ?_
        exact ih fun impossible => by cases impossible

theorem sameLetters {here there : Bool} (segment : List Char)
    (apart : letters there (segment.map Mark.char) ≠ [] -> there = true ->
      here = true ∨ segment.head?.any isSpace = true) :
    List.Forall₂ SameLetter (letters here (shown segment)) (letters there (segment.map Mark.char)) := by
  by_cases silent : letters there (segment.map Mark.char) = []
  · have whole := @sameLetters_of_imp true there segment fun _ => rfl
    rw [silent, List.forall₂_nil_right_iff] at whole
    rw [silent, letters_eq_nil_iff.mp whole]
    exact List.Forall₂.nil
  · by_cases gap : there = true
    · rcases apart silent gap with isApart | begins
      · exact sameLetters_of_imp segment fun _ => isApart
      · -- the white space at the beginning sets the first letter apart
        cases segment with
        | nil => cases begins
        | cons c rest =>
            have space : isSpace c = true := begins
            rw [shown, List.map_cons, List.map_cons, if_pos space, letters, letters, if_pos space]
            exact sameLetters_of_imp rest fun _ => rfl
    · exact sameLetters_of_imp segment fun isGap => absurd isGap gap

end Letters

/-! ## The walk without a stop -/

section Flow

/-- The state after some visits, if nothing has stopped the walk. -/
def flow (visits : List (Visit Label)) : State := afterAll (walker 0) visits {}

/-- A noted block was left, and nothing but code was entered since.  The visits
are those before, the last one first. -/
def leftBlock : List (Visit Label) -> Bool
  | [] => false
  | .leave label :: earlier => isNoted label || leftBlock earlier
  | .enter label :: earlier => isCode label && leftBlock earlier

/-- White space is written after the last letter. -/
def spaced : List (Visit Label) -> Bool
  | [] => true
  | .leave _ :: earlier => spaced earlier
  | .enter label :: earlier =>
      apartAfter (isNoted label && leftBlock earlier || spaced earlier) (shown (extracted label))

theorem walker_fst (maxLength : Nat) (visit : Visit Label) (state : State) :
    (walker maxLength visit state).1 = (walker 0 visit state).1 := by
  cases visit with
  | leave label => rfl
  | enter label =>
      rw [walker, walker]
      split
      next => rfl
      next =>
        dsimp only
        split
        next => rfl
        next =>
          split
          next => split <;> rfl
          next => split <;> rfl

theorem afterAll_eq_flow (maxLength : Nat) (visits : List (Visit Label)) :
    afterAll (walker maxLength) visits {} = flow visits := by
  unfold flow afterAll
  simp only [walker_fst maxLength]

theorem flow_snoc (visits : List (Visit Label)) (visit : Visit Label) :
    flow (visits ++ [visit]) = (walker 0 visit (flow visits)).1 := afterAll_append

theorem flow_enter (visits : List (Visit Label)) {label : Label} (notCode : isCode label = false) :
    flow (visits ++ [.enter label]) =
      { buf := (flow visits).buf ++ blankBefore label (flow visits) ++ extracted label, lastNodeWasBlock := false } := by
  rw [flow_snoc, walker, if_neg (by rw [notCode]; simp)]
  dsimp only
  split
  next => rfl
  next => split <;> rfl

theorem flow_code (visits : List (Visit Label)) {label : Label} (code : isCode label = true) :
    flow (visits ++ [.enter label]) = flow visits := by
  rw [flow_snoc, walker, if_pos code]

theorem flow_leave (visits : List (Visit Label)) (label : Label) :
    flow (visits ++ [.leave label]) =
      { flow visits with lastNodeWasBlock := isNoted label || (flow visits).lastNodeWasBlock } := by
  rw [flow_snoc, walker]

theorem extracted_of_code {label : Label} (code : isCode label = true) : extracted label = [] := by
  cases label <;> first | rfl | cases code

theorem not_noted_of_code {label : Label} (code : isCode label = true) : isNoted label = false := by
  cases label <;> first | rfl | cases code

/-- The flag of the walk. -/
theorem flow_lastNodeWasBlock (visits : List (Visit Label)) :
    (flow visits).lastNodeWasBlock = leftBlock visits.reverse := by
  induction visits using List.reverseRecOn with
  | nil => rfl
  | append_singleton visits visit ih =>
      rw [List.reverse_append, List.reverse_singleton, List.singleton_append]
      cases visit with
      | leave label => rw [flow_leave, ih, leftBlock]
      | enter label =>
          rw [leftBlock]
          by_cases code : isCode label = true
          · rw [flow_code visits code, ih, code, Bool.true_and]
          · have notCode : isCode label = false := Bool.eq_false_iff.mpr code
            rw [flow_enter visits notCode, notCode, Bool.false_and]

/-- The blank before a block. -/
theorem apartAfter_blankBefore {label : Label} {state : State}
    (start : state.buf = [] -> apartAfter true (shown state.buf) = true) :
    apartAfter true (shown (state.buf ++ blankBefore label state)) =
      (isNoted label && state.lastNodeWasBlock || apartAfter true (shown state.buf)) := by
  unfold blankBefore
  by_cases empty : state.buf = []
  · have isApart := start empty
    rw [empty] at isApart ⊢
    simp [shown, apartAfter]
  · have some_ : state.buf.isEmpty = false := List.isEmpty_eq_false_iff.mpr empty
    rw [some_, Bool.not_false, Bool.and_true, shown_append, apartAfter_append]
    by_cases both : (isNoted label && state.lastNodeWasBlock) = true
    · rw [if_pos both, both, Bool.true_or]
      rfl
    · rw [if_neg both, Bool.eq_false_iff.mpr both, Bool.false_or]
      rfl

/-- The white space at the end of what is written. -/
theorem apartAfter_flow (visits : List (Visit Label)) :
    apartAfter true (shown (flow visits).buf) = spaced visits.reverse := by
  induction visits using List.reverseRecOn with
  | nil => rfl
  | append_singleton visits visit ih =>
      rw [List.reverse_append, List.reverse_singleton, List.singleton_append]
      cases visit with
      | leave label => rw [flow_leave, spaced, ← ih]
      | enter label =>
          rw [spaced]
          by_cases code : isCode label = true
          · rw [flow_code visits code, ih, not_noted_of_code code, extracted_of_code code,
              Bool.false_and, Bool.false_or]
            rfl
          · rw [flow_enter visits (Bool.eq_false_iff.mpr code), shown_append, apartAfter_append,
              apartAfter_blankBefore fun empty => by rw [empty]; rfl, ih, flow_lastNodeWasBlock]

/-- What is written is only extended. -/
theorem flow_prefix (before after : List (Visit Label)) : (flow before).buf <+: (flow (before ++ after)).buf := by
  induction after using List.reverseRecOn with
  | nil =>
      rw [List.append_nil]
  | append_singleton after visit ih =>
      refine ih.trans ?_
      rw [← List.append_assoc]
      cases visit with
      | leave label =>
          rw [flow_leave]
      | enter label =>
          by_cases code : isCode label = true
          · rw [flow_code _ code]
          · rw [flow_enter _ (Bool.eq_false_iff.mpr code), List.append_assoc]
            exact List.prefix_append _ _

end Flow

/-! ## Where the walk shows what is there -/

/-- A node whose text the walk drops or changes. -/
def unseen : Visit Label -> Bool
  | .enter (.mention _) => true
  | .enter (.autoLink (some _) _) => true
  | _ => false

/-- The text of a visit, if there is any. -/
def visitText : Visit Label -> List Char
  | .enter label => extracted label
  | .leave _ => []

/-- The text of the visit is not dropped or changed, and if it should stand
apart from the one before it, there is white space: at the end of what precedes,
at its own beginning, or the blank that the walk writes when it leaves a noted
block and then enters one. -/
def ClearAt (before : List (Visit Label)) (visit : Visit Label) : Prop :=
  unseen visit = false ∧
    (letters true (marks visit) ≠ [] -> apartAfter false (before.flatMap marks) = true ->
      spaced before.reverse = true ∨ (visitText visit).head?.any isSpace = true)

instance (before : List (Visit Label)) (visit : Visit Label) : Decidable (ClearAt before visit) := by
  unfold ClearAt
  infer_instance

def Clear (read : List (Visit Label)) : Prop :=
  ∀ before visit after, read = before ++ visit :: after -> ClearAt before visit

theorem clear_of_index {read : List (Visit Label)}
    (all : ∀ index, index < read.length -> ∀ visit, visit ∈ read[index]? ->
      ClearAt (read.take index) visit) : Clear read := by
  rintro before visit after rfl
  have inside : before.length < (before ++ visit :: after).length := by simp
  have clear := all before.length inside visit (by simp)
  rw [List.take_left' rfl] at clear
  exact clear

theorem Clear.of_append {read more : List (Visit Label)} (clear : Clear (read ++ more)) : Clear read := by
  rintro before visit after rfl
  refine clear before visit (after ++ more) ?_
  rw [List.append_assoc, List.cons_append]

theorem letters_opening_block {label : Label} {apart : Bool} :
    letters apart (if isBlock label then [.gap] else []) = [] := by
  split <;> rfl

/-- A visit of a clear walk shows its own letters. -/
theorem sameLetters_visit {here there : Bool} {label : Label} (seen : unseen (.enter label) = false)
    (apart : letters true (opening label) ≠ [] -> there = true ->
      here = true ∨ (extracted label).head?.any isSpace = true) :
    List.Forall₂ SameLetter (letters here (shown (extracted label))) (letters there (opening label)) := by
  have silent : extracted label = [] -> opening label = (if isBlock label then [.gap] else []) ->
      List.Forall₂ SameLetter (letters here (shown (extracted label))) (letters there (opening label)) := by
    intro nothing isBoundary
    rw [nothing, isBoundary, letters_opening_block]
    exact List.Forall₂.nil
  have written : ∀ segment, extracted label = segment -> opening label = segment.map Mark.char ->
      List.Forall₂ SameLetter (letters here (shown (extracted label))) (letters there (opening label)) := by
    intro segment isText isMarks
    rw [isText, isMarks] at apart ⊢
    exact sameLetters segment fun some_ => apart (mt letters_eq_nil_iff.mp some_)
  cases label with
  | text segment softLineBreak hardLineBreak =>
      have trailing : letters here (shown (extracted (.text segment softLineBreak hardLineBreak))) =
          letters here (shown segment) := by
        rw [extracted, shown_append, letters_append]
        cases softLineBreak with
        | false => exact List.append_nil _
        | true => exact List.append_nil _
      have broken : ∀ flag, letters flag (opening (.text segment softLineBreak hardLineBreak)) =
          letters flag (segment.map Mark.char) := by
        intro flag
        rw [opening, letters_append]
        split <;> exact List.append_nil _
      rw [broken] at apart ⊢
      rw [trailing]
      refine sameLetters segment fun some_ gap => ?_
      refine (apart (mt letters_eq_nil_iff.mp some_) gap).imp id fun begins => ?_
      cases segment with
      | nil => exact absurd rfl some_
      | cons first segment => exact begins
  | autoLink protocol label =>
      cases protocol with
      | none => exact written label rfl rfl
      | some protocol => cases seen
  | tag tag => exact written ('#' :: tag) rfl rfl
  | mention username => cases seen
  | _ => exact silent rfl rfl

/-- A clear walk shows the letters that a reader sees. -/
theorem sameLetters_of_clear {read : List (Visit Label)} (clear : Clear read) :
    List.Forall₂ SameLetter (letters true (shown (flow read).buf)) (letters false (read.flatMap marks)) := by
  induction read using List.reverseRecOn with
  | nil => exact List.Forall₂.nil
  | append_singleton read visit ih =>
      have before := ih clear.of_append
      rcases clear read visit [] rfl with ⟨seen, apart⟩
      rw [List.flatMap_append, List.flatMap_singleton, letters_append]
      cases visit with
      | leave label =>
          rw [flow_leave, marks, letters_opening_block, List.append_nil]
          exact before
      | enter label =>
          by_cases code : isCode label = true
          · have nothing : letters (apartAfter false (read.flatMap marks)) (marks (.enter label)) = [] := by
              cases label <;> first | rfl | cases code
            rw [flow_code _ code, nothing, List.append_nil]
            exact before
          · have blank : letters true (shown ((flow read).buf ++ blankBefore label (flow read))) =
                letters true (shown (flow read).buf) := by
              rw [shown_append, letters_append]
              unfold blankBefore
              split <;> exact List.append_nil _
            rw [flow_enter _ (Bool.eq_false_iff.mpr code), shown_append, letters_append, blank]
            refine List.rel_append before (sameLetters_visit seen fun some_ gap => ?_)
            refine (apart some_ gap).imp (fun isSpaced => ?_) id
            rw [apartAfter_blankBefore fun empty => by rw [empty]; rfl, apartAfter_flow, isSpaced, Bool.or_true]

/-! ## The cut -/

section Cut

variable {maxLength : Nat} {text : List Char}

theorem keptWords_prefix : keptWords maxLength text <+: text.take maxLength := by
  unfold keptWords
  dsimp only
  split
  next =>
    refine (List.dropLast_prefix _).trans ?_
    rw [← List.reverse_suffix, upToLastBlank, List.reverse_reverse]
    exact List.dropWhile_suffix _
  next => exact List.prefix_rfl

theorem keptWords_congr {other : List Char} (same : text.take maxLength = other.take maxLength) :
    keptWords maxLength text = keptWords maxLength other := by
  unfold keptWords
  rw [same]

/-- Letters stand behind the first characters, or the last of these belong to a
word that is not the first. -/
def Overflows (maxLength : Nat) (text : List Char) : Prop :=
  (Exists fun c => c ∈ text.drop maxLength ∧ isSpace c = false) ∨
    Exists fun start => Exists fun blank => Exists fun word =>
      text.take maxLength = start ++ blank :: word ∧ start ≠ [] ∧ isBlank blank = true ∧
        (∀ c, c ∈ word -> isBlank c = false) ∧ Exists fun c => c ∈ word ∧ isSpace c = false

/-- The words before the last blank are kept. -/
theorem keptWords_of_word {start word : List Char} {blank : Char}
    (split : text.take maxLength = start ++ blank :: word) (some_ : start ≠ []) (isBlank_ : isBlank blank = true)
    (unbroken : ∀ c, c ∈ word -> isBlank c = false) : keptWords maxLength text = start := by
  have upTo : upToLastBlank (text.take maxLength) = start ++ [blank] := by
    have behind : (word.reverse ++ blank :: start.reverse).dropWhile (fun c => !isBlank c) = blank :: start.reverse := by
      rw [List.dropWhile_append_of_pos, List.dropWhile_cons_of_neg]
      · rw [isBlank_]
        simp
      · intro c member
        rw [unbroken c (List.mem_reverse.mp member)]
        rfl
    have whole : (text.take maxLength).reverse = word.reverse ++ blank :: start.reverse := by
      rw [split]
      simp
    rw [upToLastBlank, whole, behind, List.reverse_cons, List.reverse_reverse]
  have long : 1 < (start ++ [blank]).length := by
    have positive := List.length_pos_iff.mpr some_
    rw [List.length_append, List.length_singleton]
    omega
  rw [keptWords, upTo, if_pos long, List.dropLast_concat]

theorem letters_shown_append (apart : Bool) (front back : List Char) :
    letters apart (shown (front ++ back)) =
      letters apart (shown front) ++ letters (apartAfter apart (shown front)) (shown back) := by
  rw [shown_append, letters_append]

/-- If the text overflows, the cut leaves letters out. -/
theorem letters_cut (overflows : Overflows maxLength text) :
    Exists fun back => text = keptWords maxLength text ++ back ∧ ∀ apart, letters apart (shown back) ≠ [] := by
  rcases overflows with ⟨c, member, letter⟩ | ⟨start, blank, word, split, some_, isBlank_, unbroken, c, member, letter⟩
  · rcases keptWords_prefix with ⟨more, whole⟩
    refine ⟨more ++ text.drop maxLength, ?_, letters_shown_ne_nil (List.mem_append_right more member) letter⟩
    rw [← List.append_assoc, whole, List.take_append_drop]
  · refine ⟨blank :: word ++ text.drop maxLength, ?_,
      letters_shown_ne_nil (List.mem_append_left _ (List.mem_cons_of_mem _ member)) letter⟩
    rw [keptWords_of_word split some_ isBlank_ unbroken, ← List.append_assoc, ← split, List.take_append_drop]

end Cut

/-! ## When the snippet is faithful -/

/-- Nothing is seen in these visits. -/
def Silent (visits : List (Visit Label)) : Prop := letters false (visits.flatMap marks) = []

/-- The walk shows what there is until it has enough. -/
structure Regular (tree : Rose Label) (maxLength : Nat) (read after : List (Visit Label)) : Prop where
  whole : tree.visits skips = read ++ after
  clear : Clear read
  enough : after = [] ∨ maxLength < (flow read).buf.length
  /-- The walk stops early only behind the last text. -/
  early : ∀ before label later, tree.visits skips = before ++ .enter label :: later -> skips label = false ->
    doubled maxLength < utf8Size (flow (before ++ [.enter label])).buf ->
    (flow (before ++ [.enter label])).buf.length ≤ maxLength -> Silent later
  /-- The text is not too long by white space alone. -/
  long : maxLength < (flow read).buf.length -> Overflows maxLength (flow read).buf ∨ ¬ Silent after

section Result

variable {tree : Rose Label} {maxLength : Nat} {read after : List (Visit Label)}

theorem walker_skips (label : Label) (state : State) :
    (walker maxLength (.enter label) state).2 = .skipChildren ↔ skips label = true := by
  rw [walker, skips, Bool.or_eq_true]
  by_cases code : isCode label = true
  · rw [if_pos code]
    simp [code]
  · rw [if_neg code]
    dsimp only
    by_cases autoLink : isAutoLink label = true
    · rw [if_pos autoLink]
      simp [autoLink]
    · rw [if_neg autoLink]
      split <;> simp [code, autoLink]

/-- The walk stops at a node when the text is too long in bytes. -/
theorem walker_stops {visit : Visit Label} {before : List (Visit Label)}
    (stops : (walker maxLength visit (flow before)).2 = .stop) :
    Exists fun label => visit = .enter label ∧ skips label = false ∧
      doubled maxLength < utf8Size (flow (before ++ [.enter label])).buf := by
  cases visit with
  | leave label => cases stops
  | enter label =>
      have entered : (walker maxLength (.enter label) (flow before)).1 = flow (before ++ [.enter label]) := by
        rw [flow_snoc, walker_fst]
      refine ⟨label, rfl, ?_⟩
      have skip := @walker_skips maxLength label (flow before)
      rw [stops] at skip
      refine ⟨Bool.eq_false_iff.mpr fun isSkipped => (by cases skip.mpr isSkipped), ?_⟩
      rw [← entered]
      rw [walker] at stops ⊢
      split at stops
      next => cases stops
      next notCode =>
        rw [if_neg notCode]
        dsimp only at stops ⊢
        split at stops
        next => cases stops
        next notAutoLink =>
          rw [if_neg notAutoLink]
          split at stops
          next long =>
            rw [if_pos long]
            exact long
          next => cases stops

theorem length_le_utf8Size (text : List Char) : text.length ≤ utf8Size text := by
  induction text with
  | nil => exact Nat.le_refl 0
  | cons c text ih =>
      have positive := c.utf8Size_pos
      rw [utf8Size, List.map_cons, List.sum_cons, List.length_cons]
      rw [utf8Size] at ih
      omega

theorem utf8Size_le {first second : List Char} (begins : first <+: second) : utf8Size first ≤ utf8Size second := by
  rcases begins with ⟨more, rfl⟩
  rw [utf8Size, utf8Size, List.map_append, List.sum_append]
  exact Nat.le_add_right _ _

/-- A text that is short in bytes is short in characters. -/
theorem cut_eq (text : List Char) :
    (if maxLength < utf8Size text then truncateAtWord text maxLength else text) = truncateAtWord text maxLength := by
  split
  next => rfl
  next short =>
    have few := length_le_utf8Size text
    rw [truncateAtWord, if_pos (by omega)]

/-- The text at the end of the walk. -/
theorem generateSnippet_eq (tree : Rose Label) (maxLength : Nat) :
    Exists fun reached => Exists fun rest => tree.visits skips = reached ++ rest ∧
      generateSnippet tree maxLength = trimSpace (truncateAtWord (flow reached).buf maxLength) ∧
      (rest = [] ∨ Exists fun before => Exists fun label => reached = before ++ [.enter label] ∧
        skips label = false ∧ doubled maxLength < utf8Size (flow reached).buf) := by
  rcases @follow_reaches Label State (walker maxLength) (tree.visits skips) {} with ⟨reached, rest, whole, state, ends⟩
  refine ⟨reached, rest, whole, ?_, ends.imp id ?_⟩
  · rw [generateSnippet, walk_eq_follow walker_skips, state, afterAll_eq_flow, cut_eq]
  · rintro ⟨before, visit, rfl, stops⟩
    rw [afterAll_eq_flow] at stops
    rcases walker_stops stops with ⟨label, rfl, notSkipped, long⟩
    exact ⟨before, label, rfl, notSkipped, long⟩

/-- The letters of a tree are those of the visits up to a place and those
behind it. -/
theorem letters_visible {first second : List (Visit Label)} (whole : tree.visits skips = first ++ second) :
    letters false (visible tree) = letters false (first.flatMap marks) ++
      letters (apartAfter false (first.flatMap marks)) (second.flatMap marks) := by
  rw [visible, whole, List.flatMap_append, letters_append]

/-- A short text is shown whole. -/
theorem faithful_short {reached rest : List (Visit Label)} (whole : tree.visits skips = reached ++ rest)
    (clear : Clear reached) (silent : Silent rest) (short : (flow reached).buf.length ≤ maxLength) :
    Faithful tree maxLength (trimSpace (truncateAtWord (flow reached).buf maxLength)) := by
  refine ⟨(flow reached).buf, letters false (reached.flatMap marks), [], ?_, sameLetters_of_clear clear, short, ?_⟩
  · rw [letters_visible whole, letters_eq_nil_iff.mp silent]
  · rw [truncateAtWord, if_pos short, if_pos rfl]

theorem forall₂_append_left {α β : Type} {related : α -> β -> Prop} {first second : List α} {list : List β}
    (all : List.Forall₂ related (first ++ second) list) :
    Exists fun front => Exists fun behind => list = front ++ behind ∧
      List.Forall₂ related first front ∧ List.Forall₂ related second behind := by
  have front := List.forall₂_take first.length all
  have behind := List.forall₂_drop first.length all
  rw [List.take_left' rfl] at front
  rw [List.drop_left' rfl] at behind
  exact ⟨_, _, (List.take_append_drop first.length list).symm, front, behind⟩

/-- A long text is cut. -/
theorem faithful_long (whole : tree.visits skips = read ++ after) (clear : Clear read)
    (overflows : Overflows maxLength (flow read).buf ∨ ¬ Silent after) :
    Faithful tree maxLength (trimSpace (keptWords maxLength (flow read).buf ++ " ...".toList)) := by
  have all := sameLetters_of_clear clear
  have parts : Exists fun back => (flow read).buf = keptWords maxLength (flow read).buf ++ back ∧
      (Overflows maxLength (flow read).buf -> ∀ apart, letters apart (shown back) ≠ []) := by
    by_cases cut : Overflows maxLength (flow read).buf
    · rcases letters_cut cut with ⟨back, split, some_⟩
      exact ⟨back, split, fun _ => some_⟩
    · rcases keptWords_prefix.trans (List.take_prefix maxLength (flow read).buf) with ⟨back, split⟩
      exact ⟨back, split.symm, fun isCut => absurd isCut cut⟩
  rcases parts with ⟨back, split, some_⟩
  have letters_ := letters_shown_append true (keptWords maxLength (flow read).buf) back
  rw [← split] at letters_
  rw [letters_] at all
  rcases forall₂_append_left all with ⟨front, behind, there, sameFront, sameBehind⟩
  refine ⟨keptWords maxLength (flow read).buf, front,
    behind ++ letters (apartAfter false (read.flatMap marks)) (after.flatMap marks), ?_, sameFront, ?_, ?_⟩
  · rw [letters_visible whole, there, List.append_assoc]
  · exact Nat.le_trans keptWords_prefix.length_le (List.length_take_le _ _)
  · rw [if_neg]
    intro nothing
    rcases List.append_eq_nil_iff.mp nothing with ⟨noneBehind, noneAfter⟩
    rcases overflows with cut | notSilent
    · rw [noneBehind, List.forall₂_nil_right_iff] at sameBehind
      exact some_ cut _ sameBehind
    · exact notSilent (letters_eq_nil_iff.mp noneAfter)

/-- The snippet of a regular walk is faithful. -/
theorem generateSnippet_faithful (regular : Regular tree maxLength read after) :
    Faithful tree maxLength (generateSnippet tree maxLength) := by
  rcases generateSnippet_eq tree maxLength with ⟨reached, rest, whole, same, ends⟩
  rw [same]
  have comparable : reached <+: read ∨ read <+: reached :=
    List.prefix_or_prefix_of_prefix (⟨rest, whole.symm⟩ : reached <+: tree.visits skips)
      ⟨after, regular.whole.symm⟩
  have extends_ : ∀ {first second : List (Visit Label)}, first <+: second ->
      (flow first).buf <+: (flow second).buf := by
    rintro first second ⟨more, rfl⟩
    exact flow_prefix first more
  -- what was read is enough, so the walk that goes on behind it has it all
  have ofAll : after = [] -> reached <+: read := by
    intro isAll
    have all := regular.whole
    rw [isAll, List.append_nil] at all
    exact ⟨rest, whole.symm.trans all⟩
  by_cases short : (flow reached).buf.length ≤ maxLength
  · have inside : reached <+: read := by
      rcases regular.enough with isAll | long
      · exact ofAll isAll
      · rcases comparable with inside | outside
        · exact inside
        · have lengths := (extends_ outside).length_le
          omega
    rcases inside with ⟨more, rfl⟩
    refine faithful_short whole regular.clear.of_append ?_ short
    rcases ends with rfl | ⟨before, label, rfl, notSkipped, long⟩
    · rfl
    · refine regular.early before label rest ?_ notSkipped long short
      rw [whole, List.append_assoc]
      rfl
  · have sameTake : (flow reached).buf.take maxLength = (flow read).buf.take maxLength ∧
        maxLength < (flow read).buf.length := by
      have takes : ∀ {first second : List Char}, first <+: second -> maxLength < first.length ->
          first.take maxLength = second.take maxLength := by
        rintro first second ⟨more, rfl⟩ long
        rw [List.take_append_of_le_length (Nat.le_of_lt long)]
      have isLong : maxLength < (flow reached).buf.length := Nat.not_le.mp short
      rcases comparable with inside | outside
      · have extended := extends_ inside
        exact ⟨takes extended isLong, Nat.lt_of_lt_of_le isLong extended.length_le⟩
      · rcases regular.enough with isAll | long
        · have extended := extends_ (ofAll isAll)
          exact ⟨takes extended isLong, Nat.lt_of_lt_of_le isLong extended.length_le⟩
        · exact ⟨(takes (extends_ outside) long).symm, long⟩
    rw [truncateAtWord, if_neg short, keptWords_congr sameTake.1]
    exact faithful_long regular.whole regular.clear (regular.long sameTake.2)

end Result

/-! ## A list behind a paragraph -/

section Lists

theorem letters_trimSpace (text : List Char) : letters true (shown (trimSpace text)) = letters true (shown text) := by
  have leading : ∀ rest : List Char,
      letters true (shown (rest.dropWhile isSpace)) = letters true (shown rest) := by
    intro rest
    induction rest with
    | nil => rfl
    | cons c rest ih =>
        by_cases space : isSpace c = true
        · rw [List.dropWhile_cons_of_pos space, ih, shown, shown, List.map_cons, if_pos space, letters]
        · rw [List.dropWhile_cons_of_neg space]
  have split : text.dropWhile isSpace =
      trimSpace text ++ ((text.dropWhile isSpace).reverse.takeWhile isSpace).reverse := by
    rw [trimSpace, ← List.reverse_append, List.takeWhile_append_dropWhile, List.reverse_reverse]
  have blank : ∀ c, c ∈ ((text.dropWhile isSpace).reverse.takeWhile isSpace).reverse -> isSpace c = true := by
    intro c member
    exact List.mem_takeWhile_imp (List.mem_reverse.mp member)
  rw [← leading text, split, letters_shown_append, letters_shown_of_blank blank, List.append_nil]

/-- A faithful snippet that does not end like an ellipsis shows everything. -/
theorem Faithful.whole {tree : Rose Label} {maxLength : Nat} {snippet : List Char}
    (faithful : Faithful tree maxLength snippet)
    (noEllipsis : ((letters true (shown snippet)).getLast?.map Prod.snd) ≠ some '.') :
    List.Forall₂ SameLetter (letters true (shown snippet)) (letters false (visible tree)) := by
  rcases faithful with ⟨body, kept, rest, split, same, _, rfl⟩
  rw [letters_trimSpace] at noEllipsis ⊢
  by_cases all : rest = []
  · rw [if_pos all, split, all, List.append_nil]
    exact same
  · refine absurd ?_ noEllipsis
    rw [if_neg all, letters_shown_append]
    have dots : ∀ apart, letters apart (shown " ...".toList) = [(true, '.'), (false, '.'), (false, '.')] := by
      intro apart
      rfl
    rw [dots, List.getLast?_append]
    rfl

def plainText (segment : String) (softLineBreak : Bool) : Rose Label :=
  .node (.text segment.toList softLineBreak false) []

/-- A heading and a paragraph of two lines. -/
def headed : Rose Label :=
  .node .document
    [.node .heading [plainText "Hello" false],
      .node .paragraph [plainText "big" true, plainText "world" false]]

theorem generateSnippet_faithful_headed : Faithful headed 8 (generateSnippet headed 8) := by
  have text : (flow (headed.visits skips)).buf = "Hello big world".toList := by decide +kernel
  have clear : Clear (headed.visits skips) := clear_of_index (by decide +kernel)
  refine @generateSnippet_faithful headed 8 (headed.visits skips) [] ⟨(List.append_nil _).symm, clear, Or.inl rfl, ?_, ?_⟩
  · intro before label later whole _ long _
    have within : utf8Size (flow (before ++ [.enter label])).buf ≤ utf8Size (flow (headed.visits skips)).buf := by
      refine utf8Size_le ?_
      have split : headed.visits skips = before ++ [.enter label] ++ later := by
        rw [whole, List.append_assoc]
        rfl
      rw [split]
      exact flow_prefix _ _
    have bytes : utf8Size "Hello big world".toList = 15 := by decide +kernel
    have limit : doubled 8 = 16 := by decide +kernel
    rw [text, bytes] at within
    rw [limit] at long
    omega
  · intro _
    rw [text]
    exact Or.inl (Or.inl ⟨'w', by decide, by decide⟩)

/-- A paragraph before a list of one item. -/
def glued : Rose Label :=
  .node .document
    [.node .paragraph [plainText "Hello" false],
      .node .list [.node .listItem [.node .textBlock [plainText "x" false]]]]

theorem glued_unfaithful : ¬ Faithful glued 100 (generateSnippet glued 100) := by
  have snippet : generateSnippet glued 100 = "Hellox".toList := by decide +kernel
  rw [snippet]
  intro faithful
  have same := faithful.whole (by decide)
  have there : letters false (visible glued) =
      [(true, 'H'), (false, 'e'), (false, 'l'), (false, 'l'), (false, 'o'), (true, 'x')] := by decide +kernel
  have here : letters true (shown "Hellox".toList) =
      [(true, 'H'), (false, 'e'), (false, 'l'), (false, 'l'), (false, 'o'), (false, 'x')] := by decide +kernel
  rw [there, here] at same
  simp [SameLetter] at same

end Lists

end Snippet
end Markdown
end Memos
