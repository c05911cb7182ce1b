import Mathlib.Data.List.DropRight
import Mathlib.Data.List.Infix
import Mathlib.Data.List.TakeWhile

namespace Memos
namespace Library
namespace FilePath

/-!
# Slash-separated paths

Lexical operations on paths as texts: cleaning, joining, the extension, the
directory and the way from one path to another.  An absolute path has a place
below the root, the list of names that is left once `.` and `..` are worked
off.  Cleaning keeps the place, and whether one clean path starts with another
is whether one place lies below the other.
-/

abbrev Text := List Char

def dot : Text := ['.']
def dotdot : Text := ['.', '.']

/-- A name that may stand in a place: not empty, without slash, not `.` or `..`. -/
def Proper (name : Text) : Prop := name ≠ [] ∧ '/' ∉ name ∧ name ≠ dot ∧ name ≠ dotdot

instance (name : Text) : Decidable (Proper name) := inferInstanceAs (Decidable (_ ∧ _))

def isAbs (path : Text) : Bool := path.head? = some '/'

/-- What stands between the slashes. -/
def components (path : Text) : List Text := path.splitOn '/'

/-- Work off one component after the names that are left so far. -/
def push (rooted : Bool) (names : List Text) (component : Text) : List Text :=
  if component = [] ∨ component = dot then names
  else if component = dotdot then
    if rooted then names.dropLast
    else if names.getLast? = none ∨ names.getLast? = some dotdot then names ++ [dotdot]
    else names.dropLast
  else names ++ [component]

def render (rooted : Bool) (names : List Text) : Text :=
  if rooted then '/' :: ['/'].intercalate names
  else if names = [] then dot
  else ['/'].intercalate names

/-- The shortest path with the same meaning. -/
def clean (path : Text) : Text :=
  render (isAbs path) ((components path).foldl (push (isAbs path)) [])

/-- The elements that are not empty, joined and cleaned. -/
def join (elements : List Text) : Text :=
  let present := elements.filter (· ≠ [])
  if present = [] then [] else clean (['/'].intercalate present)

/-- The part up to the last slash, cleaned. -/
def dir (path : Text) : Text := clean (path.rdropWhile (· ≠ '/'))

/-- The last dot of the last component and what follows it. -/
def ext (path : Text) : Text :=
  let plain : Char -> Bool := fun letter => letter ≠ '/' ∧ letter ≠ '.'
  if (path.rdropWhile plain).getLast? = some '.' then '.' :: path.rtakeWhile plain else []

def trimSuffix (text suffix : Text) : Text :=
  if suffix.isSuffixOf text then text.take (text.length - suffix.length) else text

/-- What is left of two lists after the part they share. -/
def divergence : List Text -> List Text -> List Text × List Text
  | first :: firsts, second :: seconds =>
      if first = second then divergence firsts seconds
      else (first :: firsts, second :: seconds)
  | firsts, seconds => (firsts, seconds)

/-- The way from one path to another, if it can be told from the texts. -/
def rel (base target : Text) : Option Text :=
  if clean target = clean base then some dot
  else if isAbs base ≠ isAbs target then none
  else
    let parts := fun path => (components path).foldl (push (isAbs path)) []
    let (up, down) := divergence (parts base) (parts target)
    if up.head? = some dotdot then none
    else some (['/'].intercalate (up.map (fun _ => dotdot) ++ down))

/-! ## The place of an absolute path -/

/-- The names below the root that an absolute path leads to. -/
def place (path : Text) : List Text := (components path).foldl (push true) []

variable {names : List Text} {component : Text} {path : Text}

theorem push_stay {rooted : Bool} (stay : component = [] ∨ component = dot) :
    push rooted names component = names := if_pos stay

theorem push_up : push true names dotdot = names.dropLast := by
  rw [push, if_neg (by decide), if_pos rfl, if_pos rfl]

theorem push_down {rooted : Bool} (nonempty : component ≠ []) (notDot : component ≠ dot)
    (notDotdot : component ≠ dotdot) :
    push rooted names component = names ++ [component] := by
  rw [push, if_neg (not_or.mpr ⟨nonempty, notDot⟩), if_neg notDotdot]

theorem Proper.push {rooted : Bool} (proper : Proper component) : push rooted names component = names ++ [component] :=
  push_down proper.1 proper.2.2.1 proper.2.2.2

theorem foldl_push_of_proper (names : List Text) {components : List Text}
    (proper : ∀ name, name ∈ components -> Proper name) :
    components.foldl (push true) names = names ++ components := by
  induction components generalizing names with
  | nil => exact (List.append_nil names).symm
  | cons component rest ih =>
      rw [List.foldl_cons, (proper component List.mem_cons_self).push,
        ih _ fun name member => proper name (List.mem_cons_of_mem _ member),
        List.append_assoc, List.singleton_append]

theorem not_slash_of_mem_components {path component : Text}
    (member : component ∈ components path) : '/' ∉ component := by
  induction path generalizing component with
  | nil =>
      rw [components, List.splitOn_nil, List.mem_singleton] at member
      rw [member]
      exact List.not_mem_nil
  | cons letter rest ih =>
      rw [components, List.splitOn_cons_eq_if_modifyHead] at member
      by_cases slash : (letter == '/') = true
      · rw [if_pos slash] at member
        rcases List.mem_cons.mp member with empty | later
        · rw [empty]
          exact List.not_mem_nil
        · exact ih later
      · rw [if_neg slash] at member
        rcases shape : List.splitOn '/' rest with _ | ⟨head, tail⟩
        · exact absurd shape (List.splitOn_ne_nil '/' rest)
        · rw [shape, List.modifyHead_cons] at member
          rcases List.mem_cons.mp member with here | later
          · rw [here]
            intro inside
            rcases List.mem_cons.mp inside with same | inside
            · exact slash (beq_iff_eq.mpr same.symm)
            · have first : head ∈ components rest := by
                rw [components, shape]
                exact List.mem_cons_self
              exact ih first inside
          · have other : component ∈ components rest := by
              rw [components, shape]
              exact List.mem_cons_of_mem _ later
            exact ih other

theorem push_proper (slashless : '/' ∉ component) (proper : ∀ name, name ∈ names -> Proper name) :
    ∀ name, name ∈ push true names component -> Proper name := by
  intro name member
  by_cases stay : component = [] ∨ component = dot
  · rw [push_stay stay] at member
    exact proper name member
  · rcases not_or.mp stay with ⟨nonempty, notDot⟩
    by_cases up : component = dotdot
    · rw [up, push_up] at member
      exact proper name (List.mem_of_mem_dropLast member)
    · rw [push_down nonempty notDot up] at member
      rcases List.mem_append.mp member with before | here
      · exact proper name before
      · rw [List.mem_singleton.mp here]
        exact ⟨nonempty, slashless, notDot, up⟩

theorem foldl_push_proper {components names : List Text}
    (slashless : ∀ component, component ∈ components -> '/' ∉ component)
    (proper : ∀ name, name ∈ names -> Proper name) :
    ∀ name, name ∈ components.foldl (push true) names -> Proper name := by
  induction components generalizing names with
  | nil => exact proper
  | cons component rest ih =>
      exact ih
        (fun later member => slashless later (List.mem_cons_of_mem _ member))
        (push_proper (slashless component List.mem_cons_self) proper)

theorem place_proper {path name : Text} (member : name ∈ place path) : Proper name :=
  foldl_push_proper (fun _ => not_slash_of_mem_components) (fun _ none => absurd none List.not_mem_nil)
    name member

/-- The absolute path of a place. -/
def absolute (names : List Text) : Text := '/' :: ['/'].intercalate names

theorem isAbs_absolute (names : List Text) : isAbs (absolute names) = true := rfl

theorem components_absolute (proper : ∀ name, name ∈ names -> Proper name) :
    components (absolute names) = [] :: if names = [] then [[]] else names := by
  rw [components, absolute, List.splitOn_cons_eq_if_modifyHead, if_pos (beq_self_eq_true '/')]
  by_cases empty : names = []
  · rw [if_pos empty, empty]
    rfl
  · rw [if_neg empty, List.splitOn_intercalate '/' (fun name member => (proper name member).2.1) empty]

theorem place_absolute (proper : ∀ name, name ∈ names -> Proper name) :
    place (absolute names) = names := by
  rw [place, components_absolute proper, List.foldl_cons, push_stay (Or.inl rfl)]
  by_cases empty : names = []
  · rw [if_pos empty, empty]
    rfl
  · rw [if_neg empty, foldl_push_of_proper [] proper, List.nil_append]

theorem clean_of_isAbs (rooted : isAbs path = true) :
    clean path = absolute (place path) := by
  rw [clean, rooted, render, if_pos rfl, absolute, place]

/-- Cleaning an absolute path does not change where it leads. -/
theorem place_clean (rooted : isAbs path = true) : place (clean path) = place path := by
  rw [clean_of_isAbs rooted, place_absolute fun _ => place_proper]

theorem isAbs_clean (rooted : isAbs path = true) : isAbs (clean path) = true := by
  rw [clean_of_isAbs rooted, isAbs_absolute]

theorem intercalate_append {first second : List Text} (left : first ≠ []) (right : second ≠ []) :
    ['/'].intercalate (first ++ second) =
      ['/'].intercalate first ++ '/' :: ['/'].intercalate second := by
  induction first with
  | nil => exact absurd rfl left
  | cons name rest ih =>
      by_cases last : rest = []
      · rw [last, List.singleton_append, List.intercalate_cons_of_ne_nil right,
          List.intercalate_singleton, List.append_assoc, List.singleton_append]
      · rw [List.cons_append, List.intercalate_cons_of_ne_nil (List.append_ne_nil_of_left_ne_nil last _),
          List.intercalate_cons_of_ne_nil last, ih last]
        simp only [List.append_assoc]

/-- One clean path goes on after another exactly if its place lies below. -/
theorem absolute_prefix_iff {base names : List Text} (baseProper : ∀ name, name ∈ base -> Proper name)
    (proper : ∀ name, name ∈ names -> Proper name) :
    absolute base ++ ['/'] <+: absolute names ↔ base ≠ [] ∧ base <+: names ∧ names ≠ base := by
  constructor
  · rintro ⟨rest, same⟩
    have split : components (absolute names) = components (absolute base) ++ components rest := by
      rw [← same, List.append_assoc, List.singleton_append]
      exact List.splitOn_append_cons_self _ _
    rw [components_absolute proper, components_absolute baseProper, List.cons_append,
      List.cons.injEq] at split
    have later : components rest ≠ [] := List.splitOn_ne_nil '/' rest
    by_cases rooted : base = []
    · rw [if_pos rooted, List.singleton_append] at split
      by_cases empty : names = []
      · rw [if_pos empty] at split
        exact absurd (List.cons.inj split.2).2.symm later
      · rw [if_neg empty] at split
        exact absurd rfl (proper [] (by rw [split.2]; exact List.mem_cons_self)).1
    · rw [if_neg rooted] at split
      by_cases empty : names = []
      · rw [if_pos empty] at split
        rcases List.append_eq_singleton_iff.mp split.2.symm with ⟨none, _⟩ | ⟨_, none⟩
        · exact absurd none rooted
        · exact absurd none later
      · rw [if_neg empty] at split
        refine ⟨rooted, ⟨components rest, split.2.symm⟩, fun equal => later ?_⟩
        exact List.append_right_eq_self.mp (split.2.symm.trans equal)
  · rintro ⟨rooted, ⟨rest, rfl⟩, different⟩
    have later : rest ≠ [] := fun none => different (by rw [none, List.append_nil])
    refine ⟨['/'].intercalate rest, ?_⟩
    rw [absolute, absolute, intercalate_append rooted later]
    simp only [List.cons_append, List.append_assoc, List.nil_append]

/-! ## Joining below a directory -/

theorem place_append (path more : Text) :
    place (path ++ '/' :: more) = (components more).foldl (push true) (place path) := by
  rw [place, place, components, List.splitOn_append_cons_self, List.foldl_append]
  rfl

theorem join_pair {base path : Text} (nonempty : base ≠ []) :
    join [base, path] = if path = [] then clean base else clean (base ++ '/' :: path) := by
  by_cases empty : path = []
  · simp [join, nonempty, empty]
  · simp [join, nonempty, empty, List.intercalate_cons_of_ne_nil]

theorem isAbs_append (rooted : isAbs path = true) (more : Text) :
    isAbs (path ++ more) = true := by
  cases path with
  | nil => exact absurd rooted (by decide)
  | cons letter rest => exact rooted

theorem ne_nil_of_isAbs (rooted : isAbs path = true) : path ≠ [] := by
  intro empty
  rw [empty] at rooted
  exact absurd rooted (by decide)

theorem isAbs_join {base : Text} (rooted : isAbs base = true) (path : Text) :
    isAbs (join [base, path]) = true := by
  rw [join_pair (ne_nil_of_isAbs rooted)]
  split
  · exact isAbs_clean rooted
  · exact isAbs_clean (isAbs_append rooted _)

theorem place_join {base : Text} (rooted : isAbs base = true) (path : Text) :
    place (join [base, path]) = (components path).foldl (push true) (place base) := by
  rw [join_pair (ne_nil_of_isAbs rooted)]
  split
  next empty =>
    rw [empty, place_clean rooted]
    rfl
  next => rw [place_clean (isAbs_append rooted _), place_append]

/-! ## Directory and extension -/

theorem slash_mem_of_isAbs (rooted : isAbs path = true) : '/' ∈ path := by
  have first : path.head? = some '/' := of_decide_eq_true rooted
  exact List.mem_of_mem_head? first

/-- The part before the last slash and the component after it. -/
theorem split_last (rooted : isAbs path = true) :
    Exists fun parent : Text => Exists fun name : Text =>
      path = parent ++ '/' :: name ∧ '/' ∉ name ∧ path.rdropWhile (· ≠ '/') = parent ++ ['/'] := by
  have nonempty : path.rdropWhile (· ≠ '/') ≠ [] := by
    intro empty
    have slashless := List.rdropWhile_eq_nil_iff.mp empty '/' (slash_mem_of_isAbs rooted)
    simp at slashless
  have lastSlash : (path.rdropWhile (· ≠ '/')).getLast nonempty = '/' := by
    have stopped := List.rdropWhile_last_not _ path nonempty
    simpa using stopped
  have kept := List.dropLast_append_getLast nonempty
  rw [lastSlash] at kept
  refine ⟨_, path.rtakeWhile (· ≠ '/'), ?_, ?_, kept.symm⟩
  · rw [← List.singleton_append, ← List.append_assoc, kept, List.rdropWhile_append_rtakeWhile]
  · intro member
    have other := List.mem_rtakeWhile_imp member
    simp at other

theorem isAbs_parent {parent name : Text} (rooted : isAbs (parent ++ '/' :: name) = true) :
    isAbs (parent ++ ['/']) = true := by
  cases parent with
  | nil => rfl
  | cons letter rest => exact rooted

theorem place_dir {path parent name : Text} (rooted : isAbs path = true)
    (whole : path = parent ++ '/' :: name) (kept : path.rdropWhile (· ≠ '/') = parent ++ ['/']) :
    place (dir path) = place parent := by
  rw [dir, kept, place_clean (isAbs_parent (whole ▸ rooted)), place_append]
  rfl

theorem place_child {parent name : Text} (slashless : '/' ∉ name) :
    place (parent ++ '/' :: name) = push true (place parent) name := by
  rw [place_append, components, List.splitOn_eq_singleton slashless]
  rfl

theorem not_slash_mem_ext (path : Text) : '/' ∉ ext path := by
  simp only [ext]
  split
  · intro member
    rcases List.mem_cons.mp member with same | member
    · exact absurd same (by decide)
    · have other := List.mem_rtakeWhile_imp member
      simp at other
  · exact List.not_mem_nil

theorem isAbs_trimSuffix {path suffix : Text} (rooted : isAbs path = true)
    (slashless : '/' ∉ suffix) : isAbs (trimSuffix path suffix) = true := by
  rw [trimSuffix]
  split
  next isSuffix =>
    rcases List.isSuffixOf_iff_suffix.mp isSuffix with ⟨front, rfl⟩
    rw [List.length_append, Nat.add_sub_cancel, List.take_left]
    cases front with
    | nil =>
        cases suffix with
        | nil => exact absurd rooted (by decide)
        | cons letter rest =>
            have same : letter = '/' := by simpa [isAbs] using rooted
            exact absurd (same ▸ List.mem_cons_self) slashless
    | cons letter rest => exact rooted
  next => exact rooted

end FilePath
end Library
end Memos
