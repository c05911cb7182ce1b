import Mathlib

namespace Memos
namespace Library
namespace UrlResolution

/-!
# Resolving a reference that begins with a slash

The URL parser, for an input that begins with a slash and a base of a special
scheme other than `file`: what it strips, when it reads an authority instead of
a path, and how it works off dot segments.  The parser of authorities is a
parameter.

The segments of a path are worked off on a stack.  Which segment ends up at its
bottom is a matter of counting: those before it cancel out, and those after it
never go up further than they have gone down.
-/

abbrev Text := List Char

/-! ## Characters -/

def isC0ControlOrSpace (c : Char) : Bool := c.toNat ≤ 0x20

def isTabOrNewline (c : Char) : Bool := c ∈ ['\t', '\n', '\r']

/-- What the parser removes before it starts. -/
def strip (input : Text) : Text :=
  (((input.dropWhile isC0ControlOrSpace).reverse.dropWhile isC0ControlOrSpace).reverse).filter
    fun c => !isTabOrNewline c

def isSlash (c : Char) : Bool := c = '/' || c = '\\'

/-- A character that begins a query or a fragment. -/
def endsPath (c : Char) : Bool := c = '?' || c = '#'

/-- The path percent-encode set. -/
def inPathSet (c : Char) : Bool :=
  c.toNat ≤ 0x20 || 0x7E < c.toNat || c ∈ ['"', '#', '<', '>', '?', '^', '\x60', '\x7b', '\x7d']

def upperHexDigit (value : Nat) : Char :=
  if value < 10 then Char.ofNat (48 + value) else Char.ofNat (55 + value)

/-- UTF-8 percent-encode a code point. -/
def encode (c : Char) : Text :=
  if inPathSet c then
    (String.utf8EncodeChar c).flatMap fun byte =>
      ['%', upperHexDigit (byte.toNat / 16), upperHexDigit (byte.toNat % 16)]
  else [c]

def lowerText (text : Text) : Text := text.map Char.toLower

def isSingleDot (segment : Text) : Bool := lowerText segment ∈ [".".toList, "%2e".toList]

def isDoubleDot (segment : Text) : Bool :=
  lowerText segment ∈ ["..".toList, ".%2e".toList, "%2e.".toList, "%2e%2e".toList]

/-! ## Paths -/

/-- A segment that a slash ends. -/
def closeSegment (path : List Text) (segment : Text) : List Text :=
  if isDoubleDot segment then path.dropLast
  else if isSingleDot segment then path
  else path ++ [segment]

/-- A segment that ends the path. -/
def finishPath (path : List Text) (segment : Text) : List Text :=
  if isDoubleDot segment then path.dropLast ++ [[]]
  else if isSingleDot segment then path ++ [[]]
  else path ++ [segment]

/-- The path state, with the path and the buffer so far. -/
def pathState (path : List Text) (buffer : Text) : Text -> List Text
  | [] => finishPath path buffer
  | c :: rest =>
      if isSlash c then pathState (closeSegment path buffer) [] rest
      else if endsPath c then finishPath path buffer
      else pathState path (buffer ++ encode c) rest

/-! ## Resolution -/

structure Url (Origin : Type) where
  origin : Origin
  path : List Text
deriving DecidableEq

variable {Origin : Type}

/-- The path start state behind an authority. -/
def pathStart (text : Text) : List Text :=
  match text with
  | [] => pathState [] [] []
  | c :: rest => if isSlash c then pathState [] [] rest else pathState [] [] text

/-- The text after two slashes, in the special authority states. -/
def authorityText (text : Text) : Text :=
  (text.dropWhile isSlash).takeWhile fun c => !isSlash c && !endsPath c

def afterAuthority (text : Text) : Text :=
  (text.dropWhile isSlash).dropWhile fun c => !isSlash c && !endsPath c

/-- Resolve an input that begins with a slash against a base of this origin. -/
def resolve (authority : Text -> Option Origin) (own : Origin) (input : Text) : Option (Url Origin) :=
  match strip input with
  | [] => none
  | _ :: rest =>
      if rest.head?.any isSlash then
        if authorityText rest = [] then none
        else (authority (authorityText rest)).map fun origin =>
          { origin, path := pathStart (afterAuthority rest) }
      else some { origin := own, path := pathState [] [] rest }

/-! ## Segments -/

/-- The segments of a path, percent-encoded. -/
def segments (text : Text) : List Text :=
  ((text.takeWhile fun c => !endsPath c).splitOnP isSlash).map fun part => part.flatMap encode

/-- How much deeper a segment leads. -/
def weight (segment : Text) : Int :=
  if isDoubleDot segment then -1 else if isSingleDot segment then 0 else 1

/-- These segments cancel out. -/
def CancelOut (segments : List Text) : Prop :=
  ∀ suffix, suffix <:+ segments -> (suffix.map weight).sum ≤ 0

/-- These segments never lead above where they start. -/
def StayBelow (segments : List Text) : Prop :=
  ∀ start, start <+: segments -> 0 ≤ (start.map weight).sum

/-- The segment is the first one of the path that is left. -/
def LeadsTo (name : Text) (segments : List Text) : Prop :=
  Exists fun before => Exists fun after =>
    segments = before ++ name :: after ∧ CancelOut before ∧ StayBelow after

/-- The path that is left when every segment has been closed. -/
def closeAll (segments : List Text) : List Text := segments.foldl closeSegment []

theorem closeAll_append_one (segments : List Text) (segment : Text) :
    closeAll (segments ++ [segment]) = closeSegment (closeAll segments) segment := by
  rw [closeAll, List.foldl_append]
  rfl

theorem length_closeSegment (path : List Text) (segment : Text) :
    ((closeSegment path segment).length : Int) = max 0 (path.length + weight segment) := by
  unfold closeSegment weight
  split
  · rw [List.length_dropLast]
    omega
  · split
    · omega
    · rw [List.length_append, List.length_singleton]
      omega

theorem sum_weight_append_one (segments : List Text) (segment : Text) :
    ((segments ++ [segment]).map weight).sum = (segments.map weight).sum + weight segment := by
  rw [List.map_append, List.sum_append, List.map_singleton, List.sum_singleton]

/-- The depth of the path is the largest weight of a suffix. -/
theorem length_closeAll (segments : List Text) :
    (∀ suffix, suffix <:+ segments -> (suffix.map weight).sum ≤ (closeAll segments).length) ∧
      Exists fun suffix => suffix <:+ segments ∧
        (suffix.map weight).sum = (closeAll segments).length := by
  induction segments using List.reverseRecOn with
  | nil =>
      refine ⟨fun suffix isSuffix => ?_, [], List.suffix_rfl, rfl⟩
      rw [List.suffix_nil.mp isSuffix]
      exact Int.le_refl _
  | append_singleton segments segment ih =>
      rcases ih with ⟨bound, suffix, isSuffix, attained⟩
      rw [closeAll_append_one, length_closeSegment]
      refine ⟨fun longer isLonger => ?_, ?_⟩
      · rcases List.suffix_concat_iff.mp isLonger with rfl | ⟨shorter, rfl, isShorter⟩
        · exact Int.le_max_left _ _
        · have shorterBound := bound shorter isShorter
          rw [sum_weight_append_one]
          omega
      · by_cases positive : 0 ≤ ((closeAll segments).length : Int) + weight segment
        · refine ⟨suffix ++ [segment], List.suffix_concat_iff.mpr (Or.inr ⟨suffix, rfl, isSuffix⟩), ?_⟩
          rw [sum_weight_append_one, attained]
          omega
        · refine ⟨[], List.nil_suffix, ?_⟩
          rw [List.map_nil, List.sum_nil]
          omega

theorem closeAll_eq_nil_iff (segments : List Text) : closeAll segments = [] ↔ CancelOut segments := by
  rcases length_closeAll segments with ⟨bound, suffix, isSuffix, attained⟩
  constructor
  · intro empty other isOther
    have otherBound := bound other isOther
    rwa [empty] at otherBound
  · intro cancels
    have small := cancels suffix isSuffix
    rw [attained] at small
    exact List.length_eq_zero_iff.mp (by omega)

/-- Segments that stay below keep what is at the bottom. -/
theorem foldl_closeSegment_of_stayBelow {name : Text} {after : List Text} (stays : StayBelow after) :
    Exists fun more : List Text => after.foldl closeSegment [name] = name :: more ∧
      (more.length : Int) = (after.map weight).sum := by
  induction after using List.reverseRecOn with
  | nil => exact ⟨[], rfl, rfl⟩
  | append_singleton after segment ih =>
      have staysBefore : StayBelow after := fun start isStart =>
        stays start (isStart.trans (List.prefix_append after [segment]))
      rcases ih staysBefore with ⟨more, folded, depth⟩
      have total := stays (after ++ [segment]) List.prefix_rfl
      rw [sum_weight_append_one] at total
      rw [List.foldl_append, List.foldl_cons, List.foldl_nil, folded, sum_weight_append_one]
      by_cases double : isDoubleDot segment = true
      · have up : weight segment = -1 := if_pos double
        have nonempty : more ≠ [] := by
          rintro rfl
          rw [List.length_nil] at depth
          omega
        have closed : closeSegment (name :: more) segment = name :: more.dropLast := by
          rw [closeSegment, if_pos double, List.dropLast_cons_of_ne_nil nonempty]
        refine ⟨more.dropLast, closed, ?_⟩
        rw [List.length_dropLast]
        omega
      · by_cases single : isSingleDot segment = true
        · have level : weight segment = 0 := by rw [weight, if_neg double, if_pos single]
          have closed : closeSegment (name :: more) segment = name :: more := by
            rw [closeSegment, if_neg double, if_pos single]
          exact ⟨more, closed, by omega⟩
        · have down : weight segment = 1 := by rw [weight, if_neg double, if_neg single]
          have closed : closeSegment (name :: more) segment = name :: (more ++ [segment]) := by
            rw [closeSegment, if_neg double, if_neg single, List.cons_append]
          refine ⟨more ++ [segment], closed, ?_⟩
          rw [List.length_append, List.length_singleton]
          omega

/-- What is at the bottom was put there when the path was empty, and is still
there. -/
theorem leadsTo_of_closeAll {segments : List Text} {name : Text} {more : List Text}
    (closed : closeAll segments = name :: more) :
    Exists fun before => Exists fun after => segments = before ++ name :: after ∧
      CancelOut before ∧ StayBelow after ∧ (more.length : Int) = (after.map weight).sum := by
  induction segments using List.reverseRecOn generalizing more with
  | nil => contradiction
  | append_singleton segments segment ih =>
      rw [closeAll_append_one] at closed
      have extend {old : List Text} (previous : closeAll segments = name :: old)
          (depth : (more.length : Int) = old.length + weight segment) :
          Exists fun before => Exists fun after => segments ++ [segment] = before ++ name :: after ∧
            CancelOut before ∧ StayBelow after ∧ (more.length : Int) = (after.map weight).sum := by
        rcases ih previous with ⟨before, after, rfl, cancels, stays, total⟩
        refine ⟨before, after ++ [segment], by simp, cancels, ?_, ?_⟩
        · intro start isStart
          rcases List.prefix_concat_iff.mp isStart with rfl | earlier
          · rw [sum_weight_append_one]
            omega
          · exact stays start earlier
        · rw [sum_weight_append_one]
          omega
      have length_eq := congrArg List.length closed
      have depth := length_closeSegment (closeAll segments) segment
      unfold closeSegment at closed
      cases previous : closeAll segments with
      | nil =>
          rw [previous] at closed
          split at closed
          · contradiction
          · split at closed
            · contradiction
            · obtain ⟨rfl, rfl⟩ := List.cons.inj closed
              refine ⟨segments, [], rfl, (closeAll_eq_nil_iff segments).mp previous, ?_, rfl⟩
              intro start isStart
              rw [List.prefix_nil.mp isStart]
              exact Int.le_refl _
      | cons bottom old =>
          rw [previous] at closed length_eq depth
          rw [length_eq, List.length_cons, List.length_cons] at depth
          have same : bottom = name := by
            split at closed
            · cases old with
              | nil => contradiction
              | cons next old =>
                  rw [List.dropLast_cons_of_ne_nil (List.cons_ne_nil next old)] at closed
                  exact (List.cons.inj closed).1
            · split at closed
              · exact (List.cons.inj closed).1
              · exact (List.cons.inj closed).1
          subst same
          exact extend previous (by omega)

/-- A name leads the path that is left exactly when what stands before it cancels
out and what stands behind it stays below. -/
theorem head?_closeAll_iff {segments : List Text} {name : Text} (isName : weight name = 1) :
    (closeAll segments).head? = some name ↔ LeadsTo name segments := by
  constructor
  · intro first
    cases closed : closeAll segments with
    | nil =>
        rw [closed] at first
        contradiction
    | cons bottom more =>
        rw [closed] at first
        obtain rfl : bottom = name := Option.some.inj first
        rcases leadsTo_of_closeAll closed with ⟨before, after, segments_eq, cancels, stays, _⟩
        exact ⟨before, after, segments_eq, cancels, stays⟩
  · rintro ⟨before, after, rfl, cancels, stays⟩
    have opened : closeSegment [] name = [name] := by
      unfold weight at isName
      unfold closeSegment
      split at isName
      · omega
      · rename_i notDouble
        rw [if_neg notDouble]
        split at isName
        · omega
        · rename_i notSingle
          rw [if_neg notSingle]
          rfl
    have empty : before.foldl closeSegment [] = [] := (closeAll_eq_nil_iff before).mpr cancels
    rw [closeAll, List.foldl_append, empty, List.foldl_cons, opened]
    rcases foldl_closeSegment_of_stayBelow stays with ⟨more, folded, _⟩
    rw [folded]
    rfl

/-! ## The first segment of a path -/

theorem head?_finishPath_iff {path : List Text} {segment name : Text} (nonempty : name ≠ []) :
    (finishPath path segment).head? = some name ↔ (closeSegment path segment).head? = some name := by
  have appended (path : List Text) :
      (path ++ [[]]).head? = some name ↔ path.head? = some name := by
    cases path with
    | nil =>
        constructor
        · intro first
          exact absurd (Option.some.inj first).symm nonempty
        · intro impossible
          contradiction
    | cons first path => rfl
  unfold finishPath closeSegment
  split
  · exact appended _
  · split
    · exact appended _
    · exact Iff.rfl

/-- The segments of a text whose first one has been read in part. -/
def segmentsFrom (buffer text : Text) : List Text :=
  match segments text with
  | [] => [buffer]
  | segment :: more => (buffer ++ segment) :: more

theorem segments_ne_nil (text : Text) : segments text ≠ [] := by
  rw [segments, Ne, List.map_eq_nil_iff]
  exact List.splitOnP_ne_nil _ _

theorem segmentsFrom_nil (text : Text) : segmentsFrom [] text = segments text := by
  rw [segmentsFrom]
  split
  · rename_i empty
    exact absurd empty (segments_ne_nil text)
  · rename_i segment more segments_eq
    rw [segments_eq, List.nil_append]

/-- The path state closes one segment after the other. -/
theorem head?_pathState_iff {name : Text} (nonempty : name ≠ []) (path : List Text) (buffer text : Text) :
    (pathState path buffer text).head? = some name ↔
      ((segmentsFrom buffer text).foldl closeSegment path).head? = some name := by
  induction text generalizing path buffer with
  | nil =>
      rw [pathState, head?_finishPath_iff nonempty]
      simp [segmentsFrom, segments]
  | cons c rest ih =>
      rw [pathState]
      by_cases slash : isSlash c = true
      · have notEnd : endsPath c = false := by
          unfold isSlash at slash
          simp only [Bool.or_eq_true, decide_eq_true_eq] at slash
          rcases slash with rfl | rfl <;> rfl
        have split : segmentsFrom buffer (c :: rest) = buffer :: segments rest := by
          simp [segmentsFrom, segments, notEnd, slash, List.splitOnP_cons_eq_if_modifyHead]
        rw [if_pos slash, ih, split, segmentsFrom_nil, List.foldl_cons]
      · rw [if_neg slash]
        by_cases ends : endsPath c = true
        · have split : segmentsFrom buffer (c :: rest) = [buffer] := by
            simp [segmentsFrom, segments, ends]
          rw [if_pos ends, head?_finishPath_iff nonempty, split, List.foldl_cons, List.foldl_nil]
        · have split : segmentsFrom buffer (c :: rest) = segmentsFrom (buffer ++ encode c) rest := by
            rw [Bool.not_eq_true] at slash ends
            have nonemptyRest := List.splitOnP_ne_nil isSlash (rest.takeWhile fun c => !endsPath c)
            rcases List.exists_cons_of_ne_nil nonemptyRest with ⟨first, more, parts⟩
            simp [segmentsFrom, segments, slash, ends, List.splitOnP_cons_eq_if_modifyHead, parts]
          rw [if_neg ends, ih, split]

/-- A name leads the path of a text. -/
theorem head?_pathState_iff_leadsTo {name : Text} (nonempty : name ≠ []) (isName : weight name = 1)
    (text : Text) :
    (pathState [] [] text).head? = some name ↔ LeadsTo name (segments text) := by
  rw [head?_pathState_iff nonempty, segmentsFrom_nil]
  exact head?_closeAll_iff isName

/-- The path behind an authority, without its first slash. -/
def withoutSlash (text : Text) : Text :=
  match text with
  | [] => []
  | c :: rest => if isSlash c then rest else text

theorem pathStart_eq (text : Text) : pathStart text = pathState [] [] (withoutSlash text) := by
  cases text with
  | nil => rfl
  | cons c rest =>
      rw [pathStart, withoutSlash]
      split <;> rfl

/-! ## What an input resolves to -/

/-- The input behind its first slash, as the parser sees it. -/
def behindSlash (input : Text) : Text := (strip input).tail

/-- The input names no authority, or names its own. -/
def KeepsOrigin (authority : Text -> Option Origin) (own : Origin) (input : Text) : Prop :=
  (behindSlash input).head?.any isSlash = true ->
    authorityText (behindSlash input) ≠ [] ∧
      authority (authorityText (behindSlash input)) = some own

/-- The path of the input, without its first slash. -/
def pathText (input : Text) : Text :=
  if (behindSlash input).head?.any isSlash then withoutSlash (afterAuthority (behindSlash input))
  else behindSlash input

/-- The slash at the beginning is not stripped. -/
theorem strip_cons_slash (rest : Text) :
    Exists fun more => strip ('/' :: rest) = '/' :: more := by
  have trimmed : Exists fun kept =>
      (rest.reverse ++ ['/']).dropWhile isC0ControlOrSpace = kept ++ ['/'] := by
    induction rest.reverse with
    | nil => exact ⟨[], rfl⟩
    | cons c text ih =>
        by_cases control : isC0ControlOrSpace c = true
        · rw [List.cons_append, List.dropWhile_cons_of_pos control]
          exact ih
        · rw [List.cons_append, List.dropWhile_cons_of_neg control]
          exact ⟨c :: text, rfl⟩
  rcases trimmed with ⟨kept, trimmed⟩
  refine ⟨kept.reverse.filter fun c => !isTabOrNewline c, ?_⟩
  rw [strip, List.dropWhile_cons_of_neg (by decide), List.reverse_cons, trimmed,
    List.reverse_append]
  rfl

theorem resolve_cons_slash (authority : Text -> Option Origin) (own : Origin) (rest : Text) :
    resolve authority own ('/' :: rest) =
      if (behindSlash ('/' :: rest)).head?.any isSlash then
        if authorityText (behindSlash ('/' :: rest)) = [] then none
        else (authority (authorityText (behindSlash ('/' :: rest)))).map fun origin =>
          { origin, path := pathState [] [] (pathText ('/' :: rest)) }
      else some { origin := own, path := pathState [] [] (pathText ('/' :: rest)) } := by
  rcases strip_cons_slash rest with ⟨more, stripped⟩
  rw [resolve, pathText, behindSlash, stripped, List.tail_cons]
  simp only [pathStart_eq]
  split <;> rfl

/-- When an input resolves to its own origin with a path that a name does not
lead. -/
theorem resolve_apart_iff (authority : Text -> Option Origin) (own : Origin) (rest : Text)
    {name : Text} (nonempty : name ≠ []) (isName : weight name = 1) :
    (Exists fun url => resolve authority own ('/' :: rest) = some url ∧ url.origin = own ∧
        url.path.head? ≠ some name) ↔
      KeepsOrigin authority own ('/' :: rest) ∧
        ¬ LeadsTo name (segments (pathText ('/' :: rest))) := by
  rw [resolve_cons_slash, ← head?_pathState_iff_leadsTo nonempty isName, KeepsOrigin]
  generalize pathState [] [] (pathText ('/' :: rest)) = path
  generalize behindSlash ('/' :: rest) = text
  constructor
  · rintro ⟨url, resolved, sameOrigin, apart⟩
    split at resolved
    · rename_i named
      split at resolved
      · contradiction
      · rename_i nonemptyText
        rcases Option.map_eq_some_iff.mp resolved with ⟨origin, parsed, rfl⟩
        subst sameOrigin
        exact ⟨fun _ => ⟨nonemptyText, parsed⟩, apart⟩
    · rename_i unnamed
      obtain rfl := Option.some.inj resolved
      exact ⟨fun named => absurd named unnamed, apart⟩
  · rintro ⟨keeps, apart⟩
    refine ⟨{ origin := own, path }, ?_, rfl, apart⟩
    split
    · rename_i named
      rw [if_neg (keeps named).1, (keeps named).2]
      rfl
    · rfl

end UrlResolution
end Library
end Memos
