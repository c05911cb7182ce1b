import Mathlib.Tactic.Tauto
import Memos.Library.Scanning
import Memos.Library.Unicode

namespace Memos
namespace Markdown
namespace Tags

open Library

/-!
# Tags

The server finds the tags of a memo while it parses the Markdown, the web client
while it renders it.  Both scan a run of plain text for `#`.
-/

variable (unicode : Unicode)

/-- `MaxTagLength`, and `MAX_TAG_LENGTH` of the client -/
def maxTagLength : Nat := 100

/-! ## The server -/

def isValidTagRune (r : Char) : Bool :=
  unicode.isLetter r || unicode.isNumber r || unicode.isSymbol r || unicode.isMark r ||
    r == '\u200d' || r == '_' || r == '-' || r == '/' || r == '&'

/-- The loop over the runes of a tag, some of which are counted already. -/
def tagRunes : Nat -> List Char -> List Char
  | _, [] => []
  | runeCount, r :: line =>
      if !isValidTagRune unicode r then []
      else if runeCount + 1 > maxTagLength then []
      else r :: tagRunes (runeCount + 1) line

/-- `Parse` of the tag parser: the tag at the start of a line. -/
def parse (line : List Char) : Option (List Char) :=
  match line with
  | '#' :: second :: rest =>
      if second = '#' then none
      else if second = ' ' then none
      else
        let tag := tagRunes unicode 0 (second :: rest)
        if tag.isEmpty then none else some tag
  | _ => none

/-- The rest of the current line, with the line break. -/
def peekLine (text : List Char) : List Char :=
  text.takeWhile (· ≠ '\n') ++ (text.dropWhile (· ≠ '\n')).take 1

/-- The tags that the inline parser of the server finds in a run of text: at
every `#` it asks the tag parser, and goes on behind the tag or the `#`. -/
def serverTags (text : List Char) : List (List Char) :=
  scan '#' (fun _ rest => parse unicode (peekLine ('#' :: rest))) text.length none text

/-! ## The client -/

def isTagChar (c : Char) : Bool :=
  unicode.isLetter c || unicode.isNumber c || unicode.isSymbol c ||
    c == '_' || c == '-' || c == '/' || c == '&'

inductive Segment where
  | text (value : List Char)
  | tag (value : List Char)
deriving DecidableEq

/-- The loop of `parseTagsFromText`, with the character before the rest. -/
def parseTagsFrom : Nat -> Option Char -> List Char -> List Segment
  | 0, _, _ => []
  | _ + 1, _, [] => []
  | fuel + 1, prevChar, char :: rest =>
      let textSegment :=
        .text (char :: rest.takeWhile (· ≠ '#')) ::
          parseTagsFrom fuel ((rest.takeWhile (· ≠ '#')).getLast?.or (some char)) (rest.dropWhile (· ≠ '#'))
      match rest with
      | [] => textSegment
      | nextChar :: _ =>
          if char = '#' ∧ isTagChar unicode nextChar then
            if prevChar = some '#' ∨ nextChar = '#' ∨ nextChar = ' ' then
              .text [char] :: parseTagsFrom fuel (some char) rest
            else
              let tagContent := rest.takeWhile (isTagChar unicode)
              if 0 < tagContent.length ∧ tagContent.length ≤ maxTagLength then
                .tag tagContent ::
                  parseTagsFrom fuel (tagContent.getLast?.or (some char)) (rest.drop tagContent.length)
              else textSegment
          else textSegment

def parseTagsFromText (text : List Char) : List Segment :=
  parseTagsFrom unicode text.length none text

/-- The tag of a segment. -/
def Segment.tag? : Segment -> Option (List Char)
  | .text _ => none
  | .tag value => some value

/-- The text of a segment, with the `#` of a tag. -/
def Segment.restored : Segment -> List Char
  | .text value => value
  | .tag value => '#' :: value

def clientTags (text : List Char) : List (List Char) :=
  (parseTagsFromText unicode text).filterMap Segment.tag?

/-! ## What the server finds at a mark -/

variable {unicode}

theorem tagRunes_eq (runeCount : Nat) (line : List Char) :
    tagRunes unicode runeCount line =
      (line.takeWhile (isValidTagRune unicode)).take (maxTagLength - runeCount) := by
  induction line generalizing runeCount with
  | nil => simp [tagRunes]
  | cons r line ih =>
      rw [tagRunes, List.takeWhile_cons]
      cases isValidTagRune unicode r with
      | false => simp
      | true =>
          by_cases full : runeCount + 1 > maxTagLength
          · simp [full, Nat.sub_eq_zero_of_le (Nat.le_of_lt_succ full)]
          · have left : maxTagLength - runeCount = (maxTagLength - (runeCount + 1)) + 1 := by omega
            simp [full, left, ih]

theorem hash_invalid : isValidTagRune unicode '#' = false := by
  have category : unicode.category '#' = .punctuation := unicode.ascii '#' (by decide)
  simp [isValidTagRune, Unicode.isLetter, Unicode.isNumber, Unicode.isSymbol, Unicode.isMark, category]

theorem space_invalid : isValidTagRune unicode ' ' = false := by
  have category : unicode.category ' ' = .separator := unicode.ascii ' ' (by decide)
  simp [isValidTagRune, Unicode.isLetter, Unicode.isNumber, Unicode.isSymbol, Unicode.isMark, category]

theorem newline_invalid : isValidTagRune unicode '\n' = false := by
  have category : unicode.category '\n' = .other := unicode.ascii '\n' (by decide)
  simp [isValidTagRune, Unicode.isLetter, Unicode.isNumber, Unicode.isSymbol, Unicode.isMark, category]

/-- A run without line breaks does not reach behind the line. -/
theorem takeWhile_peekLine {valid : Char -> Bool} (inLine : valid '\n' = false) (text : List Char) :
    (peekLine text).takeWhile valid = text.takeWhile valid := by
  induction text with
  | nil => rfl
  | cons c rest ih =>
      by_cases newline : c = '\n'
      · subst newline
        simp [peekLine, inLine]
      · have line : peekLine (c :: rest) = c :: peekLine rest := by simp [peekLine, newline]
        rw [line, List.takeWhile_cons, List.takeWhile_cons, ih]

/-- The front of a run, unless it is empty. -/
def unlessEmpty (token : List Char) : Option (List Char) := if token.isEmpty then none else some token

/-- The runes behind a mark that a tag of the server may have. -/
def serverRun (unicode : Unicode) (rest : List Char) : List Char :=
  (rest.takeWhile (isValidTagRune unicode)).take maxTagLength

theorem parse_peekLine (rest : List Char) :
    parse unicode (peekLine ('#' :: rest)) = unlessEmpty (serverRun unicode rest) := by
  have line : peekLine ('#' :: rest) = '#' :: peekLine rest := by simp [peekLine]
  rw [line, serverRun, ← takeWhile_peekLine newline_invalid, unlessEmpty]
  cases peekLine rest with
  | nil => simp [parse]
  | cons second others =>
      rw [parse]
      split
      case isTrue hash => simp [hash, hash_invalid]
      · split
        case isTrue space => simp [space, space_invalid]
        · simp only [tagRunes_eq, Nat.sub_zero]

theorem unlessEmpty_eq_some {front token : List Char} (taken : unlessEmpty front = some token) :
    token = front := by
  rw [unlessEmpty] at taken
  split at taken
  · cases taken
  · exact (Option.some.inj taken).symm

theorem serverRun_front (rest : List Char) : serverRun unicode rest <+: rest :=
  (List.take_prefix _ _).trans (List.takeWhile_prefix _)

variable {rest : List Char} {prevChar : Option Char}

theorem valid_of_mem_serverRun {r : Char} (member : r ∈ serverRun unicode rest) :
    isValidTagRune unicode r = true :=
  List.mem_takeWhile_imp (List.mem_of_mem_take member)

theorem serverTags_eq (text : List Char) :
    serverTags unicode text = (occurrences '#' none text).filterMap fun occurrence =>
      unlessEmpty (serverRun unicode occurrence.2) := by
  simp only [serverTags, parse_peekLine]
  apply scan_eq _ (Nat.le_refl _)
  intro before rest token taken
  rw [unlessEmpty_eq_some taken]
  refine ⟨serverRun_front rest, fun marked => ?_⟩
  have valid := valid_of_mem_serverRun marked
  rw [hash_invalid] at valid
  cases valid

/-! ## What the client finds at a mark -/

theorem isValidTagRune_of_isTagChar {c : Char} (isTag : isTagChar unicode c = true) :
    isValidTagRune unicode c = true := by
  simp only [isTagChar, isValidTagRune, Bool.or_eq_true] at isTag ⊢
  tauto

theorem hash_not_tag : isTagChar unicode '#' = false := by
  cases isTag : isTagChar unicode '#' with
  | false => rfl
  | true => exact absurd (isValidTagRune_of_isTagChar isTag) (by simp [hash_invalid])

theorem space_not_tag : isTagChar unicode ' ' = false := by
  cases isTag : isTagChar unicode ' ' with
  | false => rfl
  | true => exact absurd (isValidTagRune_of_isTagChar isTag) (by simp [space_invalid])

/-- The run of the client behind a mark. -/
def clientRun (unicode : Unicode) (rest : List Char) : List Char := rest.takeWhile (isTagChar unicode)

/-- The tag that the client takes behind a mark. -/
def clientTag (unicode : Unicode) (prevChar : Option Char) (rest : List Char) : Option (List Char) :=
  if prevChar = some '#' ∨ maxTagLength < (clientRun unicode rest).length then none
  else unlessEmpty (clientRun unicode rest)

theorem hash_not_mem_clientRun (rest : List Char) : '#' ∉ clientRun unicode rest := by
  intro marked
  have isTag := List.mem_takeWhile_imp marked
  rw [hash_not_tag] at isTag
  cases isTag

theorem clientTag_fits (alone : prevChar ≠ some '#') (some_ : 0 < (clientRun unicode rest).length)
    (fits : (clientRun unicode rest).length ≤ maxTagLength) :
    clientTag unicode prevChar rest = some (clientRun unicode rest) := by
  have long : ¬ maxTagLength < (clientRun unicode rest).length := Nat.not_lt.mpr fits
  have nonempty : (clientRun unicode rest).isEmpty = false := by
    simpa [List.isEmpty_eq_false_iff] using List.ne_nil_of_length_pos some_
  simp [clientTag, alone, long, unlessEmpty, nonempty]

/-- Nothing stands in a run of the client. -/
theorem occurrences_clientRun (unicode : Unicode) (before : Option Char) (rest : List Char) :
    occurrences '#' before rest =
      occurrences '#' ((clientRun unicode rest).getLast?.or before)
        (rest.drop (clientRun unicode rest).length) := by
  have whole : clientRun unicode rest ++ rest.drop (clientRun unicode rest).length = rest :=
    List.prefix_iff_eq_append.mp (List.takeWhile_prefix _)
  rw [← occurrences_append (hash_not_mem_clientRun rest), whole]

theorem parseTagsFrom_tags {fuel : Nat} {text : List Char} (enough : text.length ≤ fuel) :
    (parseTagsFrom unicode fuel prevChar text).filterMap Segment.tag? =
      (occurrences '#' prevChar text).filterMap fun occurrence =>
        clientTag unicode occurrence.1 occurrence.2 := by
  induction fuel generalizing prevChar text with
  | zero =>
      rw [List.eq_nil_of_length_eq_zero (Nat.le_zero.mp enough)]
      rfl
  | succ fuel ih =>
      cases text with
      | nil => rfl
      | cons c rest =>
          have shorter : rest.length ≤ fuel := Nat.le_of_succ_le_succ enough
          have behind : (rest.dropWhile (· ≠ '#')).length ≤ fuel :=
            (List.length_dropWhile_le _ _).trans shorter
          -- a segment of text, where the client takes no tag
          have textSegment : (c = '#' -> clientTag unicode prevChar rest = none) ->
              (parseTagsFrom unicode fuel ((rest.takeWhile (· ≠ '#')).getLast?.or (some c))
                (rest.dropWhile (· ≠ '#'))).filterMap Segment.tag? =
              (occurrences '#' prevChar (c :: rest)).filterMap fun occurrence =>
                clientTag unicode occurrence.1 occurrence.2 := by
            intro untagged
            rw [ih behind, occurrences_upTo, List.filterMap_append]
            split
            case isTrue marked => simp [untagged marked]
            · rfl
          cases rest with
          | nil =>
              rw [parseTagsFrom]
              apply textSegment
              intro _
              simp [clientTag, clientRun, unlessEmpty]
          | cons nextChar others =>
              rw [parseTagsFrom]
              dsimp only
              split
              case isTrue marked =>
                rcases marked with ⟨rfl, isTag⟩
                split
                case isTrue plain =>
                  have after : prevChar = some '#' := by
                    rcases plain with after | hash | space
                    · exact after
                    · rw [hash, hash_not_tag] at isTag
                      cases isTag
                    · rw [space, space_not_tag] at isTag
                      cases isTag
                  rw [occurrences_mark, List.filterMap_cons, List.filterMap_cons]
                  simp only [Segment.tag?, clientTag, after, true_or, if_true]
                  exact ih shorter
                case isFalse plain =>
                  rw [not_or] at plain
                  split
                  case isTrue fits =>
                    have left : ((nextChar :: others).drop
                        (clientRun unicode (nextChar :: others)).length).length ≤ fuel := by
                      rw [List.length_drop]
                      exact (Nat.sub_le _ _).trans shorter
                    have taken : clientTag unicode prevChar (nextChar :: others) =
                        some (clientRun unicode (nextChar :: others)) :=
                      clientTag_fits plain.1 fits.1 fits.2
                    have here : occurrences '#' (some '#') (nextChar :: others) = _ :=
                      occurrences_clientRun unicode (some '#') (nextChar :: others)
                    rw [occurrences_mark, List.filterMap_cons, List.filterMap_cons, taken, here,
                      ← ih left]
                    rfl
                  case isFalse fits =>
                    apply textSegment
                    intro _
                    have long : maxTagLength < (clientRun unicode (nextChar :: others)).length := by
                      have positive : 0 < (clientRun unicode (nextChar :: others)).length := by
                        simp [clientRun, isTag]
                      rw [not_and, Nat.not_le] at fits
                      exact fits positive
                    simp [clientTag, long]
              case isFalse unmarked =>
                apply textSegment
                intro hash
                have foreign : isTagChar unicode nextChar = false := by simpa [hash] using unmarked
                simp [clientTag, clientRun, foreign, unlessEmpty]

theorem clientTags_eq (text : List Char) :
    clientTags unicode text = (occurrences '#' none text).filterMap fun occurrence =>
      clientTag unicode occurrence.1 occurrence.2 :=
  parseTagsFrom_tags (Nat.le_refl _)

/-- The segments of the client are the text. -/
theorem parseTagsFrom_restored {fuel : Nat} {text : List Char} (enough : text.length ≤ fuel) :
    (parseTagsFrom unicode fuel prevChar text).flatMap Segment.restored = text := by
  induction fuel generalizing prevChar text with
  | zero =>
      rw [List.eq_nil_of_length_eq_zero (Nat.le_zero.mp enough)]
      rfl
  | succ fuel ih =>
      cases text with
      | nil => rfl
      | cons c rest =>
          have shorter : rest.length ≤ fuel := Nat.le_of_succ_le_succ enough
          have textSegment : ∀ before, c :: (rest.takeWhile (· ≠ '#') ++
              (parseTagsFrom unicode fuel before (rest.dropWhile (· ≠ '#'))).flatMap Segment.restored) =
                c :: rest := by
            intro before
            rw [ih ((List.length_dropWhile_le _ _).trans shorter),
              List.takeWhile_append_dropWhile]
          cases rest with
          | nil =>
              rw [parseTagsFrom]
              exact textSegment _
          | cons nextChar others =>
              rw [parseTagsFrom]
              dsimp only
              split
              case isTrue marked =>
                rw [marked.1] at textSegment ⊢
                split
                · simp [Segment.restored, ih shorter]
                · split
                  · have left : ((nextChar :: others).drop
                        ((nextChar :: others).takeWhile (isTagChar unicode)).length).length ≤ fuel := by
                      rw [List.length_drop]
                      exact (Nat.sub_le _ _).trans shorter
                    rw [List.flatMap_cons, ih left, Segment.restored, List.cons_append,
                      List.prefix_iff_eq_append.mp (List.takeWhile_prefix _)]
                  · exact textSegment _
              · exact textSegment _

/-! ## Agreement -/

/-- A mark at which both sides take the same: the server takes nothing there, or
the mark follows no other mark, no mark rune or joiner is in what the server
takes, and the run of the client is not too long. -/
def Plain (unicode : Unicode) (prevChar : Option Char) (rest : List Char) : Prop :=
  serverRun unicode rest = [] ∨
    (prevChar ≠ some '#' ∧ (serverRun unicode rest).all (isTagChar unicode) = true ∧
      (clientRun unicode rest).length ≤ maxTagLength)

/-- The run of the client goes on where all that the server takes are its
characters. -/
theorem clientRun_eq (characters : (serverRun unicode rest).all (isTagChar unicode) = true) :
    clientRun unicode rest = serverRun unicode rest ++
      ((rest.takeWhile (isValidTagRune unicode)).drop maxTagLength).takeWhile (isTagChar unicode) := by
  have inner : ∀ text : List Char, text.takeWhile (isTagChar unicode) =
      (text.takeWhile (isValidTagRune unicode)).takeWhile (isTagChar unicode) := by
    intro text
    induction text with
    | nil => rfl
    | cons c others ih =>
        cases isTag : isTagChar unicode c with
        | false => cases valid : isValidTagRune unicode c <;> simp [isTag, valid]
        | true => simp [isTag, isValidTagRune_of_isTagChar isTag, ih]
  have split_ : serverRun unicode rest ++ (rest.takeWhile (isValidTagRune unicode)).drop maxTagLength =
      rest.takeWhile (isValidTagRune unicode) := List.take_append_drop _ _
  rw [clientRun, inner, ← split_, List.takeWhile_append_of_pos]
  · rw [split_]
  · simpa using characters

theorem serverRun_ne_nil_of_clientRun (some_ : clientRun unicode rest ≠ []) :
    serverRun unicode rest ≠ [] := by
  cases rest with
  | nil => exact some_
  | cons c others =>
      cases isTag : isTagChar unicode c with
      | false => simp [clientRun, isTag] at some_
      | true => simp [serverRun, isValidTagRune_of_isTagChar isTag, maxTagLength]

/-- Both sides take the same at a mark exactly if it is plain. -/
theorem plain_iff :
    unlessEmpty (serverRun unicode rest) = clientTag unicode prevChar rest ↔
      Plain unicode prevChar rest := by
  by_cases empty : serverRun unicode rest = []
  · have emptyClient : clientRun unicode rest = [] := by
      by_contra some_
      exact serverRun_ne_nil_of_clientRun some_ empty
    simp [Plain, empty, emptyClient, unlessEmpty, clientTag]
  · have taken : unlessEmpty (serverRun unicode rest) = some (serverRun unicode rest) := by
      simp [unlessEmpty, empty]
    rw [Plain, taken]
    constructor
    · intro same
      right
      rw [clientTag] at same
      split at same
      · cases same
      case isFalse fits =>
        rw [not_or, Nat.not_lt] at fits
        have runs := unlessEmpty_eq_some same.symm
        refine ⟨fits.1, ?_, fits.2⟩
        rw [runs, List.all_eq_true]
        exact fun c member => List.mem_takeWhile_imp member
    · rintro (impossible | ⟨alone, characters, fits⟩)
      · exact absurd impossible empty
      · have run := clientRun_eq characters
        have rest_ : ((rest.takeWhile (isValidTagRune unicode)).drop maxTagLength).takeWhile
            (isTagChar unicode) = [] := by
          apply List.eq_nil_of_length_eq_zero
          have lengths := congrArg List.length run
          rw [List.length_append] at lengths
          by_cases long : maxTagLength ≤ (rest.takeWhile (isValidTagRune unicode)).length
          · have full : (serverRun unicode rest).length = maxTagLength := by
              rw [serverRun, List.length_take, Nat.min_eq_left long]
            omega
          · rw [List.drop_eq_nil_of_le (Nat.le_of_not_le long)]
            rfl
        rw [rest_, List.append_nil] at run
        rw [← run] at empty
        have positive : 0 < (clientRun unicode rest).length := List.length_pos_of_ne_nil empty
        rw [clientTag_fits alone positive fits, run]

/-- The server and the client find the same tags, and the segments of the
client are the text, exactly if every mark is plain. -/
theorem tag_scanners_agree_iff (unicode : Unicode) (text : List Char) :
    (serverTags unicode text = clientTags unicode text ∧
      (parseTagsFromText unicode text).flatMap Segment.restored = text) ↔
    ∀ occurrence, occurrence ∈ occurrences '#' none text ->
      Plain unicode occurrence.1 occurrence.2 := by
  have restored : (parseTagsFromText unicode text).flatMap Segment.restored = text :=
    parseTagsFrom_restored (Nat.le_refl _)
  rw [serverTags_eq, clientTags_eq, filterMap_eq_iff]
  · simp only [plain_iff]
    exact ⟨fun both => both.1, fun plain => ⟨plain, restored⟩⟩
  · intro occurrence _ taken
    have some_ : clientRun unicode occurrence.2 ≠ [] := by
      intro empty
      simp [clientTag, empty, unlessEmpty] at taken
    simp [unlessEmpty, serverRun_ne_nil_of_clientRun some_]

/-- A second `#` hides a tag from the client only. -/
theorem double_mark_differs :
    ¬ (serverTags Unicode.asciiOnly ['#', '#', 'b'] = clientTags Unicode.asciiOnly ['#', '#', 'b'] ∧
      (parseTagsFromText Unicode.asciiOnly ['#', '#', 'b']).flatMap Segment.restored =
        ['#', '#', 'b']) := by
  decide

end Tags
end Markdown
end Memos
