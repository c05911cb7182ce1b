import Memos.Markdown.Tags
import Memos.Service.FirstUser

namespace Memos
namespace Markdown
namespace Mentions

open Filter (isSpace)
open Library
open Service.FirstUser (isNumericUsername validateWritableUsername)
open Store (isUidLetter uidMatches)
open Tags (peekLine takeWhile_peekLine)

/-!
# Mentions

The server finds the users that a memo mentions while it parses the Markdown,
the web client while it renders it.  Both scan a run of plain text for `@`.
-/

variable (unicode : Unicode)

/-- `MaxMentionLength`, and `MAX_MENTION_LENGTH` of the client -/
def maxMentionLength : Nat := 32

/-- Names are compared up to the case of their letters. -/
def toLowerCase (username : List Char) : List Char := username.map Char.toLower

/-! ## The server -/

def isLetterOrNumber (r : Char) : Bool := unicode.isLetter r || unicode.isNumber r

def isValidMentionRune (r : Char) : Bool := isLetterOrNumber unicode r || r == '-'

def isMentionBoundary (r : Char) : Bool := isSpace r || unicode.isPunct r || unicode.isSymbol r

/-- The loop over the runes of a name, some of which are counted already: the
runes that are taken, and `hasLetterOrNumber`. -/
def mentionRunes : Nat -> List Char -> List Char × Bool
  | _, [] => ([], false)
  | runeCount, r :: line =>
      if !isValidMentionRune unicode r then ([], false)
      else
        -- the rune that is one too many still counts as a letter
        if runeCount + 1 > maxMentionLength then ([], isLetterOrNumber unicode r)
        else
          let (username, hasLetterOrNumber) := mentionRunes (runeCount + 1) line
          (r :: username, isLetterOrNumber unicode r || hasLetterOrNumber)

/-- `Parse` of the mention parser: the name at the start of a line. -/
def parse (prev : Char) (line : List Char) : Option (List Char) :=
  match line with
  | '@' :: rest =>
      if prev ≠ '\n' && !isMentionBoundary unicode prev then none
      else
        let (username, hasLetterOrNumber) := mentionRunes unicode 0 rest
        if username.isEmpty || !hasLetterOrNumber then none else some username
  | _ => none

/-- What the mention parser finds at a mark; a line break stands before the
start of a block. -/
def serverMention (prevChar : Option Char) (rest : List Char) : Option (List Char) :=
  parse unicode (prevChar.getD '\n') (peekLine ('@' :: rest))

/-- The names that the inline parser of the server finds in a run of text. -/
def serverMentions (text : List Char) : List (List Char) :=
  scan '@' (serverMention unicode) text.length none text

/-! ## The client -/

def isMentionChar (char : Char) : Bool := isUidLetter char || char == '-'

def isClientBoundary : Option Char -> Bool
  | none => true
  | some char => !isMentionChar char

inductive Segment where
  | text (value : List Char)
  | mention (value : List Char)
deriving DecidableEq

/-- The loop of `parseMentionsFromText`, with the character before the rest. -/
def parseMentionsFrom : Nat -> Option Char -> List Char -> List Segment
  | 0, _, _ => []
  | _ + 1, _, [] => []
  | fuel + 1, prevChar, char :: rest =>
      let textSegment :=
        .text (char :: rest.takeWhile (· ≠ '@')) ::
          parseMentionsFrom fuel ((rest.takeWhile (· ≠ '@')).getLast?.or (some char))
            (rest.dropWhile (· ≠ '@'))
      if char = '@' ∧ isClientBoundary prevChar ∧ rest.head?.any isMentionChar then
        let username := (rest.takeWhile isMentionChar).take maxMentionLength
        let hasLetterOrNumber := username.any isUidLetter
        if !username.isEmpty && hasLetterOrNumber then
          .mention (toLowerCase username) ::
            parseMentionsFrom fuel (username.getLast?.or (some char)) (rest.drop username.length)
        else textSegment
      else textSegment

def parseMentionsFromText (text : List Char) : List Segment :=
  parseMentionsFrom text.length none text

/-- The name of a segment. -/
def Segment.mention? : Segment -> Option (List Char)
  | .text _ => none
  | .mention value => some value

/-- The text of a segment, with the `@` of a mention. -/
def Segment.restored : Segment -> List Char
  | .text value => value
  | .mention value => '@' :: value

def clientMentions (text : List Char) : List (List Char) :=
  (parseMentionsFromText text).filterMap Segment.mention?

/-! ## What the server finds at a mark -/

variable {unicode}

/-- The runes behind a mark that a name of the server may have. -/
def serverRun (unicode : Unicode) (rest : List Char) : List Char :=
  (rest.takeWhile (isValidMentionRune unicode)).take maxMentionLength

/-- Whether the server sees a letter or a number behind a mark; it looks at one
rune more than it takes. -/
def serverSees (unicode : Unicode) (rest : List Char) : Bool :=
  ((rest.takeWhile (isValidMentionRune unicode)).take (maxMentionLength + 1)).any
    (isLetterOrNumber unicode)

/-- What stands before a mark at which the server looks for a name. -/
def ServerOpen (unicode : Unicode) (prevChar : Option Char) : Prop :=
  ∀ prev, prevChar = some prev -> prev = '\n' ∨ isMentionBoundary unicode prev = true

instance (prevChar : Option Char) : Decidable (ServerOpen unicode prevChar) :=
  match prevChar with
  | none => .isTrue nofun
  | some prev => decidable_of_iff (prev = '\n' ∨ isMentionBoundary unicode prev = true)
      ⟨fun isOpen _ same => Option.some.inj same ▸ isOpen, fun isOpen => isOpen prev rfl⟩

theorem mentionRunes_eq {runeCount : Nat} (some_ : runeCount ≤ maxMentionLength) (line : List Char) :
    mentionRunes unicode runeCount line =
      ((line.takeWhile (isValidMentionRune unicode)).take (maxMentionLength - runeCount),
        ((line.takeWhile (isValidMentionRune unicode)).take (maxMentionLength + 1 - runeCount)).any
          (isLetterOrNumber unicode)) := by
  induction line generalizing runeCount with
  | nil => simp [mentionRunes]
  | cons r line ih =>
      rw [mentionRunes, List.takeWhile_cons]
      cases isValidMentionRune unicode r with
      | false => simp
      | true =>
          by_cases full : runeCount + 1 > maxMentionLength
          · have same : runeCount = maxMentionLength := Nat.le_antisymm some_ (Nat.le_of_lt_succ full)
            have one : maxMentionLength + 1 - maxMentionLength = 1 := Nat.add_sub_cancel_left _ _
            simp [same, one]
          · have left : maxMentionLength - runeCount = (maxMentionLength - (runeCount + 1)) + 1 := by
              omega
            have leftSeen : maxMentionLength + 1 - runeCount =
                (maxMentionLength + 1 - (runeCount + 1)) + 1 := by omega
            rw [if_neg (by decide), if_neg full, ih (Nat.le_of_not_lt full), left,
              leftSeen]
            simp

theorem at_invalid : isValidMentionRune unicode '@' = false := by
  have category : unicode.category '@' = .punctuation := unicode.ascii '@' (by decide)
  simp [isValidMentionRune, isLetterOrNumber, Unicode.isLetter, Unicode.isNumber, category]

theorem newline_invalid : isValidMentionRune unicode '\n' = false := by
  have category : unicode.category '\n' = .other := unicode.ascii '\n' (by decide)
  simp [isValidMentionRune, isLetterOrNumber, Unicode.isLetter, Unicode.isNumber, category]

theorem mentionRunes_peekLine (rest : List Char) :
    mentionRunes unicode 0 (peekLine rest) = (serverRun unicode rest, serverSees unicode rest) := by
  rw [mentionRunes_eq (Nat.zero_le _), takeWhile_peekLine newline_invalid]
  rfl

theorem serverMention_eq (prevChar : Option Char) (rest : List Char) :
    serverMention unicode prevChar rest =
      if ServerOpen unicode prevChar ∧ serverRun unicode rest ≠ [] ∧ serverSees unicode rest = true
        then some (serverRun unicode rest) else none := by
  have line : peekLine ('@' :: rest) = '@' :: peekLine rest := by simp [peekLine]
  have boundary : (prevChar.getD '\n' ≠ '\n' && !isMentionBoundary unicode (prevChar.getD '\n')) = true ↔
      ¬ ServerOpen unicode prevChar := by
    cases prevChar <;> simp [ServerOpen]
  rw [serverMention, line, parse]
  split
  case isTrue shut => rw [if_neg fun all => boundary.mp shut all.1]
  case isFalse isOpen =>
    rw [boundary, not_not] at isOpen
    rw [mentionRunes_peekLine]
    by_cases empty : serverRun unicode rest = []
    · simp [empty]
    · cases serverSees unicode rest <;> simp [empty, isOpen]

variable {prevChar : Option Char} {rest : List Char}

theorem serverMention_eq_some {rest token : List Char} :
    serverMention unicode prevChar rest = some token ↔
      (ServerOpen unicode prevChar ∧ serverRun unicode rest ≠ [] ∧ serverSees unicode rest = true) ∧
        serverRun unicode rest = token := by
  rw [serverMention_eq, Option.ite_none_right_eq_some, Option.some.injEq]

theorem valid_of_mem_serverRun {r : Char} (member : r ∈ serverRun unicode rest) :
    isValidMentionRune unicode r = true :=
  List.mem_takeWhile_imp (List.mem_of_mem_take member)

theorem serverMentions_eq (text : List Char) :
    serverMentions unicode text = (occurrences '@' none text).filterMap fun occurrence =>
      serverMention unicode occurrence.1 occurrence.2 := by
  apply scan_eq _ (Nat.le_refl _)
  intro before rest token taken
  rw [← (serverMention_eq_some.mp taken).2]
  refine ⟨(List.take_prefix _ _).trans (List.takeWhile_prefix _), fun marked => ?_⟩
  have valid := valid_of_mem_serverRun marked
  rw [at_invalid] at valid
  cases valid

/-! ## What the client finds at a mark -/

/-- The run of the client behind a mark. -/
def clientRun (rest : List Char) : List Char := (rest.takeWhile isMentionChar).take maxMentionLength

/-- What the client takes behind a mark, as it is written there. -/
def clientMention (prevChar : Option Char) (rest : List Char) : Option (List Char) :=
  if isClientBoundary prevChar = true ∧ (clientRun rest).any isUidLetter = true
    then some (clientRun rest) else none

theorem mentionChar_of_mem_clientRun {char : Char} (member : char ∈ clientRun rest) : isMentionChar char = true :=
  List.mem_takeWhile_imp (List.mem_of_mem_take member)

theorem at_not_mem_clientRun (rest : List Char) : '@' ∉ clientRun rest := by
  intro marked
  exact absurd (mentionChar_of_mem_clientRun marked) (by decide)

theorem clientRun_append (rest : List Char) :
    clientRun rest ++ rest.drop (clientRun rest).length = rest :=
  List.prefix_iff_eq_append.mp ((List.take_prefix _ _).trans (List.takeWhile_prefix _))

/-- Nothing stands in a run of the client. -/
theorem occurrences_clientRun (before : Option Char) (rest : List Char) :
    occurrences '@' before rest =
      occurrences '@' ((clientRun rest).getLast?.or before) (rest.drop (clientRun rest).length) := by
  rw [← occurrences_append (at_not_mem_clientRun rest), clientRun_append]

theorem ne_nil_of_any {front : List Char} {p : Char -> Bool} (some_ : front.any p = true) :
    front ≠ [] := by
  intro empty
  simp [empty] at some_

/-- The client looks at the character behind the mark before it looks at the run. -/
theorem head_of_clientRun (some_ : (clientRun rest).any isUidLetter = true) :
    rest.head?.any isMentionChar = true := by
  cases rest with
  | nil => simp [clientRun] at some_
  | cons char others =>
      cases isChar : isMentionChar char with
      | false => simp [clientRun, isChar] at some_
      | true => simpa using isChar

/-- One step of the client, by what it takes at the character it looks at. -/
theorem parseMentionsFrom_succ (fuel : Nat) (prevChar : Option Char) (char : Char) (rest : List Char) :
    parseMentionsFrom (fuel + 1) prevChar (char :: rest) =
      match if char = '@' then clientMention prevChar rest else none with
      | none =>
          .text (char :: rest.takeWhile (· ≠ '@')) ::
            parseMentionsFrom fuel ((rest.takeWhile (· ≠ '@')).getLast?.or (some char))
              (rest.dropWhile (· ≠ '@'))
      | some username =>
          .mention (toLowerCase username) ::
            parseMentionsFrom fuel (username.getLast?.or (some char)) (rest.drop username.length) := by
  have run : (rest.takeWhile isMentionChar).take maxMentionLength = clientRun rest := rfl
  rw [parseMentionsFrom]
  simp only [run]
  by_cases marked : char = '@'
  · cases isOpen : isClientBoundary prevChar with
    | false => simp [clientMention, isOpen]
    | true =>
        cases letters : (clientRun rest).any isUidLetter with
        | false => simp [clientMention, letters]
        | true =>
            simp [marked, clientMention, isOpen, letters, head_of_clientRun letters,
              ne_nil_of_any letters]
  · simp [marked]

theorem clientMention_eq_some {rest token : List Char} :
    clientMention prevChar rest = some token ↔
      (isClientBoundary prevChar = true ∧ (clientRun rest).any isUidLetter = true) ∧
        clientRun rest = token := by
  rw [clientMention, Option.ite_none_right_eq_some, Option.some.injEq]

theorem parseMentionsFrom_mentions {fuel : Nat} {text : List Char} (enough : text.length ≤ fuel) :
    (parseMentionsFrom fuel prevChar text).filterMap Segment.mention? =
      (occurrences '@' prevChar text).filterMap fun occurrence =>
        (clientMention occurrence.1 occurrence.2).map toLowerCase := by
  induction fuel generalizing prevChar text with
  | zero =>
      rw [List.eq_nil_of_length_eq_zero (Nat.le_zero.mp enough)]
      rfl
  | succ fuel ih =>
      cases text with
      | nil => rfl
      | cons char rest =>
          have shorter : rest.length ≤ fuel := Nat.le_of_succ_le_succ enough
          rw [parseMentionsFrom_succ]
          cases taken : if char = '@' then clientMention prevChar rest else none with
          | none =>
              have behind : (rest.dropWhile (· ≠ '@')).length ≤ fuel :=
                (List.length_dropWhile_le _ _).trans shorter
              dsimp only
              rw [List.filterMap_cons, Segment.mention?, ih behind, occurrences_upTo,
                List.filterMap_append]
              split at taken
              case isTrue marked => simp [marked, taken]
              case isFalse unmarked => simp [unmarked]
          | some username =>
              rw [Option.ite_none_right_eq_some] at taken
              rcases taken with ⟨rfl, taken⟩
              have run := (clientMention_eq_some.mp taken).2
              have left : (rest.drop username.length).length ≤ fuel := by
                rw [List.length_drop]
                exact (Nat.sub_le _ _).trans shorter
              dsimp only
              rw [List.filterMap_cons, Segment.mention?, ih left, occurrences_mark,
                List.filterMap_cons, taken, occurrences_clientRun (some '@'), run]
              rfl

theorem clientMentions_eq (text : List Char) :
    clientMentions text = (occurrences '@' none text).filterMap fun occurrence =>
      (clientMention occurrence.1 occurrence.2).map toLowerCase :=
  parseMentionsFrom_mentions (Nat.le_refl _)

/-- The segments of the client are the text exactly if it takes names in lower
case only. -/
theorem parseMentionsFrom_restored {fuel : Nat} {text : List Char} (enough : text.length ≤ fuel) :
    (parseMentionsFrom fuel prevChar text).flatMap Segment.restored = text ↔
      ∀ occurrence, occurrence ∈ occurrences '@' prevChar text -> ∀ username,
        clientMention occurrence.1 occurrence.2 = some username -> toLowerCase username = username := by
  induction fuel generalizing prevChar text with
  | zero =>
      rw [List.eq_nil_of_length_eq_zero (Nat.le_zero.mp enough)]
      simp [parseMentionsFrom, occurrences]
  | succ fuel ih =>
      cases text with
      | nil => simp [parseMentionsFrom, occurrences]
      | cons char rest =>
          have shorter : rest.length ≤ fuel := Nat.le_of_succ_le_succ enough
          rw [parseMentionsFrom_succ]
          cases taken : if char = '@' then clientMention prevChar rest else none with
          | none =>
              have behind : (rest.dropWhile (· ≠ '@')).length ≤ fuel :=
                (List.length_dropWhile_le _ _).trans shorter
              dsimp only
              have cancel : ∀ found, char :: (rest.takeWhile (· ≠ '@') ++ found) = char :: rest ↔
                  found = rest.dropWhile (· ≠ '@') := by
                intro found
                rw [List.cons.injEq, eq_self, true_and]
                conv_lhs => rhs; rw [← List.takeWhile_append_dropWhile (p := (· ≠ '@')) (l := rest)]
                exact List.append_cancel_left_eq _ _ _ |>.to_iff
              rw [List.flatMap_cons, Segment.restored, List.cons_append, cancel,
                ih behind, occurrences_upTo]
              split at taken
              case isTrue marked => simp [marked, taken]
              case isFalse unmarked => simp [unmarked]
          | some username =>
              rw [Option.ite_none_right_eq_some] at taken
              rcases taken with ⟨rfl, taken⟩
              have run := (clientMention_eq_some.mp taken).2
              have left : (rest.drop username.length).length ≤ fuel := by
                rw [List.length_drop]
                exact (Nat.sub_le _ _).trans shorter
              have sameLength : (toLowerCase username).length = username.length := List.length_map _
              have cancel : ∀ found, '@' :: (toLowerCase username ++ found) = '@' :: rest ↔
                  toLowerCase username = username ∧ found = rest.drop username.length := by
                intro found
                rw [List.cons.injEq, eq_self, true_and]
                conv_lhs => rhs; rw [← clientRun_append rest, run]
                exact ⟨fun same => List.append_inj same sameLength, fun both => by rw [both.1, both.2]⟩
              dsimp only
              rw [List.flatMap_cons, Segment.restored, List.cons_append, cancel,
                ih left, occurrences_mark, occurrences_clientRun (some '@'), run]
              simp [taken]

/-! ## Agreement -/

/-- A name that sign-up accepts. -/
def isUsername (username : List Char) : Bool := validateWritableUsername (String.ofList username)

/-- A mark at which neither side takes a name. -/
def Unmentioned (unicode : Unicode) (prevChar : Option Char) (rest : List Char) : Prop :=
  (ServerOpen unicode prevChar -> serverRun unicode rest ≠ [] -> serverSees unicode rest = false) ∧
    (isClientBoundary prevChar = true -> (clientRun rest).any isUidLetter = false)

/-- A mark at which both sides look for a name, and all the letters, numbers and
hyphens that follow, up to the limit, are a username in lower case. -/
def Mentioned (unicode : Unicode) (prevChar : Option Char) (rest : List Char) : Prop :=
  ServerOpen unicode prevChar ∧ isClientBoundary prevChar = true ∧
    isUsername (serverRun unicode rest) = true ∧
    toLowerCase (serverRun unicode rest) = serverRun unicode rest

/-- The server and the client recognise the same names, which are usernames,
and the segments of the client are the text. -/
structure Agree (unicode : Unicode) (text : List Char) : Prop where
  same : (serverMentions unicode text).map toLowerCase = clientMentions text
  usernames : ∀ username, username ∈ serverMentions unicode text ∨ username ∈ clientMentions text ->
    isUsername username = true
  restored : (parseMentionsFromText text).flatMap Segment.restored = text

theorem isUsername_chars {username : List Char} (valid : isUsername username = true) :
    username.all isMentionChar = true ∧ username.any isUidLetter = true := by
  simp only [isUsername, validateWritableUsername, Bool.and_eq_true, uidMatches,
    String.toList_ofList] at valid
  refine ⟨valid.2.1.2, ?_⟩
  cases username with
  | nil => simp at valid
  | cons char others =>
      rw [List.any_cons, Bool.or_eq_true]
      left
      simpa using valid.2.1.1.1

theorem isLetterOrNumber_of_isUidLetter {char : Char} (isLetter : isUidLetter char = true) :
    isLetterOrNumber unicode char = true := by
  simp only [isUidLetter, Bool.or_eq_true, Bool.and_eq_true, decide_eq_true_eq] at isLetter
  have isAscii : char ≤ '\x7f' := by
    rcases isLetter with (lower | upper) | digit
    · exact Char.le_trans lower.2 (by decide)
    · exact Char.le_trans upper.2 (by decide)
    · exact Char.le_trans digit.2 (by decide)
  have category := unicode.ascii char isAscii
  rw [isLetterOrNumber, Unicode.isLetter, Unicode.isNumber, category, asciiCategory]
  rcases isLetter with letter | digit
  · rw [if_pos letter]
    rfl
  · split <;> simp

theorem isValidMentionRune_of_isMentionChar {char : Char} (isChar : isMentionChar char = true) :
    isValidMentionRune unicode char = true := by
  rw [isMentionChar, Bool.or_eq_true] at isChar
  rw [isValidMentionRune, Bool.or_eq_true]
  exact isChar.imp isLetterOrNumber_of_isUidLetter id

/-- The run of the client is the front of the run of the server. -/
theorem clientRun_eq (unicode : Unicode) (rest : List Char) :
    clientRun rest = (serverRun unicode rest).takeWhile isMentionChar := by
  have narrower : (fun char => decide (isMentionChar char = true ∧ isValidMentionRune unicode char = true)) =
      isMentionChar := by
    funext char
    cases isChar : isMentionChar char with
    | false => simp
    | true => simp [isValidMentionRune_of_isMentionChar isChar]
  rw [serverRun, ← List.take_takeWhile, List.takeWhile_takeWhile, narrower, clientRun]

theorem any_of_take {p : Char -> Bool} {fewer more : Nat} (fits : fewer ≤ more) {line : List Char}
    (some_ : (line.take fewer).any p = true) : (line.take more).any p = true := by
  rw [List.any_eq_true] at some_ ⊢
  rcases some_ with ⟨char, member, holds⟩
  exact ⟨char, (List.take_prefix_take_left fits).subset member, holds⟩

/-- Before a username both sides take all of it. -/
theorem both_take (mentioned : Mentioned unicode prevChar rest) :
    serverMention unicode prevChar rest = some (serverRun unicode rest) ∧
      clientMention prevChar rest = some (serverRun unicode rest) := by
  rcases mentioned with ⟨serverOpen, clientOpen, valid, _⟩
  have chars := isUsername_chars valid
  have run : clientRun rest = serverRun unicode rest := by
    rw [clientRun_eq unicode, List.takeWhile_eq_self_iff]
    exact List.all_eq_true.mp chars.1
  have seen : serverSees unicode rest = true := by
    apply any_of_take (Nat.le_succ maxMentionLength)
    rw [List.any_eq_true] at chars ⊢
    rcases chars.2 with ⟨char, member, isLetter⟩
    exact ⟨char, member, isLetterOrNumber_of_isUidLetter isLetter⟩
  rw [serverMention_eq_some, clientMention_eq_some, run]
  exact ⟨⟨⟨serverOpen, ne_nil_of_any chars.2, seen⟩, rfl⟩, ⟨clientOpen, chars.2⟩, rfl⟩

theorem neither_takes :
    (serverMention unicode prevChar rest = none ∧ clientMention prevChar rest = none) ↔
      Unmentioned unicode prevChar rest := by
  rw [serverMention_eq, clientMention, Unmentioned, ite_eq_right_iff, ite_eq_right_iff]
  simp

/-- The server and the client agree on a text, and take the same at every mark,
exactly if every mark stands before a username in lower case or is none to
either side. -/
theorem mention_scanners_agree_iff (unicode : Unicode) (text : List Char) :
    (Agree unicode text ∧ ∀ occurrence, occurrence ∈ occurrences '@' none text ->
      (serverMention unicode occurrence.1 occurrence.2).map toLowerCase =
        (clientMention occurrence.1 occurrence.2).map toLowerCase) ↔
    ∀ occurrence, occurrence ∈ occurrences '@' none text ->
      Unmentioned unicode occurrence.1 occurrence.2 ∨ Mentioned unicode occurrence.1 occurrence.2 := by
  constructor
  · rintro ⟨agree, alike⟩ occurrence member
    have alikeHere := alike occurrence member
    cases taken : serverMention unicode occurrence.1 occurrence.2 with
    | none =>
        left
        rw [taken, Option.map_none, eq_comm, Option.map_eq_none_iff] at alikeHere
        exact neither_takes.mp ⟨taken, alikeHere⟩
    | some username =>
        right
        have valid : isUsername username = true := by
          apply agree.usernames
          left
          rw [serverMentions_eq]
          exact List.mem_filterMap.mpr ⟨occurrence, member, taken⟩
        rw [taken, Option.map_some, eq_comm, Option.map_eq_some_iff] at alikeHere
        rcases alikeHere with ⟨written, takenByClient, lower⟩
        have lowerHere := (parseMentionsFrom_restored (Nat.le_refl _)).mp agree.restored occurrence
          member written takenByClient
        rcases serverMention_eq_some.mp taken with ⟨server, rfl⟩
        rcases clientMention_eq_some.mp takenByClient with ⟨client, rfl⟩
        have run : clientRun occurrence.2 = serverRun unicode occurrence.2 := by
          rw [clientRun_eq unicode, List.takeWhile_eq_self_iff]
          exact List.all_eq_true.mp (isUsername_chars valid).1
        exact ⟨server.1, client.1, valid, by rw [← run, lowerHere]⟩
  · intro plain
    have alike : ∀ occurrence, occurrence ∈ occurrences '@' none text ->
        (serverMention unicode occurrence.1 occurrence.2).map toLowerCase =
          (clientMention occurrence.1 occurrence.2).map toLowerCase := by
      intro occurrence member
      rcases plain occurrence member with unmentioned | mentioned
      · rw [(neither_takes.mpr unmentioned).1, (neither_takes.mpr unmentioned).2]
      · rw [(both_take mentioned).1, (both_take mentioned).2]
    have same : (serverMentions unicode text).map toLowerCase = clientMentions text := by
      rw [serverMentions_eq, clientMentions_eq, List.map_filterMap]
      exact List.filterMap_congr alike
    have taken : ∀ username, username ∈ serverMentions unicode text ->
        isUsername username = true ∧ toLowerCase username = username := by
      intro username member
      rw [serverMentions_eq, List.mem_filterMap] at member
      rcases member with ⟨occurrence, member, taken⟩
      rcases plain occurrence member with unmentioned | mentioned
      · rw [(neither_takes.mpr unmentioned).1] at taken
        cases taken
      · rw [(both_take mentioned).1] at taken
        cases taken
        exact ⟨mentioned.2.2.1, mentioned.2.2.2⟩
    refine ⟨⟨same, ?_, ?_⟩, alike⟩
    · intro username member
      rcases member with server | client
      · exact (taken username server).1
      · rw [← same] at client
        rcases List.mem_map.mp client with ⟨written, server, rfl⟩
        rw [(taken written server).2]
        exact (taken written server).1
    · rw [parseMentionsFromText, parseMentionsFrom_restored (Nat.le_refl _)]
      intro occurrence member username takenByClient
      rcases plain occurrence member with unmentioned | mentioned
      · rw [(neither_takes.mpr unmentioned).2] at takenByClient
        cases takenByClient
      · rw [(both_take mentioned).2] at takenByClient
        cases takenByClient
        exact mentioned.2.2.2

/-- Both sides take `bob-`, which is no username. -/
theorem trailing_hyphen_taken :
    ¬ Agree Unicode.asciiOnly ['@', 'b', 'o', 'b', '-'] := by
  intro agree
  have taken : serverMentions Unicode.asciiOnly ['@', 'b', 'o', 'b', '-'] = [['b', 'o', 'b', '-']] := by
    decide
  have valid := agree.usernames ['b', 'o', 'b', '-'] (Or.inl (by rw [taken]; exact List.mem_singleton_self _))
  exact absurd valid (by decide)

end Mentions
end Markdown
end Memos
