import Memos.Filter.Engine
import Memos.Library.Calendar
import Memos.Library.HeaderBlock

namespace Memos
namespace Service
namespace EmailFormat

open Library HeaderBlock

/-!
# E-mail messages

The text of an e-mail: header fields of user-supplied values, an empty line and
the body.  A value is reduced to its words, with one space between them, so that
it stands on the line of its field.
-/

/-! ## Messages -/

structure Message where
  «to» : List Text
  cc : List Text := []
  bcc : List Text := []
  subject : Text
  body : Text
  isHTML : Bool := false
  replyTo : Text := []
deriving DecidableEq

/-- `strings.Fields` -/
def fields (value : Text) : List Text :=
  (value.splitOnP Filter.isSpace).filter fun field => !field.isEmpty

/-- `strings.Join` -/
def join (parts : List Text) (separator : String) : Text := separator.toList.intercalate parts

def sanitizeEmailHeaderValue (value : Text) : Text :=
  let value := value.map fun c => if c = '\r' ∨ c = '\n' then ' ' else c
  join (fields value) " "

def sanitizeEmailHeaderValues (values : List Text) : List Text :=
  values.map sanitizeEmailHeaderValue

/-! ## The date -/

/-- An instant, in seconds, and the offset of the time zone in force then. -/
structure Instant where
  seconds : Int
  offset : Int

/-- `appendInt` of the package `time` -/
def appendInt (value : Int) (width : Nat) : Text :=
  (if value < 0 then ['-'] else []) ++ (Nat.toDigits 10 value.natAbs).leftpad width '0'

def shortDayNames : List String := ["Sun", "Mon", "Tue", "Wed", "Thu", "Fri", "Sat"]

def shortMonthNames : List String :=
  ["Jan", "Feb", "Mar", "Apr", "May", "Jun", "Jul", "Aug", "Sep", "Oct", "Nov", "Dec"]

def nameAt (names : List String) (index : Int) : Text := (names.getD index.toNat "").toList

/-- `Format(time.RFC1123Z)`, that is `Mon, 02 Jan 2006 15:04:05 -0700` -/
def formatRFC1123Z (now : Instant) : Text :=
  let clock := now.seconds + now.offset
  let days := clock / 86400
  let second := clock % 86400
  let date := Date.ofDays days
  let zone := now.offset.tdiv 60
  nameAt shortDayNames ((days + 4) % 7) ++ (", ".toList ++ (appendInt date.day 2 ++ (" ".toList ++
    (nameAt shortMonthNames (date.month - 1) ++ (" ".toList ++ (appendInt date.year 4 ++ (" ".toList ++
    (appendInt (second / 3600) 2 ++ (":".toList ++ (appendInt (second % 3600 / 60) 2 ++
    (":".toList ++ (appendInt (second % 60) 2 ++ (" ".toList ++
    ((if zone < 0 then "-".toList else "+".toList) ++
    (appendInt ((zone.natAbs : Int) / 60) 2 ++ appendInt ((zone.natAbs : Int) % 60) 2)))))))))))))))

/-! ## Formatting -/

def format (message : Message) (fromEmail fromName : Text) (now : Instant) : Text :=
  let fromEmail := sanitizeEmailHeaderValue fromEmail
  let fromName := sanitizeEmailHeaderValue fromName
  let recipients := sanitizeEmailHeaderValues message.«to»
  let cc := sanitizeEmailHeaderValues message.cc
  let replyTo := sanitizeEmailHeaderValue message.replyTo
  let subject := sanitizeEmailHeaderValue message.subject
  (if fromName ≠ [] then
    "From: ".toList ++ fromName ++ " <".toList ++ fromEmail ++ ">\r\n".toList
  else "From: ".toList ++ fromEmail ++ "\r\n".toList) ++
  ("To: ".toList ++ join recipients ", " ++ "\r\n".toList) ++
  (if 0 < cc.length then "Cc: ".toList ++ join cc ", " ++ "\r\n".toList else []) ++
  (if replyTo ≠ [] then "Reply-To: ".toList ++ replyTo ++ "\r\n".toList else []) ++
  ("Subject: ".toList ++ subject ++ "\r\n".toList) ++
  ("Date: ".toList ++ formatRFC1123Z now ++ "\r\n".toList) ++
  "MIME-Version: 1.0\r\n".toList ++
  (if message.isHTML then "Content-Type: text/html; charset=utf-8\r\n".toList
  else "Content-Type: text/plain; charset=utf-8\r\n".toList) ++
  "\r\n".toList ++
  message.body

/-! ## What a reader finds -/

def field (name : String) (value : Text) : HeaderField := { name := name.toList, value }

/-- A value on one line, with the words of the text that was given for it. -/
structure OneLine (given value : Text) : Prop where
  unbroken : Unbroken value
  words : fields value = fields given

/-- The values of the fields of a message. -/
structure HeaderValues where
  fromEmail : Text
  fromName : Text
  «to» : List Text
  cc : List Text
  replyTo : Text
  subject : Text

/-- The values say what the message and its sender say. -/
structure HeaderValues.Say (values : HeaderValues) (message : Message) (fromEmail fromName : Text) :
    Prop where
  fromEmail : OneLine fromEmail values.fromEmail
  fromName : OneLine fromName values.fromName
  «to» : List.Forall₂ OneLine message.«to» values.«to»
  cc : List.Forall₂ OneLine message.cc values.cc
  replyTo : OneLine message.replyTo values.replyTo
  subject : OneLine message.subject values.subject

/-- The fields of a message, in order: the name of the sender and Reply-To are
there when they have a word, and Cc when it has a value. -/
def headerFields (message : Message) (fromName : Text) (values : HeaderValues) (now : Instant) :
    List HeaderField :=
  [field "From" (if fields fromName = [] then values.fromEmail
      else values.fromName ++ (" <".toList ++ (values.fromEmail ++ ">".toList))),
    field "To" (", ".toList.intercalate values.«to»)] ++
  (if message.cc = [] then [] else [field "Cc" (", ".toList.intercalate values.cc)]) ++
  (if fields message.replyTo = [] then [] else [field "Reply-To" values.replyTo]) ++
  [field "Subject" values.subject,
    field "Date" (formatRFC1123Z now),
    field "MIME-Version" "1.0".toList,
    field "Content-Type" (if message.isHTML then "text/html; charset=utf-8".toList
      else "text/plain; charset=utf-8".toList)]

/-! ## Unbroken values -/

theorem unbroken_nil : Unbroken [] := fun _c member => absurd member List.not_mem_nil

theorem unbroken_intercalate {separator : Text} {parts : List Text} (unbroken : Unbroken separator)
    (others : forall part, part ∈ parts -> Unbroken part) :
    Unbroken (separator.intercalate parts) := by
  induction parts with
  | nil => exact unbroken_nil
  | cons part parts ih =>
      have first := others part List.mem_cons_self
      have rest := ih fun other member =>
        others other (List.mem_cons_of_mem part member)
      cases parts with
      | nil =>
          rw [List.intercalate_singleton]
          exact first
      | cons next parts =>
          rw [List.intercalate_cons_cons]
          exact (first.append unbroken).append rest

/-- The parts of a text are without the separators. -/
theorem spaceless_of_mem_splitOnP {test : Char -> Bool} {text part : Text} {c : Char}
    (isPart : part ∈ text.splitOnP test) (member : c ∈ part) : test c = false := by
  induction text generalizing part with
  | nil =>
      rw [List.splitOnP_nil, List.mem_singleton] at isPart
      exact absurd (isPart ▸ member) List.not_mem_nil
  | cons first text ih =>
      rw [List.splitOnP_cons_eq_if_modifyHead] at isPart
      split at isPart
      · rcases List.mem_cons.mp isPart with rfl | later
        · exact absurd member List.not_mem_nil
        · exact ih later member
      · rename_i plain
        rcases List.exists_cons_of_ne_nil (List.splitOnP_ne_nil test text) with ⟨head, tail, equal⟩
        rw [equal, List.modifyHead_cons] at isPart
        rcases List.mem_cons.mp isPart with rfl | later
        · rcases List.mem_cons.mp member with rfl | inHead
          · exact eq_false_of_ne_true plain
          · exact ih (equal ▸ List.mem_cons_self) inHead
        · exact ih (equal ▸ List.mem_cons_of_mem head later) member

/-! ## Words -/

theorem word_plain {value word : Text} (isWord : word ∈ fields value) :
    word ≠ [] ∧ forall c, c ∈ word -> Filter.isSpace c = false := by
  rcases List.mem_filter.mp isWord with ⟨isPart, nonempty⟩
  refine ⟨?_, fun c member => spaceless_of_mem_splitOnP isPart member⟩
  rintro rfl
  contradiction

/-- A change that keeps the separators apart from the rest keeps the parts. -/
theorem splitOnP_map {test : Char -> Bool} {change : Char -> Char}
    (separators : forall c, test c = true -> test (change c) = true)
    (others : forall c, test c = false -> change c = c) (text : Text) :
    (text.map change).splitOnP test = text.splitOnP test := by
  induction text with
  | nil => rfl
  | cons c text ih =>
      rw [List.map_cons, List.splitOnP_cons_eq_if_modifyHead, List.splitOnP_cons_eq_if_modifyHead,
        ih]
      by_cases separates : test c = true
      · rw [if_pos separates, if_pos (separators c separates)]
      · rw [others c (eq_false_of_ne_true separates)]

theorem fields_join {words : List Text}
    (plain : forall word, word ∈ words -> word ≠ [] ∧ forall c, c ∈ word -> Filter.isSpace c = false) :
    fields (join words " ") = words := by
  have kept {word : Text} (nonempty : word ≠ []) (words : List Text) :
      ((word :: words).filter fun field => !field.isEmpty) =
        word :: words.filter fun field => !field.isEmpty := by
    cases word with
    | nil => contradiction
    | cons c word => rfl
  unfold join
  induction words with
  | nil => rfl
  | cons word words ih =>
      rcases plain word List.mem_cons_self with ⟨nonempty, spaceless⟩
      have rest := ih fun other member =>
        plain other (List.mem_cons_of_mem word member)
      cases words with
      | nil =>
          rw [List.intercalate_singleton, fields, List.splitOnP_eq_singleton spaceless,
            kept nonempty, List.filter_nil]
      | cons next words =>
          unfold fields at rest ⊢
          have one : " ".toList = [' '] := rfl
          rw [one] at rest ⊢
          rw [List.intercalate_cons_cons, List.append_assoc, List.singleton_append,
            List.splitOnP_append_cons_of_forall_mem spaceless ' ' (by decide),
            kept nonempty, rest]

/-- A sanitized value is its words, with one space between them. -/
theorem sanitize_eq (value : Text) : sanitizeEmailHeaderValue value = join (fields value) " " := by
  unfold sanitizeEmailHeaderValue fields
  dsimp only
  rw [splitOnP_map]
  · intro c separates
    split
    · decide
    · exact separates
  · intro c plain
    apply if_neg
    rintro (rfl | rfl) <;> exact absurd plain (by decide)

/-- It is on one line, with the words that were given. -/
theorem oneLine_sanitize (value : Text) : OneLine value (sanitizeEmailHeaderValue value) := by
  rw [sanitize_eq]
  constructor
  · apply unbroken_intercalate
    · exact unbroken_of_all (by decide)
    · intro word isWord c member
      have spaceless := (word_plain isWord).2 c member
      constructor
      · rintro rfl
        revert spaceless
        decide
      · rintro rfl
        revert spaceless
        decide
  · exact fields_join fun word isWord => word_plain isWord

theorem oneLine_sanitizeAll (values : List Text) :
    List.Forall₂ OneLine values (sanitizeEmailHeaderValues values) := by
  induction values with
  | nil => exact .nil
  | cons value values ih => exact .cons (oneLine_sanitize value) ih

theorem sanitize_eq_nil (value : Text) : sanitizeEmailHeaderValue value = [] ↔ fields value = [] := by
  constructor
  · intro empty
    rw [<- (oneLine_sanitize value).words, empty]
    rfl
  · intro wordless
    rw [sanitize_eq, wordless]
    rfl

theorem unbroken_appendInt (value : Int) (width : Nat) : Unbroken (appendInt value width) := by
  unfold appendInt
  apply Unbroken.append
  · split
    · exact unbroken_of_all (by decide)
    · exact unbroken_nil
  · intro c member
    rw [List.leftpad, List.mem_append] at member
    rcases member with padding | digit
    · rw [List.eq_of_mem_replicate padding]
      decide
    · have isDigit := Nat.isDigit_of_mem_toDigits (by decide) (by decide) digit
      constructor
      · rintro rfl
        revert isDigit
        decide
      · rintro rfl
        revert isDigit
        decide

/-- Constant texts are examined one by one. -/
theorem unbroken_of_mem {names : List String}
    (plain : names.all (fun name => name.toList.all fun c => decide (c ≠ '\r' ∧ c ≠ '\n')) = true)
    {name : String} (member : name ∈ names) : Unbroken name.toList :=
  unbroken_of_all (List.all_eq_true.mp plain name member)

theorem unbroken_nameAt {names : List String} (index : Int)
    (unbroken : forall name, name ∈ names -> Unbroken name.toList) : Unbroken (nameAt names index) := by
  rw [nameAt, List.getD_eq_getElem?_getD]
  cases found : names[index.toNat]? with
  | none => exact unbroken_nil
  | some name => exact unbroken name (List.mem_of_getElem? found)

theorem unbroken_formatRFC1123Z (now : Instant) : Unbroken (formatRFC1123Z now) := by
  have days : forall name, name ∈ shortDayNames -> Unbroken name.toList :=
    fun _ => unbroken_of_mem (by decide)
  have months : forall name, name ∈ shortMonthNames -> Unbroken name.toList :=
    fun _ => unbroken_of_mem (by decide)
  have marks : forall mark, mark ∈ [", ", " ", ":", "-", "+"] -> Unbroken mark.toList :=
    fun _ => unbroken_of_mem (by decide)
  have comma := marks ", " (by decide)
  have space := marks " " (by decide)
  have colon := marks ":" (by decide)
  unfold formatRFC1123Z
  dsimp only
  refine (unbroken_nameAt _ days).append (comma.append ((unbroken_appendInt _ 2).append
    (space.append ((unbroken_nameAt _ months).append (space.append ((unbroken_appendInt _ 4).append
    (space.append ((unbroken_appendInt _ 2).append (colon.append ((unbroken_appendInt _ 2).append
    (colon.append ((unbroken_appendInt _ 2).append (space.append (Unbroken.append ?_
    ((unbroken_appendInt _ 2).append (unbroken_appendInt _ 2))))))))))))))))
  split
  · exact marks "-" (by decide)
  · exact marks "+" (by decide)

/-! ## The text of a message -/

/-- The names of the fields. -/
def headerNames : List String :=
  ["From", "To", "Cc", "Reply-To", "Subject", "Date", "MIME-Version", "Content-Type"]

theorem headerNames_wellFormed {name : String} (member : name ∈ headerNames) {value : Text}
    (unbroken : Unbroken value) : (field name value).WellFormed := by
  have noColon : headerNames.all (fun name => decide (':' ∉ name.toList)) = true := by decide
  exact ⟨of_decide_eq_true (List.all_eq_true.mp noColon name member),
    unbroken_of_mem (by decide) member, unbroken⟩

theorem unbroken_of_forall₂ {given values : List Text} (oneLines : List.Forall₂ OneLine given values)
    {value : Text} (member : value ∈ values) : Unbroken value := by
  induction oneLines with
  | nil => exact absurd member List.not_mem_nil
  | cons oneLine _ ih =>
      rcases List.mem_cons.mp member with rfl | later
      · exact oneLine.unbroken
      · exact ih later

theorem headerFields_wellFormed {message : Message} {fromEmail fromName : Text}
    {values : HeaderValues} (say : values.Say message fromEmail fromName) (now : Instant)
    (one : HeaderField) (member : one ∈ headerFields message fromName values now) :
    one.WellFormed := by
  have constant : forall text, text ∈ [" <", ">", ", ", "1.0", "text/html; charset=utf-8",
      "text/plain; charset=utf-8"] -> Unbroken text.toList := fun _ => unbroken_of_mem (by decide)
  unfold headerFields at member
  simp only [List.mem_append, List.mem_cons, List.not_mem_nil, or_false] at member
  rcases member with (((rfl | rfl) | cc) | replyTo) | (rfl | rfl | rfl | rfl)
  · apply headerNames_wellFormed (by decide)
    split
    · exact say.fromEmail.unbroken
    · exact say.fromName.unbroken.append ((constant " <" (by decide)).append
        (say.fromEmail.unbroken.append (constant ">" (by decide))))
  · exact headerNames_wellFormed (by decide)
      (unbroken_intercalate (constant ", " (by decide)) fun _ => unbroken_of_forall₂ say.«to»)
  · split at cc
    · exact absurd cc List.not_mem_nil
    · rw [List.mem_singleton.mp cc]
      exact headerNames_wellFormed (by decide)
        (unbroken_intercalate (constant ", " (by decide)) fun _ => unbroken_of_forall₂ say.cc)
  · split at replyTo
    · exact absurd replyTo List.not_mem_nil
    · rw [List.mem_singleton.mp replyTo]
      exact headerNames_wellFormed (by decide) say.replyTo.unbroken
  · exact headerNames_wellFormed (by decide) say.subject.unbroken
  · exact headerNames_wellFormed (by decide) (unbroken_formatRFC1123Z now)
  · exact headerNames_wellFormed (by decide) (constant "1.0" (by decide))
  · apply headerNames_wellFormed (by decide)
    split
    · exact constant "text/html; charset=utf-8" (by decide)
    · exact constant "text/plain; charset=utf-8" (by decide)

/-- The text of a field, as it is printed. -/
theorem printed_eq (name printed : String) (value : Text)
    (named : printed = name ++ ": ") :
    printed.toList ++ value ++ "\r\n".toList = (field name value).line ++ crlf := by
  rw [named, String.toList_append, HeaderField.line, List.append_assoc, List.append_assoc,
    List.append_assoc, List.append_assoc]
  rfl

/-- The text of a field whose value is fixed. -/
theorem fixed_eq (name value : String) {printed : String} (named : printed = name ++ ": " ++ value ++ "\r\n") :
    printed.toList = (field name value.toList).line ++ crlf := by
  rw [named, String.toList_append, String.toList_append]
  exact printed_eq name (name ++ ": ") value.toList rfl

theorem from_eq (fromEmail fromName : Text) :
    (if fromName ≠ [] then
      "From: ".toList ++ fromName ++ " <".toList ++ fromEmail ++ ">\r\n".toList
    else "From: ".toList ++ fromEmail ++ "\r\n".toList) =
      (field "From" (if fromName = [] then fromEmail
        else fromName ++ (" <".toList ++ (fromEmail ++ ">".toList)))).line ++ crlf := by
  rw [<- printed_eq "From" "From: " _ rfl]
  by_cases unnamed : fromName = []
  · rw [if_neg (not_not.mpr unnamed), if_pos unnamed]
  · have closing : ">\r\n".toList = ">".toList ++ "\r\n".toList := rfl
    rw [if_pos unnamed, if_neg unnamed, closing]
    simp only [List.append_assoc]

/-- A field that is printed on a condition. -/
theorem optional_eq (missing : Prop) [Decidable missing] (one : HeaderField) :
    (if missing then [] else [one]).flatMap (fun one => one.line ++ crlf) =
      if ¬ missing then one.line ++ crlf else [] := by
  by_cases absent : missing
  · rw [if_pos absent, if_neg (not_not.mpr absent), List.flatMap_nil]
  · rw [if_neg absent, if_pos absent, List.flatMap_singleton]

/-- The values that `Format` writes. -/
def sanitized (message : Message) (fromEmail fromName : Text) : HeaderValues where
  fromEmail := sanitizeEmailHeaderValue fromEmail
  fromName := sanitizeEmailHeaderValue fromName
  «to» := sanitizeEmailHeaderValues message.«to»
  cc := sanitizeEmailHeaderValues message.cc
  replyTo := sanitizeEmailHeaderValue message.replyTo
  subject := sanitizeEmailHeaderValue message.subject

theorem say_sanitized (message : Message) (fromEmail fromName : Text) :
    (sanitized message fromEmail fromName).Say message fromEmail fromName where
  fromEmail := oneLine_sanitize fromEmail
  fromName := oneLine_sanitize fromName
  «to» := oneLine_sanitizeAll message.«to»
  cc := oneLine_sanitizeAll message.cc
  replyTo := oneLine_sanitize message.replyTo
  subject := oneLine_sanitize message.subject

theorem format_eq (message : Message) (fromEmail fromName : Text) (now : Instant) :
    format message fromEmail fromName now =
      writeMessage (headerFields message fromName (sanitized message fromEmail fromName) now)
        message.body := by
  have present : 0 < (sanitizeEmailHeaderValues message.cc).length ↔ ¬ message.cc = [] := by
    rw [sanitizeEmailHeaderValues, List.length_map, List.length_pos_iff]
  have version : "MIME-Version: 1.0\r\n".toList = (field "MIME-Version" "1.0".toList).line ++ crlf :=
    fixed_eq "MIME-Version" "1.0" rfl
  have content : (if message.isHTML then "Content-Type: text/html; charset=utf-8\r\n".toList
      else "Content-Type: text/plain; charset=utf-8\r\n".toList) =
      (field "Content-Type" (if message.isHTML then "text/html; charset=utf-8".toList
        else "text/plain; charset=utf-8".toList)).line ++ crlf := by
    split
    · exact fixed_eq "Content-Type" "text/html; charset=utf-8" rfl
    · exact fixed_eq "Content-Type" "text/plain; charset=utf-8" rfl
  unfold format headerFields sanitized
  dsimp only
  rw [from_eq, version, content]
  simp only [printed_eq "To" "To: " _ rfl, printed_eq "Cc" "Cc: " _ rfl,
    printed_eq "Reply-To" "Reply-To: " _ rfl, printed_eq "Subject" "Subject: " _ rfl,
    printed_eq "Date" "Date: " _ rfl, present, <- sanitize_eq_nil]
  simp only [writeMessage, List.flatMap_append, List.flatMap_cons, List.flatMap_nil, optional_eq,
    List.append_assoc, List.append_nil]
  rfl

/-- The text of a message is read as its fields, in order, and its body, by
strict and by lenient readers; each field says on one line what was given for
it.  The recipients of a blind copy do not show in the text, and none of it
needs what `Validate` checks. -/
theorem format_read (message : Message) (fromEmail fromName : Text) (now : Instant) :
    (Exists fun values : HeaderValues => values.Say message fromEmail fromName ∧
      forall lenient, readMessage lenient (format message fromEmail fromName now) =
        some (headerFields message fromName values now, message.body)) ∧
    forall bcc, format { message with bcc } fromEmail fromName now =
      format message fromEmail fromName now := by
  refine ⟨⟨_, say_sanitized message fromEmail fromName, fun lenient => ?_⟩, fun bcc => rfl⟩
  rw [format_eq]
  exact readMessage_writeMessage lenient
    (headerFields_wellFormed (say_sanitized message fromEmail fromName) now) _

/-- Line breaks in a nickname and an address, and an empty line in the body. -/
example : readMessage false (format
    { «to» := ["b@x\r\nBcc: c@x".toList], subject := " New\n memo".toList, body := "one\r\n\r\ntwo".toList }
    "memos@x".toList "Ada\r\nX: 1".toList ⟨1735689600, 3600⟩) =
    some ([field "From" "Ada X: 1 <memos@x>".toList, field "To" "b@x Bcc: c@x".toList,
        field "Subject" "New memo".toList, field "Date" (formatRFC1123Z ⟨1735689600, 3600⟩),
        field "MIME-Version" "1.0".toList, field "Content-Type" "text/plain; charset=utf-8".toList],
      "one\r\n\r\ntwo".toList) := by
  rw [format_eq, readMessage_writeMessage false (headerFields_wellFormed (say_sanitized _ _ _) _)]
  rfl

end EmailFormat
end Service
end Memos
