import Mathlib
import Memos.Library.Numbering

namespace Memos
namespace Library
namespace JsonText

/-!
# JSON texts of code units

Strings are sequences of UTF-16 code units.  Any JSON text is read; records of
strings and natural numbers are written without spaces, and what was written is
read back.
-/

abbrev JsString := List UInt16

/-- The code unit of a character below U+10000. -/
def unit (c : Char) : UInt16 := UInt16.ofNat c.toNat

/-- The code units of a text. -/
def js (text : String) : JsString :=
  text.toList.flatMap fun c =>
    if c.toNat < 0x10000 then [unit c]
    else [UInt16.ofNat (0xD800 + (c.toNat - 0x10000) / 1024),
      UInt16.ofNat (0xDC00 + (c.toNat - 0x10000) % 1024)]

/-- A JSON value; a number is the exact value of its text. -/
inductive Value where
  | null
  | bool (value : Bool)
  | number (value : Rat)
  | string (value : JsString)
  | array (elements : List Value)
  | object (members : List (JsString × Value))

/-- A property of a parsed value; the last member of a name counts. -/
def Value.property (name : JsString) : Value -> Option Value
  | .object members => (members.reverse.find? fun member => member.1 = name).map Prod.snd
  | _ => none

/-! ## Reading -/

def isSpace (c : UInt16) : Bool := c ∈ [unit ' ', unit '\n', unit '\r', unit '\t']

def skipSpace (text : JsString) : JsString := text.dropWhile isSpace

def isDigit (c : UInt16) : Bool := unit '0' ≤ c && c ≤ unit '9'

/-- The value of a hexadecimal digit. -/
def hexValue (c : UInt16) : Option Nat :=
  if unit '0' ≤ c ∧ c ≤ unit '9' then some (c.toNat - 48)
  else if unit 'a' ≤ c ∧ c ≤ unit 'f' then some (c.toNat - 87)
  else if unit 'A' ≤ c ∧ c ≤ unit 'F' then some (c.toNat - 55)
  else none

/-- The short escapes, by what stands behind the backslash. -/
def shortEscapes : List (UInt16 × UInt16) :=
  [(unit '"', unit '"'), (unit '\\', unit '\\'), (unit '/', unit '/'), (unit 'b', 8), (unit 'f', 12),
    (unit 'n', 10), (unit 'r', 13), (unit 't', 9)]

/-- Four hexadecimal digits. -/
def readHex : JsString -> Option (UInt16 × JsString)
  | a :: b :: c :: d :: rest =>
      (hexValue a).bind fun a => (hexValue b).bind fun b => (hexValue c).bind fun c =>
        (hexValue d).map fun d => (UInt16.ofNat (a * 4096 + b * 256 + c * 16 + d), rest)
  | _ => none

theorem length_of_readHex {text rest : JsString} {value : UInt16}
    (read : readHex text = some (value, rest)) : rest.length < text.length := by
  match text with
  | [] | [_] | [_, _] | [_, _, _] => exact absurd read (by simp [readHex])
  | a :: b :: c :: d :: text =>
      simp only [readHex, Option.bind_eq_some_iff, Option.map_eq_some_iff, Prod.mk.injEq] at read
      rcases read with ⟨_, _, _, _, _, _, _, _, _, rfl⟩
      simp only [List.length_cons]
      omega

/-- A string behind its opening quote. -/
def readString (text : JsString) : Option (JsString × JsString) :=
  match text with
  | [] => none
  | c :: rest =>
      if c = unit '"' then some ([], rest)
      else if c = unit '\\' then
        match rest with
        | [] => none
        | escape :: rest =>
            if escape = unit 'u' then
              match _read : readHex rest with
              | none => none
              | some (value, rest) =>
                  (readString rest).map fun (later, rest) => (value :: later, rest)
            else
              match shortEscapes.lookup escape with
              | none => none
              | some value => (readString rest).map fun (later, rest) => (value :: later, rest)
      else if c < unit ' ' then none
      else (readString rest).map fun (later, rest) => (c :: later, rest)
termination_by text.length
decreasing_by
  · have shorter := length_of_readHex _read
    simp only [List.length_cons]
    omega
  · simp only [List.length_cons]
    omega
  · exact Nat.lt_succ_self _

def decimal (digits : JsString) : Nat :=
  digits.foldl (fun value digit => 10 * value + (digit.toNat - 48)) 0

/-- `mantissa * 10 ^ exponent` -/
def scale (mantissa : Nat) (exponent : Int) : Rat :=
  if 0 ≤ exponent then (mantissa * 10 ^ exponent.toNat : Nat)
  else mkRat mantissa (10 ^ (-exponent).toNat)

/-- The digits behind a decimal point, if there is one. -/
def readFraction (text : JsString) : Option (JsString × JsString) :=
  match text with
  | [] => some ([], [])
  | c :: rest =>
      if c = unit '.' then
        if rest.takeWhile isDigit = [] then none
        else some (rest.takeWhile isDigit, rest.dropWhile isDigit)
      else some ([], text)

/-- The exponent, if there is one. -/
def readExponent (text : JsString) : Option (Int × JsString) :=
  match text with
  | [] => some (0, [])
  | c :: rest =>
      if c = unit 'e' ∨ c = unit 'E' then
        let digits := if rest.head? = some (unit '-') ∨ rest.head? = some (unit '+') then rest.tail
          else rest
        if digits.takeWhile isDigit = [] then none
        else
          let exponent : Int := decimal (digits.takeWhile isDigit)
          some (if rest.head? = some (unit '-') then -exponent else exponent,
            digits.dropWhile isDigit)
      else some (0, text)

def readNatural (text : JsString) : Option (Rat × JsString) :=
  let digits := text.takeWhile isDigit
  if digits = [] ∨ digits.head? = some (unit '0') ∧ digits ≠ [unit '0'] then none
  else
    (readFraction (text.dropWhile isDigit)).bind fun (fraction, rest) =>
      (readExponent rest).map fun (exponent, rest) =>
        (scale (decimal (digits ++ fraction)) (exponent - fraction.length), rest)

def readNumber (text : JsString) : Option (Rat × JsString) :=
  match text with
  | [] => none
  | c :: rest =>
      if c = unit '-' then (readNatural rest).map fun (value, rest) => (-value, rest)
      else readNatural text

/-- A word at the beginning of a text. -/
def readWord (word : String) (value : Value) (text : JsString) : Option (Value × JsString) :=
  if (js word).isPrefixOf text then some (value, text.drop (js word).length) else none

mutual
/-- Each reader takes a code unit before it calls another one with less fuel, so
that the length of the text is enough of it. -/
def readValue : Nat -> JsString -> Option (Value × JsString)
  | 0, _ => none
  | fuel + 1, text =>
      match skipSpace text with
      | [] => none
      | c :: rest =>
          if c = unit '"' then (readString rest).map fun (value, rest) => (.string value, rest)
          else if c = unit '[' then
            if (skipSpace rest).head? = some (unit ']') then some (.array [], (skipSpace rest).tail)
            else
              (readValue fuel rest).bind fun (element, rest) =>
                (readElements fuel rest).map fun (elements, rest) => (.array (element :: elements), rest)
          else if c = unit '\x7b' then
            if (skipSpace rest).head? = some (unit '\x7d') then
              some (.object [], (skipSpace rest).tail)
            else
              (readMember fuel rest).bind fun (member, rest) =>
                (readMembers fuel rest).map fun (members, rest) => (.object (member :: members), rest)
          else
            readWord "null" .null (c :: rest) <|> readWord "true" (.bool true) (c :: rest) <|>
              readWord "false" (.bool false) (c :: rest) <|>
              (readNumber (c :: rest)).map fun (value, rest) => (.number value, rest)

/-- The elements behind the first one. -/
def readElements : Nat -> JsString -> Option (List Value × JsString)
  | 0, _ => none
  | fuel + 1, text =>
      match skipSpace text with
      | [] => none
      | c :: rest =>
          if c = unit ']' then some ([], rest)
          else if c = unit ',' then
            (readValue fuel rest).bind fun (element, rest) =>
              (readElements fuel rest).map fun (elements, rest) => (element :: elements, rest)
          else none

def readMember : Nat -> JsString -> Option ((JsString × Value) × JsString)
  | 0, _ => none
  | fuel + 1, text =>
      match skipSpace text with
      | [] => none
      | c :: rest =>
          if c = unit '"' then
            (readString rest).bind fun (name, rest) =>
              match skipSpace rest with
              | [] => none
              | c :: rest =>
                  if c = unit ':' then
                    (readValue fuel rest).map fun (value, rest) => ((name, value), rest)
                  else none
          else none

/-- The members behind the first one. -/
def readMembers : Nat -> JsString -> Option (List (JsString × Value) × JsString)
  | 0, _ => none
  | fuel + 1, text =>
      match skipSpace text with
      | [] => none
      | c :: rest =>
          if c = unit '\x7d' then some ([], rest)
          else if c = unit ',' then
            (readMember fuel rest).bind fun (member, rest) =>
              (readMembers fuel rest).map fun (members, rest) => (member :: members, rest)
          else none
end

/-- `JSON.parse` -/
def parse (text : JsString) : Option Value :=
  (readValue (text.length + 1) text).bind fun (value, rest) =>
    if skipSpace rest = [] then some value else none

/-! ## Writing -/

def hexDigit (value : Nat) : UInt16 :=
  if value < 10 then UInt16.ofNat (48 + value) else UInt16.ofNat (87 + value)

def hexEscape (c : UInt16) : JsString :=
  [unit '\\', unit 'u', hexDigit (c.toNat / 4096), hexDigit (c.toNat / 256 % 16),
    hexDigit (c.toNat / 16 % 16), hexDigit (c.toNat % 16)]

def isLeading (c : UInt16) : Bool := 0xD800 ≤ c && c ≤ 0xDBFF

def isTrailing (c : UInt16) : Bool := 0xDC00 ≤ c && c ≤ 0xDFFF

/-- The short escapes that are written, by the code unit. -/
def writtenEscapes : List (UInt16 × UInt16) :=
  [(unit '"', unit '"'), (unit '\\', unit '\\'), (8, unit 'b'), (12, unit 'f'), (10, unit 'n'),
    (13, unit 'r'), (9, unit 't')]

def escapeUnit (c : UInt16) : JsString :=
  match writtenEscapes.lookup c with
  | some escape => [unit '\\', escape]
  | none => if c < unit ' ' || isLeading c || isTrailing c then hexEscape c else [c]

/-- The text of a string between its quotes.  A surrogate is escaped unless it
belongs to a pair, whose first half has just been written or stands here. -/
def escaped (paired : Bool) : JsString -> JsString
  | [] => []
  | c :: rest =>
      if paired then c :: escaped false rest
      else if isLeading c && rest.head?.any isTrailing then c :: escaped true rest
      else escapeUnit c ++ escaped false rest

def quote (value : JsString) : JsString := unit '"' :: (escaped false value ++ [unit '"'])

def writeNatural (value : Nat) : JsString := (Nat.toDigits 10 value).map unit

/-- A value of a record. -/
inductive Field where
  | text (value : JsString)
  | number (value : Nat)
deriving DecidableEq

namespace Field

def value : Field -> Value
  | .text value => .string value
  | .number value => .number value

def written : Field -> JsString
  | .text value => quote value
  | .number value => writeNatural value

end Field

def writeMember (member : JsString × Field) : JsString :=
  quote member.1 ++ unit ':' :: member.2.written

/-- `JSON.stringify` of an object with these properties. -/
def stringify : List (JsString × Field) -> JsString
  | [] => [unit '\x7b', unit '\x7d']
  | member :: members =>
      unit '\x7b' :: (writeMember member ++
        (members.flatMap (fun member => unit ',' :: writeMember member) ++ [unit '\x7d']))

/-! ## What was written is read back -/

theorem hexValue_hexDigit : ∀ digit, digit < 16 -> hexValue (hexDigit digit) = some digit := by
  decide

theorem readHex_hexEscape (c : UInt16) (rest : JsString) :
    readHex ((hexEscape c).drop 2 ++ rest) = some (c, rest) := by
  have bound : c.toNat < 65536 := c.toNat_lt
  have value : c.toNat / 4096 * 4096 + c.toNat / 256 % 16 * 256 + c.toNat / 16 % 16 * 16 +
      c.toNat % 16 = c.toNat := by
    omega
  simp only [hexEscape, List.drop_succ_cons, List.drop_zero, List.cons_append, List.nil_append,
    readHex]
  rw [hexValue_hexDigit _ (by omega), hexValue_hexDigit _ (by omega), hexValue_hexDigit _ (by omega),
    hexValue_hexDigit _ (by omega)]
  simp only [Option.bind_some, Option.map_some, value, UInt16.ofNat_toNat]

/-- Reading one code unit that stands for itself. -/
theorem readString_plain {c : UInt16} (notQuote : c ≠ unit '"') (notBackslash : c ≠ unit '\\')
    (printable : ¬ c < unit ' ') (text : JsString) :
    readString (c :: text) = (readString text).map fun read => (c :: read.1, read.2) := by
  rw [readString.eq_def]
  dsimp only
  rw [if_neg notQuote, if_neg notBackslash, if_neg printable]

theorem readString_hexEscape (c : UInt16) (text : JsString) :
    readString (hexEscape c ++ text) = (readString text).map fun read => (c :: read.1, read.2) := by
  have split : hexEscape c ++ text = unit '\\' :: unit 'u' :: ((hexEscape c).drop 2 ++ text) := rfl
  rw [split, readString.eq_def]
  dsimp only
  rw [if_neg (by decide), if_pos rfl, if_pos rfl]
  split
  · rename_i missed
    rw [readHex_hexEscape] at missed
    contradiction
  · rename_i value rest read
    rw [readHex_hexEscape] at read
    obtain ⟨rfl, rfl⟩ := Prod.mk.inj (Option.some.inj read)
    rfl

theorem readString_escapeUnit (c : UInt16) (text : JsString) :
    readString (escapeUnit c ++ text) = (readString text).map fun read => (c :: read.1, read.2) := by
  have table : writtenEscapes.all (fun pair =>
      decide (shortEscapes.lookup pair.2 = some pair.1 ∧ pair.2 ≠ unit 'u')) = true := by
    decide
  unfold escapeUnit
  split
  · rename_i escape found
    have member : (c, escape) ∈ writtenEscapes := by
      rw [List.lookup_eq_some_iff] at found
      rcases found with ⟨before, after, equal, _⟩
      rw [equal]
      exact List.mem_append_right before List.mem_cons_self
    rcases of_decide_eq_true (List.all_eq_true.mp table _ member) with ⟨short, notLong⟩
    rw [List.cons_append, List.singleton_append, readString.eq_def]
    dsimp only
    rw [if_neg (by decide), if_pos rfl, if_neg notLong, short]
  · rename_i missed
    split
    · exact readString_hexEscape c text
    · rename_i plain
      have other : ∀ pair, pair ∈ writtenEscapes -> c ≠ pair.1 := by
        intro pair member equal
        rw [List.lookup_eq_none_iff] at missed
        have different := missed pair member
        rw [equal, bne_self_eq_false] at different
        exact Bool.false_ne_true different
      have printable : ¬ c < unit ' ' := by
        intro control
        simp [control] at plain
      exact readString_plain (other (unit '"', unit '"') (by decide))
        (other (unit '\\', unit '\\') (by decide)) printable text

theorem plain_of_surrogate {c : UInt16} (surrogate : (isLeading c || isTrailing c) = true) :
    c ≠ unit '"' ∧ c ≠ unit '\\' ∧ ¬ c < unit ' ' := by
  have large : 0xD800 ≤ c := by
    simp only [isLeading, isTrailing, Bool.or_eq_true, Bool.and_eq_true, decide_eq_true_eq] at surrogate
    rcases surrogate with leading | trailing
    · exact leading.1
    · exact UInt16.le_trans (by decide) trailing.1
  refine ⟨?_, ?_, fun small => ?_⟩
  · rintro rfl
    revert large
    decide
  · rintro rfl
    revert large
    decide
  · have bound := UInt16.lt_of_le_of_lt large small
    revert bound
    decide

theorem readString_escaped (value rest : JsString) (paired : Bool)
    (follows : paired = true -> value.head?.any isTrailing = true) :
    readString (escaped paired value ++ unit '"' :: rest) = some (value, rest) := by
  induction value generalizing paired with
  | nil =>
      rw [escaped, List.nil_append, readString.eq_def]
      dsimp only
      rw [if_pos rfl]
  | cons c value ih =>
      rw [escaped]
      split
      · rename_i isPaired
        have trailing : isTrailing c = true := follows isPaired
        rcases plain_of_surrogate (c := c) (by rw [trailing, Bool.or_true]) with
          ⟨notQuote, notBackslash, printable⟩
        rw [List.cons_append, readString_plain notQuote notBackslash printable,
          ih false fun impossible => absurd impossible Bool.false_ne_true]
        rfl
      · split
        · rename_i leading
          rw [Bool.and_eq_true] at leading
          rcases plain_of_surrogate (c := c) (by rw [leading.1, Bool.true_or]) with
            ⟨notQuote, notBackslash, printable⟩
          rw [List.cons_append, readString_plain notQuote notBackslash printable,
            ih true fun _ => leading.2]
          rfl
        · rw [List.append_assoc, readString_escapeUnit, ih false fun impossible => absurd impossible Bool.false_ne_true]
          rfl

theorem readString_quote (value rest : JsString) :
    readString (escaped false value ++ [unit '"'] ++ rest) = some (value, rest) := by
  rw [List.append_assoc, List.singleton_append]
  exact readString_escaped value rest false fun impossible => absurd impossible Bool.false_ne_true

theorem unit_toNat {c : Char} (small : c.toNat < 65536) : (unit c).toNat = c.toNat := by
  rw [unit, UInt16.toNat_ofNat']
  exact Nat.mod_eq_of_lt small

theorem digit_bounds {c : Char} (digit : c.isDigit = true) : 48 ≤ c.toNat ∧ c.toNat ≤ 57 := by
  rw [Char.isDigit, Bool.and_eq_true, decide_eq_true_eq, decide_eq_true_eq] at digit
  exact ⟨UInt32.le_iff_toNat_le.mp digit.1, UInt32.le_iff_toNat_le.mp digit.2⟩

theorem isDigit_unit {c : Char} (digit : c.isDigit = true) : isDigit (unit c) = true := by
  have bounds := digit_bounds digit
  have value := unit_toNat (c := c) (by omega)
  rw [isDigit, Bool.and_eq_true, decide_eq_true_eq, decide_eq_true_eq, UInt16.le_iff_toNat_le,
    UInt16.le_iff_toNat_le, value]
  exact ⟨bounds.1, bounds.2⟩

theorem isDigit_of_mem_writeNatural {value : Nat} {c : UInt16} (member : c ∈ writeNatural value) :
    isDigit c = true := by
  rcases List.mem_map.mp member with ⟨digit, inDigits, rfl⟩
  exact isDigit_unit (Nat.isDigit_of_mem_toDigits (by decide) (by decide) inDigits)

theorem decimal_unit {digits : List Char} (all : ∀ c, c ∈ digits -> c.isDigit = true) (start : Nat) :
    (digits.map unit).foldl (fun value digit => 10 * value + (digit.toNat - 48)) start =
      Nat.ofDigitChars 10 digits start := by
  induction digits generalizing start with
  | nil => rfl
  | cons c digits ih =>
      have bounds := digit_bounds (all c List.mem_cons_self)
      rw [List.map_cons, List.foldl_cons, unit_toNat (by omega),
        ih fun other member => all other (List.mem_cons_of_mem c member)]
      rfl

theorem decimal_writeNatural (value : Nat) : decimal (writeNatural value) = value := by
  rw [decimal, writeNatural, decimal_unit fun c member =>
    Nat.isDigit_of_mem_toDigits (by decide) (by decide) member]
  exact Nat.ofDigitChars_ten_toDigits

theorem unit_injective {c other : Char} (small : c.toNat < 65536) (otherSmall : other.toNat < 65536)
    (equal : unit c = unit other) : c = other := by
  have values := congrArg UInt16.toNat equal
  rw [unit_toNat small, unit_toNat otherSmall] at values
  exact Char.toNat_inj.mp values

theorem writeNatural_head (value : Nat) (zero : (writeNatural value).head? = some (unit '0')) :
    writeNatural value = [unit '0'] := by
  rw [writeNatural, List.head?_map, Option.map_eq_some_iff] at zero
  rcases zero with ⟨c, first, equal⟩
  have digit := Nat.isDigit_of_mem_toDigits (by decide) (by decide) (List.mem_of_head? first)
  have bounds := digit_bounds digit
  have zeroChar : c = '0' := unit_injective (by omega) (by decide) equal
  rw [writeNatural, toDigits_head value (zeroChar ▸ first)]
  rfl

/-- What follows a value in a record. -/
def Follows (rest : JsString) : Prop :=
  Exists fun c => Exists fun more => rest = c :: more ∧ (c = unit ',' ∨ c = unit '\x7d')

theorem readNatural_writeNatural (value : Nat) {rest : JsString} (follows : Follows rest) :
    readNatural (writeNatural value ++ rest) = some ((value : Rat), rest) := by
  have digits : ∀ c, c ∈ writeNatural value -> isDigit c = true :=
    fun c member => isDigit_of_mem_writeNatural member
  rcases follows with ⟨c, more, rfl, ends⟩
  have noDigit : isDigit c = false := by
    rcases ends with rfl | rfl <;> decide
  have notPoint : c ≠ unit '.' := by
    rcases ends with rfl | rfl <;> decide
  have notExponent : ¬ (c = unit 'e' ∨ c = unit 'E') := by
    rcases ends with rfl | rfl <;> decide
  have taken : (writeNatural value ++ c :: more).takeWhile isDigit = writeNatural value := by
    rw [List.takeWhile_append_of_pos digits, List.takeWhile_cons, if_neg (by rw [noDigit]; decide),
      List.append_nil]
  have dropped : (writeNatural value ++ c :: more).dropWhile isDigit = c :: more := by
    rw [List.dropWhile_append_of_pos digits, List.dropWhile_cons, if_neg (by rw [noDigit]; decide)]
  have wellFormed : ¬ (writeNatural value = [] ∨
      (writeNatural value).head? = some (unit '0') ∧ writeNatural value ≠ [unit '0']) := by
    rintro (empty | ⟨zero, other⟩)
    · rw [writeNatural, List.map_eq_nil_iff] at empty
      exact Nat.toDigits_ne_nil empty
    · exact other (writeNatural_head value zero)
  unfold readNatural
  dsimp only
  rw [taken, dropped, if_neg wellFormed, readFraction, if_neg notPoint, Option.bind_some, readExponent]
  dsimp only
  rw [if_neg notExponent, Option.map_some, List.append_nil, decimal_writeNatural]
  simp [scale]

theorem skipSpace_of_not_isSpace {c : UInt16} (noSpace : isSpace c = false) (rest : JsString) :
    skipSpace (c :: rest) = c :: rest := by
  rw [skipSpace, List.dropWhile_cons, if_neg (by rw [noSpace]; decide)]

theorem readWord_of_head (word : String) {value : Value} {c first : UInt16} {rest tail : JsString}
    (word_eq : js word = first :: tail) (different : first ≠ c) :
    readWord word value (c :: rest) = none := by
  rw [readWord, word_eq, if_neg]
  rw [List.isPrefixOf_cons_cons, Bool.and_eq_true, beq_iff_eq]
  exact fun both => different both.1

theorem readValue_written (fuel : Nat) (field : Field) {rest : JsString} (follows : Follows rest) :
    readValue (fuel + 1) (field.written ++ rest) = some (field.value, rest) := by
  cases field with
  | text value =>
      have opening : Field.written (.text value) ++ rest =
          unit '"' :: (escaped false value ++ [unit '"'] ++ rest) := by
        rw [Field.written, quote, List.cons_append]
      rw [opening, readValue, skipSpace_of_not_isSpace (by decide)]
      dsimp only
      rw [if_pos rfl, readString_quote]
      rfl
  | number value =>
      have read := readNatural_writeNatural value follows
      rw [Field.written]
      rcases digits : writeNatural value with _ | ⟨c, tail⟩
      · rw [writeNatural, List.map_eq_nil_iff] at digits
        exact absurd digits Nat.toDigits_ne_nil
      · have isDigit : isDigit c = true :=
          isDigit_of_mem_writeNatural (digits ▸ List.mem_cons_self : c ∈ writeNatural value)
        have other : ∀ mark, JsonText.isDigit mark = false -> c ≠ mark := by
          intro mark noDigit equal
          rw [equal, noDigit] at isDigit
          contradiction
        have noSpace : isSpace c = false := by
          rw [isSpace, decide_eq_false_iff_not]
          intro member
          have spaces : [unit ' ', unit '\n', unit '\r', unit '\t'].all (fun mark =>
              decide (JsonText.isDigit mark = false)) = true := by
            decide
          exact other c (of_decide_eq_true (List.all_eq_true.mp spaces c member)) rfl
        rw [digits] at read
        rw [List.cons_append, readValue, skipSpace_of_not_isSpace noSpace]
        dsimp only
        rw [if_neg (other _ (by decide)), if_neg (other _ (by decide)), if_neg (other _ (by decide)),
          readWord_of_head "null" rfl (other _ (by decide)).symm,
          readWord_of_head "true" rfl (other _ (by decide)).symm,
          readWord_of_head "false" rfl (other _ (by decide)).symm, readNumber]
        dsimp only
        rw [if_neg (other _ (by decide)), <- List.cons_append, read]
        rfl

theorem readMember_written (fuel : Nat) (member : JsString × Field) {rest : JsString}
    (follows : Follows rest) :
    readMember (fuel + 2) (writeMember member ++ rest) = some ((member.1, member.2.value), rest) := by
  have opening : writeMember member ++ rest =
      unit '"' :: (escaped false member.1 ++ [unit '"'] ++ unit ':' :: (member.2.written ++ rest)) := by
    simp [writeMember, quote]
  rw [opening, readMember, skipSpace_of_not_isSpace (by decide)]
  dsimp only
  rw [if_pos rfl, readString_quote, Option.bind_some, skipSpace_of_not_isSpace (by decide)]
  dsimp only
  rw [if_pos rfl, readValue_written fuel member.2 follows]
  rfl

theorem follows_members (members : List (JsString × Field)) (rest : JsString) :
    Follows (members.flatMap (fun member => unit ',' :: writeMember member) ++ unit '\x7d' :: rest) := by
  cases members with
  | nil => exact ⟨unit '\x7d', rest, rfl, Or.inr rfl⟩
  | cons member members => exact ⟨unit ',', _, rfl, Or.inl rfl⟩

theorem readMembers_written (members : List (JsString × Field)) (fuel : Nat) (rest : JsString)
    (enough : members.length + 1 < fuel) :
    readMembers fuel (members.flatMap (fun member => unit ',' :: writeMember member) ++
      unit '\x7d' :: rest) =
      some (members.map fun member => (member.1, member.2.value), rest) := by
  induction members generalizing fuel with
  | nil =>
      rcases Nat.exists_eq_succ_of_ne_zero (show fuel ≠ 0 by omega) with ⟨fuel, rfl⟩
      rw [List.flatMap_nil, List.nil_append, readMembers, skipSpace_of_not_isSpace (by decide)]
      dsimp only
      rw [if_pos rfl]
      rfl
  | cons member members ih =>
      rw [List.length_cons] at enough
      rcases Nat.exists_eq_add_of_le (show 3 ≤ fuel by omega) with ⟨fuel, rfl⟩
      rw [List.flatMap_cons, List.cons_append, List.cons_append, List.append_assoc,
        show 3 + fuel = fuel + 2 + 1 by omega, readMembers, skipSpace_of_not_isSpace (by decide)]
      dsimp only
      rw [if_neg (by decide), if_pos rfl, readMember_written fuel member (follows_members members rest),
        Option.bind_some, ih (fuel + 2) (by omega)]
      rfl

theorem length_writeMember (member : JsString × Field) : 2 ≤ (writeMember member).length := by
  simp only [writeMember, quote, List.length_append, List.length_cons]
  omega

/-- `JSON.parse` of what `JSON.stringify` has written. -/
theorem parse_stringify (members : List (JsString × Field)) :
    parse (stringify members) =
      some (.object (members.map fun member => (member.1, member.2.value))) := by
  cases members with
  | nil => rfl
  | cons member members =>
      have longer : ∀ others : List (JsString × Field), others.length ≤
          (others.flatMap fun member => unit ',' :: writeMember member).length := by
        intro others
        induction others with
        | nil => exact Nat.zero_le _
        | cons other others ih =>
            rw [List.flatMap_cons, List.length_append, List.length_cons, List.length_cons]
            omega
      have enough := longer members
      have text : stringify (member :: members) = unit '\x7b' :: (writeMember member ++
          (members.flatMap (fun member => unit ',' :: writeMember member) ++ unit '\x7d' :: [])) := rfl
      have first := length_writeMember member
      have fuel : Exists fun fuel => (stringify (member :: members)).length = fuel + 2 ∧
          members.length + 1 < fuel + 2 := by
        refine ⟨(stringify (member :: members)).length - 2, ?_, ?_⟩ <;>
          rw [text] <;> simp only [List.length_cons, List.length_append] <;> omega
      rcases fuel with ⟨fuel, length_eq, enough⟩
      have noBrace : (skipSpace (writeMember member ++
          (members.flatMap (fun member => unit ',' :: writeMember member) ++ [unit '\x7d']))).head? ≠
          some (unit '\x7d') := by
        have opening : writeMember member ++
            (members.flatMap (fun member => unit ',' :: writeMember member) ++ [unit '\x7d']) =
            unit '"' :: (escaped false member.1 ++ [unit '"'] ++ unit ':' :: (member.2.written ++
              (members.flatMap (fun member => unit ',' :: writeMember member) ++ [unit '\x7d']))) := by
          simp [writeMember, quote]
        rw [opening, skipSpace_of_not_isSpace (by decide)]
        exact fun equal => absurd (Option.some.inj equal) (by decide)
      rw [parse, length_eq, text, readValue, skipSpace_of_not_isSpace (by decide)]
      dsimp only
      rw [if_neg (by decide), if_neg (by decide), if_pos rfl, if_neg noBrace,
        readMember_written fuel member (follows_members members []), Option.bind_some,
        readMembers_written members (fuel + 2) [] enough]
      rfl

end JsonText
end Library
end Memos
