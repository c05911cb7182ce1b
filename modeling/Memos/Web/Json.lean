import Memos.Filter.Json
import Memos.Library.Numbering

namespace Memos
namespace Web

open Filter (escapeChar hexDigit hexValue unescape)

/-!
# JSON texts of the web client

`JSON.stringify` with an indentation of two spaces, and `JSON.parse`.  What was
written is read back.
-/

/-- A JSON value, with natural numbers only. -/
inductive Json where
  | null
  | bool (value : Bool)
  | number (value : Nat)
  | string (value : String)
  | array (elements : List Json)
  | object (members : List (String × Json))

/-! ## Writing -/

def indent (level : Nat) : List Char := List.replicate (2 * level) ' '

def quote (value : String) : List Char := '"' :: value.toList.flatMap escapeChar ++ ['"']

namespace Json

mutual
def stringify (level : Nat) : Json -> List Char
  | .null => ['n', 'u', 'l', 'l']
  | .bool true => ['t', 'r', 'u', 'e']
  | .bool false => ['f', 'a', 'l', 's', 'e']
  | .number value => Nat.toDigits 10 value
  | .string value => quote value
  | .array [] => ['[', ']']
  | .array (element :: elements) =>
      '[' :: '\n' :: indent (level + 1) ++ stringify (level + 1) element ++
        stringifyElements (level + 1) elements ++ '\n' :: indent level ++ [']']
  | .object [] => ['\x7b', '\x7d']
  | .object ((key, value) :: members) =>
      '\x7b' :: '\n' :: indent (level + 1) ++ quote key ++ ':' :: ' ' :: stringify (level + 1) value ++
        stringifyMembers (level + 1) members ++ '\n' :: indent level ++ ['\x7d']

def stringifyElements (level : Nat) : List Json -> List Char
  | [] => []
  | element :: elements =>
      ',' :: '\n' :: indent level ++ stringify level element ++ stringifyElements level elements

def stringifyMembers (level : Nat) : List (String × Json) -> List Char
  | [] => []
  | (key, value) :: members =>
      ',' :: '\n' :: indent level ++ quote key ++ ':' :: ' ' :: stringify level value ++
        stringifyMembers level members
end

end Json

/-! ## Reading -/

def isSpace (c : Char) : Bool := c = ' ' || c = '\n' || c = '\r' || c = '\t'

def skipSpace (text : List Char) : List Char := text.dropWhile isSpace

/-- A string behind its opening quote.  An escaped code unit must be a character
by itself. -/
def readString : List Char -> Option (List Char × List Char)
  | [] => none
  | '"' :: rest => some ([], rest)
  | '\\' :: 'u' :: a :: b :: c :: d :: rest => do
      let code := (← hexValue a) * 4096 + (← hexValue b) * 256 + (← hexValue c) * 16 + (← hexValue d)
      if code.isValidChar then
        let (later, rest) ← readString rest
        return (Char.ofNat code :: later, rest)
      else none
  | '\\' :: c :: rest => do
      let plain ← unescape c
      let (later, rest) ← readString rest
      return (plain :: later, rest)
  | c :: rest =>
      if c = '\\' ∨ c.toNat < 32 then none
      else do
        let (later, rest) ← readString rest
        return (c :: later, rest)

/-- A number without sign, fraction and exponent. -/
def readNumber (text : List Char) : Option (Nat × List Char) :=
  let digits := text.takeWhile Char.isDigit
  if digits = [] ∨ digits.head? = some '0' ∧ digits ≠ ['0'] then none
  else some (Nat.ofDigitChars 10 digits 0, text.dropWhile Char.isDigit)

mutual
def readValue : Nat -> List Char -> Option (Json × List Char)
  | 0, _ => none
  | fuel + 1, text =>
      match skipSpace text with
      | 'n' :: 'u' :: 'l' :: 'l' :: rest => some (.null, rest)
      | 't' :: 'r' :: 'u' :: 'e' :: rest => some (.bool true, rest)
      | 'f' :: 'a' :: 'l' :: 's' :: 'e' :: rest => some (.bool false, rest)
      | '"' :: rest => do
          let (value, rest) ← readString rest
          return (.string (String.ofList value), rest)
      | '[' :: rest =>
          if (skipSpace rest).head? = some ']' then some (.array [], (skipSpace rest).tail)
          else do
            let (element, rest) ← readValue fuel rest
            let (elements, rest) ← readElements fuel rest
            return (.array (element :: elements), rest)
      | '\x7b' :: rest =>
          if (skipSpace rest).head? = some '\x7d' then some (.object [], (skipSpace rest).tail)
          else do
            let (member, rest) ← readMember fuel rest
            let (members, rest) ← readMembers fuel rest
            return (.object (member :: members), rest)
      | rest => do
          let (value, rest) ← readNumber rest
          return (.number value, rest)

/-- The elements behind the first one. -/
def readElements : Nat -> List Char -> Option (List Json × List Char)
  | 0, _ => none
  | fuel + 1, text =>
      match skipSpace text with
      | ']' :: rest => some ([], rest)
      | ',' :: rest => do
          let (element, rest) ← readValue fuel rest
          let (elements, rest) ← readElements fuel rest
          return (element :: elements, rest)
      | _ => none

def readMember : Nat -> List Char -> Option ((String × Json) × List Char)
  | 0, _ => none
  | fuel + 1, text =>
      match skipSpace text with
      | '"' :: rest => do
          let (key, rest) ← readString rest
          match skipSpace rest with
          | ':' :: rest => do
              let (value, rest) ← readValue fuel rest
              return ((String.ofList key, value), rest)
          | _ => none
      | _ => none

/-- The members behind the first one. -/
def readMembers : Nat -> List Char -> Option (List (String × Json) × List Char)
  | 0, _ => none
  | fuel + 1, text =>
      match skipSpace text with
      | '\x7d' :: rest => some ([], rest)
      | ',' :: rest => do
          let (member, rest) ← readMember fuel rest
          let (members, rest) ← readMembers fuel rest
          return (member :: members, rest)
      | _ => none
end

namespace Json

/-- `JSON.parse` -/
def parse (text : List Char) : Option Json := do
  let (value, rest) ← readValue (text.length + 1) text
  if skipSpace rest = [] then some value else none

end Json

/-! ## What was written is read back -/

theorem skipSpace_line (level : Nat) (text : List Char) :
    skipSpace ('\n' :: indent level ++ text) = skipSpace text := by
  have spaces : ∀ count : Nat, skipSpace (List.replicate count ' ' ++ text) = skipSpace text := by
    intro count
    induction count with
    | zero => rfl
    | succ count ih =>
        rw [List.replicate_succ, List.cons_append]
        exact ih
  exact spaces (2 * level)

theorem hexValue_hexDigit : ∀ digit, digit < 16 -> hexValue (hexDigit digit) = some digit := by
  decide

theorem readString_short {escape plain : Char} (known : unescape escape = some plain) (text : List Char) :
    readString ('\\' :: escape :: text) = (readString text).map fun (later, rest) => (plain :: later, rest) := by
  have notUnicode : escape ≠ 'u' := by
    rintro rfl
    cases known
  rw [readString, known]
  · cases readString text <;> rfl
  · exact fun _ _ _ _ _ same => absurd same notUnicode

theorem readString_escapeChar (c : Char) (text : List Char) :
    readString (escapeChar c ++ text) = (readString text).map fun (later, rest) => (c :: later, rest) := by
  unfold escapeChar
  split
  · subst c
    exact readString_short rfl text
  split
  · subst c
    exact readString_short rfl text
  split
  · subst c
    exact readString_short rfl text
  split
  · subst c
    exact readString_short rfl text
  split
  · subst c
    exact readString_short rfl text
  split
  · subst c
    exact readString_short rfl text
  split
  · subst c
    exact readString_short rfl text
  split
  next control =>
    have high := hexValue_hexDigit (c.toNat / 16) (by omega)
    have low := hexValue_hexDigit (c.toNat % 16) (by omega)
    have code : 0 * 4096 + 0 * 256 + c.toNat / 16 * 16 + c.toNat % 16 = c.toNat := by omega
    have zero : hexValue '0' = some 0 := rfl
    simp only [List.cons_append, List.nil_append]
    rw [readString, zero, high, low]
    simp only [Option.bind_eq_bind, Option.bind_some, code]
    have valid : c.toNat.isValidChar := c.valid
    rw [if_pos valid, Char.ofNat_toNat]
    cases readString text <;> rfl
  next notQuote notBackslash _ _ _ _ _ printable =>
    simp only [List.cons_append, List.nil_append]
    rw [readString]
    · rw [if_neg (by simp [notBackslash, printable])]
      cases readString text <;> rfl
    · exact notQuote
    · exact fun _ _ _ _ _ same => absurd same notBackslash
    · exact fun _ _ same => absurd same notBackslash

theorem readString_escaped (value rest : List Char) :
    readString (value.flatMap escapeChar ++ '"' :: rest) = some (value, rest) := by
  induction value with
  | nil => simp [readString]
  | cons c value ih =>
      rw [List.flatMap_cons, List.append_assoc, readString_escapeChar, ih]
      rfl

/-- What follows a number does not go on with a digit. -/
def EndsNumber (rest : List Char) : Prop := rest.takeWhile Char.isDigit = []

theorem endsNumber_cons {c : Char} (noDigit : c.isDigit = false) (rest : List Char) : EndsNumber (c :: rest) := by
  unfold EndsNumber
  rw [List.takeWhile_cons, noDigit]
  rfl

theorem readNumber_toDigits (value : Nat) {rest : List Char} (ends : EndsNumber rest) :
    readNumber (Nat.toDigits 10 value ++ rest) = some (value, rest) := by
  have digits : ∀ c, c ∈ Nat.toDigits 10 value -> c.isDigit = true :=
    fun c member => Nat.isDigit_of_mem_toDigits (by decide) (by decide) member
  have taken : (Nat.toDigits 10 value ++ rest).takeWhile Char.isDigit = Nat.toDigits 10 value := by
    rw [List.takeWhile_append_of_pos digits, ends, List.append_nil]
  have dropped : (Nat.toDigits 10 value ++ rest).dropWhile Char.isDigit = rest := by
    have whole := rest.takeWhile_append_dropWhile (p := Char.isDigit)
    rw [ends, List.nil_append] at whole
    rw [List.dropWhile_append_of_pos digits, whole]
  unfold readNumber
  dsimp only
  rw [taken, dropped, Nat.ofDigitChars_ten_toDigits, if_neg]
  rintro (empty | ⟨zero, other⟩)
  · exact Nat.toDigits_ne_nil empty
  · exact other (Library.toDigits_head value zero)

theorem digit_begins {c : Char} (isDigit : c.isDigit = true) : isSpace c = false ∧ c ≠ ']' := by
  constructor
  · by_contra space
    rw [Bool.not_eq_false, isSpace] at space
    simp only [Bool.or_eq_true, decide_eq_true_eq] at space
    rcases space with ((rfl | rfl) | rfl) | rfl <;> cases isDigit
  · rintro rfl
    cases isDigit

/-- A value does not begin with a space or a closing bracket. -/
theorem stringify_head (level : Nat) (json : Json) (rest : List Char) :
    skipSpace (json.stringify level ++ rest) = json.stringify level ++ rest ∧
      (json.stringify level ++ rest).head? ≠ some ']' := by
  have begins : ∀ (c : Char) (text : List Char), json.stringify level = c :: text ->
      isSpace c = false -> c ≠ ']' -> skipSpace (json.stringify level ++ rest) = json.stringify level ++ rest ∧
        (json.stringify level ++ rest).head? ≠ some ']' := by
    intro c text same noSpace noBracket
    rw [same, List.cons_append]
    refine ⟨?_, fun bracket => noBracket (Option.some.inj bracket)⟩
    rw [skipSpace, List.dropWhile_cons, if_neg (by rw [noSpace]; decide)]
  match json with
  | .null => exact begins _ _ (by rw [Json.stringify]) (by decide) (by decide)
  | .bool true => exact begins _ _ (by rw [Json.stringify]) (by decide) (by decide)
  | .bool false => exact begins _ _ (by rw [Json.stringify]) (by decide) (by decide)
  | .string value => exact begins _ _ (by rw [Json.stringify, quote]; rfl) (by decide) (by decide)
  | .array [] => exact begins _ _ (by rw [Json.stringify]) (by decide) (by decide)
  | .array (_ :: _) => exact begins _ _ (by rw [Json.stringify]; rfl) (by decide) (by decide)
  | .object [] => exact begins _ _ (by rw [Json.stringify]) (by decide) (by decide)
  | .object ((_, _) :: _) => exact begins _ _ (by rw [Json.stringify]; rfl) (by decide) (by decide)
  | .number value =>
      rcases digits : Nat.toDigits 10 value with _ | ⟨c, tail⟩
      · exact absurd digits Nat.toDigits_ne_nil
      · have isDigit : c.isDigit = true := Nat.isDigit_of_mem_toDigits (by decide) (by decide)
          (digits ▸ List.mem_cons_self : c ∈ Nat.toDigits 10 value)
        rcases digit_begins isDigit with ⟨noSpace, noBracket⟩
        exact begins c tail (by rw [Json.stringify, digits]) noSpace noBracket

theorem readValue_line (fuel level : Nat) (text : List Char) :
    readValue fuel ('\n' :: indent level ++ text) = readValue fuel text := by
  cases fuel with
  | zero => rw [readValue, readValue]
  | succ fuel => rw [readValue, readValue, skipSpace_line]

theorem readMember_line (fuel level : Nat) (text : List Char) :
    readMember fuel ('\n' :: indent level ++ text) = readMember fuel text := by
  cases fuel with
  | zero => rw [readMember, readMember]
  | succ fuel => rw [readMember, readMember, skipSpace_line]

theorem readValue_bracket (fuel : Nat) (text : List Char) : readValue (fuel + 1) ('[' :: text) =
    if (skipSpace text).head? = some ']' then some (.array [], (skipSpace text).tail)
    else (readValue fuel text).bind fun first =>
      (readElements fuel first.2).bind fun others => some (.array (first.1 :: others.1), others.2) := by
  rw [readValue]
  rfl

theorem readValue_brace (fuel : Nat) (text : List Char) : readValue (fuel + 1) ('\x7b' :: text) =
    if (skipSpace text).head? = some '\x7d' then some (.object [], (skipSpace text).tail)
    else (readMember fuel text).bind fun first =>
      (readMembers fuel first.2).bind fun others => some (.object (first.1 :: others.1), others.2) := by
  rw [readValue]
  rfl

theorem readElements_comma (fuel : Nat) (text : List Char) : readElements (fuel + 1) (',' :: text) =
    (readValue fuel text).bind fun first =>
      (readElements fuel first.2).bind fun others => some (first.1 :: others.1, others.2) := by
  rw [readElements]
  rfl

theorem readMembers_comma (fuel : Nat) (text : List Char) : readMembers (fuel + 1) (',' :: text) =
    (readMember fuel text).bind fun first =>
      (readMembers fuel first.2).bind fun others => some (first.1 :: others.1, others.2) := by
  rw [readMembers]
  rfl

theorem readString_quote (value : String) (rest : List Char) :
    readString ((value.toList.flatMap escapeChar ++ ['"']) ++ rest) = some (value.toList, rest) := by
  rw [List.append_assoc]
  exact readString_escaped value.toList rest

/-- A member without its indentation. -/
theorem readMember_text {fuel level : Nat} {key : String} {value : Json} {rest : List Char}
    (read : readValue fuel (value.stringify level ++ rest) = some (value, rest)) :
    readMember (fuel + 1) (quote key ++ ':' :: ' ' :: value.stringify level ++ rest) =
      some ((key, value), rest) := by
  have text : quote key ++ ':' :: ' ' :: value.stringify level ++ rest =
      '"' :: ((key.toList.flatMap escapeChar ++ ['"']) ++ (':' :: ' ' :: (value.stringify level ++ rest))) := by
    simp [quote]
  have spaced : readValue fuel (' ' :: (value.stringify level ++ rest)) = some (value, rest) := by
    rw [← read]
    cases fuel with
    | zero => rw [readValue, readValue]
    | succ fuel => rw [readValue, readValue]; rfl
  have opening (more : List Char) : skipSpace ('"' :: more) = '"' :: more := rfl
  have colon (more : List Char) : skipSpace (':' :: more) = ':' :: more := rfl
  rw [text, readMember, opening]
  simp only [readString_quote, Option.bind_eq_bind, Option.bind_some, colon, spaced, String.ofList_toList,
    Option.pure_def]

theorem endsNumber_line (level : Nat) (rest : List Char) :
    EndsNumber ('\n' :: indent level ++ rest) := endsNumber_cons rfl _

theorem endsNumber_elements (elements : List Json) (level last : Nat) (rest : List Char) :
    EndsNumber (Json.stringifyElements level elements ++ ('\n' :: indent last ++ ']' :: rest)) := by
  cases elements with
  | nil => exact endsNumber_line last _
  | cons element elements =>
      rw [Json.stringifyElements]
      exact endsNumber_cons rfl _

theorem endsNumber_members (members : List (String × Json)) (level last : Nat) (rest : List Char) :
    EndsNumber (Json.stringifyMembers level members ++ ('\n' :: indent last ++ '\x7d' :: rest)) := by
  match members with
  | [] => exact endsNumber_line last _
  | (key, value) :: members =>
      rw [Json.stringifyMembers]
      exact endsNumber_cons rfl _

/-- A number, whose text begins with a digit. -/
theorem readValue_number (fuel value : Nat) {rest : List Char} (ends : EndsNumber rest) :
    readValue (fuel + 1) (Nat.toDigits 10 value ++ rest) = some (.number value, rest) := by
  have read := readNumber_toDigits value ends
  rcases digits : Nat.toDigits 10 value with _ | ⟨c, tail⟩
  · exact absurd digits Nat.toDigits_ne_nil
  rw [digits] at read
  have isDigit : c.isDigit = true :=
    Nat.isDigit_of_mem_toDigits (by decide) (by decide) (digits ▸ List.mem_cons_self : c ∈ Nat.toDigits 10 value)
  have noSpace := (digit_begins isDigit).1
  have start : skipSpace (c :: tail ++ rest) = c :: tail ++ rest := by
    rw [List.cons_append, skipSpace, List.dropWhile_cons, if_neg (by rw [noSpace]; decide)]
  rw [readValue, start]
  split
  case h_7 => rw [read]; rfl
  all_goals
    next same =>
      rw [List.cons_append] at same
      rw [(List.cons.inj same).1] at isDigit
      cases isDigit

mutual
theorem readValue_stringify (json : Json) (level fuel : Nat) (rest : List Char)
    (enough : (json.stringify level).length < fuel) (ends : EndsNumber rest) :
    readValue fuel (json.stringify level ++ rest) = some (json, rest) := by
  match fuel, json with
  | fuel + 1, .null => rw [Json.stringify]; rfl
  | fuel + 1, .bool true => rw [Json.stringify]; rfl
  | fuel + 1, .bool false => rw [Json.stringify]; rfl
  | fuel + 1, .number value =>
      rw [Json.stringify]
      exact readValue_number fuel value ends
  | fuel + 1, .string value =>
      have opening (more : List Char) : skipSpace ('"' :: more) = '"' :: more := rfl
      rw [Json.stringify, quote, List.cons_append, List.cons_append, readValue, opening]
      simp only [readString_quote, Option.bind_eq_bind, Option.bind_some, String.ofList_toList, Option.pure_def]
  | fuel + 1, .array [] => rw [Json.stringify]; rfl
  | fuel + 1, .array (element :: elements) =>
      rw [Json.stringify] at enough ⊢
      simp only [List.length_append, List.length_cons] at enough
      have first := readValue_stringify element (level + 1) fuel
        (Json.stringifyElements (level + 1) elements ++ ('\n' :: indent level ++ ']' :: rest)) (by omega)
        (endsNumber_elements elements (level + 1) level rest)
      have others := readElements_stringify elements (level + 1) level fuel rest (by omega)
      have head := stringify_head (level + 1) element
        (Json.stringifyElements (level + 1) elements ++ ('\n' :: indent level ++ ']' :: rest))
      have text : '[' :: '\n' :: indent (level + 1) ++ element.stringify (level + 1) ++
          Json.stringifyElements (level + 1) elements ++ '\n' :: indent level ++ [']'] ++ rest =
          '[' :: ('\n' :: indent (level + 1) ++ (element.stringify (level + 1) ++
            (Json.stringifyElements (level + 1) elements ++ ('\n' :: indent level ++ ']' :: rest)))) := by
        simp
      rw [text, readValue_bracket, skipSpace_line, head.1, if_neg head.2, readValue_line, first,
        Option.bind_some, others, Option.bind_some]
  | fuel + 1, .object [] => rw [Json.stringify]; rfl
  | 1, .object ((key, value) :: members) =>
      rw [Json.stringify] at enough
      simp only [List.length_append, List.length_cons] at enough
      omega
  | fuel + 2, .object ((key, value) :: members) =>
      rw [Json.stringify] at enough ⊢
      simp only [List.length_append, List.length_cons] at enough
      have first := readValue_stringify value (level + 1) fuel
        (Json.stringifyMembers (level + 1) members ++ ('\n' :: indent level ++ '\x7d' :: rest)) (by omega)
        (endsNumber_members members (level + 1) level rest)
      have member := @readMember_text _ _ key _ _ first
      have others := readMembers_stringify members (level + 1) level (fuel + 1) rest (by omega)
      have head : (skipSpace (quote key ++ ':' :: ' ' :: value.stringify (level + 1) ++
          (Json.stringifyMembers (level + 1) members ++ ('\n' :: indent level ++ '\x7d' :: rest)))).head? ≠
          some '\x7d' := by
        intro brace
        cases brace
      have text : '\x7b' :: '\n' :: indent (level + 1) ++ quote key ++ ':' :: ' ' :: value.stringify (level + 1) ++
          Json.stringifyMembers (level + 1) members ++ '\n' :: indent level ++ ['\x7d'] ++ rest =
          '\x7b' :: ('\n' :: indent (level + 1) ++ (quote key ++ ':' :: ' ' :: value.stringify (level + 1) ++
            (Json.stringifyMembers (level + 1) members ++ ('\n' :: indent level ++ '\x7d' :: rest)))) := by
        simp
      rw [text, readValue_brace, skipSpace_line, if_neg head, readMember_line, member, Option.bind_some, others,
        Option.bind_some]

theorem readElements_stringify (elements : List Json) (level last fuel : Nat) (rest : List Char)
    (enough : (Json.stringifyElements level elements).length < fuel) :
    readElements fuel (Json.stringifyElements level elements ++ ('\n' :: indent last ++ ']' :: rest)) =
      some (elements, rest) := by
  match fuel, elements with
  | fuel + 1, [] =>
      rw [Json.stringifyElements, List.nil_append, readElements, skipSpace_line]
      rfl
  | fuel + 1, element :: elements =>
      rw [Json.stringifyElements] at enough ⊢
      simp only [List.length_append, List.length_cons] at enough
      have first := readValue_stringify element level fuel
        (Json.stringifyElements level elements ++ ('\n' :: indent last ++ ']' :: rest)) (by omega)
        (endsNumber_elements elements level last rest)
      have others := readElements_stringify elements level last fuel rest (by omega)
      have text : ',' :: '\n' :: indent level ++ element.stringify level ++
          Json.stringifyElements level elements ++ ('\n' :: indent last ++ ']' :: rest) =
          ',' :: ('\n' :: indent level ++ (element.stringify level ++
            (Json.stringifyElements level elements ++ ('\n' :: indent last ++ ']' :: rest)))) := by
        simp
      rw [text, readElements_comma, readValue_line, first, Option.bind_some, others, Option.bind_some]

theorem readMembers_stringify (members : List (String × Json)) (level last fuel : Nat) (rest : List Char)
    (enough : (Json.stringifyMembers level members).length < fuel) :
    readMembers fuel (Json.stringifyMembers level members ++ ('\n' :: indent last ++ '\x7d' :: rest)) =
      some (members, rest) := by
  match fuel, members with
  | fuel + 1, [] =>
      rw [Json.stringifyMembers, List.nil_append, readMembers, skipSpace_line]
      rfl
  | 1, (key, value) :: members =>
      rw [Json.stringifyMembers] at enough
      simp only [List.length_append, List.length_cons] at enough
      omega
  | fuel + 2, (key, value) :: members =>
      rw [Json.stringifyMembers] at enough ⊢
      simp only [List.length_append, List.length_cons] at enough
      have first := readValue_stringify value level fuel
        (Json.stringifyMembers level members ++ ('\n' :: indent last ++ '\x7d' :: rest)) (by omega)
        (endsNumber_members members level last rest)
      have member := @readMember_text _ _ key _ _ first
      have others := readMembers_stringify members level last (fuel + 1) rest (by omega)
      have text : ',' :: '\n' :: indent level ++ quote key ++ ':' :: ' ' :: value.stringify level ++
          Json.stringifyMembers level members ++ ('\n' :: indent last ++ '\x7d' :: rest) =
          ',' :: ('\n' :: indent level ++ (quote key ++ ':' :: ' ' :: value.stringify level ++
            (Json.stringifyMembers level members ++ ('\n' :: indent last ++ '\x7d' :: rest)))) := by
        simp
      rw [text, readMembers_comma, readMember_line, member, Option.bind_some, others, Option.bind_some]
end

/-- `JSON.parse` reads what `JSON.stringify` has written. -/
theorem parse_stringify (json : Json) : Json.parse (json.stringify 0) = some json := by
  have read := readValue_stringify json 0 ((json.stringify 0).length + 1) [] (Nat.lt_succ_self _) rfl
  rw [List.append_nil] at read
  unfold Json.parse
  rw [read]
  rfl

end Web
end Memos
