import Mathlib.Data.List.Basic

namespace Memos
namespace Filter

/-!
# JSON documents

The payload of a memo is stored as JSON text.  The databases read properties
of the document by path and, for the tag list, match patterns against the
text of a part.  They write the same text up to the space after a comma and
after a colon.
-/

/-- A JSON value without numbers, which no payload path of a filter reaches. -/
inductive Json where
  | null
  | bool (value : Bool)
  | string (value : String)
  | array (elements : List Json)
  | object (members : List (String × Json))

/-- One hexadecimal digit of an escape. -/
def hexDigit (value : Nat) : Char :=
  if value < 10 then Char.ofNat (48 + value) else Char.ofNat (87 + value)

/-- The text of one character inside a JSON string. -/
def escapeChar (c : Char) : List Char :=
  if c = '"' then ['\\', '"']
  else if c = '\\' then ['\\', '\\']
  else if c = '\x08' then ['\\', 'b']
  else if c = '\x0c' then ['\\', 'f']
  else if c = '\n' then ['\\', 'n']
  else if c = '\r' then ['\\', 'r']
  else if c = '\t' then ['\\', 't']
  else if c.toNat < 32 then
    ['\\', 'u', '0', '0', hexDigit (c.toNat / 16), hexDigit (c.toNat % 16)]
  else [c]

/-- The text of a JSON string with its quotes. -/
def quoteJson (value : String) : String :=
  String.ofList ('"' :: value.toList.flatMap escapeChar ++ ['"'])

namespace Json

/-- Follow member names from the root. -/
def get : List String -> Json -> Option Json
  | [], json => some json
  | key :: rest, .object members => (members.lookup key).bind (get rest)
  | _ :: _, _ => none

mutual
/-- The text of a value, with the space that follows a comma or a colon. -/
def text (space : String) : Json -> String
  | .null => "null"
  | .bool value => if value then "true" else "false"
  | .string value => quoteJson value
  | .array elements => "[" ++ String.intercalate ("," ++ space) (elementTexts space elements) ++ "]"
  | .object members =>
      "\x7b" ++ String.intercalate ("," ++ space) (memberTexts space members) ++ "\x7d"

def elementTexts (space : String) : List Json -> List String
  | [] => []
  | element :: rest => element.text space :: elementTexts space rest

def memberTexts (space : String) : List (String × Json) -> List String
  | [] => []
  | (key, value) :: rest =>
      (quoteJson key ++ ":" ++ space ++ value.text space) :: memberTexts space rest
end

end Json

/-! ## Reading a string -/

/-- The value of a hexadecimal digit. -/
def hexValue (c : Char) : Option Nat :=
  if '0' ≤ c ∧ c ≤ '9' then some (c.toNat - 48)
  else if 'a' ≤ c ∧ c ≤ 'f' then some (c.toNat - 87)
  else if 'A' ≤ c ∧ c ≤ 'F' then some (c.toNat - 55)
  else none

/-- The character behind the backslash of a short escape. -/
def unescape (c : Char) : Option Char :=
  match c with
  | '"' => some '"'
  | '\\' => some '\\'
  | '/' => some '/'
  | 'b' => some '\x08'
  | 'f' => some '\x0c'
  | 'n' => some '\n'
  | 'r' => some '\r'
  | 't' => some '\t'
  | _ => none

/-- The contents of a JSON string up to its closing quote, which must end the
text.  An escaped code unit must be a character by itself. -/
def readJsonString : List Char -> Option (List Char)
  | [] => none
  | '"' :: rest => if rest.isEmpty then some [] else none
  | '\\' :: 'u' :: a :: b :: c :: d :: rest => do
      let code := (← hexValue a) * 4096 + (← hexValue b) * 256 + (← hexValue c) * 16 + (← hexValue d)
      if code.isValidChar then
        let later ← readJsonString rest
        return Char.ofNat code :: later
      else none
  | '\\' :: c :: rest => do
      let plain ← unescape c
      let later ← readJsonString rest
      return plain :: later
  | c :: rest =>
      if c = '\\' ∨ c.toNat < 32 then none
      else do
        let later ← readJsonString rest
        return c :: later

/-- Parse a JSON document that begins with a quote. -/
def parseQuoted (source : String) : Option Json :=
  match source.toList with
  | '"' :: rest => (readJsonString rest).map fun value => .string (String.ofList value)
  | _ => none

end Filter
end Memos
