import Mathlib.Data.List.Basic

namespace Memos
namespace Library

/-!
# Character categories

The general categories of Unicode by their first letter.  Programs that
classify characters share one table; all that is known of it here is its ASCII
part and the zero width joiner.
-/

inductive Category where
  | letter
  | mark
  | number
  | punctuation
  | symbol
  | separator
  | other
deriving DecidableEq

def asciiCategory (c : Char) : Category :=
  if ('a' ≤ c ∧ c ≤ 'z') ∨ ('A' ≤ c ∧ c ≤ 'Z') then .letter
  else if '0' ≤ c ∧ c ≤ '9' then .number
  else if c ∈ ['$', '+', '<', '=', '>', '^', '\x60', '|', '~'] then .symbol
  else if c = ' ' then .separator
  else if c < ' ' ∨ c = '\x7f' then .other
  else .punctuation

/-- A version of the character database. -/
structure Unicode where
  category : Char -> Category
  ascii : ∀ c : Char, c ≤ '\x7f' -> category c = asciiCategory c
  joiner : category '\u200d' = .other

namespace Unicode

variable (unicode : Unicode) (c : Char)

def isLetter : Bool := unicode.category c == .letter

def isMark : Bool := unicode.category c == .mark

def isNumber : Bool := unicode.category c == .number

def isPunct : Bool := unicode.category c == .punctuation

def isSymbol : Bool := unicode.category c == .symbol

/-- The table that classifies only ASCII. -/
def asciiOnly : Unicode where
  category := fun c => if c ≤ '\x7f' then asciiCategory c else .other
  ascii := fun _ isAscii => if_pos isAscii
  joiner := rfl

end Unicode

end Library
end Memos
