import Mathlib.Data.List.Infix

namespace Memos
namespace Library

/-!
# Wildcard patterns

The pattern language of `LIKE`: `%` for any text, `_` for one character, and
an optional escape character in front of a character that stands for itself.
The comparison of characters is a parameter.
-/

/-- One element of a pattern. -/
inductive PatternItem where
  | anyText
  | anyChar
  | char (c : Char)
deriving DecidableEq

/-- Read a pattern.  There is none when the escape character comes last. -/
def readPattern (escape : Option Char) : List Char -> Option (List PatternItem)
  | [] => some []
  | c :: rest =>
      if some c = escape then
        match rest with
        | [] => none
        | escaped :: later => (readPattern escape later).map (List.cons (.char escaped))
      else
        let item : PatternItem :=
          if c = '%' then .anyText else if c = '_' then .anyChar else .char c
        (readPattern escape rest).map (List.cons item)

/-- Match a whole text against a pattern. -/
def matchesPattern (same : Char -> Char -> Bool) : List PatternItem -> List Char -> Bool
  | [], text => text.isEmpty
  | .anyText :: rest, text => text.tails.any (matchesPattern same rest)
  | .anyChar :: rest, text =>
      match text with
      | [] => false
      | _ :: later => matchesPattern same rest later
  | .char c :: rest, text =>
      match text with
      | [] => false
      | d :: later => same c d && matchesPattern same rest later

end Library
end Memos
