import Memos.Service.Secrets
import Memos.Store.MigrationFiles

namespace Memos
namespace Schedules

open Filter (isSpace trimSpace)
open Store (atoi)

/-!
# Cron expressions

A schedule has a matcher for each field of its expression.  The seconds are
optional; without them a job runs at the start of a minute.
-/

/-- Which values of a field match. -/
inductive FieldMatcher where
  | wildcard
  | exact (value : Int)
  | range (start stop : Int)
  | list (values : List Int)
  | step (step min max : Int)
deriving DecidableEq

structure Schedule where
  seconds : FieldMatcher
  minutes : FieldMatcher
  hours : FieldMatcher
  days : FieldMatcher
  months : FieldMatcher
  weekdays : FieldMatcher
  hasSecs : Bool
deriving DecidableEq

/-- A number between two bounds. -/
def boundedInt (text : String) (min max : Int) : Option Int :=
  match atoi text with
  | .ok value => if min ≤ value ∧ value ≤ max then some value else none
  | .error _ => none

def parseListValues (min max : Int) : List String -> Except String (List Int)
  | [] => .ok []
  | part :: parts =>
      match boundedInt (trimSpace part) min max with
      | none => .error ("invalid list value: " ++ part)
      | some value => do
          let values ← parseListValues min max parts
          return value :: values

def splitAt (separator : Char) (text : String) : List String :=
  (text.toList.splitOn separator).map String.ofList

/-- `parseField` -/
def parseField (field : String) (min max : Int) : Except String FieldMatcher :=
  if field = "*" then .ok .wildcard
  else if "*/".toList.isPrefixOf field.toList then
    match boundedInt (String.ofList (field.toList.drop 2)) 1 max with
    | some step => .ok (.step step min max)
    | none => .error ("invalid step value: " ++ field)
  else if ',' ∈ field.toList then .list <$> parseListValues min max (splitAt ',' field)
  else if '-' ∈ field.toList then
    match splitAt '-' field with
    | [start, stop] =>
        match atoi (trimSpace start), atoi (trimSpace stop) with
        | .ok start, .ok stop =>
            if start < min ∨ max < stop ∨ stop < start then .error ("invalid range: " ++ field)
            else .ok (.range start stop)
        | _, _ => .error ("invalid range: " ++ field)
    | _ => .error ("invalid range: " ++ field)
  else
    match boundedInt field min max with
    | some value => .ok (.exact value)
    | none => .error ("invalid value: " ++ field ++ " (must be between " ++ toString min ++ " and " ++
        toString max ++ ")")

/-- `errors.Wrap` -/
def inField {α : Type} (name : String) (parsed : Except String α) : Except String α :=
  match parsed with
  | .ok value => .ok value
  | .error cause => .error ("invalid " ++ name ++ " field: " ++ cause)

/-- `strings.Fields` -/
def fields (text : String) : List String :=
  ((text.toList.splitOnP isSpace).filter fun part => !part.isEmpty).map String.ofList

/-- The five fields that every expression has. -/
def parseFields (hasSecs : Bool) (seconds : FieldMatcher) (minute hour day month weekday : String) :
    Except String Schedule := do
  let minutes ← inField "minutes" (parseField minute 0 59)
  let hours ← inField "hours" (parseField hour 0 23)
  let days ← inField "days" (parseField day 1 31)
  let months ← inField "months" (parseField month 1 12)
  let weekdays ← inField "weekdays" (parseField weekday 0 7)
  return { seconds, minutes, hours, days, months, weekdays, hasSecs }

/-- `ParseCronExpression` -/
def parseCronExpression (expr : String) : Except String Schedule :=
  if expr = "" then .error "empty cron expression"
  else
    match fields expr with
    | [minute, hour, day, month, weekday] =>
        parseFields false (.exact 0) minute hour day month weekday
    | [second, minute, hour, day, month, weekday] => do
        let seconds ← inField "seconds" (parseField second 0 59)
        parseFields true seconds minute hour day month weekday
    | parts => .error ("invalid cron expression: expected 5 or 6 fields, got " ++
        toString parts.length)

end Schedules
end Memos
