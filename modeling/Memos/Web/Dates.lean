import Mathlib.Algebra.Ring.Nat
import Memos.Library.Calendar

namespace Memos
namespace Web

open Library

/-!
# Dates of the web client

The client keeps an instant as milliseconds and writes it in the format of ISO
8601.  The timestamps of the API count seconds.
-/

/-! ## Decimal fields -/

/-- The decimal digits of a number, as many as asked for. -/
def padded : Nat -> Nat -> List Char
  | 0, _ => []
  | width + 1, value => padded width (value / 10) ++ [Nat.digitChar (value % 10)]

def readDigits (text : List Char) : Nat :=
  text.foldl (fun value c => value * 10 + (c.toNat - '0'.toNat)) 0

/-- The number in the first characters, and what follows one more. -/
def readField (width : Nat) (text : List Char) : Nat × List Char :=
  (readDigits (text.take width), text.drop (width + 1))

theorem length_padded (width value : Nat) : (padded width value).length = width := by
  induction width generalizing value with
  | zero => rfl
  | succ width ih =>
      rw [padded, List.length_append, ih]
      rfl

theorem digit_value : ∀ digit, digit < 10 -> (Nat.digitChar digit).toNat - '0'.toNat = digit := by
  decide

theorem readDigits_padded (width value : Nat) (bounded : value < 10 ^ width) :
    readDigits (padded width value) = value := by
  induction width generalizing value with
  | zero =>
      have zero : value = 0 := by omega
      rw [zero]
      rfl
  | succ width ih =>
      have shorter : value / 10 < 10 ^ width := by omega
      have high := ih (value / 10) shorter
      unfold readDigits at high ⊢
      rw [padded, List.foldl_append, high]
      have low := digit_value (value % 10) (Nat.mod_lt _ (by omega))
      rw [List.foldl_cons, List.foldl_nil, low]
      omega

theorem readField_padded {width value : Nat} (bounded : value < 10 ^ width) (separator : Char)
    (rest : List Char) :
    readField width (padded width value ++ separator :: rest) = (value, rest) := by
  unfold readField
  have length := length_padded width value
  rw [List.take_left' length, readDigits_padded width value bounded, List.drop_append, length]
  have past : (padded width value).drop (width + 1) = [] := List.drop_eq_nil_of_le (by omega)
  rw [past, Nat.add_sub_cancel_left]
  rfl

/-! ## Instants -/

def msPerDay : Int := 86400000

/-- The instants that a `Date` can hold. -/
def maxTime : Int := 8640000000000000

/-- Years outside 0 to 9999 have a sign and six digits. -/
def yearText (year : Int) : List Char :=
  if 0 ≤ year ∧ year ≤ 9999 then padded 4 year.toNat
  else (if year < 0 then '-' else '+') :: padded 6 year.natAbs

def timeText (time : Int) : List Char :=
  padded 2 (time / 3600000).toNat ++ ':' :: (padded 2 (time / 60000 % 60).toNat ++ ':' ::
    (padded 2 (time / 1000 % 60).toNat ++ '.' :: (padded 3 (time % 1000).toNat ++ ['Z'])))

def isoText (ms : Int) : List Char :=
  let date := Date.ofDays (ms / msPerDay)
  yearText date.year ++ '-' :: (padded 2 date.month.toNat ++ '-' :: (padded 2 date.day.toNat ++ 'T' ::
    timeText (ms % msPerDay)))

/-- `Date.toISOString`, which fails for a date out of range. -/
def toISOString (ms : Int) : Option String :=
  if -maxTime ≤ ms ∧ ms ≤ maxTime then some (String.ofList (isoText ms)) else none

def readYear (text : List Char) : Int × List Char :=
  match text with
  | [] => (0, [])
  | sign :: rest =>
      if sign = '+' then ((readField 6 rest).1, (readField 6 rest).2)
      else if sign = '-' then (-(readField 6 rest).1, (readField 6 rest).2)
      else ((readField 4 text).1, (readField 4 text).2)

/-- The instant of a text that `toISOString` has written. -/
def readIso (text : List Char) : Int :=
  let (year, text) := readYear text
  let (month, text) := readField 2 text
  let (day, text) := readField 2 text
  let (hour, text) := readField 2 text
  let (minute, text) := readField 2 text
  let (second, text) := readField 2 text
  let (milli, _) := readField 3 text
  Date.toDays ⟨year, month, day⟩ * msPerDay + hour * 3600000 + minute * 60000 + second * 1000 + milli

theorem padded_head (width value : Nat) : Exists fun digit => digit < 10 ∧
    Exists fun rest => padded (width + 1) value = Nat.digitChar digit :: rest := by
  induction width generalizing value with
  | zero => exact ⟨value % 10, Nat.mod_lt _ (by omega), [], rfl⟩
  | succ width ih =>
      rcases ih (value / 10) with ⟨digit, small, rest, same⟩
      exact ⟨digit, small, rest ++ [Nat.digitChar (value % 10)], by rw [padded, same]; rfl⟩

theorem digit_unsigned : ∀ digit, digit < 10 -> Nat.digitChar digit ≠ '+' ∧ Nat.digitChar digit ≠ '-' := by
  decide

theorem readYear_yearText {year : Int} (bounded : -1000000 < year ∧ year < 1000000) (separator : Char)
    (rest : List Char) : readYear (yearText year ++ separator :: rest) = (year, rest) := by
  unfold yearText
  by_cases plain : 0 ≤ year ∧ year ≤ 9999
  · rw [if_pos plain]
    have field := @readField_padded 4 year.toNat (by omega) separator rest
    rcases padded_head 3 year.toNat with ⟨digit, small, digits, head⟩
    rcases digit_unsigned digit small with ⟨notPlus, notMinus⟩
    rw [head] at field ⊢
    rw [List.cons_append, readYear, if_neg notPlus, if_neg notMinus, ← List.cons_append, field]
    exact Prod.ext (Int.toNat_of_nonneg plain.1) rfl
  · rw [if_neg plain]
    have field := @readField_padded 6 year.natAbs (by omega) separator rest
    by_cases negative : year < 0
    · rw [if_pos negative, List.cons_append, readYear, if_neg (by decide), if_pos rfl, field]
      exact Prod.ext (by dsimp only; omega) rfl
    · rw [if_neg negative, List.cons_append, readYear, if_pos rfl, field]
      exact Prod.ext (by dsimp only; omega) rfl

theorem readIso_isoText {ms : Int} (low : -maxTime ≤ ms) (high : ms ≤ maxTime) :
    readIso (isoText ms) = ms := by
  have dates := Date.ofDays_bounds (ms / msPerDay)
  have years := Date.ofDays_year (ms / msPerDay)
  have days := Date.toDays_ofDays (ms / msPerDay)
  have time : 0 ≤ ms % msPerDay ∧ ms % msPerDay < msPerDay := by unfold msPerDay; omega
  have whole : ms / msPerDay * msPerDay + ms % msPerDay = ms := by unfold msPerDay; omega
  have range : -100000001 ≤ ms / msPerDay ∧ ms / msPerDay ≤ 100000000 := by
    unfold msPerDay maxTime at *
    omega
  unfold isoText timeText readIso
  dsimp only
  generalize ms / msPerDay = day at *
  generalize ms % msPerDay = rest at *
  unfold Date.epoch at years
  rw [readYear_yearText (by omega)]
  dsimp only
  rw [readField_padded (by omega)]
  dsimp only
  rw [readField_padded (by omega)]
  dsimp only
  unfold msPerDay at time
  rw [readField_padded (by omega)]
  dsimp only
  rw [readField_padded (by omega)]
  dsimp only
  rw [readField_padded (by omega)]
  dsimp only
  rw [readField_padded (by omega)]
  dsimp only
  have month : ((Date.ofDays day).month.toNat : Int) = (Date.ofDays day).month := by omega
  have dayOfMonth : ((Date.ofDays day).day.toNat : Int) = (Date.ofDays day).day := by omega
  rw [month, dayOfMonth, days]
  omega

/-- `new Date` of a text: other formats than that of `toISOString` depend on the
browser and its time zone. -/
structure DateParser where
  parseOther : String -> Option Int

def DateParser.newDate (parser : DateParser) (text : String) : Option Int :=
  if toISOString (readIso text.toList) = some text then some (readIso text.toList)
  else parser.parseOther text

/-- The instant that was written is read back. -/
theorem DateParser.newDate_toISOString (parser : DateParser) {ms : Int} {text : String}
    (written : toISOString ms = some text) : parser.newDate text = some ms := by
  have original := written
  unfold toISOString at written
  split at written
  next range =>
    cases written
    have read : readIso (String.ofList (isoText ms)).toList = ms := by
      rw [String.toList_ofList]
      exact readIso_isoText range.1 range.2
    unfold newDate
    rw [read, if_pos original]
  next => cases written

/-! ## Timestamps -/

/-- `timestampDate` of a timestamp in whole seconds. -/
def timestampDate (seconds : Int) : Int := seconds * 1000

/-- The seconds of `timestampFromDate`. -/
def timestampFromDate (ms : Int) : Int := ms / 1000

theorem timestampFromDate_timestampDate (seconds : Int) :
    timestampFromDate (timestampDate seconds) = seconds := by
  unfold timestampFromDate timestampDate
  omega

/-- `Timestamp.IsValid`: from year 1 to year 9999. -/
def isValid (seconds : Int) : Bool := -62135596800 ≤ seconds && seconds ≤ 253402300799

example : toISOString (timestampDate 1716985800) = some "2024-05-29T12:30:00.000Z" := by decide +kernel

end Web
end Memos
