import Mathlib.Algebra.Ring.Int.Defs

namespace Memos
namespace Library

/-!
# Days and dates

The dates of the Gregorian calendar, extended to all years, and the days from
the beginning of 1970.  A year is counted from its March on, so that a leap day
is its last day.
-/

structure Date where
  year : Int
  month : Int
  day : Int
deriving DecidableEq

/-- The first of March of a year, in days from that of year 0. -/
def firstOfMarch (year : Int) : Int := year * 365 + year / 4 - year / 100 + year / 400

/-- The year that contains a day, and the days before it in that year. -/
def yearDay (days : Int) : Int × Int :=
  let dayOfEra := days % 146097
  let century := min (dayOfEra / 36524) 3
  let dayOfCentury := dayOfEra - century * 36524
  let cycle := dayOfCentury / 1461
  let dayOfCycle := dayOfCentury % 1461
  let year := min (dayOfCycle / 365) 3
  (days / 146097 * 400 + century * 100 + cycle * 4 + year, dayOfCycle - year * 365)

namespace Date

/-- A day of a year from March on. -/
def ofYearDay (year dayOfYear : Int) : Date :=
  let month := (5 * dayOfYear + 2) / 153
  let day := dayOfYear - (153 * month + 2) / 5 + 1
  if month < 10 then ⟨year, month + 3, day⟩ else ⟨year + 1, month - 9, day⟩

/-- The first of March of year 0 is this many days before 1970. -/
def epoch : Int := 719468

def ofDays (days : Int) : Date :=
  ofYearDay (yearDay (days + epoch)).1 (yearDay (days + epoch)).2

def toDays (date : Date) : Int :=
  let year := if date.month ≤ 2 then date.year - 1 else date.year
  let month := if date.month ≤ 2 then date.month + 9 else date.month - 3
  firstOfMarch year + (153 * month + 2) / 5 + (date.day - 1) - epoch

end Date

theorem yearDay_spec (days : Int) : firstOfMarch (yearDay days).1 + (yearDay days).2 = days ∧
    0 ≤ (yearDay days).2 ∧ (yearDay days).2 < 366 := by
  unfold yearDay firstOfMarch
  dsimp only
  have whole : days / 146097 * 146097 + days % 146097 = days := by omega
  have ofEra : 0 ≤ days % 146097 ∧ days % 146097 < 146097 := by omega
  generalize days / 146097 = era at *
  generalize days % 146097 = dayOfEra at *
  have centuryBounds : 0 ≤ min (dayOfEra / 36524) 3 ∧ min (dayOfEra / 36524) 3 ≤ 3 ∧
      0 ≤ dayOfEra - min (dayOfEra / 36524) 3 * 36524 ∧
      dayOfEra - min (dayOfEra / 36524) 3 * 36524 < 36525 := by omega
  generalize min (dayOfEra / 36524) 3 = century at *
  have ofCentury : dayOfEra = century * 36524 + (dayOfEra - century * 36524) := by omega
  generalize dayOfEra - century * 36524 = dayOfCentury at *
  have cycleBounds : 0 ≤ dayOfCentury / 1461 ∧ dayOfCentury / 1461 ≤ 24 ∧
      dayOfCentury = dayOfCentury / 1461 * 1461 + dayOfCentury % 1461 ∧
      0 ≤ dayOfCentury % 1461 ∧ dayOfCentury % 1461 < 1461 := by omega
  generalize dayOfCentury / 1461 = cycle at *
  generalize dayOfCentury % 1461 = dayOfCycle at *
  have yearBounds : 0 ≤ min (dayOfCycle / 365) 3 ∧ min (dayOfCycle / 365) 3 ≤ 3 ∧
      0 ≤ dayOfCycle - min (dayOfCycle / 365) 3 * 365 ∧
      dayOfCycle - min (dayOfCycle / 365) 3 * 365 < 366 := by omega
  generalize min (dayOfCycle / 365) 3 = year at *
  -- The leap days of the whole eras, centuries and cycles before the year.
  have cycles : (era * 400 + century * 100 + cycle * 4 + year) / 4 = era * 100 + century * 25 + cycle := by
    omega
  have centuries : (era * 400 + century * 100 + cycle * 4 + year) / 100 = era * 4 + century := by omega
  have eras : (era * 400 + century * 100 + cycle * 4 + year) / 400 = era := by omega
  rw [cycles, centuries, eras]
  omega

namespace Date

variable {year dayOfYear : Int}

theorem toDays_ofYearDay (low : 0 ≤ dayOfYear) (high : dayOfYear < 366) :
    (ofYearDay year dayOfYear).toDays = firstOfMarch year + dayOfYear - epoch := by
  unfold ofYearDay
  dsimp only
  have bounds : 0 ≤ (5 * dayOfYear + 2) / 153 ∧ (5 * dayOfYear + 2) / 153 ≤ 11 := by omega
  generalize (5 * dayOfYear + 2) / 153 = month at *
  by_cases early : month < 10
  · have same : month + 3 - 3 = month := by omega
    rw [if_pos early, toDays]
    dsimp only
    rw [if_neg (by omega), if_neg (by omega), same]
    omega
  · have same : month - 9 + 9 = month := by omega
    have sameYear : year + 1 - 1 = year := by omega
    rw [if_neg early, toDays]
    dsimp only
    rw [if_pos (by omega), if_pos (by omega), same, sameYear]
    omega

theorem toDays_ofDays (days : Int) : (ofDays days).toDays = days := by
  rcases yearDay_spec (days + epoch) with ⟨sum, low, high⟩
  unfold ofDays
  rw [toDays_ofYearDay low high, sum]
  omega

theorem ofYearDay_bounds (low : 0 ≤ dayOfYear) (high : dayOfYear < 366) :
    1 ≤ (ofYearDay year dayOfYear).month ∧ (ofYearDay year dayOfYear).month ≤ 12 ∧
      1 ≤ (ofYearDay year dayOfYear).day ∧ (ofYearDay year dayOfYear).day ≤ 31 ∧
      year ≤ (ofYearDay year dayOfYear).year ∧ (ofYearDay year dayOfYear).year ≤ year + 1 := by
  unfold ofYearDay
  dsimp only
  split
  · refine ⟨?_, ?_, ?_, ?_, ?_, ?_⟩ <;> dsimp only <;> omega
  · refine ⟨?_, ?_, ?_, ?_, ?_, ?_⟩ <;> dsimp only <;> omega

theorem ofDays_bounds (days : Int) : 1 ≤ (ofDays days).month ∧ (ofDays days).month ≤ 12 ∧
    1 ≤ (ofDays days).day ∧ (ofDays days).day ≤ 31 := by
  rcases yearDay_spec (days + epoch) with ⟨_, low, high⟩
  have bounds := @ofYearDay_bounds (yearDay (days + epoch)).1 _ low high
  exact ⟨bounds.1, bounds.2.1, bounds.2.2.1, bounds.2.2.2.1⟩

/-- The year of a day by its era of 400 years. -/
theorem ofDays_year (days : Int) : (days + epoch) / 146097 * 400 ≤ (ofDays days).year ∧
    (ofDays days).year ≤ (days + epoch) / 146097 * 400 + 400 := by
  rcases yearDay_spec (days + epoch) with ⟨_, low, high⟩
  have bounds := (@ofYearDay_bounds (yearDay (days + epoch)).1 _ low high).2.2.2.2
  have ofEra : (days + epoch) / 146097 * 400 ≤ (yearDay (days + epoch)).1 ∧
      (yearDay (days + epoch)).1 < (days + epoch) / 146097 * 400 + 400 := by
    unfold yearDay
    dsimp only
    omega
  unfold ofDays
  omega

example : ofDays 0 = ⟨1970, 1, 1⟩ ∧ ofDays 19782 = ⟨2024, 2, 29⟩ := by decide

end Date

end Library
end Memos
