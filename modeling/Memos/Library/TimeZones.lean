import Mathlib.Order.Monotone.Basic
import Mathlib.Algebra.Order.Group.Int
import Mathlib.Order.SuccPred.Basic
import Mathlib.Algebra.Order.Ring.Int

namespace Memos
namespace Library

/-!
# Time zones and their days

A time zone is ahead of UTC by an offset that may change from instant to
instant.  The days of its clocks need not be 24 hours long.  The window of a day
is: it takes the offset at midnight UTC of that date for the whole day.
-/

/-- A zone: how many seconds its clocks are ahead at an instant, and the instant
that a reading of its clocks stands for. -/
structure TimeZone where
  offset : Int -> Int
  instant : Int -> Int
  small : ∀ time, -86400 < offset time ∧ offset time < 86400
  /-- A reading that the clocks show stands for an instant at which they do. -/
  exact : ∀ time, instant (time + offset time) + offset (instant (time + offset time)) =
    time + offset time

namespace TimeZone

variable (zone : TimeZone)

/-- What the clocks show. -/
def localTime (time : Int) : Int := time + zone.offset time

def localDay (time : Int) : Int := zone.localTime time / 86400

/-- The instant is in the window of the day. -/
def InWindow (day time : Int) : Prop := (time + zone.offset (day * 86400)) / 86400 = day

/-- The offset at midnight UTC never changes, and no other offset changes the
day. -/
def Steady : Prop :=
  Exists fun offset => (∀ day, zone.offset (day * 86400) = offset) ∧
    ∀ time, zone.localDay time = (time + offset) / 86400

variable {zone : TimeZone}

section Windows

variable (windows : ∀ day time, zone.InWindow day time ↔ zone.localDay time = day)

include windows

/-- No two windows overlap, so the offset cannot rise from one day to the next. -/
theorem offset_succ_le (day : Int) : zone.offset ((day + 1) * 86400) ≤ zone.offset (day * 86400) := by
  by_contra rises
  have before := zone.small (day * 86400)
  have after := zone.small ((day + 1) * 86400)
  have today := windows day
  have tomorrow := windows (day + 1)
  unfold InWindow at today tomorrow
  generalize zone.offset (day * 86400) = early at *
  generalize zone.offset ((day + 1) * 86400) = late at *
  -- The later beginning of the two windows is in both.
  by_cases later : day * 86400 - early ≤ (day + 1) * 86400 - late
  · have first := (today ((day + 1) * 86400 - late)).mp (by omega)
    have second := (tomorrow ((day + 1) * 86400 - late)).mp (by omega)
    omega
  · have first := (today (day * 86400 - early)).mp (by omega)
    have second := (tomorrow (day * 86400 - early)).mp (by omega)
    omega

/-- The windows leave no gap, so the offset cannot fall either. -/
theorem le_offset_succ (day : Int) : zone.offset (day * 86400) ≤ zone.offset ((day + 1) * 86400) := by
  by_contra falls
  have falling : Antitone fun day => zone.offset (day * 86400) :=
    antitone_int_of_succ_le (offset_succ_le windows)
  -- The end of the window of the day is before the next window.
  have inside := (windows _ ((day + 1) * 86400 - zone.offset (day * 86400))).mpr rfl
  generalize zone.localDay ((day + 1) * 86400 - zone.offset (day * 86400)) = other at inside
  unfold InWindow at inside
  by_cases earlier : other ≤ day
  · have higher : zone.offset (day * 86400) ≤ zone.offset (other * 86400) := falling earlier
    omega
  · have later : day + 1 ≤ other := by omega
    have lower : zone.offset (other * 86400) ≤ zone.offset ((day + 1) * 86400) := falling later
    omega

theorem offset_constant (day : Int) : zone.offset (day * 86400) = zone.offset (0 * 86400) := by
  have falling : Antitone fun day => zone.offset (day * 86400) :=
    antitone_int_of_succ_le (offset_succ_le windows)
  have rising : Monotone fun day => zone.offset (day * 86400) :=
    monotone_int_of_le_succ (le_offset_succ windows)
  rcases Int.le_total 0 day with later | earlier
  · exact Int.le_antisymm (falling later) (rising later)
  · exact Int.le_antisymm (rising earlier) (falling earlier)

end Windows

/-- The windows are the days of the clocks exactly in a steady zone. -/
theorem steady_iff :
    zone.Steady ↔ ∀ day time, zone.InWindow day time ↔ zone.localDay time = day := by
  constructor
  · rintro ⟨offset, midnights, days⟩ day time
    rw [InWindow, midnights, days]
  · intro windows
    refine ⟨zone.offset (0 * 86400), offset_constant windows, fun time => ?_⟩
    refine (windows _ time).mp ?_
    rw [InWindow, offset_constant windows]

end TimeZone

end Library
end Memos
