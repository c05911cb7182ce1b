import Memos.Library.Calendar
import Memos.Library.Search
import Memos.Schedules.Cron

namespace Memos
namespace Schedules

open Library

/-!
# The next run of a schedule

An instant is the number of nanoseconds since the beginning of 1970, and a zone
without offset changes is the number of seconds by which its clocks are ahead.
The search goes over whole minutes, or seconds, for four years.
-/

/-! ## Clocks -/

def second : Int := 1000000000

def minute : Int := 60 * second

def hour : Int := 60 * minute

def day : Int := 24 * hour

/-- What the clocks of the zone show, counted from the beginning of 1970. -/
def localTime (offset instant : Int) : Int := instant + offset * second

def secondOf (offset instant : Int) : Int := localTime offset instant / second % 60

def minuteOf (offset instant : Int) : Int := localTime offset instant / minute % 60

def hourOf (offset instant : Int) : Int := localTime offset instant / hour % 24

def dateOf (offset instant : Int) : Date := Date.ofDays (localTime offset instant / day)

/-- The day of the week, from Sunday on. -/
def weekdayOf (offset instant : Int) : Int := (localTime offset instant / day + 4) % 7

/-- `Truncate`, which does not know the zone -/
def truncate (instant unit : Int) : Int := instant - instant % unit

/-- `AddDate` with years only.  The 29 of February becomes the first of March. -/
def addYears (offset instant years : Int) : Int :=
  let date := dateOf offset instant
  Date.toDays ⟨date.year + years, date.month, date.day⟩ * day + localTime offset instant % day -
    offset * second

/-! ## The search -/

namespace FieldMatcher

/-- `matches` -/
def matchesValue : FieldMatcher -> Int -> Bool
  | .wildcard, _ => true
  | .exact wanted, value => value == wanted
  | .range start stop, value => decide (start ≤ value) && decide (value ≤ stop)
  | .list values, value => values.contains value
  | .step width low high, value =>
      if value < low ∨ high < value then false else (value - low) % width == 0

theorem matchesValue_wildcard (value : Int) : wildcard.matchesValue value = true := by
  unfold matchesValue
  rfl

end FieldMatcher

open FieldMatcher (matchesValue_wildcard)

namespace Schedule

/-- The fields apart from the two that choose a day of the month. -/
def matchesClock (schedule : Schedule) (offset instant : Int) : Bool :=
  schedule.seconds.matchesValue (secondOf offset instant) &&
    schedule.minutes.matchesValue (minuteOf offset instant) &&
    schedule.hours.matchesValue (hourOf offset instant) &&
    schedule.months.matchesValue (dateOf offset instant).month

/-- `matches` -/
def matchesTime (schedule : Schedule) (offset instant : Int) : Bool :=
  schedule.matchesClock offset instant &&
    (schedule.days.matchesValue (dateOf offset instant).day ||
      schedule.weekdays.matchesValue (weekdayOf offset instant))

/-- The distance of the instants that the search tries. -/
def unit (schedule : Schedule) : Int := if schedule.hasSecs then second else minute

theorem unit_pos (schedule : Schedule) : 0 < schedule.unit := by
  unfold unit
  split <;> decide

/-- Where the search starts. -/
def start (schedule : Schedule) (instant : Int) : Int :=
  truncate (instant + schedule.unit) schedule.unit

/-- Where the search stops. -/
def maxTime (schedule : Schedule) (offset instant : Int) : Int :=
  addYears offset (schedule.start instant) 4

/-- `Next`.  There is no result where the source returns the zero time. -/
def next (schedule : Schedule) (offset instant : Int) : Option Int :=
  search (schedule.matchesTime offset) schedule.unit schedule.unit_pos
    (schedule.maxTime offset instant) (schedule.start instant)

/-! ## The documented rule -/

/-- The instant is a whole minute of the zone, or a whole second. -/
def Whole (schedule : Schedule) (offset instant : Int) : Prop :=
  localTime offset instant % schedule.unit = 0

/-- A field of weekdays, in which 0 and 7 are Sunday. -/
def weekdayDue (schedule : Schedule) (weekday : Int) : Bool :=
  schedule.weekdays.matchesValue weekday || (weekday == 0 && schedule.weekdays.matchesValue 7)

/-- A day of the month counts alone when the weekday is `*`, a weekday when the
day is `*`, and otherwise either of them. -/
def dayDue (schedule : Schedule) (dayOfMonth weekday : Int) : Bool :=
  if schedule.weekdays = .wildcard then schedule.days.matchesValue dayOfMonth
  else if schedule.days = .wildcard then schedule.weekdayDue weekday
  else schedule.days.matchesValue dayOfMonth || schedule.weekdayDue weekday

/-- The schedule asks for a run at this instant. -/
def Due (schedule : Schedule) (offset instant : Int) : Prop :=
  schedule.Whole offset instant ∧ schedule.matchesClock offset instant = true ∧
    schedule.dayDue (dateOf offset instant).day (weekdayOf offset instant) = true

/-! ## Where the search goes astray -/

/-- One of the two day fields is `*` and the other rejects the day. -/
def Strays (schedule : Schedule) (offset instant : Int) : Prop :=
  schedule.matchesClock offset instant = true ∧
    ((schedule.weekdays = .wildcard ∧
        schedule.days.matchesValue (dateOf offset instant).day = false) ∨
      (schedule.weekdays ≠ .wildcard ∧ schedule.days = .wildcard ∧
        schedule.weekdayDue (weekdayOf offset instant) = false))

/-- A Sunday that only the name 7 admits. -/
def SundaySeven (schedule : Schedule) (offset instant : Int) : Prop :=
  schedule.days.matchesValue (dateOf offset instant).day = false ∧
    weekdayOf offset instant = 0 ∧ schedule.weekdays.matchesValue 0 = false ∧
    schedule.weekdays.matchesValue 7 = true

/-- The search comes to this whole minute or second: it lies within four years,
and without a seconds field the zone is ahead by whole minutes. -/
structure Examined (schedule : Schedule) (offset since instant : Int) : Prop where
  after : since < instant
  before : instant < schedule.maxTime offset since
  whole : schedule.Whole offset instant
  aligned : schedule.hasSecs = true ∨ offset % 60 = 0

/-- What the search needs: nothing stray before the first due instant, and that
instant within reach and under a name that is known. -/
structure OnTrack (schedule : Schedule) (offset instant : Int) : Prop where
  strays : ∀ stray, schedule.Examined offset instant stray -> schedule.Strays offset stray ->
    Exists fun due => instant < due ∧ due < stray ∧ schedule.Due offset due
  first : ∀ due, FirstAfter (schedule.Due offset) instant due ->
    schedule.Examined offset instant due ∧ ¬ schedule.SundaySeven offset due

section Matches

variable {schedule : Schedule} {offset instant : Int}

theorem matchesTime_due (clock : schedule.matchesClock offset instant = true)
    (due : schedule.dayDue (dateOf offset instant).day (weekdayOf offset instant) = true) :
    schedule.matchesTime offset instant = true ↔ ¬ schedule.SundaySeven offset instant := by
  unfold matchesTime SundaySeven
  rw [clock, Bool.true_and, Bool.or_eq_true]
  constructor
  · rintro matched ⟨noDay, sunday, noZero, _⟩
    rw [sunday, noDay, noZero] at matched
    rcases matched with impossible | impossible <;> cases impossible
  · intro known
    unfold dayDue weekdayDue at due
    split at due
    case isTrue anyWeekday =>
      refine .inr ?_
      rw [anyWeekday]
      exact matchesValue_wildcard _
    case isFalse =>
      split at due
      case isTrue anyDay =>
        refine .inl ?_
        rw [anyDay]
        exact matchesValue_wildcard _
      case isFalse =>
        cases byDay : schedule.days.matchesValue (dateOf offset instant).day with
        | true => exact .inl rfl
        | false =>
            refine .inr ?_
            by_contra unmatched
            have noWeekday := eq_false_of_ne_true unmatched
            rw [byDay, noWeekday, Bool.false_or, Bool.false_or, Bool.and_eq_true] at due
            have sunday : weekdayOf offset instant = 0 := beq_iff_eq.mp due.1
            rw [sunday] at noWeekday
            exact known ⟨byDay, sunday, noWeekday, due.2⟩

theorem matchesTime_not_due (clock : schedule.matchesClock offset instant = true)
    (notDue : schedule.dayDue (dateOf offset instant).day (weekdayOf offset instant) = false) :
    schedule.matchesTime offset instant = true ↔ schedule.Strays offset instant := by
  unfold matchesTime Strays
  rw [clock, Bool.true_and, Bool.or_eq_true]
  unfold dayDue at notDue
  split at notDue
  case isTrue anyWeekday =>
    rw [anyWeekday]
    exact ⟨fun _ => ⟨rfl, .inl ⟨rfl, notDue⟩⟩, fun _ => .inr (matchesValue_wildcard _)⟩
  case isFalse restricted =>
    split at notDue
    case isTrue anyDay =>
      rw [anyDay]
      exact ⟨fun _ => ⟨rfl, .inr ⟨restricted, rfl, notDue⟩⟩, fun _ => .inl (matchesValue_wildcard _)⟩
    case isFalse dayRestricted =>
      unfold weekdayDue at notDue
      rcases Bool.or_eq_false_iff.mp notDue with ⟨noDay, notNamed⟩
      have noWeekday := (Bool.or_eq_false_iff.mp notNamed).1
      rw [noDay, noWeekday]
      constructor
      · rintro (impossible | impossible) <;> cases impossible
      · rintro ⟨_, ⟨anyWeekday, _⟩ | ⟨_, anyDay, _⟩⟩
        · exact absurd anyWeekday restricted
        · exact absurd anyDay dayRestricted

theorem Strays.notDue (strays : schedule.Strays offset instant) :
    schedule.dayDue (dateOf offset instant).day (weekdayOf offset instant) = false := by
  unfold dayDue
  rcases strays.2 with ⟨anyWeekday, noDay⟩ | ⟨restricted, anyDay, noWeekday⟩
  · rw [if_pos anyWeekday]
    exact noDay
  · rw [if_neg restricted, if_pos anyDay]
    exact noWeekday

theorem instant_lt_start : instant < schedule.start instant := by
  have bound := Int.emod_lt_of_pos (instant + schedule.unit) schedule.unit_pos
  unfold start truncate
  omega

theorem unit_seconds (secs : schedule.hasSecs = true) : schedule.unit = 1000000000 := by
  rw [unit, secs]
  rfl

theorem unit_minutes (plain : schedule.hasSecs = false) : schedule.unit = 60000000000 := by
  rw [unit, plain]
  rfl

theorem secondOf_matched (exactly : schedule.seconds = .exact 0)
    (clock : schedule.matchesClock offset instant = true) : secondOf offset instant = 0 := by
  unfold matchesClock at clock
  simp only [Bool.and_eq_true, exactly] at clock
  exact beq_iff_eq.mp clock.1.1.1

/-- Where the clock fields match, the search comes to the instants it should
come to. -/
theorem tried_iff_examined {since : Int} (plain : schedule.hasSecs = false -> schedule.seconds = .exact 0)
    (clock : schedule.matchesClock offset instant = true) :
    Tried schedule.unit (schedule.maxTime offset since) (schedule.start since) instant ↔
      schedule.Examined offset since instant := by
  have later := @instant_lt_start schedule since
  have starts : schedule.start since =
      since + schedule.unit - (since + schedule.unit) % schedule.unit := rfl
  have isWhole : schedule.Whole offset instant ↔
      (instant + offset * 1000000000) % schedule.unit = 0 := Iff.rfl
  cases secs : schedule.hasSecs with
  | true =>
      rw [unit_seconds secs] at starts isWhole ⊢
      constructor
      · rintro ⟨above, below, onStep⟩
        exact ⟨lt_of_lt_of_le later above, below, isWhole.mpr (by omega), .inl secs⟩
      · rintro ⟨after, before, whole, _⟩
        have whole := isWhole.mp whole
        exact ⟨by omega, before, by omega⟩
  | false =>
      have atZero := secondOf_matched (plain secs) clock
      have shown : (instant + offset * 1000000000) / 1000000000 % 60 = 0 := atZero
      rw [unit_minutes secs] at starts isWhole ⊢
      constructor
      · rintro ⟨above, below, onStep⟩
        exact ⟨lt_of_lt_of_le later above, below, isWhole.mpr (by omega), .inr (by omega)⟩
      · rintro ⟨after, before, whole, aligned⟩
        have whole := isWhole.mp whole
        rcases aligned with impossible | aligned
        · rw [secs] at impossible
          cases impossible
        · exact ⟨by omega, before, by omega⟩

end Matches

/-- Without a seconds field a schedule runs at full minutes. -/
theorem parsed_plain {expr : String} {schedule : Schedule}
    (parsed : parseCronExpression expr = .ok schedule) (plain : schedule.hasSecs = false) :
    schedule.seconds = .exact 0 := by
  have fieldsKept : ∀ {hasSecs : Bool} {seconds : FieldMatcher} {first second third fourth fifth},
      parseFields hasSecs seconds first second third fourth fifth = .ok schedule ->
        schedule.hasSecs = hasSecs ∧ schedule.seconds = seconds := by
    intro hasSecs seconds first second third fourth fifth parsed
    rcases bind_eq_ok.mp parsed with ⟨_, _, parsed⟩
    rcases bind_eq_ok.mp parsed with ⟨_, _, parsed⟩
    rcases bind_eq_ok.mp parsed with ⟨_, _, parsed⟩
    rcases bind_eq_ok.mp parsed with ⟨_, _, parsed⟩
    rcases bind_eq_ok.mp parsed with ⟨_, _, finished⟩
    cases finished
    exact ⟨rfl, rfl⟩
  unfold parseCronExpression at parsed
  split at parsed
  · cases parsed
  · split at parsed
    · exact (fieldsKept parsed).2
    · rcases bind_eq_ok.mp parsed with ⟨_, _, parsed⟩
      rw [(fieldsKept parsed).1] at plain
      cases plain
    · cases parsed

/-- The result is the first due instant, or none because there is none, exactly
when the search is on its track. -/
theorem next_finds_iff {expr : String} {schedule : Schedule}
    (parsed : parseCronExpression expr = .ok schedule) (offset instant : Int) :
    Finds (schedule.Due offset) instant (schedule.next offset instant) ↔
      schedule.OnTrack offset instant := by
  have plain := parsed_plain parsed
  unfold next
  rw [finds_search_iff instant_lt_start]
  have clocked : ∀ {value}, schedule.matchesTime offset value = true ->
      schedule.matchesClock offset value = true := fun matched => (Bool.and_eq_true_iff.mp matched).1
  constructor
  · rintro ⟨strays, first⟩
    refine ⟨fun stray examined isStray => ?_, fun due isFirst => ?_⟩
    · have notDue := isStray.notDue
      have matched := (matchesTime_not_due isStray.1 notDue).mpr isStray
      refine strays stray ((tried_iff_examined plain isStray.1).mpr examined) matched ?_
      intro due
      have dayMatches := due.2.2
      rw [notDue] at dayMatches
      cases dayMatches
    · rcases first due isFirst with ⟨tried, matched⟩
      have isDue := isFirst.holds
      exact ⟨(tried_iff_examined plain isDue.2.1).mp tried,
        (matchesTime_due isDue.2.1 isDue.2.2).mp matched⟩
  · intro track
    refine ⟨fun value tried matched notDue => ?_, fun due isFirst => ?_⟩
    · have examined := (tried_iff_examined plain (clocked matched)).mp tried
      refine track.strays value examined ((matchesTime_not_due (clocked matched) ?_).mp matched)
      by_contra isDue
      exact notDue ⟨examined.whole, clocked matched, eq_true_of_ne_false isDue⟩
    · rcases track.first due isFirst with ⟨examined, known⟩
      have isDue := isFirst.holds
      exact ⟨(tried_iff_examined plain isDue.2.1).mpr examined,
        (matchesTime_due isDue.2.1 isDue.2.2).mpr known⟩

/-- `30 9 13 * 5`, half past nine on Fridays and on the thirteenth -/
def fridayOrThirteenth : Schedule where
  seconds := .exact 0
  minutes := .exact 30
  hours := .exact 9
  days := .exact 13
  months := .wildcard
  weekdays := .exact 5
  hasSecs := false

/-- Thursday, the second of January 2025. -/
def thursday : Int := 1735776000 * second

theorem next_finds_fridayOrThirteenth :
    Finds (fridayOrThirteenth.Due 0) thursday (fridayOrThirteenth.next 0 thursday) := by
  refine (@next_finds_iff "30 9 13 * 5" fridayOrThirteenth rfl 0 thursday).mpr ⟨?_, ?_⟩
  · rintro stray _ ⟨_, ⟨anyWeekday, _⟩ | ⟨_, anyDay, _⟩⟩
    · cases anyWeekday
    · cases anyDay
  · intro due isFirst
    have friday : fridayOrThirteenth.Due 0 (1735896600 * second) := ⟨rfl, by decide, by decide⟩
    have early : due ≤ 1735896600 * second := isFirst.first _ (by decide) friday
    have reach : 1735896600 * second < fridayOrThirteenth.maxTime 0 thursday := by decide
    refine ⟨⟨isFirst.after, lt_of_le_of_lt early reach, isFirst.holds.1, .inr rfl⟩, ?_⟩
    rintro ⟨_, _, _, impossible⟩
    cases impossible

/-- `0 9 * * 1-5`, nine o'clock on weekdays -/
def weekdaysAtNine : Schedule where
  seconds := .exact 0
  minutes := .exact 0
  hours := .exact 9
  days := .wildcard
  months := .wildcard
  weekdays := .range 1 5
  hasSecs := false

/-- A minute before nine on Saturday, the fourth of January 2025. -/
def saturday : Int := 1735981140 * second

theorem weekdaysAtNine_saturday :
    parseCronExpression "0 9 * * 1-5" = .ok weekdaysAtNine ∧
      weekdaysAtNine.next 0 saturday = some (saturday + minute) ∧
      weekdayOf 0 (saturday + minute) = 6 ∧
      ¬ Finds (weekdaysAtNine.Due 0) saturday (weekdaysAtNine.next 0 saturday) := by
  have runs : weekdaysAtNine.next 0 saturday = some (saturday + minute) := by
    unfold next search
    rw [if_pos (by decide), if_pos (by decide)]
    rfl
  refine ⟨rfl, runs, by decide, ?_⟩
  rw [runs]
  intro finds
  exact absurd finds.holds.2.2 (by decide)

end Schedule

end Schedules
end Memos
