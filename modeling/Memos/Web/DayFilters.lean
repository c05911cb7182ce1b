import Memos.Library.Calendar
import Memos.Library.TimeZones

namespace Memos
namespace Web
namespace DayFilters

open Library

/-!
# The memos of a day

The calendar counts the memos of each day by the clocks of the browser, and a
day of it filters the memos that were created within 24 hours.  The filter takes
the offset of the zone at midnight UTC, and knows no other time than that of
creation.
-/

inductive MemoTimeBasis where
  | createTime
  | updateTime
deriving DecidableEq

structure Memo where
  createdTs : Int
  updatedTs : Int
deriving DecidableEq

/-! ## Filters -/

/-- The value of a filter: a date of the form YYYY-MM-DD, or another text with
the instant that `new Date` reads in it, if any. -/
inductive FilterValue where
  | date (date : Date)
  | other (instant : Option Int)
deriving DecidableEq

structure MemoFilter where
  factor : String
  value : FilterValue
deriving DecidableEq

/-- The condition `created_ts >= after && created_ts < before`. -/
structure CreatedRange where
  after : Int
  before : Int
deriving DecidableEq

/-- `getTimezoneOffset`, in seconds.  Like the standard it does not round: some
browsers cut the seconds off the offsets of local mean time. -/
def timezoneOffset (zone : TimeZone) (time : Int) : Int := -zone.offset time

/-- `new Date`; a date is midnight UTC of a day of the calendar. -/
def parseDate (value : FilterValue) : Option Int :=
  match value with
  | .date date => if Date.ofDays date.toDays = date then some (date.toDays * 86400) else none
  | .other instant => instant

/-- The range of a displayTime filter; an invalid date leaves none. -/
def createdRange (zone : TimeZone) (value : FilterValue) : Option CreatedRange :=
  (parseDate value).map fun filterDate =>
    let timestampAfter := filterDate + timezoneOffset zone filterDate
    { after := timestampAfter, before := timestampAfter + 60 * 60 * 24 }

/-- The conditions of `useMemoFilters` that are about time. -/
def timeConditions (zone : TimeZone) (filters : List MemoFilter) : List (Option CreatedRange) :=
  (filters.filter fun filter => filter.factor = "displayTime").map fun filter =>
    createdRange zone filter.value

def CreatedRange.contains (range : CreatedRange) (memo : Memo) : Bool :=
  range.after ≤ memo.createdTs && memo.createdTs < range.before

/-- The memos that the filters select; an invalid condition selects none. -/
def selects (zone : TimeZone) (filters : List MemoFilter) (memo : Memo) : Bool :=
  (timeConditions zone filters).all fun range => range.any fun range => range.contains memo

/-! ## The calendar -/

/-- What the calendar reads of the statistics of a user. -/
structure UserStats where
  memoCreatedTimestamps : List Int
  memoUpdatedTimestamps : List Int
deriving DecidableEq

def toDateString (zone : TimeZone) (timestamp : Int) : Date := Date.ofDays (zone.localDay timestamp)

def timestampsForBasis (stats : UserStats) (basis : MemoTimeBasis) : List Int :=
  let createdArray := stats.memoCreatedTimestamps
  let updatedArray := stats.memoUpdatedTimestamps
  let wantUpdated := basis = .updateTime
  let oldServerFallback := wantUpdated ∧ updatedArray.length = 0 ∧ createdArray.length > 0
  if wantUpdated ∧ ¬ oldServerFallback then updatedArray else createdArray

/-- Explore and archive add up the statistics of all users, home and profile have
those of one user. -/
inductive StatsSource where
  | allUsers (allUserStats : List UserStats)
  | oneUser (userStats : UserStats)

def displayDates (zone : TimeZone) (basis : MemoTimeBasis) : StatsSource -> List Date
  | .allUsers allUserStats =>
      allUserStats.flatMap fun stats => (timestampsForBasis stats basis).map (toDateString zone)
  | .oneUser userStats =>
      let sourceArray := timestampsForBasis userStats basis
      if sourceArray.length > 0 then sourceArray.map (toDateString zone) else []

/-- `countBy` -/
def activityStats (zone : TimeZone) (basis : MemoTimeBasis) (source : StatsSource) (date : Date) : Nat :=
  (displayDates zone basis source).count date

/-! ## The time of a new memo -/

/-- `MakeDay`, with months from 0 -/
def makeDay (year month day : Int) : Int := Date.toDays ⟨year + month / 12, month % 12 + 1, 1⟩ + day - 1

/-- `new Date` of what the clocks show; the years 0 to 99 are those of 1900. -/
def newDate (zone : TimeZone) (year month day hours minutes seconds : Int) : Int :=
  let fullYear := if 0 ≤ year ∧ year ≤ 99 then 1900 + year else year
  zone.instant (makeDay fullYear month day * 86400 + hours * 3600 + minutes * 60 + seconds)

def deriveDefaultCreateTimeFromFilters (zone : TimeZone) (filters : List MemoFilter) (now : Int) :
    Option Int :=
  match filters.find? fun filter => filter.factor = "displayTime" with
  | none => none
  | some dateFilter =>
      match dateFilter.value with
      | .other _ => none
      | .date date =>
          let time := zone.localTime now % 86400
          let candidate := newDate zone date.year (date.month - 1) date.day (time / 3600)
            (time / 60 % 60) (time % 60)
          let shown := toDateString zone candidate
          if shown.year ≠ date.year ∨ shown.month - 1 ≠ date.month - 1 ∨ shown.day ≠ date.day then none
          else some candidate

/-! ## Agreement -/

/-- An old server sends no times of updates. -/
inductive Server where
  | current
  | old
deriving DecidableEq

def statsOf (server : Server) (memos : List Memo) : UserStats where
  memoCreatedTimestamps := memos.map Memo.createdTs
  memoUpdatedTimestamps := if server = .old then [] else memos.map Memo.updatedTs

/-- The memos a page is about, those of each user together. -/
inductive Page where
  | allUsers (memos : List (List Memo))
  | oneUser (memos : List Memo)

def Page.memos : Page -> List Memo
  | .allUsers memos => memos.flatten
  | .oneUser memos => memos

def Page.source (server : Server) : Page -> StatsSource
  | .allUsers memos => .allUsers (memos.map (statsOf server))
  | .oneUser memos => .oneUser (statsOf server memos)

def dayFilter (day : Int) : MemoFilter := { factor := "displayTime", value := .date (Date.ofDays day) }

def selectedOn (zone : TimeZone) (day : Int) (memo : Memo) : Bool := selects zone [dayFilter day] memo

/-- The memos whose entries the calendar counts on a day. -/
def countedOn (zone : TimeZone) (basis : MemoTimeBasis) (server : Server) (day : Int) (page : Page) :
    List Memo :=
  ((page.memos.zip (displayDates zone basis (page.source server))).filter fun entry =>
    entry.2 = Date.ofDays day).map Prod.fst

/-- The filter and the calendar agree. -/
structure DatesAgree (zone : TimeZone) (basis : MemoTimeBasis) (server : Server) : Prop where
  same : ∀ page day, page.memos.filter (selectedOn zone day) = countedOn zone basis server day page
  disjoint : ∀ day memo, selectedOn zone day memo = true -> selectedOn zone (day + 1) memo = false
  cover : ∀ memo, Exists fun day => selectedOn zone day memo = true
  created : ∀ day now created,
    deriveDefaultCreateTimeFromFilters zone [dayFilter day] now = some created ->
      ∀ updatedTs, selectedOn zone day { createdTs := created, updatedTs } = true

/-! ## What is selected -/

variable {zone : TimeZone}

theorem ofDays_injective {first second : Int} (same : Date.ofDays first = Date.ofDays second) :
    first = second := by
  rw [← Date.toDays_ofDays first, same, Date.toDays_ofDays]

theorem toDateString_eq_iff (timestamp day : Int) :
    toDateString zone timestamp = Date.ofDays day ↔ zone.localDay timestamp = day := by
  constructor
  · exact ofDays_injective
  · rintro rfl
    rfl

/-- A day selects what was created in its window. -/
theorem selectedOn_iff (day : Int) (memo : Memo) :
    selectedOn zone day memo = true ↔ zone.InWindow day memo.createdTs := by
  have range : createdRange zone (dayFilter day).value =
      some { after := day * 86400 - zone.offset (day * 86400),
             before := day * 86400 - zone.offset (day * 86400) + 60 * 60 * 24 } := by
    rw [createdRange, dayFilter, parseDate, Date.toDays_ofDays, if_pos rfl]
    rfl
  have conditions : timeConditions zone [dayFilter day] = [createdRange zone (dayFilter day).value] := rfl
  rw [selectedOn, selects, conditions, range, TimeZone.InWindow]
  simp only [List.all_cons, List.all_nil, Bool.and_true, Option.any_some, CreatedRange.contains,
    Bool.and_eq_true, decide_eq_true_eq]
  omega

/-- A derived time is on the day of the filter, as the clocks show it. -/
theorem localDay_of_derived {day now created : Int}
    (derived : deriveDefaultCreateTimeFromFilters zone [dayFilter day] now = some created) :
    zone.localDay created = day := by
  have found : [dayFilter day].find? (fun filter => filter.factor = "displayTime") =
      some (dayFilter day) := rfl
  rw [deriveDefaultCreateTimeFromFilters, found] at derived
  dsimp only [dayFilter] at derived
  split at derived
  · contradiction
  · rename_i shows
    obtain rfl := Option.some.inj derived
    simp only [not_or, not_not] at shows
    refine (toDateString_eq_iff _ _).mp ?_
    rcases shows with ⟨year, month, date⟩
    generalize toDateString zone _ = shown at *
    rcases shown with ⟨shownYear, shownMonth, shownDay⟩
    generalize Date.ofDays day = wanted at *
    rcases wanted with ⟨wantedYear, wantedMonth, wantedDay⟩
    dsimp only at year month date
    rw [Date.mk.injEq]
    omega

/-! ## What is counted -/

/-- The time by which the calendar counts a memo. -/
def shownTs (basis : MemoTimeBasis) (server : Server) (memo : Memo) : Int :=
  if basis = .updateTime ∧ server = .current then memo.updatedTs else memo.createdTs

theorem timestampsForBasis_statsOf (basis : MemoTimeBasis) (server : Server) (memos : List Memo) :
    timestampsForBasis (statsOf server memos) basis = memos.map (shownTs basis server) := by
  cases basis with
  | createTime => rfl
  | updateTime =>
      cases server with
      | old =>
          cases memos with
          | nil => rfl
          | cons memo memos => rfl
      | current =>
          cases memos with
          | nil => rfl
          | cons memo memos => rfl

theorem displayDates_source (basis : MemoTimeBasis) (server : Server) (page : Page) :
    displayDates zone basis (page.source server) =
      page.memos.map fun memo => toDateString zone (shownTs basis server memo) := by
  cases page with
  | allUsers memos =>
      rw [Page.source, displayDates, Page.memos, List.flatMap_map, List.map_flatten, List.flatMap_def]
      refine congrArg List.flatten (List.map_congr_left fun group _ => ?_)
      rw [timestampsForBasis_statsOf, List.map_map]
      rfl
  | oneUser memos =>
      rw [Page.source, displayDates, Page.memos, timestampsForBasis_statsOf]
      cases memos with
      | nil => rfl
      | cons memo memos =>
          rw [List.map_map]
          rfl

theorem countedOn_eq (basis : MemoTimeBasis) (server : Server) (day : Int) (page : Page) :
    countedOn zone basis server day page =
      page.memos.filter fun memo => zone.localDay (shownTs basis server memo) = day := by
  rw [countedOn, displayDates_source]
  generalize page.memos = memos
  induction memos with
  | nil => rfl
  | cons memo memos ih =>
      rw [List.map_cons, List.zip_cons_cons]
      by_cases counted : zone.localDay (shownTs basis server memo) = day
      · rw [List.filter_cons_of_pos (by rw [decide_eq_true_eq, toDateString_eq_iff]; exact counted),
          List.filter_cons_of_pos (by rw [decide_eq_true_eq]; exact counted), List.map_cons,
          ih]
      · rw [List.filter_cons_of_neg (by rw [decide_eq_true_eq, toDateString_eq_iff]; exact counted),
          List.filter_cons_of_neg (by rw [decide_eq_true_eq]; exact counted), ih]

/-- The calendar's number for a day is the number of memos it counts. -/
theorem activityStats_eq_length (basis : MemoTimeBasis) (server : Server) (day : Int) (page : Page) :
    activityStats zone basis (page.source server) (Date.ofDays day) =
      (countedOn zone basis server day page).length := by
  rw [activityStats, displayDates_source, countedOn_eq, List.count_eq_countP, List.countP_map,
    List.countP_eq_length_filter]
  refine congrArg List.length (List.filter_congr fun memo _ => ?_)
  rw [Function.comp_apply, Bool.eq_iff_iff, beq_iff_eq, decide_eq_true_eq, toDateString_eq_iff]

/-! ## When they agree -/

/-- What the filter selects is what the calendar counts, for every memo. -/
theorem same_iff (basis : MemoTimeBasis) (server : Server) :
    (∀ page day, page.memos.filter (selectedOn zone day) = countedOn zone basis server day page) ↔
      ∀ memo day, zone.InWindow day memo.createdTs ↔
        zone.localDay (shownTs basis server memo) = day := by
  constructor
  · intro same memo day
    have one := same (.oneUser [memo]) day
    rw [countedOn_eq, Page.memos] at one
    rw [← selectedOn_iff]
    by_cases counted : zone.localDay (shownTs basis server memo) = day
    · rw [@List.filter_cons_of_pos _ (fun memo => decide (zone.localDay (shownTs basis server memo) = day))
        _ _ (decide_eq_true counted)] at one
      have member : memo ∈ [memo].filter (selectedOn zone day) := by
        rw [one]
        exact List.mem_cons_self
      exact ⟨fun _ => counted, fun _ => (List.mem_filter.mp member).2⟩
    · refine ⟨fun selected => absurd ?_ counted, fun isCounted => absurd isCounted counted⟩
      have member : memo ∈ [memo].filter (selectedOn zone day) :=
        List.mem_filter.mpr ⟨List.mem_cons_self, selected⟩
      rw [one] at member
      exact of_decide_eq_true (List.mem_filter.mp member).2
  · intro each page day
    rw [countedOn_eq]
    refine List.filter_congr fun memo _ => ?_
    rw [Bool.eq_iff_iff, decide_eq_true_eq, selectedOn_iff, each]

/-- The times of updates are free, so a filter by creation cannot follow them. -/
theorem updates_not_same :
    ¬ ∀ memo day, zone.InWindow day memo.createdTs ↔
      zone.localDay (shownTs .updateTime .current memo) = day := by
  intro each
  have first := zone.small (0 * 86400)
  have later := zone.small (-zone.offset (0 * 86400) + 864000)
  have inside : zone.InWindow 0 (-zone.offset (0 * 86400)) := by
    unfold TimeZone.InWindow
    omega
  have updated := (each { createdTs := -zone.offset (0 * 86400),
                          updatedTs := -zone.offset (0 * 86400) + 864000 } 0).mp inside
  have shown : zone.localDay (-zone.offset (0 * 86400) + 864000) = 0 := updated
  unfold TimeZone.localDay TimeZone.localTime at shown
  omega

/-- The filter and the calendar agree exactly in a steady zone when the calendar
counts by creation. -/
theorem datesAgree_iff (zone : TimeZone) (basis : MemoTimeBasis) (server : Server) :
    DatesAgree zone basis server ↔ (basis = .createTime ∨ server = .old) ∧ zone.Steady := by
  constructor
  · rintro ⟨same, _, _, _⟩
    have each := (same_iff basis server).mp same
    have byCreation : basis = .createTime ∨ server = .old := by
      cases basis with
      | createTime => exact Or.inl rfl
      | updateTime =>
          cases server with
          | old => exact Or.inr rfl
          | current => exact absurd each updates_not_same
    refine ⟨byCreation, TimeZone.steady_iff.mpr fun day time => ?_⟩
    have shown : shownTs basis server { createdTs := time, updatedTs := time } = time := by
      unfold shownTs
      split
      · rfl
      · rfl
    have memo := each { createdTs := time, updatedTs := time } day
    rwa [shown] at memo
  · rintro ⟨byCreation, steady⟩
    have windows := TimeZone.steady_iff.mp steady
    have shown (memo : Memo) : shownTs basis server memo = memo.createdTs := by
      refine if_neg ?_
      rintro ⟨rfl, rfl⟩
      rcases byCreation with basis | server
      · contradiction
      · contradiction
    constructor
    · refine (same_iff basis server).mpr fun memo day => ?_
      rw [shown]
      exact windows day memo.createdTs
    · intro day memo selected
      have today := (windows _ _).mp ((selectedOn_iff day memo).mp selected)
      rw [Bool.eq_false_iff]
      intro again
      have tomorrow := (windows _ _).mp ((selectedOn_iff (day + 1) memo).mp again)
      omega
    · intro memo
      exact ⟨zone.localDay memo.createdTs, (selectedOn_iff _ memo).mpr ((windows _ _).mpr rfl)⟩
    · intro day now created derived updatedTs
      exact (selectedOn_iff day _).mpr ((windows _ _).mpr (localDay_of_derived derived))

/-- New York around the morning of 9 March 2025, when its clocks go forward. -/
def newYork : TimeZone where
  offset time := if time < 1741503600 then -18000 else -14400
  instant reading := if reading < 1741503600 - 14400 then reading + 18000 else reading + 14400
  small time := by
    split
    · omega
    · omega
  exact time := by
    by_cases before : time < 1741503600
    · rw [if_pos before, if_pos (by omega), if_pos (by omega)]
      omega
    · rw [if_neg before, if_neg (by omega), if_neg (by omega)]
      omega

def utc : TimeZone where
  offset _ := 0
  instant reading := reading
  small _ := by omega
  exact _ := by omega

/-- In New York the filter of the short day reaches into the next one, and in UTC
a memo updated later is counted on another day than it is selected on. -/
theorem newYork_not_datesAgree :
    ¬ DatesAgree newYork .createTime .current ∧ ¬ DatesAgree utc .updateTime .current := by
  constructor
  · intro agree
    have same := agree.same (.oneUser [{ createdTs := 1741581000, updatedTs := 1741581000 }]) 20156
    exact absurd same (by decide +kernel)
  · intro agree
    have same := agree.same (.oneUser [{ createdTs := 1741500000, updatedTs := 1741600000 }]) 20156
    exact absurd same (by decide +kernel)

end DayFilters
end Web
end Memos
