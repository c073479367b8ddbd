/-!
# Calendar dates

Dates of the proleptic Gregorian calendar with a year zero, within a fixed range of years, and
their day numbers. Day zero is the first of January of year zero.

## Main definitions

* `Calendar.isLeapYear`, `Calendar.daysInMonth` : the calendar rules.
* `Calendar.yearStart` : the day number of the first day of a year.
* `Calendar.Date` : a date that exists and is in range.
* `Calendar.Date.dayNumber`, `Calendar.Date.ofDayNumber?` : dates as day numbers.
* `Calendar.Date.minusDays?` : the date a number of days earlier.
-/

namespace PlaylistRules.Calendar

/-- Every fourth year is a leap year, of the centuries every fourth one. -/
def isLeapYear (year : Int) : Bool :=
  year % 4 == 0 && (year % 100 != 0 || year % 400 == 0)

/-- The number of days of a month. -/
def daysInMonth (year : Int) (month : Nat) : Nat :=
  if month = 2 then (if isLeapYear year then 29 else 28)
  else if month = 4 ∨ month = 6 ∨ month = 9 ∨ month = 11 then 30
  else 31

/-- The first year of the calendar range. -/
def firstYear : Int := -262143

/-- The last year of the calendar range. -/
def lastYear : Int := 262142

/-- The day number of the first day of a year: a day for every earlier day, and one for every
leap year since year zero. -/
def yearStart (year : Int) : Int :=
  365 * year + (year + 3) / 4 - (year + 99) / 100 + (year + 399) / 400

/-- The days of a year before the first day of a month. -/
def monthStart (year : Int) (month : Nat) : Nat :=
  (List.range (month - 1)).foldl (fun days m => days + daysInMonth year (m + 1)) 0

/-- A date that exists in the calendar and lies in its range. -/
structure Date where
  year : Int
  month : Nat
  day : Nat
  year_range : firstYear ≤ year ∧ year ≤ lastYear
  month_range : 1 ≤ month ∧ month ≤ 12
  day_range : 1 ≤ day ∧ day ≤ daysInMonth year month
deriving DecidableEq, Repr

/-- The largest index up to a limit whose value is at most a bound. -/
def lastAtMost (value : Nat → Int) (bound : Int) : Nat → Nat
  | 0 => 0
  | limit + 1 => if value (limit + 1) ≤ bound then limit + 1 else lastAtMost value bound limit

/-- The number of days of four hundred years. -/
def daysInCycle : Int := 146097

/-- The year of a day number: the cycle of four hundred years, then the last year of the cycle
that starts no later than the day. -/
def yearOf (dayNumber : Int) : Int :=
  400 * (dayNumber / daysInCycle) +
    lastAtMost (fun y => yearStart y) (dayNumber % daysInCycle) 399

namespace Date

/-- The date of a year, month and day, if it exists. -/
def of? (year : Int) (month day : Nat) : Option Date :=
  if h : (firstYear ≤ year ∧ year ≤ lastYear) ∧ (1 ≤ month ∧ month ≤ 12) ∧
      (1 ≤ day ∧ day ≤ daysInMonth year month) then
    some ⟨year, month, day, h.1, h.2.1, h.2.2⟩
  else none

/-- The number of days since the first of January of year zero. -/
def dayNumber (date : Date) : Int :=
  yearStart date.year + monthStart date.year date.month + (date.day - 1 : Int)

/-- The date of a day number, if it is in range. -/
def ofDayNumber? (dayNumber : Int) : Option Date :=
  let year := yearOf dayNumber
  let dayOfYear := dayNumber - yearStart year
  let month := lastAtMost (fun m => monthStart year (m + 1)) dayOfYear 11 + 1
  of? year month (dayOfYear - monthStart year month + 1).toNat

/-- The date a number of days earlier, if it is in range. -/
def minusDays? (date : Date) (days : Nat) : Option Date :=
  ofDayNumber? (date.dayNumber - days)

/-- A date is found again from its parts. -/
theorem of?_parts (date : Date) : of? date.year date.month date.day = some date := by
  simp [of?, date.year_range, date.month_range, date.day_range]

/-- A date that exists has the parts that were given for it. -/
theorem parts_of_of? {year : Int} {month day : Nat} {date : Date}
    (h : of? year month day = some date) :
    date.year = year ∧ date.month = month ∧ date.day = day := by
  unfold of? at h
  split at h
  · cases h
    exact ⟨rfl, rfl, rfl⟩
  · simp at h

end Date

end PlaylistRules.Calendar
