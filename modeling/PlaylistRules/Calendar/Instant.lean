import PlaylistRules.Calendar.Date
import PlaylistRules.Number.Integer

/-!
# Instants

A date with a time of day and no time zone. A leap second is the second `59` with a full second
or more of nanoseconds; it is written as second `60`.

## Main definitions

* `Calendar.Instant` : a date and a time of day.
* `Calendar.Instant.display` : the form in which instants are shown and stored.
* `Calendar.Instant.interchange` : the form in which instants are serialized.
-/

namespace PlaylistRules.Calendar

/-- A date and a time of day. -/
structure Instant where
  date : Date
  hour : Nat
  minute : Nat
  second : Nat
  nanosecond : Nat
  hour_range : hour < 24
  minute_range : minute < 60
  second_range : second < 60
  nanosecond_range : nanosecond < 1000000000 ∨ second = 59 ∧ nanosecond < 2000000000
deriving DecidableEq, Repr

/-- The digits of a year, at least four of them. Years outside `0` to `9999` have a sign. -/
def writeYear (year : Int) : List Char :=
  if 0 ≤ year ∧ year ≤ 9999 then Number.padded 4 year.natAbs
  else (if year < 0 then '-' else '+') :: Number.padded 4 year.natAbs

namespace Date

/-- Year, month and day with hyphens. -/
def write (date : Date) : List Char :=
  writeYear date.year ++ '-' :: Number.padded 2 date.month ++ '-' :: Number.padded 2 date.day

end Date

namespace Instant

/-- The instant of a date and a time of day, if the time exists. -/
def of? (date : Date) (hour minute second nanosecond : Nat) : Option Instant :=
  if h : hour < 24 ∧ minute < 60 ∧ second < 60 ∧
      (nanosecond < 1000000000 ∨ second = 59 ∧ nanosecond < 2000000000) then
    some ⟨date, hour, minute, second, nanosecond, h.1, h.2.1, h.2.2.1, h.2.2.2⟩
  else none

/-- The first instant of a date. -/
def midnight (date : Date) : Instant where
  date := date
  hour := 0
  minute := 0
  second := 0
  nanosecond := 0
  hour_range := by decide
  minute_range := by decide
  second_range := by decide
  nanosecond_range := .inl (by decide)

/-- The instant is in a leap second. -/
def isLeap (instant : Instant) : Bool :=
  1000000000 ≤ instant.nanosecond

/-- Hour, minute and second with colons. -/
def writeTime (instant : Instant) : List Char :=
  Number.padded 2 instant.hour ++ ':' :: Number.padded 2 instant.minute ++
    ':' :: Number.padded 2 (if instant.isLeap then 60 else instant.second)

/-- The date and the time of day without the fraction of a second. -/
def display (instant : Instant) : String :=
  String.ofList (instant.date.write ++ ' ' :: instant.writeTime)

/-- The fraction of a second with the fewest of three, six or nine digits that are exact. A whole
second has none. -/
def writeFraction (nanosecond : Nat) : List Char :=
  if nanosecond = 0 then []
  else if nanosecond % 1000000 = 0 then '.' :: Number.padded 3 (nanosecond / 1000000)
  else if nanosecond % 1000 = 0 then '.' :: Number.padded 6 (nanosecond / 1000)
  else '.' :: Number.padded 9 nanosecond

/-- The date and the time of day with a `T` between them and the fraction of a second. -/
def interchange (instant : Instant) : String :=
  String.ofList (instant.date.write ++ 'T' :: instant.writeTime ++
    writeFraction (instant.nanosecond % 1000000000))

end Instant

end PlaylistRules.Calendar
