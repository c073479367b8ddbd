import PlaylistRules.Calendar.Instant
import PlaylistRules.Proofs.Calendar.DayNumbers
import PlaylistRules.Proofs.Number.Padded

/-!
# The order of instants

Instants are in the order of their dates, and on the same date in the order of their times of day.
The texts that are shown for instants of the years with four digits are in the same order, up to
the fraction of a second. The text of an instant before the year zero begins with a sign, and comes
before all of these.

## Main definitions

* `Calendar.Instant.IsBefore` : the order of instants.

## Main results

* `Calendar.Date.write_lt_write_iff` : the order of the texts of dates.
* `Calendar.Instant.display_lt_display_iff` : the order of the texts of instants.
* `Calendar.Instant.display_lt_midnight_iff` : texts before the start of a date.
-/

namespace PlaylistRules.Calendar

open Number (padded append_lt_append_iff length_padded padded_lt_padded_iff padded_append_lt_iff)

/-! ### Dates -/

namespace Date

variable {a b date : Date}

/-- The year of a date is written with four digits and without a sign. -/
def HasPlainYear (date : Date) : Prop :=
  0 ≤ date.year ∧ date.year ≤ 9999

instance (date : Date) : Decidable date.HasPlainYear :=
  inferInstanceAs (Decidable (_ ∧ _))

theorem write_eq (h : date.HasPlainYear) :
    date.write = padded 4 date.year.natAbs ++
      ('-' :: padded 2 date.month ++ '-' :: padded 2 date.day) := by
  have hyear : 0 ≤ date.year ∧ date.year ≤ 9999 := h
  rw [write, writeYear, if_pos hyear, List.append_assoc]

/-- A month and a day have room in two digits, and a plain year in four. -/
theorem fields_lt (h : date.HasPlainYear) :
    date.year.natAbs < 10 ^ 4 ∧ date.month < 10 ^ 2 ∧ date.day < 10 ^ 2 := by
  have hyear : 0 ≤ date.year ∧ date.year ≤ 9999 := h
  have hmonth := date.month_range
  have hday := date.day_range
  have hdays := (daysInMonth_bounds date.year date.month).2
  omega

theorem length_write (h : date.HasPlainYear) : date.write.length = 10 := by
  obtain ⟨hyear, hmonth, hday⟩ := fields_lt h
  rw [write_eq h]
  simp only [List.length_append, List.length_cons, length_padded, hyear, hmonth, hday,
    Nat.zero_lt_succ]

/-- **The texts of dates are in the order of the dates.** -/
theorem write_lt_write_iff (ha : a.HasPlainYear) (hb : b.HasPlainYear) :
    a.write < b.write ↔ a.dayNumber < b.dayNumber := by
  obtain ⟨hyear, hmonth, hday⟩ := fields_lt ha
  obtain ⟨hyear', hmonth', hday'⟩ := fields_lt hb
  have hsign : 0 ≤ a.year := ha.1
  have hsign' : 0 ≤ b.year := hb.1
  rw [write_eq ha, write_eq hb, List.cons_append, List.cons_append,
    padded_append_lt_iff (by decide) hyear hyear', List.cons_lt_cons_self,
    padded_append_lt_iff (by decide) hmonth hmonth', List.cons_lt_cons_self,
    padded_lt_padded_iff (by decide) hday hday', dayNumber_lt_iff]
  omega

/-- The text of a date determines it. -/
theorem write_inj (ha : a.HasPlainYear) (hb : b.HasPlainYear) : a.write = b.write ↔ a = b := by
  refine ⟨fun h => ?_, congrArg write⟩
  have hlt := write_lt_write_iff ha hb
  have hgt := write_lt_write_iff hb ha
  rw [h] at hlt hgt
  have hnot : ¬b.write < b.write := List.lt_irrefl _
  rw [← dayNumber_inj]
  have := mt hlt.mpr hnot
  have := mt hgt.mpr hnot
  omega

end Date

/-! ### Instants -/

namespace Instant

variable {a b : Instant} {date : Date}

/-- The parts of the time of day. -/
def clock (instant : Instant) : List Nat :=
  [instant.hour, instant.minute, instant.second, instant.nanosecond]

/-- The parts of the time of day that are shown. -/
def shownClock (instant : Instant) : List Nat :=
  [instant.hour, instant.minute, if instant.isLeap then 60 else instant.second]

/-- An instant is before another one: by its date, or on the same date by its time of day. -/
def IsBefore (a b : Instant) : Prop :=
  a.date.dayNumber < b.date.dayNumber ∨ a.date = b.date ∧ a.clock < b.clock

instance (a b : Instant) : Decidable (a.IsBefore b) :=
  inferInstanceAs (Decidable (_ ∨ _))

/-- No instant of a date is before its midnight. -/
theorem isBefore_midnight_iff :
    a.IsBefore (.midnight date) ↔ a.date.dayNumber < date.dayNumber := by
  simp [IsBefore, clock, midnight, List.cons_lt_cons_iff]

/-- **The texts of times of day are in their order.** -/
theorem writeTime_lt_writeTime_iff : a.writeTime < b.writeTime ↔ a.shownClock < b.shownClock := by
  have hsecond : ∀ i : Instant, (if i.isLeap then 60 else i.second) < 10 ^ 2 := fun i => by
    have := i.second_range
    split <;> omega
  have hparts : ∀ i : Instant, i.hour < 10 ^ 2 ∧ i.minute < 10 ^ 2 := fun i => by
    have := i.hour_range
    have := i.minute_range
    omega
  simp only [writeTime, shownClock, List.append_assoc, List.cons_append]
  rw [padded_append_lt_iff (by decide) (hparts a).1 (hparts b).1, List.cons_lt_cons_self,
    padded_append_lt_iff (by decide) (hparts a).2 (hparts b).2, List.cons_lt_cons_self,
    padded_lt_padded_iff (by decide) (hsecond a) (hsecond b)]
  simp only [List.cons_lt_cons_iff, List.lt_irrefl, and_false, or_false]

/-- **The texts of instants are in the order of the instants**, up to the fraction of a second. -/
theorem display_lt_display_iff (ha : a.date.HasPlainYear) (hb : b.date.HasPlainYear) :
    a.display < b.display ↔
      a.date.dayNumber < b.date.dayNumber ∨ a.date = b.date ∧ a.shownClock < b.shownClock := by
  have hlength := (Date.length_write ha).trans (Date.length_write hb).symm
  rw [String.lt_iff, display, display, String.toList_ofList, String.toList_ofList,
    append_lt_append_iff hlength, Date.write_lt_write_iff ha hb, Date.write_inj ha hb,
    List.cons_lt_cons_self, writeTime_lt_writeTime_iff]

/-- The text of a year before zero comes before the texts of the years with four digits: its sign
comes before every digit. -/
theorem not_display_lt_of_negative (ha : a.date.HasPlainYear) (hb : b.date.year < 0) :
    ¬a.display < b.display := by
  obtain ⟨hne, hdigits⟩ := Number.isDigits_padded 4 a.date.year.natAbs
  obtain ⟨d, ds, hyear⟩ := List.exists_cons_of_ne_nil hne
  have hd : d.isDigit = true := hdigits d (hyear ▸ List.mem_cons_self)
  have hdate := Date.write_eq ha
  rw [hyear] at hdate
  have hsign : writeYear b.date.year = '-' :: padded 4 b.date.year.natAbs := by
    rw [writeYear, if_neg (by omega), if_pos hb]
  rw [String.lt_iff, display, display, String.toList_ofList, String.toList_ofList, hdate,
    Date.write, hsign]
  simp only [List.cons_append, List.cons_lt_cons_iff, not_or, not_and]
  rw [Number.isDigit_iff] at hd
  refine ⟨fun hlt => ?_, fun heq => ?_⟩
  · rw [Char.lt_def, UInt32.lt_iff_toNat_lt] at hlt
    have hless : d.toNat < 45 := hlt
    omega
  · subst heq
    exact absurd hd.1 (by decide)

/-- **The texts before the text of a midnight** are those of earlier instants, also when the
midnight is before the year zero. -/
theorem display_lt_midnight_iff (ha : a.date.HasPlainYear) (hdate : date.year ≤ 9999) :
    a.display < (midnight date).display ↔ a.IsBefore (.midnight date) := by
  rw [isBefore_midnight_iff]
  rcases Int.lt_or_le date.year 0 with hnegative | hplain
  · refine iff_of_false (not_display_lt_of_negative ha hnegative) fun hlt => ?_
    have hyear : 0 ≤ a.date.year := ha.1
    rw [Date.dayNumber_lt_iff] at hlt
    omega
  · rw [display_lt_display_iff ha ⟨hplain, hdate⟩]
    simp [shownClock, midnight, isLeap, List.cons_lt_cons_iff]

end Instant

end PlaylistRules.Calendar
