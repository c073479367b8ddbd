import PlaylistRules.Calendar.Date

/-!
# Day numbers

The days of the calendar are counted one after the other: the number of the next day is one more,
across the ends of months, of years and of centuries. A day number between those of the first and
of the last date belongs to exactly one date, and dates are in the order of their years, months and
days.

## Main definitions

* `Calendar.Date.first`, `Calendar.Date.last` : the ends of the calendar range.
* `Calendar.Date.IsNext` : the day after a date, by the rules of the calendar.
* `Calendar.Date.IsDaysBefore` : so many days before a date, counted one by one.

## Main results

* `Calendar.Date.ofDayNumber?_eq_some_iff` : the date of a day number.
* `Calendar.Date.exists_dayNumber_eq_iff` : the day numbers that have a date.
* `Calendar.Date.dayNumber_lt_iff` : the order of dates.
* `Calendar.Date.isNext_iff`, `Calendar.Date.isDaysBefore_iff` : counting days.
-/

namespace PlaylistRules.Calendar

variable {year year' : Int} {month month' : Nat}

/-! ### Years -/

/-- The number of days of a year. -/
def daysInYear (year : Int) : Nat :=
  if isLeapYear year then 366 else 365

/-- The next year starts after the days of a year. -/
theorem yearStart_add_one (year : Int) :
    yearStart (year + 1) = yearStart year + daysInYear year := by
  simp only [yearStart, daysInYear, isLeapYear, Bool.and_eq_true, Bool.or_eq_true, beq_iff_eq,
    bne_iff_ne]
  split <;> omega

/-- A later year starts after all days of a year. -/
theorem yearStart_add_one_le (h : year < year') : yearStart (year + 1) ≤ yearStart year' := by
  simp only [yearStart]
  omega

/-- Every four hundred years have the same days. -/
theorem yearStart_cycle (cycle year : Int) :
    yearStart (400 * cycle + year) = daysInCycle * cycle + yearStart year := by
  simp only [yearStart, daysInCycle]
  omega

/-- The year that contains a day is the only one. -/
theorem eq_of_yearStart {k : Int} (h : yearStart year ≤ k) (h' : k < yearStart (year + 1))
    (hother : yearStart year' ≤ k) (hother' : k < yearStart (year' + 1)) : year = year' := by
  rcases Int.lt_trichotomy year year' with hlt | heq | hgt
  · have := yearStart_add_one_le hlt
    omega
  · exact heq
  · have := yearStart_add_one_le hgt
    omega

/-! ### Months -/

theorem monthStart_one (year : Int) : monthStart year 1 = 0 :=
  rfl

/-- The next month starts after the days of a month. -/
theorem monthStart_add_one (year : Int) (h : 1 ≤ month) :
    monthStart year (month + 1) = monthStart year month + daysInMonth year month := by
  obtain ⟨m, rfl⟩ := Nat.exists_eq_add_of_le' h
  simp only [monthStart, Nat.add_sub_cancel, List.range_succ, List.foldl_append, List.foldl_cons,
    List.foldl_nil]

/-- After twelve months the days of the year are over. -/
theorem monthStart_thirteen (year : Int) : monthStart year 13 = daysInYear year := by
  unfold daysInYear
  cases h : isLeapYear year <;> simp [monthStart, List.range, List.range.loop, daysInMonth, h]

/-- A later month starts after all days of a month. -/
theorem monthStart_add_one_le (year : Int) (h : 1 ≤ month) (hlt : month < month') :
    monthStart year (month + 1) ≤ monthStart year month' := by
  induction month' with
  | zero => exact absurd hlt (Nat.not_lt_zero month)
  | succ m ih =>
    rcases Nat.lt_succ_iff_lt_or_eq.mp hlt with hm | rfl
    · have hnext := monthStart_add_one year (Nat.le_trans h (Nat.le_of_lt hm))
      exact Nat.le_trans (ih hm) (by omega)
    · exact Nat.le_refl _

theorem daysInMonth_bounds (year : Int) (month : Nat) :
    1 ≤ daysInMonth year month ∧ daysInMonth year month ≤ 31 := by
  unfold daysInMonth
  split
  · split <;> omega
  · split <;> omega

/-! ### Searching -/

/-- The search stops at an index whose value is at most the bound, while the next one is above. -/
theorem lastAtMost_spec (value : Nat → Int) (bound : Int) (limit : Nat) (h : value 0 ≤ bound)
    (hlimit : bound < value (limit + 1)) :
    lastAtMost value bound limit ≤ limit ∧ value (lastAtMost value bound limit) ≤ bound ∧
      bound < value (lastAtMost value bound limit + 1) := by
  induction limit with
  | zero => exact ⟨Nat.le_refl 0, h, hlimit⟩
  | succ limit ih =>
    rw [lastAtMost]
    split
    · next hle => exact ⟨Nat.le_refl _, hle, hlimit⟩
    · next hgt =>
      obtain ⟨hbound, hvalue, hnext⟩ := ih (Int.not_le.mp hgt)
      exact ⟨Nat.le_succ_of_le hbound, hvalue, hnext⟩

/-- The year of a day number contains the day. -/
theorem yearStart_yearOf (k : Int) :
    yearStart (yearOf k) ≤ k ∧ k < yearStart (yearOf k + 1) := by
  have hzero : yearStart (0 : Nat) = 0 := by decide
  have hcycle : yearStart (399 + 1 : Nat) = daysInCycle := by decide
  have hpos : (0 : Int) < daysInCycle := by decide
  have hrest := Int.emod_nonneg k (Int.ne_of_gt hpos)
  have hlt := Int.emod_lt_of_pos k hpos
  have hdivide := Int.mul_ediv_add_emod k daysInCycle
  obtain ⟨-, hle, hnext⟩ := lastAtMost_spec (fun y => yearStart y) (k % daysInCycle) 399
    (by rwa [hzero]) (by rwa [hcycle])
  unfold yearOf
  generalize lastAtMost (fun y => yearStart y) (k % daysInCycle) 399 = y at hle hnext
  rw [Int.add_assoc, yearStart_cycle, yearStart_cycle]
  push_cast at hnext
  omega

/-! ### Dates -/

namespace Date

variable {a b date : Date} {k : Int} {n : Nat}

theorem ext_parts (hyear : a.year = b.year) (hmonth : a.month = b.month) (hday : a.day = b.day) :
    a = b := by
  cases a
  cases b
  cases hyear
  cases hmonth
  cases hday
  rfl

/-- The days of the year before a date. -/
def dayOfYear (date : Date) : Nat :=
  monthStart date.year date.month + (date.day - 1)

theorem dayNumber_eq (date : Date) : date.dayNumber = yearStart date.year + date.dayOfYear := by
  have hday := date.day_range
  simp only [dayNumber, dayOfYear]
  omega

/-- A date lies within its month. -/
theorem dayOfYear_bounds (date : Date) :
    monthStart date.year date.month ≤ date.dayOfYear ∧
      date.dayOfYear < monthStart date.year (date.month + 1) := by
  have hday := date.day_range
  rw [monthStart_add_one _ date.month_range.1, dayOfYear]
  omega

/-- A date lies within its year. -/
theorem dayNumber_bounds (date : Date) :
    yearStart date.year ≤ date.dayNumber ∧ date.dayNumber < yearStart (date.year + 1) := by
  have hmonth : monthStart date.year (date.month + 1) ≤ daysInYear date.year := by
    rw [← monthStart_thirteen]
    exact monthStart_add_one_le _ date.month_range.1 (Nat.lt_succ_of_le date.month_range.2)
  have hbounds := date.dayOfYear_bounds
  rw [yearStart_add_one, dayNumber_eq]
  omega

/-- **Dates are in the order of their years, months and days.** -/
theorem dayNumber_lt_iff :
    a.dayNumber < b.dayNumber ↔
      a.year < b.year ∨ a.year = b.year ∧
        (a.month < b.month ∨ a.month = b.month ∧ a.day < b.day) := by
  -- A date is earlier when its year is, or in the same year when its month is, or its day.
  have hyear : ∀ {a b : Date}, a.year < b.year → a.dayNumber < b.dayNumber := fun {a b} h => by
    have ha := a.dayNumber_bounds
    have hb := b.dayNumber_bounds
    have := yearStart_add_one_le h
    omega
  have hmonth : ∀ {a b : Date}, a.year = b.year → a.month < b.month →
      a.dayNumber < b.dayNumber := fun {a b} h hlt => by
    have ha := a.dayOfYear_bounds
    have hb := b.dayOfYear_bounds
    have := monthStart_add_one_le b.year a.month_range.1 hlt
    rw [h] at ha
    rw [dayNumber_eq, dayNumber_eq, h]
    omega
  have hday : ∀ {a b : Date}, a.year = b.year → a.month = b.month →
      (a.dayNumber < b.dayNumber ↔ a.day < b.day) := fun h h' => by
    rw [dayNumber, dayNumber, h, h']
    omega
  rcases Int.lt_trichotomy a.year b.year with h | h | h
  · have := hyear h
    omega
  · rcases Nat.lt_trichotomy a.month b.month with h' | h' | h'
    · have := hmonth h h'
      omega
    · have := hday h h'
      omega
    · have := hmonth h.symm h'
      omega
  · have := hyear h
    omega

theorem year_le_of_dayNumber_le (h : a.dayNumber ≤ b.dayNumber) : a.year ≤ b.year := by
  have hlater := mt dayNumber_lt_iff.mpr (Int.not_lt.mpr h)
  omega

theorem dayNumber_inj : a.dayNumber = b.dayNumber ↔ a = b := by
  refine ⟨fun h => ?_, congrArg dayNumber⟩
  have hlt := dayNumber_lt_iff (a := a) (b := b)
  have hgt := dayNumber_lt_iff (a := b) (b := a)
  exact ext_parts (by omega) (by omega) (by omega)

/-- A day of a month in range is a date. -/
theorem exists_date (hyear : firstYear ≤ year ∧ year ≤ lastYear) (hmonth : 1 ≤ month ∧ month ≤ 12)
    {day : Nat} (hday : day < daysInMonth year month) :
    ∃ date, of? year month (day + 1) = some date ∧
      date.dayNumber = yearStart year + (monthStart year month + day : Nat) := by
  have hrange : (firstYear ≤ year ∧ year ≤ lastYear) ∧ (1 ≤ month ∧ month ≤ 12) ∧
      (1 ≤ day + 1 ∧ day + 1 ≤ daysInMonth year month) := ⟨hyear, hmonth, by omega⟩
  refine ⟨_, dif_pos hrange, ?_⟩
  simp only [dayNumber]
  omega

/-- Every day number lies within a month of a year, and the date is made of these, if it is in
range. -/
theorem exists_parts (k : Int) :
    ∃ year month day, ofDayNumber? k = of? year month (day + 1) ∧ (1 ≤ month ∧ month ≤ 12) ∧
      day < daysInMonth year month ∧
      k = yearStart year + (monthStart year month + day : Nat) := by
  obtain ⟨hle, hlt⟩ := yearStart_yearOf k
  obtain ⟨dayOfYear, hdays⟩ := Int.eq_ofNat_of_zero_le (Int.sub_nonneg.mpr hle)
  rw [yearStart_add_one, ← monthStart_thirteen] at hlt
  obtain ⟨hmonth, hstart, hnext⟩ := lastAtMost_spec
    (fun m => monthStart (yearOf k) (m + 1)) dayOfYear 11
    (by rw [monthStart_one]; omega) (by show (dayOfYear : Int) < monthStart (yearOf k) 13; omega)
  unfold ofDayNumber?
  dsimp only
  rw [hdays]
  generalize lastAtMost (fun m => monthStart (yearOf k) (m + 1)) dayOfYear 11 = m at *
  rw [monthStart_add_one _ (Nat.le_add_left 1 m)] at hnext
  obtain ⟨day, rfl⟩ : ∃ day, dayOfYear = monthStart (yearOf k) (m + 1) + day :=
    Nat.exists_eq_add_of_le (by omega)
  have hday : ((monthStart (yearOf k) (m + 1) + day : Nat) -
      (monthStart (yearOf k) (m + 1) : Nat) + 1 : Int).toNat = day + 1 := by omega
  exact ⟨yearOf k, m + 1, day, by rw [hday], by omega, by omega, by omega⟩

/-- A day within a month lies within its year. -/
theorem bounds_of_parts (hmonth : 1 ≤ month ∧ month ≤ 12) {day : Nat}
    (hday : day < daysInMonth year month) :
    monthStart year month + day < daysInYear year := by
  have hnext := monthStart_add_one year hmonth.1
  have hend := monthStart_add_one_le year hmonth.1 (Nat.lt_succ_of_le hmonth.2)
  rw [monthStart_thirteen] at hend
  omega

/-- **A day number is the one of the date that is found for it**, whenever a date has it. -/
theorem ofDayNumber?_eq_some_iff : ofDayNumber? k = some date ↔ date.dayNumber = k := by
  obtain ⟨year, month, day, hfound, hmonth, hday, hk⟩ := exists_parts k
  rw [hfound]
  constructor
  · intro h
    obtain ⟨hyear', hmonth', hday'⟩ := parts_of_of? h
    rw [dayNumber, hyear', hmonth', hday']
    omega
  · intro h
    have hdays := bounds_of_parts hmonth hday
    have hbounds := date.dayNumber_bounds
    have hyear : date.year = year :=
      eq_of_yearStart hbounds.1 hbounds.2 (by omega) (by rw [yearStart_add_one]; omega)
    obtain ⟨other, hother, hnumber⟩ := exists_date (hyear ▸ date.year_range) hmonth hday
    rw [hother, dayNumber_inj.mp (hnumber.trans (hk.symm.trans h.symm))]

/-! ### The calendar range -/

/-- The first date of the calendar range. -/
def first : Date :=
  ⟨firstYear, 1, 1, by decide, by decide, by decide⟩

/-- The last date of the calendar range. -/
def last : Date :=
  ⟨lastYear, 12, 31, by decide, by decide, by decide⟩

/-- No date is before the first one or after the last one. -/
theorem dayNumber_range (date : Date) :
    first.dayNumber ≤ date.dayNumber ∧ date.dayNumber ≤ last.dayNumber := by
  have hbefore := dayNumber_lt_iff (a := date) (b := first)
  have hafter := dayNumber_lt_iff (a := last) (b := date)
  have hyear := date.year_range
  have hmonth := date.month_range
  have hday := date.day_range
  have hlength : daysInMonth date.year date.month ≤ 31 := (daysInMonth_bounds _ _).2
  simp only [first, last] at hbefore hafter ⊢
  omega

/-- **The day numbers that have a date** are those from the first date to the last one. -/
theorem exists_dayNumber_eq_iff :
    (∃ date : Date, date.dayNumber = k) ↔ first.dayNumber ≤ k ∧ k ≤ last.dayNumber := by
  refine ⟨fun ⟨date, h⟩ => h ▸ date.dayNumber_range, fun ⟨hfirst, hlast⟩ => ?_⟩
  obtain ⟨year, month, day, -, hmonth, hday, hk⟩ := exists_parts k
  have hdays := bounds_of_parts hmonth hday
  have hstart : firstYear ≤ year := by
    refine Int.not_lt.mp fun hlt => ?_
    have hle := yearStart_add_one_le hlt
    rw [yearStart_add_one] at hle
    have hnumber : first.dayNumber = yearStart firstYear := by decide
    omega
  have hend : year ≤ lastYear := by
    refine Int.not_lt.mp fun hlt => ?_
    have hle := yearStart_add_one_le hlt
    have hnumber : last.dayNumber + 1 = yearStart (lastYear + 1) := by decide
    omega
  obtain ⟨date, -, hnumber⟩ := exists_date ⟨hstart, hend⟩ hmonth hday
  exact ⟨date, hnumber.trans hk.symm⟩

/-! ### Counting days -/

/-- The day after a date: the next day of the month, or the first day of the next month, or the
first day of the next year. -/
inductive IsNext (a b : Date) : Prop
  | day : b.year = a.year → b.month = a.month → b.day = a.day + 1 → IsNext a b
  | month : a.day = daysInMonth a.year a.month → b.year = a.year → b.month = a.month + 1 →
    b.day = 1 → IsNext a b
  | year : a.day = daysInMonth a.year a.month → a.month = 12 → b.year = a.year + 1 →
    b.month = 1 → b.day = 1 → IsNext a b

theorem dayNumber_of_isNext (h : a.IsNext b) : b.dayNumber = a.dayNumber + 1 := by
  have hday := a.day_range
  have hnext := monthStart_add_one a.year a.month_range.1
  cases h with
  | day hyear hmonth hday =>
    rw [dayNumber, dayNumber, hyear, hmonth, hday]
    omega
  | month hend hyear hmonth hday =>
    rw [dayNumber, dayNumber, hyear, hmonth, hday, hend]
    omega
  | year hend htwelve hyear hmonth hday =>
    rw [htwelve, monthStart_thirteen] at hnext
    rw [dayNumber, dayNumber, hyear, hmonth, hday, hend, yearStart_add_one, monthStart_one, htwelve]
    omega

/-- Every date but the last one has a next day. -/
theorem exists_isNext (h : a.dayNumber < last.dayNumber) : ∃ b, a.IsNext b := by
  have hyear := a.year_range
  have hmonth := a.month_range
  have hday := a.day_range
  by_cases hend : a.day < daysInMonth a.year a.month
  · exact ⟨⟨a.year, a.month, a.day + 1, hyear, hmonth, by omega⟩, .day rfl rfl rfl⟩
  · have hlast : a.day = daysInMonth a.year a.month := by omega
    by_cases htwelve : a.month = 12
    · have hlt : a.year < lastYear := by
        have horder := dayNumber_lt_iff.mp h
        have htwelve' : daysInMonth a.year 12 = 31 := rfl
        rw [htwelve, htwelve'] at hlast
        simp only [last, htwelve, hlast, Nat.lt_irrefl, and_false, or_false] at horder
        exact horder
      exact ⟨⟨a.year + 1, 1, 1, by omega, by decide, Nat.le_refl 1, (daysInMonth_bounds _ _).1⟩,
        .year hlast htwelve rfl rfl rfl⟩
    · exact ⟨⟨a.year, a.month + 1, 1, hyear, by omega, Nat.le_refl 1, (daysInMonth_bounds _ _).1⟩,
        .month hlast rfl rfl rfl⟩

/-- **The number of the next day is one more**, and of no other day. -/
theorem isNext_iff : a.IsNext b ↔ b.dayNumber = a.dayNumber + 1 := by
  refine ⟨dayNumber_of_isNext, fun h => ?_⟩
  obtain ⟨c, hc⟩ := exists_isNext (a := a) (by have := b.dayNumber_range; omega)
  rwa [dayNumber_inj.mp (h.trans (dayNumber_of_isNext hc).symm)]

/-- A date is so many days before another one, counted one by one. -/
inductive IsDaysBefore : Nat → Date → Date → Prop
  | refl (date : Date) : IsDaysBefore 0 date date
  | step {n : Nat} {a b c : Date} : IsDaysBefore n a b → b.IsNext c → IsDaysBefore (n + 1) a c

/-- **Counting days one by one leads to the sum of the day numbers.** -/
theorem isDaysBefore_iff : IsDaysBefore n a b ↔ a.dayNumber + n = b.dayNumber := by
  constructor
  · intro h
    induction h with
    | refl => exact Int.add_zero _
    | step _ hnext ih =>
      rw [isNext_iff.mp hnext, ← ih]
      push_cast
      omega
  · induction n generalizing b with
    | zero =>
      intro h
      obtain rfl := dayNumber_inj.mp ((Int.add_zero _).symm.trans h)
      exact .refl a
    | succ n ih =>
      intro h
      have ha := a.dayNumber_range
      have hb := b.dayNumber_range
      obtain ⟨c, hc⟩ : ∃ c : Date, c.dayNumber = a.dayNumber + n :=
        exists_dayNumber_eq_iff.mpr ⟨by omega, by omega⟩
      exact .step (ih hc.symm) (isNext_iff.mpr (by omega))

end Date

end PlaylistRules.Calendar
