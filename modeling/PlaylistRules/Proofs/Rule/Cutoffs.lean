import PlaylistRules.Proofs.Calendar.Order
import PlaylistRules.Proofs.Number.Integers
import PlaylistRules.Proofs.Query.Noninterference

/-!
# Cutoffs of the relative operators

The relative operators bind the midnight of the date that is a number of days before the reference
instant. The days are counted in the calendar, and a value is refused when it denotes no number of
days or when there is no date so early.

## Main definitions

* `Scalar.DenotesDays` : the values that denote a number of days.

## Main results

* `Rule.Operator.dayCount_eq_ok_iff` : the number of days of a value.
* `Rule.Operator.coerce_relative_eq_ok_iff` : the cutoff of a relative operator.
* `Rule.Operator.exact_cutoff` : cutoffs are exact.
-/

namespace PlaylistRules

open Calendar (Date Instant)

/-- A value denotes a number of days: an integer, or a text with the digits of an integer of
sixty-four bits after an optional sign, and blank characters around it. -/
inductive Scalar.DenotesDays : Scalar → Nat → Prop
  | int {value : Int64} {n : Nat} : value.toInt = n → DenotesDays (.int value) n
  | text {before digits after : List Char} {n : Nat} : Text.AllBlank before → Text.AllBlank after →
    Number.SpellsInteger digits n → n ≤ Number.maxInt64 →
      DenotesDays (.text (String.ofList (before ++ digits ++ after))) n

namespace Rule.Operator

variable {operator : Operator} {now earlier : Instant} {value : Scalar} {n : Nat}
  {bound : List Scalar}

/-! ### Numbers of days -/

theorem exists_readDays?_iff :
    (∃ days, readDays? value = some days ∧ days.toInt = n) ↔ value.DenotesDays n := by
  constructor
  · rintro ⟨days, hdays, hn⟩
    cases value with
    | int value =>
      obtain rfl := Option.some.inj hdays
      exact .int hn
    | text text =>
      have hspells := Number.readInt64?_eq_some_iff.mp hdays
      obtain ⟨-, before, after, hbefore, hafter, htext⟩ :=
        Text.trim_eq_iff.mp (Eq.refl (Text.trim text.toList))
      rw [← String.ofList_toList (s := text), htext]
      exact .text hbefore hafter (hn ▸ hspells) (Number.exists_toInt_eq_iff.mp ⟨days, hn⟩).2
    | null | bool | float | instant => cases hdays
  · intro h
    cases h with
    | @int value n hvalue => exact ⟨value, rfl, hvalue⟩
    | text hbefore hafter hspells hmax =>
      obtain ⟨days, hdays⟩ := Number.exists_toInt_eq_iff.mpr
        ⟨Int.le_trans (by decide) (Int.natCast_nonneg n), hmax⟩
      refine ⟨days, ?_, hdays⟩
      rw [readDays?, String.toList_ofList,
        Text.trim_append hbefore hafter hspells.hasInkedEnds]
      exact Number.readInt64?_eq_some_iff.mpr (hdays ▸ hspells)

/-- **The number of days of a value.** -/
theorem dayCount_eq_ok_iff : operator.dayCount value = .ok n ↔ value.DenotesDays n := by
  rw [← exists_readDays?_iff]
  unfold dayCount
  split
  · next days hdays =>
    simp only [hdays, Option.some.injEq, exists_eq_left']
    split
    · next hnonneg =>
      rw [Except.ok.injEq]
      omega
    · next hnegative => exact iff_of_false nofun fun h => hnegative (by omega)
  · next hdays => exact iff_of_false nofun fun ⟨_, h, _⟩ => nomatch hdays.symm.trans h

/-- A value denotes one number of days at most. -/
theorem eq_of_denotesDays {m : Nat} (h : value.DenotesDays m) (h' : value.DenotesDays n) :
    m = n := by
  have hm : inLast.dayCount value = .ok m := dayCount_eq_ok_iff.mpr h
  have hn : inLast.dayCount value = .ok n := dayCount_eq_ok_iff.mpr h'
  exact Except.ok.inj (hm.symm.trans hn)

/-! ### Cutoffs -/

theorem cutoff_eq_ok_iff {scalar : Scalar} :
    operator.cutoff now value = .ok scalar ↔
      ∃ n date, value.DenotesDays n ∧ Date.IsDaysBefore n date now.date ∧
        scalar = .instant (.midnight date) := by
  simp only [cutoff, Outcome.bind_eq_ok_iff, dayCount_eq_ok_iff]
  refine exists_congr fun n => ?_
  have hdate : ∀ date, now.date.minusDays? n = some date ↔ Date.IsDaysBefore n date now.date :=
    fun date => by
      rw [Date.minusDays?, Date.ofDayNumber?_eq_some_iff, Date.isDaysBefore_iff]
      omega
  simp only [← hdate]
  split
  · next date h => simp [h, eq_comm]
  · next h => simp [h]

/-- **A relative operator binds its cutoff**, whichever of the two it is. -/
theorem coerce_relative_eq_ok_iff (hrelative : operator.IsRelative) :
    operator.coerce now [value] = .ok bound ↔
      ∃ n date, value.DenotesDays n ∧ Date.IsDaysBefore n date now.date ∧
        bound = [.instant (.midnight date)] := by
  have hcoerce : operator.coerce now [value] = (do return [← operator.cutoff now value]) := by
    rcases hrelative with rfl | rfl <;> rfl
  rw [hcoerce, Outcome.bind_eq_ok_iff]
  simp only [cutoff_eq_ok_iff]
  constructor
  · rintro ⟨_, ⟨n, date, hdays, hdate, rfl⟩, h⟩
    exact ⟨n, date, hdays, hdate, (Except.ok.inj h).symm⟩
  · rintro ⟨n, date, hdays, hdate, rfl⟩
    exact ⟨_, ⟨n, date, hdays, hdate, rfl⟩, rfl⟩

/-- The cutoff of a value that denotes a number of days. -/
theorem coerce_relative_of_denotesDays (hrelative : operator.IsRelative)
    (hdays : value.DenotesDays n) :
    operator.coerce now [value] = .ok bound ↔
      ∃ date : Date, date.dayNumber = now.date.dayNumber - n ∧
        bound = [.instant (.midnight date)] := by
  simp only [coerce_relative_eq_ok_iff hrelative, Date.isDaysBefore_iff]
  constructor
  · rintro ⟨m, date, hm, hdate, rfl⟩
    obtain rfl := eq_of_denotesDays hm hdays
    exact ⟨date, by omega, rfl⟩
  · rintro ⟨date, hdate, rfl⟩
    exact ⟨n, date, hdays, by omega, rfl⟩

/-- A cutoff exists when its date is not before the first one of the calendar. -/
theorem exists_coerce_relative_iff (hrelative : operator.IsRelative) :
    (∃ bound, operator.coerce now [value] = .ok bound) ↔
      ∃ n : Nat, value.DenotesDays n ∧ Date.first.dayNumber ≤ now.date.dayNumber - n := by
  simp only [coerce_relative_eq_ok_iff hrelative, Date.isDaysBefore_iff]
  constructor
  · rintro ⟨_, n, date, hdays, hdate, -⟩
    have hfirst := date.dayNumber_range.1
    exact ⟨n, hdays, by omega⟩
  · rintro ⟨n, hdays, hfirst⟩
    have hlast := now.date.dayNumber_range.2
    obtain ⟨date, hdate⟩ := Date.exists_dayNumber_eq_iff.mpr ⟨hfirst, by omega⟩
    exact ⟨_, n, date, hdays, by omega, rfl⟩

/-- The cutoff for a sum of two numbers of days, in two steps. -/
theorem coerce_relative_add (hrelative : operator.IsRelative) {rest : Scalar} {a b : Nat}
    (hvalue : value.DenotesDays (a + b)) (hrest : rest.DenotesDays a)
    (hearlier : Date.IsDaysBefore b earlier.date now.date) :
    operator.coerce now [value] = .ok bound ↔ operator.coerce earlier [rest] = .ok bound := by
  rw [Date.isDaysBefore_iff] at hearlier
  rw [coerce_relative_of_denotesDays hrelative hvalue,
    coerce_relative_of_denotesDays hrelative hrest]
  refine exists_congr fun date => and_congr_left fun _ => ?_
  push_cast
  omega

/-- A larger number of days has no later cutoff. -/
theorem not_isBefore_of_coerce_relative (hrelative : operator.IsRelative) {fewer : Scalar}
    {a b : Nat} (hvalue : value.DenotesDays b) (hfewer : fewer.DenotesDays a) (hle : a ≤ b)
    {cutoff cutoff' : Instant} (h : operator.coerce now [value] = .ok [.instant cutoff])
    (h' : operator.coerce now [fewer] = .ok [.instant cutoff']) : ¬cutoff'.IsBefore cutoff := by
  obtain ⟨date, hdate, hbound⟩ := (coerce_relative_of_denotesDays hrelative hvalue).mp h
  obtain ⟨date', hdate', hbound'⟩ := (coerce_relative_of_denotesDays hrelative hfewer).mp h'
  cases hbound
  cases hbound'
  rw [Instant.isBefore_midnight_iff]
  show ¬date'.dayNumber < date.dayNumber
  omega

/-- **Cutoffs are exact.** A relative operator binds the midnight of the date so many days before
the date of the reference instant, by the day numbers and counted one by one, when its value denotes
a number of days and the date is not before the first one of the calendar; the two relative
operators do not differ in this. Every other value is refused. The cutoff for a sum of two numbers
of days is the cutoff for the one, taken from a date that is the other earlier, and no larger number
of days has a later cutoff. -/
theorem exact_cutoff (hrelative : operator.IsRelative) (now : Instant) (value : Scalar) :
    (∀ bound, operator.coerce now [value] = .ok bound ↔
      ∃ n date, value.DenotesDays n ∧ date.dayNumber = now.date.dayNumber - n ∧
        Date.IsDaysBefore n date now.date ∧ bound = [.instant (.midnight date)]) ∧
    ((∃ bound, operator.coerce now [value] = .ok bound) ↔
      ∃ n : Nat, value.DenotesDays n ∧ Date.first.dayNumber ≤ now.date.dayNumber - n) ∧
    ((∀ bound, operator.coerce now [value] ≠ .ok bound) →
      ∃ error, operator.coerce now [value] = .error error ∧ error.kind = .invalidValue) ∧
    (∀ other : Operator, other.IsRelative → ∀ bound,
      other.coerce now [value] = .ok bound ↔ operator.coerce now [value] = .ok bound) ∧
    (∀ (rest : Scalar) (a b : Nat) (earlier : Instant), value.DenotesDays (a + b) →
      rest.DenotesDays a → Date.IsDaysBefore b earlier.date now.date → ∀ bound,
        operator.coerce now [value] = .ok bound ↔ operator.coerce earlier [rest] = .ok bound) ∧
    ∀ (fewer : Scalar) (a b : Nat) (cutoff cutoff' : Instant), value.DenotesDays b →
      fewer.DenotesDays a → a ≤ b → operator.coerce now [value] = .ok [.instant cutoff] →
        operator.coerce now [fewer] = .ok [.instant cutoff'] → ¬cutoff'.IsBefore cutoff := by
  refine ⟨fun bound => ?_, exists_coerce_relative_iff hrelative, fun hnone => ?_,
    fun other hother bound => ?_,
    fun rest a b earlier hvalue hrest hearlier bound =>
      coerce_relative_add hrelative hvalue hrest hearlier,
    fun fewer a b cutoff cutoff' hvalue hfewer hle hcutoff hcutoff' =>
      not_isBefore_of_coerce_relative hrelative hvalue hfewer hle hcutoff hcutoff'⟩
  · rw [coerce_relative_eq_ok_iff hrelative]
    simp only [Date.isDaysBefore_iff]
    refine exists_congr fun n => exists_congr fun date => and_congr_right fun _ => ?_
    rw [← and_assoc]
    refine and_congr_left fun _ => ?_
    omega
  · cases hcoerce : operator.coerce now [value] with
    | ok bound => exact absurd hcoerce (hnone bound)
    | error error =>
      have hone : [value].length = operator.arity := by rcases hrelative with rfl | rfl <;> rfl
      obtain ⟨reason, rfl, hkind⟩ := isOfValue_of_coerce hone hcoerce
      exact ⟨_, rfl, hkind⟩
  · rw [coerce_relative_eq_ok_iff hother, coerce_relative_eq_ok_iff hrelative]

/-- Sixty days back from March over a leap day, and more days than the calendar has. -/
theorem exact_cutoff_leap_day :
    let now : Instant := ⟨⟨2000, 3, 1, by decide, by decide, by decide⟩, 13, 45, 10, 0,
      by decide, by decide, by decide, .inl (by decide)⟩
    inLast.IsRelative ∧ notInLast.IsRelative ∧
      inLast.coerce now [.text " +060\n"] =
        .ok [.instant (.midnight ⟨2000, 1, 1, by decide, by decide, by decide⟩)] ∧
      ∃ error, notInLast.coerce now [.int 0x7fffffffffffffff] = .error error ∧
        error.kind = .invalidValue := by
  intro now
  have htext : " +060\n" = String.ofList ([' '] ++ ['+', '0', '6', '0'] ++ ['\n']) := by decide
  have hdays : (Scalar.text " +060\n").DenotesDays 60 := by
    rw [htext]
    exact .text (by simp [Text.AllBlank, Text.isBlank]) (by simp [Text.AllBlank, Text.isBlank])
      (.plus ⟨by decide, by simp⟩) (by decide)
  refine ⟨.inl rfl, .inr rfl, ?_, ?_⟩
  · exact ((exact_cutoff (.inl rfl) now _).1 _).mpr
      ⟨60, _, hdays, by decide, Date.isDaysBefore_iff.mpr (by decide), rfl⟩
  · refine (exact_cutoff (.inr rfl) now _).2.2.1 fun bound hbound => ?_
    obtain ⟨n, hn, hfirst⟩ := (exact_cutoff (.inr rfl) now _).2.1.mp ⟨bound, hbound⟩
    have hnumber : Date.first.dayNumber = -95745764 ∧ now.date.dayNumber = 730545 := by decide
    cases hn with
    | int hn =>
      have hvalue : (0x7fffffffffffffff : Int64).toInt = 0x7fffffffffffffff := by decide
      omega

end Rule.Operator

end PlaylistRules
