import PlaylistRules.Calendar.Instant
import PlaylistRules.Proofs.Number.Padded

/-!
# The texts of dates and instants

The text of a date begins with a sign or with the digits of its year, and the text of an instant
ends with digits as well. There are no blank characters at the ends of either, and the only space
in the text of an instant stands between the date and the time of day.

## Main results

* `Calendar.exists_writeYear_eq` : the text of a year.
* `Calendar.Instant.hasInkedEnds_dateTime` : no blank characters at the ends.
* `Calendar.Date.notMem_write`, `Calendar.Instant.notMem_writeTime` : the characters of a text.
* `Calendar.Instant.toList_map_display` : another mark in place of the space.
-/

namespace PlaylistRules.Calendar

open Json (IsDigits)
open Number (padded isDigits_padded notMem_padded)
open Text (HasInkedEnds)

/-! ### Years -/

/-- A year is its digits, after a sign or not. -/
theorem exists_writeYear_eq (year : Int) :
    ∃ sign, (sign = [] ∨ sign = ['-'] ∨ sign = ['+']) ∧
      writeYear year = sign ++ padded 4 year.natAbs := by
  unfold writeYear
  split
  · exact ⟨[], .inl rfl, rfl⟩
  · split
    · exact ⟨['-'], .inr (.inl rfl), rfl⟩
    · exact ⟨['+'], .inr (.inr rfl), rfl⟩

/-! ### Blank characters -/

/-- A text that begins with a year and ends with digits has no blank characters at its ends. -/
theorem hasInkedEnds_append (year : Int) (middle : List Char) {digits : List Char}
    (hdigits : IsDigits digits) : HasInkedEnds (writeYear year ++ (middle ++ digits)) := by
  constructor
  · intro c hc
    obtain ⟨d, ds, hfirst⟩ := List.exists_cons_of_ne_nil (isDigits_padded 4 year.natAbs).1
    have hd : d.isDigit = true :=
      (isDigits_padded 4 year.natAbs).2 d (hfirst ▸ List.mem_cons_self)
    obtain ⟨sign, rfl | rfl | rfl, hyear⟩ := exists_writeYear_eq year
    all_goals rw [hyear, hfirst] at hc
    · exact Option.some.inj hc ▸ Number.isBlank_of_isDigit hd
    · exact Option.some.inj hc ▸ rfl
    · exact Option.some.inj hc ▸ rfl
  · intro c hc
    rw [List.getLast?_append_of_ne_nil _ (List.append_ne_nil_of_right_ne_nil _ hdigits.1),
      List.getLast?_append_of_ne_nil _ hdigits.1] at hc
    exact Number.isBlank_of_isDigit (hdigits.2 c (List.mem_of_getLast? hc))

theorem Date.hasInkedEnds_write (date : Date) : HasInkedEnds date.write := by
  have h := hasInkedEnds_append date.year ('-' :: padded 2 date.month ++ ['-'])
    (isDigits_padded 2 date.day)
  simpa [write] using h

theorem Instant.hasInkedEnds_dateTime (instant : Instant) (mark : Char) :
    HasInkedEnds (instant.date.write ++ mark :: instant.writeTime) := by
  have h := hasInkedEnds_append instant.date.year ('-' :: padded 2 instant.date.month ++
      '-' :: padded 2 instant.date.day ++ mark :: padded 2 instant.hour ++
        ':' :: padded 2 instant.minute ++ [':'])
    (isDigits_padded 2 (if instant.isLeap then 60 else instant.second))
  simpa [Date.write, writeTime] using h

/-- The text of an instant has no blank characters at its ends. -/
theorem Instant.hasInkedEnds_display (instant : Instant) :
    HasInkedEnds instant.display.toList := by
  rw [display, String.toList_ofList]
  exact instant.hasInkedEnds_dateTime ' '

/-! ### Other characters -/

section OtherCharacters

variable {c : Char}

/-- There are only digits and signs in the text of a date. -/
theorem Date.notMem_write (hdigit : c.isDigit = false) (hminus : c ≠ '-') (hplus : c ≠ '+')
    (date : Date) : c ∉ date.write := by
  obtain ⟨sign, rfl | rfl | rfl, hyear⟩ := exists_writeYear_eq date.year
  all_goals simp [write, hyear, notMem_padded hdigit, hminus, hplus]

/-- There are only digits and colons in the text of a time of day. -/
theorem Instant.notMem_writeTime (hdigit : c.isDigit = false) (hcolon : c ≠ ':')
    (instant : Instant) : c ∉ instant.writeTime := by
  simp [writeTime, notMem_padded hdigit, hcolon]

end OtherCharacters

/-- The text of an instant with a `T` in place of its only space. -/
theorem Instant.toList_map_display (instant : Instant) :
    (instant.display.map fun c => if c = ' ' then 'T' else c).toList =
      instant.date.write ++ 'T' :: instant.writeTime := by
  have hkept : ∀ cs : List Char, ' ' ∉ cs → cs.map (fun c => if c = ' ' then 'T' else c) = cs := by
    intro cs hcs
    conv => rhs; rw [← List.map_id cs]
    exact List.map_congr_left fun c hc => if_neg fun h : c = ' ' => hcs (h ▸ hc)
  rw [String.toList_map, display, String.toList_ofList, List.map_append, List.map_cons,
    hkept _ (instant.date.notMem_write (by decide) (by decide) (by decide)),
    hkept _ (instant.notMem_writeTime (by decide) (by decide)), if_pos rfl]

end PlaylistRules.Calendar
