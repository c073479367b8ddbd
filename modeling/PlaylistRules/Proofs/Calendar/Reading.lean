import PlaylistRules.Command.Run
import PlaylistRules.Proofs.Calendar.DayNumbers
import PlaylistRules.Proofs.Calendar.Shown

/-!
# Instants read back

The text in which an instant is shown reads back to the instant without its fraction of a second,
also with a `T` between date and time and with blank characters around it, and the text of a date
reads back to its midnight. Fields of two digits are taken as a whole, whatever follows them, and
the digits of a year end at the hyphen. Of the three patterns, the ones that are tried in vain fail
after the date: there is no `T`, or no hour.

## Main definitions

* `Calendar.Instant.withoutFraction` : the whole second of an instant.

## Main results

* `Calendar.readNumber?_append`, `Calendar.readYear?_writeYear` : numbers from the front of a text.
* `Calendar.readParts?_date`, `Calendar.readParts?_time` : dates and times of day.
* `Calendar.Instant.readTrimmed?_withSpace`, `Calendar.Instant.readTrimmed?_withT`,
  `Calendar.Instant.readTrimmed?_date` : instants and dates read back.
* `Command.readNow_undoes_display` : reference times are read as they are shown.
-/

namespace PlaylistRules.Calendar

open Json (IsDigits)
open Number (padded digitsFrom isDigits_padded length_padded digitsFrom_padded)
open Text (isBlank dropBlanks AllBlank HasInkedEnds)

variable {cs ds rest : List Char} {limit n : Nat} {year : Int} {fields : Fields}
  {parts : List Part} {date : Date} {instant : Instant}

/-! ### Numbers -/

/-- Digits are read up to a limit, or to the first character that is no digit. -/
theorem readNumber?_append (hds : IsDigits ds) (hlength : ds.length ≤ limit)
    (hrest : ds.length = limit ∨ ∀ c ∈ rest.head?, c.isDigit = false) :
    readNumber? limit (ds ++ rest) = some (digitsFrom 0 ds, rest) := by
  have hend : (rest.take (limit - ds.length)).takeWhile Char.isDigit = [] := by
    rcases hrest with hfull | hrest
    · simp [hfull]
    · cases rest with
      | nil => simp
      | cons c rest =>
        cases limit - ds.length with
        | zero => simp
        | succ k => simp [hrest c rfl]
  have hdigits : ((ds ++ rest).take limit).takeWhile Char.isDigit = ds := by
    rw [List.take_append, List.take_of_length_le hlength, List.takeWhile_append_of_pos hds.2, hend,
      List.append_nil]
  have hne : ds.isEmpty = false := by
    rw [List.isEmpty_eq_false_iff]
    exact hds.1
  simp only [readNumber?, hdigits, hne, Bool.false_eq_true, if_false, List.drop_left]

/-- A field of two digits is read whatever follows it. -/
theorem readPair?_padded (h : n < 100) : readPair? (padded 2 n ++ rest) = some (n, rest) := by
  have hlength : (padded 2 n).length = 2 := length_padded (by decide) h
  rw [readPair?, readNumber?_append (isDigits_padded 2 n) hlength.le (.inl hlength),
    digitsFrom_padded]

/-- No blank characters are dropped in front of digits. -/
theorem dropBlanks_append_of_isDigits (hds : IsDigits ds) :
    dropBlanks (ds ++ rest) = ds ++ rest := by
  obtain ⟨c, ds, rfl⟩ := List.exists_cons_of_ne_nil hds.1
  exact Text.dropBlanks_cons_of_not_isBlank
    (Number.isBlank_of_isDigit (hds.2 c List.mem_cons_self))

theorem dropBlanks_writeYear_append (year : Int) (cs : List Char) :
    dropBlanks (writeYear year ++ cs) = writeYear year ++ cs := by
  obtain ⟨sign, rfl | rfl | rfl, hyear⟩ := exists_writeYear_eq year
  all_goals rw [hyear]
  · exact dropBlanks_append_of_isDigits (isDigits_padded 4 _)
  · rfl
  · rfl

/-- **A year reads back** when no digit follows it. -/
theorem readYear?_writeYear (hrest : ∀ c ∈ rest.head?, c.isDigit = false) :
    readYear? (writeYear year ++ rest) = some (year, rest) := by
  have hdigits := isDigits_padded 4 year.natAbs
  have hsigned : readNumber? (padded 4 year.natAbs ++ rest).length (padded 4 year.natAbs ++ rest) =
      some (year.natAbs, rest) := by
    rw [readNumber?_append hdigits (by simp) (.inr hrest), digitsFrom_padded]
  unfold writeYear
  split
  · next hplain =>
    have hlength : (padded 4 year.natAbs).length = 4 := length_padded (by decide) (by omega)
    have hnumber : readNumber? 4 (padded 4 year.natAbs ++ rest) = some (year.natAbs, rest) := by
      rw [readNumber?_append hdigits hlength.le (.inl hlength), digitsFrom_padded]
    obtain ⟨c, ds, hcons⟩ := List.exists_cons_of_ne_nil hdigits.1
    have hc : c.isDigit = true := hdigits.2 c (hcons ▸ List.mem_cons_self)
    rw [hcons] at hnumber ⊢
    unfold readYear?
    split
    · next heq =>
      obtain rfl := (List.cons.inj heq).1
      exact absurd hc (by decide)
    · next heq =>
      obtain rfl := (List.cons.inj heq).1
      exact absurd hc (by decide)
    · rw [hnumber, Option.map_some]
      simp only [Option.some.injEq, Prod.mk.injEq, and_true]
      omega
  · split
    · rw [List.cons_append, readYear?, hsigned, Option.map_some]
      simp only [Option.some.injEq, Prod.mk.injEq, and_true]
      omega
    · rw [List.cons_append, readYear?, hsigned, Option.map_some]
      simp only [Option.some.injEq, Prod.mk.injEq, and_true]
      omega

/-! ### Dates and times of day -/

theorem readParts?_mark (c : Char) :
    readParts? fields (.mark c :: parts) (c :: cs) = readParts? fields parts cs := by
  simp [readParts?, readPart?]

/-- **A date reads back**, whatever follows it. -/
theorem readParts?_date :
    readParts? {} (datePattern ++ parts) (date.write ++ cs) =
      readParts? { year := date.year, month := date.month, day := date.day } parts cs := by
  have hmonth : date.month < 100 := by
    have := date.month_range
    omega
  have hday : date.day < 100 := by
    have := date.day_range
    have := (daysInMonth_bounds date.year date.month).2
    omega
  have hyear : readYear? (writeYear date.year ++
      '-' :: (padded 2 date.month ++ '-' :: (padded 2 date.day ++ cs))) =
        some (date.year, '-' :: (padded 2 date.month ++ '-' :: (padded 2 date.day ++ cs))) :=
    readYear?_writeYear fun c hc => Option.some.inj hc ▸ rfl
  simp only [datePattern, Date.write, List.cons_append, List.nil_append, List.append_assoc,
    readParts?, readPart?, dropBlanks_writeYear_append, hyear, Option.map_some, Option.bind_some,
    dropBlanks_append_of_isDigits (isDigits_padded _ _), readPair?_padded hmonth,
    readPair?_padded hday, if_true]

/-- The second that is shown for an instant: a leap second is second `60`. -/
def Instant.shownSecond (instant : Instant) : Nat :=
  if instant.isLeap then 60 else instant.second

/-- **A time of day reads back.** -/
theorem readParts?_time :
    readParts? fields timePattern instant.writeTime =
      some { fields with
        hour := instant.hour, minute := instant.minute, second := instant.shownSecond } := by
  have hhour : instant.hour < 100 := by
    have := instant.hour_range
    omega
  have hminute : instant.minute < 100 := by
    have := instant.minute_range
    omega
  have hsecond : instant.shownSecond < 100 := by
    have := instant.second_range
    unfold Instant.shownSecond
    split <;> omega
  have hwrite : instant.writeTime = padded 2 instant.hour ++ ':' :: (padded 2 instant.minute ++
      ':' :: (padded 2 instant.shownSecond ++ [])) := by
    simp only [Instant.writeTime, Instant.shownSecond, List.append_assoc, List.cons_append,
      List.append_nil]
  simp only [hwrite, timePattern, readParts?, readPart?, Option.map_some, Option.bind_some,
    dropBlanks_append_of_isDigits (isDigits_padded _ _), readPair?_padded hhour,
    readPair?_padded hminute, readPair?_padded hsecond, if_true]

/-! ### Instants -/

namespace Instant

/-- An instant without its fraction of a second. A leap second stays one. -/
def withoutFraction (instant : Instant) : Instant :=
  { instant with
    nanosecond := if instant.isLeap then 1000000000 else 0
    nanosecond_range := by
      have hrange := instant.nanosecond_range
      by_cases hleap : 1000000000 ≤ instant.nanosecond
      · simp only [isLeap, hleap, decide_true, if_true]
        omega
      · simp [isLeap, hleap] }

theorem withoutFraction_eq_self (h : instant.nanosecond = 0 ∨ instant.nanosecond = 1000000000) :
    instant.withoutFraction = instant := by
  obtain ⟨date, hour, minute, second, nanosecond, hhour, hminute, hsecond, hnanosecond⟩ := instant
  rcases h with rfl | rfl <;> rfl

/-- The numbers that are shown for an instant are those of its whole second. -/
theorem instant?_shown :
    Fields.instant? ⟨instant.date.year, instant.date.month, instant.date.day, instant.hour,
      instant.minute, instant.shownSecond⟩ = some instant.withoutFraction := by
  have hdate : Date.of? instant.date.year instant.date.month instant.date.day =
      some instant.date := Date.of?_parts instant.date
  have hhour := instant.hour_range
  have hminute := instant.minute_range
  have hsecond := instant.second_range
  have hnanosecond := instant.nanosecond_range
  rw [Fields.instant?, Fields.date?, hdate, Option.bind_some]
  by_cases hleap : 1000000000 ≤ instant.nanosecond
  · have hlast : instant.second = 59 := by omega
    simp [shownSecond, withoutFraction, isLeap, hleap, of?, hhour, hminute, hlast]
  · have hne : instant.second ≠ 60 := by omega
    simp [shownSecond, withoutFraction, isLeap, hleap, of?, hhour, hminute, hsecond, hne]

theorem readTrimmed?_withT :
    readTrimmed? (instant.date.write ++ 'T' :: instant.writeTime) =
      some instant.withoutFraction := by
  rw [readTrimmed?, readParts?_date, readParts?_mark, readParts?_time, Option.bind_some,
    instant?_shown, Option.some_or]

/-- No blank characters are dropped in front of a time of day. -/
theorem dropBlanks_writeTime : dropBlanks instant.writeTime = instant.writeTime := by
  rw [writeTime, List.append_assoc]
  exact dropBlanks_append_of_isDigits (isDigits_padded 2 instant.hour)

theorem readTrimmed?_withSpace :
    readTrimmed? (instant.date.write ++ ' ' :: instant.writeTime) =
      some instant.withoutFraction := by
  have hmark : ∀ fields, readParts? fields (.mark 'T' :: timePattern) (' ' :: instant.writeTime) =
      none := fun _ => rfl
  have hblanks : ∀ fields, readParts? fields (.blanks :: timePattern) (' ' :: instant.writeTime) =
      readParts? fields timePattern instant.writeTime := by
    intro fields
    have hdropped : dropBlanks (' ' :: instant.writeTime) = instant.writeTime :=
      dropBlanks_writeTime
    rw [readParts?, readPart?, Option.bind_some, hdropped]
  rw [readTrimmed?, readParts?_date, readParts?_date, hmark, Option.bind_none, Option.none_or,
    hblanks, readParts?_time, Option.bind_some, instant?_shown, Option.some_or]

theorem readTrimmed?_date (date : Date) : readTrimmed? date.write = some (midnight date) := by
  have hdate : Fields.date? { year := date.year, month := date.month, day := date.day } =
      some date := Date.of?_parts date
  have hread : ∀ parts, readParts? {} (datePattern ++ parts) date.write =
      readParts? { year := date.year, month := date.month, day := date.day } parts [] := by
    intro parts
    rw [← List.append_nil date.write, readParts?_date]
  have halone := hread []
  rw [List.append_nil] at halone
  rw [readTrimmed?, hread, hread, halone]
  simp only [readParts?, Option.bind_some, hdate]
  rfl

/-- The whole seconds that are read: a text leaves no other fraction than that of a leap second. -/
theorem withoutFraction_of_readTrimmed? (h : readTrimmed? cs = some instant) :
    instant.withoutFraction = instant := by
  have hof : ∀ {date hour minute second nanosecond},
      nanosecond = 0 ∨ nanosecond = 1000000000 →
      of? date hour minute second nanosecond = some instant →
        instant.withoutFraction = instant := by
    intro date hour minute second nanosecond hwhole hof
    unfold of? at hof
    split at hof
    · obtain rfl := Option.some.inj hof
      exact withoutFraction_eq_self hwhole
    · cases hof
  have hfields : ∀ fields : Option Fields, fields.bind Fields.instant? = some instant →
      instant.withoutFraction = instant := by
    intro fields hfields
    obtain ⟨fields, -, hfields⟩ := Option.bind_eq_some_iff.mp hfields
    obtain ⟨date, -, hfields⟩ := Option.bind_eq_some_iff.mp hfields
    split at hfields
    · exact hof (.inr rfl) hfields
    · exact hof (.inl rfl) hfields
  obtain h | ⟨-, h⟩ := Option.or_eq_some_iff.mp h
  · exact hfields _ h
  obtain h | ⟨-, h⟩ := Option.or_eq_some_iff.mp h
  · exact hfields _ h
  · obtain ⟨date, -, rfl⟩ := Option.map_eq_some_iff.mp h
    rfl

end Instant

end PlaylistRules.Calendar

namespace PlaylistRules.Command

open Calendar (Instant Date readTrimmed?)
open Text (AllBlank)

variable {before after text : String} {instant : Instant}

theorem readNow_eq_ok_iff :
    readNow text = .ok instant ↔ readTrimmed? (Text.trim text.toList) = some instant := by
  unfold readNow Instant.read?
  split
  · next h => rw [h, Except.ok.injEq, Option.some.injEq]
  · next h => rw [h]; exact ⟨nofun, nofun⟩

/-- A reference time is read inside of blank characters. -/
theorem readNow_append (hbefore : AllBlank before.toList) (hafter : AllBlank after.toList)
    {cs : List Char} (htext : text.toList = cs) (hinked : Text.HasInkedEnds cs)
    (h : readTrimmed? cs = some instant) : readNow (before ++ text ++ after) = .ok instant := by
  subst htext
  rw [readNow_eq_ok_iff, String.toList_append, String.toList_append,
    Text.trim_append hbefore hafter hinked, h]

theorem readNow_display (hbefore : AllBlank before.toList) (hafter : AllBlank after.toList) :
    readNow (before ++ instant.display ++ after) = .ok instant.withoutFraction :=
  readNow_append hbefore hafter String.toList_ofList (instant.hasInkedEnds_dateTime ' ')
    Instant.readTrimmed?_withSpace

/-- **Reference times are read as they are shown.** The text of an instant is read as the instant
without its fraction of a second, also with a `T` in place of the space, and the text of a date as
its midnight, with any blank characters around them. Whatever is read is a date of the calendar
range, and its own text is read as the same instant. -/
theorem readNow_undoes_display (hbefore : AllBlank before.toList) (hafter : AllBlank after.toList) :
    (∀ instant : Instant,
      readNow (before ++ (Scalar.instant instant).display ++ after) =
          .ok instant.withoutFraction ∧
        readNow (before ++ ((Scalar.instant instant).display.map fun c =>
          if c = ' ' then 'T' else c) ++ after) = .ok instant.withoutFraction) ∧
    (∀ date : Date,
      readNow (before ++ String.ofList date.write ++ after) = .ok (.midnight date)) ∧
    ∀ text instant, readNow text = .ok instant →
      (Calendar.firstYear ≤ instant.date.year ∧ instant.date.year ≤ Calendar.lastYear) ∧
        (1 ≤ instant.date.month ∧ instant.date.month ≤ 12) ∧
        (1 ≤ instant.date.day ∧
          instant.date.day ≤ Calendar.daysInMonth instant.date.year instant.date.month) ∧
        readNow (Scalar.instant instant).display = .ok instant := by
  refine ⟨fun instant => ⟨readNow_display hbefore hafter, ?_⟩, fun date => ?_,
    fun text instant h => ?_⟩
  · exact readNow_append hbefore hafter instant.toList_map_display
      (instant.hasInkedEnds_dateTime 'T') Instant.readTrimmed?_withT
  · exact readNow_append hbefore hafter String.toList_ofList date.hasInkedEnds_write
      (Instant.readTrimmed?_date date)
  · have hwhole : instant.withoutFraction = instant :=
      Instant.withoutFraction_of_readTrimmed? (readNow_eq_ok_iff.mp h)
    have hnone : AllBlank "".toList := fun _ hc => absurd hc List.not_mem_nil
    have hagain : readNow ("" ++ instant.display ++ "") = .ok instant.withoutFraction :=
      readNow_display hnone hnone
    rw [String.empty_append, String.append_empty, hwhole] at hagain
    exact ⟨instant.date.year_range, instant.date.month_range, instant.date.day_range, hagain⟩

/-- A leap second before the year zero loses its fraction, and a date without leading zeros is shown
with them. -/
theorem readNow_undoes_display_leap_second :
    let ides : Date := ⟨-44, 3, 15, by decide, by decide, by decide⟩
    AllBlank "\u00a0\t".toList ∧ AllBlank "\u3000".toList ∧
      readNow ("\u00a0\t" ++ (Scalar.instant ⟨ides, 23, 59, 59, 1500000000, by decide, by decide,
          by decide, by decide⟩).display ++ "\u3000") =
        .ok ⟨ides, 23, 59, 59, 1000000000, by decide, by decide, by decide, by decide⟩ ∧
      readNow "-44-3-15" = .ok (.midnight ides) ∧
      readNow (Scalar.instant (.midnight ides)).display = .ok (.midnight ides) := by
  intro ides
  have hbefore : AllBlank "\u00a0\t".toList := by decide
  have hafter : AllBlank "\u3000".toList := by decide
  have hread : readNow "-44-3-15" = .ok (.midnight ides) := by decide +kernel
  obtain ⟨hinstant, -, hagain⟩ := readNow_undoes_display hbefore hafter
  exact ⟨hbefore, hafter, (hinstant _).1, hread, (hagain _ _ hread).2.2.2⟩

end PlaylistRules.Command
