import PlaylistRules.Catalog.Library
import PlaylistRules.Proofs.Calendar.Order
import PlaylistRules.Proofs.Calendar.Shown
import PlaylistRules.Proofs.Rule.Cutoffs
import PlaylistRules.Proofs.Store.Execution

/-!
# Timestamps in columns

A column of instants holds their texts, which no column takes for numbers, so that they are compared
as texts. The texts are in the order of the instants, and a relative operator finds the instants
from its cutoff on, or those before it.

## Main results

* `Store.readNumericText?_display` : the text of an instant is no number.
* `Store.test_display` : the texts of instants are compared as texts.
* `Rule.timestamps_in_order` : relative operators compare in time.
-/

namespace PlaylistRules

open Calendar (Instant Date)
open Json (IsDigits)

/-! ### Texts of instants -/

namespace Calendar.Instant

/-- The text of an instant: the digits of the year, perhaps after a sign, and a hyphen. -/
theorem exists_display_eq (instant : Instant) :
    ∃ sign year rest, (sign = [] ∨ sign = ['-'] ∨ sign = ['+']) ∧ IsDigits year ∧
      instant.display.toList = sign ++ (year ++ '-' :: rest) := by
  obtain ⟨sign, hsign, hyear⟩ := Calendar.exists_writeYear_eq instant.date.year
  refine ⟨sign, Number.padded 4 instant.date.year.natAbs, Number.padded 2 instant.date.month ++
    '-' :: Number.padded 2 instant.date.day ++ ' ' :: instant.writeTime, hsign,
    Number.isDigits_padded 4 instant.date.year.natAbs, ?_⟩
  simp only [display, String.toList_ofList, Date.write, hyear, List.append_assoc,
    List.cons_append]

end Calendar.Instant

namespace Store

variable {cs digits rest : List Char}

/-- Digits with a hyphen after them are no number. -/
theorem readUnsigned?_hyphen (h : IsDigits digits) (negative : Bool) :
    readUnsigned? negative (digits ++ '-' :: rest) = none := by
  have htake : (digits ++ '-' :: rest).takeWhile Char.isDigit = digits := by
    rw [List.takeWhile_append_of_pos h.2, List.takeWhile_cons]
    exact List.append_nil _
  have hdrop : (digits ++ '-' :: rest).dropWhile Char.isDigit = '-' :: rest := by
    rw [List.dropWhile_append_of_pos h.2, List.dropWhile_cons]
    rfl
  have hne : digits.isEmpty = false := by
    rw [List.isEmpty_eq_false_iff]
    exact h.1
  simp only [readUnsigned?, htake, hdrop, hne, Bool.false_and, Bool.false_eq_true, if_false]
  rfl

/-- The blank characters around numbers are blank. -/
theorem isNumericSpace_eq_false {c : Char} (h : Text.isBlank c = false) :
    isNumericSpace c = false := by
  simp only [Text.isBlank, Bool.or_eq_false_iff, Bool.and_eq_false_iff, decide_eq_false_iff_not,
    beq_eq_false_iff_ne] at h
  have hspace : c ≠ ' ' := fun hc => by
    subst hc
    simp at h
  simp only [isNumericSpace, Bool.or_eq_false_iff, Bool.and_eq_false_iff, decide_eq_false_iff_not,
    beq_eq_false_iff_ne]
  exact ⟨hspace, by omega⟩

/-- **The text of an instant is no number.** -/
theorem readNumericText?_display (instant : Instant) :
    readNumericText? instant.display.toList = none := by
  obtain ⟨hhead, hlast⟩ := instant.hasInkedEnds_display
  have htrimmed : ((instant.display.toList.dropWhile isNumericSpace).reverse.dropWhile
      isNumericSpace).reverse = instant.display.toList := by
    rw [Text.dropWhile_of_head? fun c hc => isNumericSpace_eq_false (hhead c hc),
      Text.dropWhile_of_head? fun c hc => isNumericSpace_eq_false (hlast c ?_),
      List.reverse_reverse]
    rwa [← List.head?_reverse]
  obtain ⟨sign, year, rest, hsign, hyear, hdisplay⟩ := instant.exists_display_eq
  unfold readNumericText?
  rw [htrimmed, hdisplay]
  rcases hsign with rfl | rfl | rfl
  · obtain ⟨c, cs, hcons⟩ := List.exists_cons_of_ne_nil hyear.1
    have hc : c.isDigit = true := hyear.2 c (hcons ▸ List.mem_cons_self)
    have hnone : readUnsigned? false (year ++ '-' :: rest) = none :=
      readUnsigned?_hyphen hyear false
    rw [hcons] at hnone ⊢
    split
    · next heq =>
      obtain rfl := (List.cons.inj heq).1
      exact absurd hc (by decide)
    · next heq =>
      obtain rfl := (List.cons.inj heq).1
      exact absurd hc (by decide)
    · exact hnone
  · exact readUnsigned?_hyphen hyear true
  · exact readUnsigned?_hyphen hyear false

theorem toNumber_display (instant : Instant) :
    (Value.text instant.display).toNumber = .text instant.display := by
  rw [Value.toNumber, readNumeric?, readNumericText?_display]
  rfl

/-! ### Comparisons -/

/-- A column of instants compares the texts of instants as texts. -/
theorem test_display (accepts : Ordering → Bool) (a b : Instant) :
    Value.test (.ofType .instant) accepts (.text a.display) (.text b.display) =
      some (accepts (compare a.display b.display)) := by
  simp only [Value.test, Value.forComparison, toNumber_display]
  rfl

section Midnight

variable {stored : Instant} {cutoff : Date}

/-- The text of an instant is before that of a midnight when the instant is. -/
theorem compare_display_midnight_beq_lt (hstored : stored.date.HasPlainYear)
    (hcutoff : cutoff.year ≤ 9999) :
    (compare stored.display (Instant.midnight cutoff).display == .lt) =
      decide (stored.IsBefore (.midnight cutoff)) := by
  have hlt : compare stored.display (Instant.midnight cutoff).display = .lt ↔
      stored.display < (Instant.midnight cutoff).display := compareOfLessAndEq_eq_lt
  rw [Bool.eq_iff_iff, beq_iff_eq, decide_eq_true_iff, hlt,
    Instant.display_lt_midnight_iff hstored hcutoff]

/-- The instants before a midnight are those that are less in a column. -/
theorem compareWith_less_midnight (hstored : stored.date.HasPlainYear)
    (hcutoff : cutoff.year ≤ 9999) :
    compareWith ⟨.ofType .instant, .text stored.display⟩ .less
        [.ofScalar (.instant (.midnight cutoff))] =
      some (decide (stored.IsBefore (.midnight cutoff))) := by
  rw [compareWith, Value.ofScalar, test_display, compare_display_midnight_beq_lt hstored hcutoff]

/-- The instants from a midnight on are those that are at least as great in a column. -/
theorem compareWith_atLeast_midnight (hstored : stored.date.HasPlainYear)
    (hcutoff : cutoff.year ≤ 9999) :
    compareWith ⟨.ofType .instant, .text stored.display⟩ .atLeast
        [.ofScalar (.instant (.midnight cutoff))] =
      some (decide ¬stored.IsBefore (.midnight cutoff)) := by
  rw [compareWith, Value.ofScalar, test_display, bne,
    compare_display_midnight_beq_lt hstored hcutoff, decide_not]

end Midnight

end Store

open Store (Database Table Row Value conditionHolds)

/-- **Comparing instants as texts is comparing them in time.** A relative operator on a column of
the base entity has a cutoff, the midnight of the date so many days before that of the reference
instant. The operator `inLast` is true of an instant in the column that is at the cutoff or after
it, and `notInLast` of one before it, also when the cutoff is before the year zero. -/
theorem Rule.timestamps_in_order {rule : Rule} (hrelative : rule.operator.IsRelative)
    {schema : Catalog.Schema} {base column : String} {comparison : Comparison}
    {bound : List Scalar} {now : Instant} (hnow : now.date.year ≤ 9999)
    (hcompile : rule.compile schema base now = .ok (.own ⟨column, comparison⟩, bound))
    {table : Table} {row : Row} {stored : Instant} (hstored : stored.date.HasPlainYear)
    (hcell : table.cell? row column = some ⟨.ofType .instant, .text stored.display⟩)
    (database : Database) :
    ∃ value n cutoff, rule.values = [value] ∧ value.DenotesDays n ∧
      Date.IsDaysBefore n cutoff now.date ∧
      (rule.operator = .inLast →
        (conditionHolds database [⟨table, row⟩] (bound.map Value.ofScalar)
          (.own ⟨column, comparison⟩) = some true ↔ ¬stored.IsBefore (.midnight cutoff))) ∧
      (rule.operator = .notInLast →
        (conditionHolds database [⟨table, row⟩] (bound.map Value.ofScalar)
          (.own ⟨column, comparison⟩) = some true ↔ stored.IsBefore (.midnight cutoff))) := by
  have harity : rule.operator.arity = 1 := by rcases hrelative with h | h <;> rw [h] <;> rfl
  obtain ⟨value, hvalue⟩ := List.length_eq_one_iff.mp (rule.values_length.trans harity)
  obtain ⟨field, -, hbound, hcondition⟩ := compile_eq_ok_iff.mp hcompile
  have hcomparison : comparison = rule.operator.comparison := by
    have htest := congrArg Query.Condition.test hcondition
    rw [test_condition] at htest
    exact congrArg Query.Test.comparison htest
  rw [hvalue, Operator.coerce_relative_eq_ok_iff hrelative] at hbound
  obtain ⟨n, cutoff, hdays, hcutoff, rfl⟩ := hbound
  have hyear : cutoff.year ≤ 9999 := by
    have hnumber := Date.isDaysBefore_iff.mp hcutoff
    exact Int.le_trans (Date.year_le_of_dayNumber_le (by omega)) hnow
  refine ⟨value, n, cutoff, hvalue, hdays, hcutoff, fun hin => ?_, fun hnot => ?_⟩
  · rw [conditionHolds, Store.testHolds_eq hcell, hcomparison, hin, Operator.comparison,
      List.map_singleton, Store.compareWith_atLeast_midnight hstored hyear, Option.some_inj,
      decide_eq_true_iff]
  · rw [conditionHolds, Store.testHolds_eq hcell, hcomparison, hnot, Operator.comparison,
      List.map_singleton, Store.compareWith_less_midnight hstored hyear, Option.some_inj,
      decide_eq_true_iff]

/-- A song of the year zero, and a cutoff before it. -/
theorem Rule.timestamps_in_order_negative_year :
    let now : Instant := .midnight ⟨1, 1, 1, by decide, by decide, by decide⟩
    let stored : Instant := ⟨⟨0, 2, 29, by decide, by decide, by decide⟩, 12, 30, 0, 0, by decide,
      by decide, by decide, .inl (by decide)⟩
    let row : Row := ⟨1, [.text "s1", .int 1, .int 1, .text "A", .real ⟨0⟩, .null, .null, .null,
      .text "a.mp3", .int 0, .null, .null, .null, .text stored.display, .text stored.display]⟩
    let bound : List Scalar :=
      [.instant (.midnight ⟨-1, 11, 28, by decide, by decide, by decide⟩)]
    Rule.compile Catalog.library "songs" now ⟨"created_at", .inLast, [.int 400], rfl⟩ =
        .ok (.own ⟨"created_at", .atLeast⟩, bound) ∧
      conditionHolds (Database.ofSchema Catalog.library) [⟨Table.ofEntity Catalog.songs, row⟩]
        (bound.map Value.ofScalar) (.own ⟨"created_at", .atLeast⟩) = some true := by
  intro now stored row bound
  have hcompile : Rule.compile Catalog.library "songs" now
      ⟨"created_at", .inLast, [.int 400], rfl⟩ = .ok (.own ⟨"created_at", .atLeast⟩, bound) :=
    compile_eq_ok_iff.mpr ⟨.own "created_at", rfl,
      (Operator.coerce_relative_eq_ok_iff (.inl rfl)).mpr
        ⟨400, _, .int (by decide), Date.isDaysBefore_iff.mpr (by decide), rfl⟩, rfl⟩
  have hstored : stored.date.HasPlainYear := by decide
  have hcell : (Table.ofEntity Catalog.songs).cell? row "created_at" =
      some ⟨.ofType .instant, .text stored.display⟩ := rfl
  refine ⟨hcompile, ?_⟩
  obtain ⟨value, n, cutoff, hvalue, hdays, hcutoff, hin, -⟩ :=
    timestamps_in_order (.inl rfl) (by decide) hcompile hstored hcell
      (Database.ofSchema Catalog.library)
  obtain rfl := List.singleton_inj.mp hvalue
  rw [hin rfl, Instant.isBefore_midnight_iff]
  have hnumbers : now.date.dayNumber < stored.date.dayNumber + 400 := by decide
  rw [Date.isDaysBefore_iff] at hcutoff
  cases hdays with
  | int hn =>
    have hvalue : (400 : Int64).toInt = 400 := by decide
    omega

end PlaylistRules
