import Mathlib.Data.List.TakeWhile
import PlaylistRules.Proofs.Json.Grammar

/-!
# Reading numerals

A numeral is read from the front of a text exactly when the text starts with its spelling, and what
follows does not continue it.

## Main definitions

* `Json.EndsNumeral` : a text that does not continue a numeral.
* `Json.IsNumeralStart` : a character with which a numeral starts.

## Main results

* `Json.Numeral.readDigits?_eq_some_iff` : the digits at the front of a text.
* `Json.Numeral.read?_sound`, `Json.Numeral.read?_complete` : the numerals that are read.
-/

namespace PlaylistRules.Json

/-- The first character of a text, if there is one, is none of those that continue a numeral. -/
def EndsNumeral (text : List Char) : Prop :=
  ∀ c ∈ text.head?, c.isDigit = false ∧ c ≠ '.' ∧ c ≠ 'e' ∧ c ≠ 'E'

/-- The start of a numeral: its sign or a digit. -/
def IsNumeralStart (c : Char) : Prop :=
  c = '-' ∨ c.isDigit = true

namespace Numeral

variable {cs rest text : List Char}

/-! ### Digits -/

/-- The digits at the front of a text are read up to the first other character. -/
theorem readDigits?_eq_some_iff {digits : List Char} :
    readDigits? cs = some (digits, rest) ↔
      IsDigits digits ∧ (∀ c ∈ rest.head?, c.isDigit = false) ∧ cs = digits ++ rest := by
  unfold readDigits?
  dsimp only
  constructor
  · intro h
    split at h
    · cases h
    · next hne =>
      cases h
      have hnil : cs.takeWhile Char.isDigit ≠ [] := fun h => hne (List.isEmpty_iff.mpr h)
      refine ⟨⟨hnil, fun d hd => List.mem_takeWhile_imp hd⟩, fun c hc => ?_,
        List.takeWhile_append_dropWhile.symm⟩
      have hhead := List.head?_dropWhile_not Char.isDigit cs
      rw [Option.mem_def.mp hc] at hhead
      exact hhead
  · rintro ⟨⟨hne, hdigits⟩, hrest, rfl⟩
    have htake : (digits ++ rest).takeWhile Char.isDigit = digits := by
      rw [List.takeWhile_append_of_pos hdigits]
      cases rest with
      | nil => exact List.append_nil _
      | cons c rest => rw [List.takeWhile_cons, hrest c rfl]; exact List.append_nil _
    have hdrop : (digits ++ rest).dropWhile Char.isDigit = rest := by
      rw [List.dropWhile_append_of_pos hdigits]
      cases rest with
      | nil => rfl
      | cons c rest => rw [List.dropWhile_cons, hrest c rfl]; rfl
    rw [htake, hdrop]
    exact if_neg fun h => hne (List.isEmpty_iff.mp h)

private theorem exists_cons_of_isDigits {digits : List Char} (h : IsDigits digits) :
    ∃ d ds, digits = d :: ds ∧ d.isDigit = true := by
  obtain ⟨d, ds, rfl⟩ := List.exists_cons_of_ne_nil h.1
  exact ⟨d, ds, rfl, h.2 d List.mem_cons_self⟩

/-- The whole part at the front of a text. -/
theorem readWhole?_eq_some_iff {whole : List Char} :
    readWhole? cs = some (whole, rest) ↔
      IsDigits whole ∧ (whole.head? = some '0' → whole = ['0']) ∧
        (∀ c ∈ rest.head?, c.isDigit = false) ∧ cs = whole ++ rest := by
  unfold readWhole?
  split
  · next d ds other hdigits =>
    refine ⟨nofun, fun ⟨hwhole, hzero, hrest, hcs⟩ => ?_⟩
    rw [readDigits?_eq_some_iff.mpr ⟨hwhole, hrest, hcs⟩, Option.some.injEq, Prod.mk.injEq]
      at hdigits
    rw [hdigits.1] at hzero
    exact absurd (hzero rfl) (by simp)
  · next hne =>
    rw [readDigits?_eq_some_iff]
    refine ⟨fun ⟨hwhole, hrest, hcs⟩ => ⟨hwhole, fun hzero => ?_, hrest, hcs⟩,
      fun ⟨hwhole, _, hrest, hcs⟩ => ⟨hwhole, hrest, hcs⟩⟩
    obtain ⟨ds, rfl⟩ := List.head?_eq_some_iff.mp hzero
    cases ds with
    | nil => rfl
    | cons d ds =>
      exact absurd (readDigits?_eq_some_iff.mpr ⟨hwhole, hrest, hcs⟩) (hne d ds rest)

/-! ### Fractions and exponents -/

theorem readFraction?_sound {fraction : List Char} (h : readFraction? cs = some (fraction, rest)) :
    ∃ text, SpellsFraction text fraction ∧ cs = text ++ rest := by
  unfold readFraction? at h
  split at h
  · obtain ⟨hdigits, -, rfl⟩ := readDigits?_eq_some_iff.mp h
    exact ⟨_, .some hdigits, rfl⟩
  · cases h
    exact ⟨[], .none, rfl⟩

theorem readFraction?_complete {fraction : List Char} (h : SpellsFraction text fraction)
    (hrest : ∀ c ∈ rest.head?, c.isDigit = false ∧ c ≠ '.') :
    readFraction? (text ++ rest) = some (fraction, rest) := by
  cases h with
  | none =>
    unfold readFraction?
    split
    · next heq =>
      rw [List.nil_append] at heq
      exact absurd rfl (hrest '.' (heq ▸ rfl)).2
    · rfl
  | some hdigits =>
    exact readDigits?_eq_some_iff.mpr ⟨hdigits, fun c hc => (hrest c hc).1, rfl⟩

theorem readPower?_sound {power : Bool × List Char} (h : readPower? cs = some (power, rest)) :
    ∃ text, SpellsPower text power ∧ cs = text ++ rest := by
  unfold readPower? at h
  split at h
  all_goals
    obtain ⟨⟨digits, rest'⟩, hread, h⟩ := Option.map_eq_some_iff.mp h
    cases h
    obtain ⟨hdigits, -, rfl⟩ := readDigits?_eq_some_iff.mp hread
  · exact ⟨_, .plus hdigits, rfl⟩
  · exact ⟨_, .minus hdigits, rfl⟩
  · exact ⟨_, .plain hdigits, rfl⟩

theorem readPower?_complete {power : Bool × List Char} (h : SpellsPower text power)
    (hrest : ∀ c ∈ rest.head?, c.isDigit = false) :
    readPower? (text ++ rest) = some (power, rest) := by
  cases h with
  | plain hdigits =>
    have hread := readDigits?_eq_some_iff.mpr ⟨hdigits, hrest, rfl⟩
    obtain ⟨d, ds, rfl, hd⟩ := exists_cons_of_isDigits hdigits
    unfold readPower?
    split
    · next heq => cases heq; exact absurd hd (by decide)
    · next heq => cases heq; exact absurd hd (by decide)
    · rw [hread]
      rfl
  | plus hdigits =>
    show (readDigits? (_ ++ rest)).map _ = _
    rw [readDigits?_eq_some_iff.mpr ⟨hdigits, hrest, rfl⟩]
    rfl
  | minus hdigits =>
    show (readDigits? (_ ++ rest)).map _ = _
    rw [readDigits?_eq_some_iff.mpr ⟨hdigits, hrest, rfl⟩]
    rfl

theorem readExponent?_sound {exponent : Option (Bool × List Char)}
    (h : readExponent? cs = some (exponent, rest)) :
    ∃ text, SpellsExponent text exponent ∧ cs = text ++ rest := by
  unfold readExponent? at h
  split at h
  · split at h
    · next hletter =>
      obtain ⟨⟨power, rest'⟩, hpower, h⟩ := Option.map_eq_some_iff.mp h
      cases h
      obtain ⟨text, htext, rfl⟩ := readPower?_sound hpower
      exact ⟨_, .some hletter htext, rfl⟩
    · cases h
      exact ⟨[], .none, rfl⟩
  · cases h
    exact ⟨[], .none, rfl⟩

theorem readExponent?_complete {exponent : Option (Bool × List Char)}
    (h : SpellsExponent text exponent) (hrest : EndsNumeral rest) :
    readExponent? (text ++ rest) = some (exponent, rest) := by
  cases h with
  | none =>
    cases rest with
    | nil => rfl
    | cons c rest =>
      obtain ⟨-, -, hlower, hupper⟩ := hrest c rfl
      exact if_neg (not_or.mpr ⟨hlower, hupper⟩)
  | some hletter hpower =>
    rw [List.cons_append, readExponent?, if_pos hletter,
      readPower?_complete hpower fun c hc => (hrest c hc).1]
    rfl

/-! ### Numerals -/

private theorem readUnsigned?_sound {negative : Bool} {numeral : Numeral}
    (h : readUnsigned? negative cs = some (numeral, rest)) :
    ∃ text, SpellsNumeral ((if negative then ['-'] else []) ++ text) numeral ∧
      cs = text ++ rest := by
  obtain ⟨⟨whole, cs'⟩, hwhole, h⟩ := Option.bind_eq_some_iff.mp h
  obtain ⟨⟨fraction, cs''⟩, hfraction, h⟩ := Option.bind_eq_some_iff.mp h
  obtain ⟨⟨exponent, rest'⟩, hexponent, h⟩ := Option.map_eq_some_iff.mp h
  cases h
  obtain ⟨hdigits, hzero, -, rfl⟩ := readWhole?_eq_some_iff.mp hwhole
  obtain ⟨ftext, hftext, rfl⟩ := readFraction?_sound hfraction
  obtain ⟨etext, hetext, rfl⟩ := readExponent?_sound hexponent
  refine ⟨whole ++ ftext ++ etext, ⟨ftext, etext, hdigits, hzero, hftext, hetext, ?_⟩, ?_⟩
  · simp only [List.append_assoc]
  · simp only [List.append_assoc]

private theorem readUnsigned?_complete {negative : Bool} {whole fraction ftext etext : List Char}
    {exponent : Option (Bool × List Char)} (hdigits : IsDigits whole)
    (hzero : whole.head? = some '0' → whole = ['0']) (hfraction : SpellsFraction ftext fraction)
    (hexponent : SpellsExponent etext exponent) (hrest : EndsNumeral rest) :
    readUnsigned? negative (whole ++ (ftext ++ (etext ++ rest))) =
      some (⟨negative, whole, fraction, exponent⟩, rest) := by
  -- What follows the digits of a part is a point, the letter of an exponent, or the rest.
  have hend : ∀ c ∈ (etext ++ rest).head?, c.isDigit = false ∧ c ≠ '.' := by
    intro c hc
    cases hexponent with
    | none => exact ⟨(hrest c hc).1, (hrest c hc).2.1⟩
    | some hletter _ =>
      obtain rfl := Option.some.inj hc
      rcases hletter with rfl | rfl <;> decide
  have hend' : ∀ c ∈ (ftext ++ (etext ++ rest)).head?, c.isDigit = false := by
    intro c hc
    cases hfraction with
    | none => exact (hend c hc).1
    | some _ => exact Option.some.inj hc ▸ by decide
  simp only [readUnsigned?, readWhole?_eq_some_iff.mpr ⟨hdigits, hzero, hend', rfl⟩,
    Option.bind_some, readFraction?_complete hfraction hend,
    readExponent?_complete hexponent hrest, Option.map_some]

/-- A numeral that is read is spelled at the front of the text. -/
theorem read?_sound {numeral : Numeral} (h : read? cs = some (numeral, rest)) :
    ∃ text, SpellsNumeral text numeral ∧ cs = text ++ rest := by
  unfold read? at h
  split at h
  · obtain ⟨text, hspells, rfl⟩ := readUnsigned?_sound h
    exact ⟨_, hspells, rfl⟩
  · obtain ⟨text, hspells, rfl⟩ := readUnsigned?_sound h
    exact ⟨_, hspells, rfl⟩

/-- A numeral that is spelled at the front of a text is read, unless the rest continues it. -/
theorem read?_complete {numeral : Numeral} (h : SpellsNumeral text numeral)
    (hrest : EndsNumeral rest) : read? (text ++ rest) = some (numeral, rest) := by
  obtain ⟨negative, whole, fraction, exponent⟩ := numeral
  obtain ⟨ftext, etext, hdigits, hzero, hfraction, hexponent, rfl⟩ := h
  have hread : ∀ negative, readUnsigned? negative (whole ++ (ftext ++ (etext ++ rest))) =
      some (⟨negative, whole, fraction, exponent⟩, rest) := fun negative =>
    readUnsigned?_complete hdigits hzero hfraction hexponent hrest
  simp only [List.append_assoc]
  cases negative with
  | true => exact hread true
  | false =>
    obtain ⟨d, ds, rfl, hd⟩ := exists_cons_of_isDigits hdigits
    unfold read?
    split
    · next heq => cases heq; exact absurd hd (by decide)
    · exact hread false

theorem exists_cons_of_spellsNumeral {numeral : Numeral} (h : SpellsNumeral text numeral) :
    ∃ c cs, text = c :: cs ∧ IsNumeralStart c := by
  obtain ⟨ftext, etext, hdigits, -, -, -, rfl⟩ := h
  obtain ⟨d, ds, hwhole, hd⟩ := exists_cons_of_isDigits hdigits
  rw [hwhole]
  split
  · exact ⟨_, _, rfl, .inl rfl⟩
  · exact ⟨_, _, rfl, .inr hd⟩

end Numeral

end PlaylistRules.Json
