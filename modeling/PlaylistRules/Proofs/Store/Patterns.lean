import Mathlib.Data.List.Infix
import Mathlib.Data.List.TakeWhile
import PlaylistRules.Proofs.Store.Meaning

/-!
# Patterns

What it means that a text matches a pattern, without regard to how it is found out. A text matches
two patterns in a row when it is divided into a text of each. An operator that puts a value between
wildcards thus looks for a piece, a beginning or an end of a text that matches the value.

## Main definitions

* `Store.Like` : the texts that match a pattern.
* `Rule.Operator.IsPattern` : the operators that match texts with patterns.
* `Scalar.IsMatchable` : the values that are taken for patterns.

## Main results

* `Store.matchesPattern_iff` : the matcher finds the matches.
* `Store.like_append_iff` : matches of two patterns in a row.
* `Store.like_iff_map_toLower` : matches of a text without wildcards.
* `Rule.Operator.pattern_operators` : what the operators with patterns look for.
-/

namespace PlaylistRules

namespace Store

variable {ps qs cs : List Char} {p : Char}

/-! ### Matches -/

/-- A text matches a pattern: `%` stands for any text, `_` for one character, and any other
character for itself up to the case of ASCII letters. -/
inductive Like : List Char → List Char → Prop
  | nil : Like [] []
  | any {ps cs : List Char} (piece : List Char) : Like ps cs → Like ('%' :: ps) (piece ++ cs)
  | one {ps cs : List Char} (c : Char) : Like ps cs → Like ('_' :: ps) (c :: cs)
  | char {ps cs : List Char} {p c : Char} : p ≠ '%' → p.toLower = c.toLower → Like ps cs →
      Like (p :: ps) (c :: cs)

theorem like_nil_iff : Like [] cs ↔ cs = [] :=
  ⟨fun h => by cases h; rfl, fun h => h ▸ .nil⟩

theorem like_any_iff : Like ('%' :: ps) cs ↔ ∃ rest, rest <:+ cs ∧ Like ps rest := by
  constructor
  · intro h
    cases h with
    | any piece h => exact ⟨_, List.suffix_append piece _, h⟩
    | char hp => exact absurd rfl hp
  · rintro ⟨rest, ⟨piece, rfl⟩, h⟩
    exact .any piece h

theorem like_cons_iff (hp : p ≠ '%') :
    Like (p :: ps) cs ↔
      ∃ c rest, cs = c :: rest ∧ (p = '_' ∨ p.toLower = c.toLower) ∧ Like ps rest := by
  constructor
  · intro h
    cases h with
    | any => exact absurd rfl hp
    | one c h => exact ⟨c, _, rfl, .inl rfl, h⟩
    | char _ hc h => exact ⟨_, _, rfl, .inr hc, h⟩
  · rintro ⟨c, rest, rfl, rfl | hc, h⟩
    · exact .one c h
    · exact .char hp hc h

/-! ### The matcher -/

theorem foldCase_eq_toLower (c : Char) : foldCase c = c.toLower := by
  have hletters : ∀ n < 26, foldCase (Char.ofNat (65 + n)) = (Char.ofNat (65 + n)).toLower := by
    decide
  by_cases h : 'A' ≤ c ∧ c ≤ 'Z'
  · have hbounds : 65 ≤ c.toNat ∧ c.toNat ≤ 90 := h
    have hletter := hletters (c.toNat - 65) (by omega)
    rwa [Nat.add_sub_of_le hbounds.1, Char.ofNat_toNat] at hletter
  · have hval : ¬(c.val ≥ 'A'.val ∧ c.val ≤ 'Z'.val) := h
    have hlower : c.toLower = c := dif_neg hval
    rw [foldCase, if_neg h, hlower]

theorem someEnd_iff {property : List Char → Bool} :
    someEnd property cs = true ↔ ∃ rest, rest <:+ cs ∧ property rest = true := by
  induction cs with
  | nil => simp [someEnd]
  | cons c cs ih =>
    simp only [someEnd, Bool.or_eq_true, ih, List.suffix_cons_iff, or_and_right, exists_or,
      exists_eq_left]

/-- **The matcher finds the matches.** -/
theorem matchesPattern_iff : matchesPattern ps cs = true ↔ Like ps cs := by
  induction ps generalizing cs with
  | nil => rw [matchesPattern, List.isEmpty_iff, like_nil_iff]
  | cons p ps ih =>
    rw [matchesPattern.eq_def]
    dsimp only
    split
    · next hp =>
      subst hp
      simp only [someEnd_iff, ih, like_any_iff]
    · next hp =>
      rw [like_cons_iff hp]
      cases cs with
      | nil => simp
      | cons c cs => simp [ih, foldCase_eq_toLower]

instance (ps cs : List Char) : Decidable (Like ps cs) :=
  decidable_of_iff _ matchesPattern_iff

/-! ### Wildcards around a pattern -/

/-- **A text matches two patterns in a row** when it is divided into a match of each. -/
theorem like_append_iff :
    Like (ps ++ qs) cs ↔ ∃ before after, before ++ after = cs ∧ Like ps before ∧ Like qs after := by
  induction ps generalizing cs with
  | nil => simp [like_nil_iff]
  | cons p ps ih =>
    rw [List.cons_append]
    by_cases hp : p = '%'
    · subst hp
      simp only [like_any_iff, ih]
      constructor
      · rintro ⟨_, ⟨piece, rfl⟩, before, after, rfl, hbefore, hafter⟩
        exact ⟨piece ++ before, after, List.append_assoc .., ⟨before, List.suffix_append ..,
          hbefore⟩, hafter⟩
      · rintro ⟨_, after, rfl, ⟨before, ⟨piece, rfl⟩, hbefore⟩, hafter⟩
        exact ⟨before ++ after, ⟨piece, (List.append_assoc ..).symm⟩, before, after, rfl, hbefore,
          hafter⟩
    · simp only [like_cons_iff hp, ih]
      constructor
      · rintro ⟨c, _, rfl, hc, before, after, rfl, hbefore, hafter⟩
        exact ⟨c :: before, after, rfl, ⟨c, before, rfl, hc, hbefore⟩, hafter⟩
      · rintro ⟨_, after, rfl, ⟨c, before, rfl, hc, hbefore⟩, hafter⟩
        exact ⟨c, before ++ after, rfl, hc, before, after, rfl, hbefore, hafter⟩

/-- Every text matches a single wildcard. -/
theorem like_wildcard : Like ['%'] cs :=
  like_any_iff.mpr ⟨[], List.nil_suffix, .nil⟩

theorem like_append_wildcard_iff :
    Like (ps ++ ['%']) cs ↔ ∃ piece, piece <+: cs ∧ Like ps piece := by
  rw [like_append_iff]
  exact ⟨fun ⟨before, after, hcs, h, _⟩ => ⟨before, ⟨after, hcs⟩, h⟩,
    fun ⟨before, ⟨after, hcs⟩, h⟩ => ⟨before, after, hcs, h, like_wildcard⟩⟩

theorem like_wildcards_iff :
    Like ('%' :: (ps ++ ['%'])) cs ↔ ∃ piece, piece <:+: cs ∧ Like ps piece := by
  simp only [like_any_iff, like_append_wildcard_iff]
  constructor
  · rintro ⟨rest, hrest, piece, hpiece, h⟩
    exact ⟨piece, hpiece.isInfix.trans hrest.isInfix, h⟩
  · rintro ⟨piece, ⟨before, after, rfl⟩, h⟩
    exact ⟨piece ++ after, ⟨before, (List.append_assoc ..).symm⟩, piece, List.prefix_append .., h⟩

/-! ### Patterns without wildcards -/

/-- **A text without wildcards** matches itself up to the case of ASCII letters. -/
theorem like_iff_map_toLower (hany : '%' ∉ ps) (hone : '_' ∉ ps) :
    Like ps cs ↔ ps.map Char.toLower = cs.map Char.toLower := by
  induction ps generalizing cs with
  | nil => rw [like_nil_iff, List.map_nil, eq_comm (a := []), List.map_eq_nil_iff]
  | cons p ps ih =>
    rw [List.mem_cons, not_or] at hany hone
    rw [like_cons_iff (Ne.symm hany.1)]
    simp only [ih hany.2 hone.2, Ne.symm hone.1, false_or]
    cases cs <;> simp

/-! ### Texts without zeros -/

/-- A text does not have the character `U+0000`, which ends texts in matches. -/
def HasNoZero (text : String) : Prop :=
  '\x00' ∉ text.toList

instance (text : String) : Decidable (HasNoZero text) :=
  inferInstanceAs (Decidable (_ ∉ _))

theorem beforeZero_eq {text : String} (h : HasNoZero text) : beforeZero text = text.toList := by
  rw [beforeZero, List.takeWhile_eq_self_iff]
  exact fun c hc => bne_iff_ne.mpr fun heq => h (heq ▸ hc)

/-- A value that is not null is matched by its text. -/
theorem matchValue_text {value : Value} {text pattern : String}
    (hvalue : value.patternText? = some text) (htext : HasNoZero text)
    (hpattern : HasNoZero pattern) :
    matchValue value (.text pattern) = some (decide (Like pattern.toList text.toList)) := by
  rw [matchValue, hvalue, Value.patternText?]
  dsimp only
  rw [beforeZero_eq htext, beforeZero_eq hpattern]
  exact congrArg some (Bool.eq_iff_iff.mpr (matchesPattern_iff.trans decide_eq_true_iff.symm))

end Store

open Store (Cell Value Like HasNoZero compareWith)

/-- A value is taken for a pattern by the text in which it is shown: a boolean, an integer, a binary
number or a text. -/
def Scalar.IsMatchable : Scalar → Prop
  | null | instant _ => False
  | bool _ | int _ | float _ | text _ => True

namespace Rule.Operator

variable {operator : Operator} {now : Calendar.Instant} {value : Scalar} {bound : List Scalar}
  {cell : Cell} {before after text : String}

/-- The texts that an operator puts around a value for a pattern. -/
def wildcards? : Operator → Option (String × String)
  | contains | doesNotContain => some ("%", "%")
  | beginsWith => some ("", "%")
  | endsWith => some ("%", "")
  | is | isNot | isBetween | isGreaterThan | isLessThan | inLast | notInLast => none

/-- **The pattern that an operator binds** is the text of the value between wildcards. -/
theorem coerce_pattern_eq_ok_iff (h : operator.wildcards? = some (before, after)) :
    operator.coerce now [value] = .ok bound ↔
      value.IsMatchable ∧ bound = [.text (before ++ value.display ++ after)] := by
  have hcoerce : operator.coerce now [value] =
      (do return [← operator.pattern before after value]) := by
    cases operator <;> cases h <;> rfl
  rw [hcoerce]
  cases value with
  | null | instant => exact iff_of_false nofun fun h => h.1
  | bool | int | float | text =>
    exact ⟨fun h => ⟨trivial, (Except.ok.inj h).symm⟩, fun h => congrArg Except.ok h.2.symm⟩

section Matching

variable (hvalue : value.IsMatchable) (hzero : HasNoZero value.display)
  (hcell : cell.value.patternText? = some text) (htext : HasNoZero text)

include hvalue hzero hcell htext

/-- An operator with a pattern is true of a text when its comparison accepts the match. -/
theorem holdsOn_pattern_iff (h : operator.wildcards? = some (before, after)) :
    operator.HoldsOn now [value] cell ↔
      (Like (before.toList ++ value.display.toList ++ after.toList) text.toList ↔
        operator.comparison = .like) := by
  have hwildcards : HasNoZero before ∧ HasNoZero after := by
    cases operator <;> cases h <;> decide
  have hpattern : HasNoZero (before ++ value.display ++ after) := by
    simp only [HasNoZero, String.toList_append, List.mem_append, not_or]
    exact ⟨⟨hwildcards.1, hzero⟩, hwildcards.2⟩
  have hmatch := Store.matchValue_text hcell htext hpattern
  rw [String.toList_append, String.toList_append] at hmatch
  rw [holdsOn_iff ((coerce_pattern_eq_ok_iff h).mpr ⟨hvalue, rfl⟩), List.map_singleton,
    Value.ofScalar]
  have hcomparison : operator.comparison = .like ∨ operator.comparison = .notLike := by
    cases operator <;> cases h <;> decide
  rcases hcomparison with hlike | hnotLike
  · rw [hlike, compareWith, hmatch, Option.some_inj, decide_eq_true_iff]
    exact (iff_true_right rfl).symm
  · rw [hnotLike, compareWith, hmatch]
    simp [Store.Truth.negate]

theorem contains_holdsOn_iff :
    contains.HoldsOn now [value] cell ↔
      ∃ piece, piece <:+: text.toList ∧ Like value.display.toList piece := by
  have hwildcards : contains.wildcards? = some ("%", "%") := rfl
  rw [holdsOn_pattern_iff hvalue hzero hcell htext hwildcards]
  exact (iff_true_right rfl).trans Store.like_wildcards_iff

theorem beginsWith_holdsOn_iff :
    beginsWith.HoldsOn now [value] cell ↔
      ∃ piece, piece <+: text.toList ∧ Like value.display.toList piece := by
  have hwildcards : beginsWith.wildcards? = some ("", "%") := rfl
  rw [holdsOn_pattern_iff hvalue hzero hcell htext hwildcards]
  exact (iff_true_right rfl).trans Store.like_append_wildcard_iff

theorem endsWith_holdsOn_iff :
    endsWith.HoldsOn now [value] cell ↔
      ∃ piece, piece <:+ text.toList ∧ Like value.display.toList piece := by
  have hwildcards : endsWith.wildcards? = some ("%", "") := rfl
  rw [holdsOn_pattern_iff hvalue hzero hcell htext hwildcards]
  refine (iff_true_right rfl).trans ?_
  rw [show "".toList = [] from rfl, List.append_nil]
  exact Store.like_any_iff

theorem doesNotContain_holdsOn_iff :
    doesNotContain.HoldsOn now [value] cell ↔ ¬contains.HoldsOn now [value] cell := by
  have hwildcards : doesNotContain.wildcards? = some ("%", "%") := rfl
  have hwildcards' : contains.wildcards? = some ("%", "%") := rfl
  rw [holdsOn_pattern_iff hvalue hzero hcell htext hwildcards,
    holdsOn_pattern_iff hvalue hzero hcell htext hwildcards']
  simp [comparison]

end Matching

/-- **What the operators with patterns look for.** They take the values that are no null and no
instant, by the text in which these are shown. In a column with a text, `contains` looks for a
piece of it that matches the text of the value, `beginsWith` for a beginning and `endsWith` for an
end, and `doesNotContain` is true when `contains` is not. If the text of the value has no wildcards,
then the piece, beginning or end is this text, up to the case of ASCII letters. -/
theorem pattern_operators (now : Calendar.Instant) (value : Scalar) :
    (∀ (operator : Operator) (before after : String),
      operator.wildcards? = some (before, after) → ∀ bound,
        operator.coerce now [value] = .ok bound ↔
          value.IsMatchable ∧ bound = [.text (before ++ value.display ++ after)]) ∧
    ∀ (cell : Cell) (text : String), value.IsMatchable → HasNoZero value.display →
      cell.value.patternText? = some text → HasNoZero text →
        (contains.HoldsOn now [value] cell ↔
          ∃ piece, piece <:+: text.toList ∧ Like value.display.toList piece) ∧
        (beginsWith.HoldsOn now [value] cell ↔
          ∃ piece, piece <+: text.toList ∧ Like value.display.toList piece) ∧
        (endsWith.HoldsOn now [value] cell ↔
          ∃ piece, piece <:+ text.toList ∧ Like value.display.toList piece) ∧
        (doesNotContain.HoldsOn now [value] cell ↔ ¬contains.HoldsOn now [value] cell) ∧
        ('%' ∉ value.display.toList → '_' ∉ value.display.toList →
          let pattern := value.display.toList.map Char.toLower
          let shown := text.toList.map Char.toLower
          (contains.HoldsOn now [value] cell ↔ pattern <:+: shown) ∧
          (beginsWith.HoldsOn now [value] cell ↔ pattern <+: shown) ∧
          (endsWith.HoldsOn now [value] cell ↔ pattern <:+ shown)) := by
  refine ⟨fun operator before after h bound => coerce_pattern_eq_ok_iff h,
    fun cell text hvalue hzero hcell htext => ?_⟩
  have hplain : '%' ∉ value.display.toList → '_' ∉ value.display.toList → ∀ piece,
      Like value.display.toList piece ↔
        value.display.toList.map Char.toLower = piece.map Char.toLower :=
    fun hany hone piece => Store.like_iff_map_toLower hany hone
  refine ⟨contains_holdsOn_iff hvalue hzero hcell htext,
    beginsWith_holdsOn_iff hvalue hzero hcell htext, endsWith_holdsOn_iff hvalue hzero hcell htext,
    doesNotContain_holdsOn_iff hvalue hzero hcell htext, fun hany hone => ?_⟩
  rw [contains_holdsOn_iff hvalue hzero hcell htext,
    beginsWith_holdsOn_iff hvalue hzero hcell htext, endsWith_holdsOn_iff hvalue hzero hcell htext]
  simp only [hplain hany hone]
  exact ⟨List.infix_map_iff.symm, List.prefix_map_iff.symm, List.suffix_map_iff.symm⟩

/-- A title with a piece that matches a text with a wildcard. -/
theorem pattern_operators_wildcard :
    let now : Calendar.Instant := .midnight ⟨2018, 7, 15, by decide, by decide, by decide⟩
    let title : Cell := ⟨.text, .text "All you need is love"⟩
    contains.HoldsOn now [.text "N__D"] title ∧ ¬doesNotContain.HoldsOn now [.text "N__D"] title ∧
      endsWith.HoldsOn now [.text "LOVE"] title ∧ ¬beginsWith.HoldsOn now [.text "LOVE"] title := by
  intro now title
  obtain ⟨hcontains, -, -, hnot, -⟩ := (pattern_operators now (.text "N__D")).2 title
    "All you need is love" trivial (by decide) rfl (by decide)
  obtain ⟨-, -, -, -, hplain⟩ := (pattern_operators now (.text "LOVE")).2 title
    "All you need is love" trivial (by decide) rfl (by decide)
  obtain ⟨-, hbegins, hends⟩ := hplain (by decide) (by decide)
  have hneed : contains.HoldsOn now [.text "N__D"] title :=
    hcontains.mpr ⟨"need".toList, by decide, by decide⟩
  exact ⟨hneed, fun h => hnot.mp h hneed, hends.mpr (by decide),
    fun h => absurd (hbegins.mp h) (by decide)⟩

end Rule.Operator

end PlaylistRules
