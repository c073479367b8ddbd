import PlaylistRules.Proofs.Json.Scaling
import PlaylistRules.Proofs.Query.Reloading
import PlaylistRules.Proofs.Record.RoundTrip

/-!
# The numbers of stored trees

The stored text of a tree is read as the tree with its numbers read again. The text of a number
determines it, since the number is nearest to the decimal that is written. The reader rounds the
digits and the power of ten before it rounds their product or quotient, so that the number that is
read may be another one near by. It is the same number exactly when it is nearest to that product or
quotient, in particular when the digits and the power are exact.

## Main definitions

* `Scalar.reread` : a scalar as it is read from its text.
* `Scalar.IsKept` : scalars that are read as they were written.

## Main results

* `RuleTree.parse_text_toRecord` : the tree that is read from the stored text of a tree.
* `RuleTree.stored_numbers` : what this means for the numbers.
-/

namespace PlaylistRules

/-! ### Values -/

namespace Scalar

/-- A scalar as it is read from its text. -/
def reread : Scalar → Scalar
  | float value => float value.reread
  | value => value

/-- A scalar is kept when it is no number, or a number that is nearest to the value which the last
step of its reading rounds. -/
def IsKept : Scalar → Prop
  | float value => Binary64.IsNearest value.magnitude value.written.lastStep
  | _ => True

/-- A scalar is kept exactly when it is read as it was, or as the same text of an instant. -/
theorem shown_reread_eq_iff {value : Scalar} (h : value.IsFinite) :
    value.reread.shown = value.shown ↔ value.IsKept := by
  cases value with
  | float f => exact (Scalar.float.injEq ..).to_iff.trans (Binary64.reread_eq_iff h)
  | null | bool | int | text | instant => exact ⟨fun _ => trivial, fun _ => rfl⟩

theorem reread_eq_self {value : Scalar} (h : value.IsFinite) (hkept : value.IsKept) :
    value.reread = value := by
  cases value with
  | float f => exact congrArg float ((Binary64.reread_eq_iff h).mpr hkept)
  | null | bool | int | text | instant => rfl

theorem IsFinite.reread {value : Scalar} (h : value.IsFinite) : value.reread.IsFinite := by
  cases value with
  | float => exact (Binary64.reread_spec h).1
  | null | bool | int | text | instant => trivial

/-- **The text of a scalar spells the scalar that is read from it.** -/
theorem spellsValue_write_toJson {value : Scalar} (h : value.IsFinite) (depth : Nat) :
    Json.SpellsValue depth value.toJson.write value.reread.toJson := by
  cases value with
  | null | bool | int | text | instant =>
    exact Json.spellsValue_write trivial trivial (by cases depth <;> trivial)
  | float f =>
    have hwritten : (float f).toJson = .number (.float f h) := dif_pos h
    have hread : (float f.reread).toJson = .number (.float f.reread (Binary64.reread_spec h).1) :=
      dif_pos (Binary64.reread_spec h).1
    obtain ⟨numeral, hspells, -, -, hinteger, hfloat⟩ := Json.exists_numeral_write h
    have hvalue : numeral.value? = some (.float f.reread (Binary64.reread_spec h).1) := by
      rw [Json.Numeral.value?, hinteger, hfloat, Binary64.scaled?_written h]
      exact dif_pos (Binary64.reread_spec h).1
    rw [Scalar.reread, hwritten, hread]
    cases depth with
    | zero => exact .number ⟨_, ⟨numeral, hspells, hvalue⟩, rfl⟩
    | succ depth => exact .number ⟨_, ⟨numeral, hspells, hvalue⟩, rfl⟩

end Scalar

/-! ### Trees -/

/-- The text of a rule spells the rule with its values read again. -/
theorem Rule.spellsRule_write_toRecord {rule : Rule} (h : ∀ value ∈ rule.values, value.IsFinite) :
    Record.SpellsRule rule.toRecord.write (rule.mapValues Scalar.reread).toRecord := by
  refine Record.spellsRule_write rfl rfl ?_
  show Json.SpellsValue (122 + 1) (Json.array (rule.values.map Scalar.toJson)).write
    (.array ((rule.values.map Scalar.reread).map Scalar.toJson))
  rw [Json.write_array, List.map_map, List.map_map]
  exact .array ⟨_, Json.spellsRest_joinCommas_map ']' fun value hvalue =>
    Scalar.spellsValue_write_toJson (h value hvalue) 122, rfl⟩

namespace RuleTree

variable {tree : RuleTree}

theorem AllScalars.mapValues {property property' : Scalar → Prop} {f : Scalar → Scalar}
    (h : tree.AllScalars property) (hf : ∀ value, property value → property' (f value)) :
    (tree.mapValues f).AllScalars property' := by
  intro _ hgroup _ hrule _ hvalue
  obtain ⟨group, hgroupSource, rfl⟩ := List.mem_map.mp hgroup
  obtain ⟨rule, hruleSource, rfl⟩ := List.mem_map.mp hrule
  obtain ⟨value, hvalueSource, rfl⟩ := List.mem_map.mp hvalue
  exact hf value (h group hgroupSource rule hruleSource value hvalueSource)

/-- The text of a tree spells the tree with its values read again. -/
theorem spellsTree_write_toRecord (h : tree.AllScalars Scalar.IsFinite) :
    Record.SpellsTree tree.toRecord.write (tree.mapValues Scalar.reread).toRecord := by
  have hgroup : ∀ group ∈ tree.groups, Record.SpellsGroup group.toRecord.write
      (group.mapValues Scalar.reread).toRecord := by
    intro group hgroup
    rw [RuleGroup.toRecord, RuleGroup.toRecord, RuleGroup.mapValues, List.map_map]
    exact Record.spellsGroup_write fun rule hrule =>
      Rule.spellsRule_write_toRecord (h group hgroup rule hrule)
  rw [toRecord, toRecord, mapValues, List.map_map]
  exact Record.spellsTree_write hgroup

/-- **The stored text of a tree is read as the tree with its values read again**, with its instants
as texts and its groups numbered. -/
theorem parse_text_toRecord (h : tree.AllScalars Scalar.IsFinite) :
    parse tree.toRecord.text = .ok (tree.mapValues Scalar.reread).shown.numbered := by
  have hparse : TreeRecord.parse tree.toRecord.text =
      .ok (tree.mapValues Scalar.reread).toRecord := by
    rw [TreeRecord.parse, Json.readText_eq_ok_iff Record.reads_readTree,
      Record.exists_mapped_iff_spellsTree, TreeRecord.text, String.toList_ofList]
    exact spellsTree_write_toRecord h
  rw [parse_eq_ofRecord hparse]
  exact ofRecord_toRecord (h.mapValues fun _ => Scalar.IsFinite.reread)

/-- Trees whose rules show the same values have the same values shown. -/
theorem shown_eq_of_numbered_eq {f : Scalar → Scalar}
    (h : (tree.mapValues f).shown.numbered = tree.shown.numbered) :
    tree.AllScalars fun value => (f value).shown = value.shown := by
  have hrules := congrArg (fun tree => tree.groups.map RuleGroup.rules) h
  simp only [map_rules_numbered, shown, mapValues, List.map_map, List.map_inj_left,
    Function.comp_apply] at hrules
  intro group hgroup rule hrule value hvalue
  have hgroupRules := hrules group hgroup
  simp only [RuleGroup.mapValues, List.map_map, List.map_inj_left, Function.comp_apply]
    at hgroupRules
  have hvalues := congrArg Rule.values (hgroupRules rule hrule)
  simp only [Rule.mapValues, List.map_map, List.map_inj_left, Function.comp_apply] at hvalues
  exact hvalues value hvalue

/-- **What storing makes of numbers.** The stored text of a tree with finite numbers is read as the
tree with every number read again; its other values are kept, up to instants, which become texts. So
the tree is read as it was exactly when each of its numbers is nearest to the value that the last
step of its reading rounds.

The text of a finite number determines the number, as the nearest one to the decimal that is
written. The number that is read is finite with the same sign, and it is as many magnitudes away as
there are roundings before the last step, at most. It is the same number if the digits fit
fifty-three binary places and the power of ten is `10 ^ 22` at most, in either direction. -/
theorem stored_numbers (tree : RuleTree) (h : tree.AllScalars Scalar.IsFinite) :
    parse tree.toRecord.text = .ok (tree.mapValues Scalar.reread).shown.numbered ∧
    (parse tree.toRecord.text = .ok tree.shown.numbered ↔ tree.AllScalars Scalar.IsKept) ∧
    ∀ f : Binary64, f.isFinite = true →
      (∃ numeral : Json.Numeral, Json.SpellsNumeral (Layout.json.write f).toList numeral ∧
        numeral.negative = f.isNegative ∧ numeral.decimal = f.written) ∧
      Binary64.IsNearest f.magnitude f.written.value ∧
      f.reread.isFinite = true ∧ f.reread.isNegative = f.isNegative ∧
      (f.reread.magnitude ≤ f.magnitude + f.written.roundings ∧
        f.magnitude ≤ f.reread.magnitude + f.written.roundings) ∧
      (f.reread = f ↔ (Scalar.float f).IsKept) ∧
      (f.written.significand ≤ 2 ^ 53 → f.written.exponent.natAbs ≤ 22 → f.reread = f) := by
  have hparse := parse_text_toRecord h
  refine ⟨hparse, ?_, fun f hfinite => ?_⟩
  · rw [hparse, Except.ok.injEq]
    constructor
    · intro hsame group hgroup rule hrule value hvalue
      exact (Scalar.shown_reread_eq_iff (h group hgroup rule hrule value hvalue)).mp
        (shown_eq_of_numbered_eq hsame group hgroup rule hrule value hvalue)
    · intro hkept
      rw [mapValues_eq_self fun group hgroup rule hrule value hvalue => Scalar.reread_eq_self
        (h group hgroup rule hrule value hvalue) (hkept group hgroup rule hrule value hvalue)]
  · obtain ⟨hread, hsign, -, habove, hbelow⟩ := Binary64.reread_spec hfinite
    obtain ⟨numeral, hspells, hnegative, hdecimal, -⟩ := Json.exists_numeral_write hfinite
    refine ⟨⟨numeral, hspells, hnegative, hdecimal⟩, f.isNearest_written, hread, hsign,
      ⟨habove, hbelow⟩, Binary64.reread_eq_iff hfinite,
      fun hdigits hpower => Binary64.reread_eq_self hfinite ?_⟩
    rw [Decimal.roundings, Decimal.digitRoundings, Decimal.powerRoundings, if_pos hdigits,
      if_pos (by omega), if_pos hpower]

/-- The tree with the rule that the length of a song is between two numbers. -/
def lengthBetween (low high : Binary64) : RuleTree :=
  ofGroups [.ofRules [⟨"length", .isBetween, [.float low, .float high], rfl⟩]]

theorem allScalars_lengthBetween {low high : Binary64} (hlow : low.isFinite = true)
    (hhigh : high.isFinite = true) : (lengthBetween low high).AllScalars Scalar.IsFinite := by
  intro group hgroup rule hrule value hvalue
  obtain rfl := List.mem_singleton.mp hgroup
  obtain rfl := List.mem_singleton.mp hrule
  obtain rfl | rfl := List.mem_pair.mp hvalue
  · exact hlow
  · exact hhigh

/-- The digits of one and a half are exact, so that it is kept. The largest odd number of
fifty-three binary digits has one digit more with the zero after its point; it is read as the number
below, which is within the one rounding of its digits. -/
theorem stored_numbers_largest_odd :
    let low : Binary64 := ⟨0x3ff8000000000000⟩
    let high : Binary64 := ⟨0x433fffffffffffff⟩
    let read : Binary64 := ⟨0x433ffffffffffffe⟩
    (lengthBetween low high).AllScalars Scalar.IsFinite ∧
      parse (lengthBetween low high).toRecord.text = .ok (lengthBetween low read).numbered ∧
      ¬(lengthBetween low high).AllScalars Scalar.IsKept ∧
      (Scalar.float low).IsKept ∧ ¬(Scalar.float high).IsKept ∧
      high.written.roundings = 1 ∧ high.magnitude ≤ read.magnitude + 1 := by
  intro low high read
  have hlow : low.isFinite = true := by decide
  have hhigh : high.isFinite = true := by decide
  have hscalars := allScalars_lengthBetween hlow hhigh
  have hread : high.reread = read := by decide +kernel
  have hroundings : high.written.roundings = 1 := by decide +kernel
  obtain ⟨hparse, -, hnumbers⟩ := stored_numbers (lengthBetween low high) hscalars
  obtain ⟨-, -, -, -, -, hlowKept, hexact⟩ := hnumbers low hlow
  obtain ⟨-, -, -, -, ⟨-, hbelow⟩, hhighKept, -⟩ := hnumbers high hhigh
  have hkept := hexact (by decide +kernel) (by decide +kernel)
  have hresult : ((lengthBetween low high).mapValues Scalar.reread).shown.numbered =
      (lengthBetween low.reread high.reread).numbered := rfl
  rw [hresult, hkept, hread] at hparse
  rw [hread, hroundings] at hbelow
  rw [hread] at hhighKept
  have hlost : ¬(Scalar.float high).IsKept := mt hhighKept.mpr (by decide)
  refine ⟨hscalars, hparse, fun hall => hlost ?_, hlowKept.mp hkept, hlost, hroundings, hbelow⟩
  exact hall _ List.mem_cons_self _ List.mem_cons_self _ (List.mem_cons_of_mem _ List.mem_cons_self)

/-- The tree with the rule that the length of a song is a number. -/
def lengthIs (f : Binary64) : RuleTree :=
  ofGroups [.ofRules [.has "length" (.float f)]]

/-- Storing does not keep every number: a length of `9007199254740991` seconds is read as one second
less. -/
theorem stored_number_changed :
    let f : Binary64 := ⟨0x433fffffffffffff⟩
    f.isFinite = true ∧
      parse (lengthIs f).toRecord.text = .ok (lengthIs ⟨0x433ffffffffffffe⟩).numbered ∧
      parse (lengthIs f).toRecord.text ≠ .ok (lengthIs f).numbered := by
  intro f
  have hfinite : f.isFinite = true := by decide
  have hread : f.reread = ⟨0x433ffffffffffffe⟩ := by decide +kernel
  have hscalars : (lengthIs f).AllScalars Scalar.IsFinite := by
    intro group hgroup rule hrule value hvalue
    obtain rfl := List.mem_singleton.mp hgroup
    obtain rfl := List.mem_singleton.mp hrule
    obtain rfl := List.mem_singleton.mp hvalue
    exact hfinite
  have hparse := parse_text_toRecord hscalars
  have hresult : ((lengthIs f).mapValues Scalar.reread).shown.numbered =
      (lengthIs f.reread).numbered := rfl
  rw [hresult, hread] at hparse
  refine ⟨hfinite, hparse, ?_⟩
  rw [hparse]
  exact fun h => absurd (congrArg groups (Except.ok.inj h)) (by decide)

end RuleTree

end PlaylistRules
