import PlaylistRules.Proofs.Number.Operations
import PlaylistRules.Proofs.Query.WellFormed

/-!
# Records of trees

A tree that was taken from a record is written back to a record. Groups without rules are left out,
and every rule has its values in an array. Values stay as they are, apart from integers beyond the
signed words of sixty-four bits: a rule keeps such an integer only as the nearest binary number.

## Main definitions

* `Json.kept`, `Json.IsLarge` : the values that a rule keeps, and those that it changes.
* `TreeRecord.withoutEmpty`, `TreeRecord.mapRules` : groups that have rules, and other rules.
* `RuleRecord.listed`, `RuleRecord.kept` : a record with its values in an array.

## Main results

* `Scalar.toJson_of_ofJson` : the value of a scalar that was taken from a value.
* `Rule.toRecord_of_ofRecord` : the record of a rule that was taken from a record.
* `RuleTree.authored_values_kept` : the record of a tree that was taken from a record.
-/

namespace PlaylistRules

/-! ### Values -/

namespace Json

/-- An integer beyond the signed words of sixty-four bits. -/
def IsLarge : Json → Prop
  | number (.integer value _ _) => 0x8000000000000000 ≤ value
  | _ => False

/-- The value that a rule keeps: a large integer as the nearest binary number, and any other value
as it is. -/
def kept : Json → Json
  | number (.integer value lower upper) =>
    if value < 0x8000000000000000 then number (.integer value lower upper)
    else number (.float (Binary64.ofInt value) (Binary64.isFinite_ofInt (by omega)))
  | value => value

/-- Only large integers are changed. -/
theorem kept_eq_self_iff {json : Json} : json.kept = json ↔ ¬json.IsLarge := by
  cases json with
  | number value =>
    cases value with
    | integer value lower upper =>
      rw [IsLarge, kept, Int.not_le]
      split
      · next hsmall => exact ⟨fun _ => hsmall, fun _ => rfl⟩
      · next hlarge =>
        refine ⟨fun h => ?_, fun hsmall => absurd hsmall hlarge⟩
        cases h
    | float => exact ⟨fun _ => id, fun _ => rfl⟩
  | null | bool | string | array | object => exact ⟨fun _ => id, fun _ => rfl⟩

end Json

/-- The value of a scalar that was taken from a value is the one that a rule keeps. -/
theorem Scalar.toJson_of_ofJson {json : Json} {value : Scalar} (h : ofJson json = .ok value) :
    value.toJson = json.kept := by
  cases json with
  | null | bool | string => cases h; rfl
  | array | object => cases h
  | number number =>
    cases number with
    | float f hfinite =>
      cases h
      exact dif_pos hfinite
    | integer i lower upper =>
      rw [ofJson] at h
      split at h
      · next word hword =>
        obtain rfl := Except.ok.inj h
        obtain rfl := Number.toInt_of_toInt64? hword
        exact (if_pos word.toInt_lt).symm
      · next hnone =>
        obtain rfl := Except.ok.inj h
        have hlarge : ¬i < 0x8000000000000000 := fun hlt => by
          rw [Number.toInt64?, if_pos ⟨lower, Int.le_sub_one_of_lt hlt⟩] at hnone
          cases hnone
        rw [Json.kept, if_neg hlarge]
        exact dif_pos _

/-! ### Records -/

namespace RuleRecord

/-- The record with a bare value in an array of its own. -/
def listed (record : RuleRecord) : RuleRecord :=
  match record.value with
  | .array _ => record
  | value => .ofValues record.model record.operator [value]

/-- The record with its values in an array, as a rule keeps them. -/
def kept (record : RuleRecord) : RuleRecord :=
  .ofValues record.model record.operator (record.values.map Json.kept)

/-- A record that has values keeps them all when it has no large integer. -/
theorem kept_eq_listed_iff {record : RuleRecord} (h : record.values ≠ []) :
    record.kept = record.listed ↔ ∀ value ∈ record.values, ¬value.IsLarge := by
  have hlisted : record.listed = .ofValues record.model record.operator record.values := by
    obtain ⟨model, operator, value⟩ := record
    cases value with
    | null => exact absurd rfl h
    | bool | number | string | array | object => rfl
  rw [hlisted, kept, ofValues, ofValues, RuleRecord.mk.injEq, Json.array.injEq]
  simp only [true_and, ← Json.kept_eq_self_iff]
  rw [← List.map_inj_left, List.map_id']

end RuleRecord

namespace TreeRecord

/-- The groups that have rules. -/
def withoutEmpty (record : TreeRecord) : TreeRecord :=
  ⟨record.groups.filter fun group => !group.rules.isEmpty⟩

/-- The tree with every rule changed. -/
def mapRules (change : RuleRecord → RuleRecord) (record : TreeRecord) : TreeRecord :=
  ⟨record.groups.map fun group => ⟨group.rules.map change⟩⟩

/-- Two changes of the rules are the same when they are the same on every rule. -/
theorem mapRules_eq_iff {change change' : RuleRecord → RuleRecord} {record : TreeRecord} :
    record.mapRules change = record.mapRules change' ↔
      ∀ group ∈ record.groups, ∀ rule ∈ group.rules, change rule = change' rule := by
  simp only [mapRules, TreeRecord.mk.injEq, List.map_inj_left, GroupRecord.mk.injEq]

end TreeRecord

/-! ### Rules and groups -/

/-- The values of a record that is taken as a rule are not missing, since every operator takes
some. -/
theorem Rule.values_ne_nil_of_ofRecord {record : RuleRecord} {rule : Rule}
    (h : Rule.ofRecord record = .ok rule) : record.values ≠ [] := by
  have hlength := length_of_ofRecord h
  intro hnil
  rw [hnil] at hlength
  cases hoperator : rule.operator <;> rw [hoperator] at hlength <;> cases hlength

/-- **A rule that was taken from a record has the record with its values in an array.** -/
theorem Rule.toRecord_of_ofRecord {record : RuleRecord} {rule : Rule}
    (h : Rule.ofRecord record = .ok rule) : rule.toRecord = record.kept := by
  obtain ⟨hfield, hname, hvalues⟩ := ofRecord_eq_ok_iff.mp h
  have hvalue : ∀ (_ : Nat) (json : Json) (value : Scalar), Scalar.ofJson json = .ok value →
      value.toJson = json.kept := fun _ _ _ => Scalar.toJson_of_ofJson
  have hkept : rule.values.map Scalar.toJson = record.values.map Json.kept :=
    Outcome.map_eq_of_each hvalue hvalues
  rw [toRecord, RuleRecord.kept, hfield, hname, hkept]

theorem TreeRecord.located_eq_ok_iff {α : Type} {group rule : Nat} {step : Except Rule.Error α}
    {a : α} : located group rule step = .ok a ↔ step = .ok a := by
  cases step with
  | error e => exact ⟨nofun, nofun⟩
  | ok b => exact ⟨id, id⟩

theorem RuleGroup.toRecord_of_ofRecord {index : Nat} {record : GroupRecord} {group : RuleGroup}
    (h : RuleGroup.ofRecord index record = .ok group) :
    group.toRecord = ⟨record.rules.map RuleRecord.kept⟩ := by
  rw [ofRecord_eq_map, Outcome.map_eq_ok_iff] at h
  obtain ⟨rules, hrules, rfl⟩ := h
  have hstep : ∀ (index' : Nat) (record : RuleRecord) (rule : Rule),
      TreeRecord.located index index' (Rule.ofRecord record) = .ok rule →
        rule.toRecord = record.kept := fun _ _ _ hrule =>
    Rule.toRecord_of_ofRecord (TreeRecord.located_eq_ok_iff.mp hrule)
  exact congrArg GroupRecord.mk (Outcome.map_eq_of_each hstep hrules)

/-! ### Trees -/

namespace RuleTree

variable {record : TreeRecord} {tree : RuleTree}

/-- A rule of a record that is taken as a tree is taken as a rule. -/
theorem exists_ofRecord_of_mem (h : ofRecord record = .ok tree) {group : GroupRecord}
    (hgroup : group ∈ record.groups) {rule : RuleRecord} (hrule : rule ∈ group.rules) :
    ∃ taken, Rule.ofRecord rule = .ok taken := by
  obtain ⟨groups, hgroups, -⟩ := ofRecord_eq_ok_iff.mp h
  obtain ⟨k, hk⟩ := List.mem_iff_getElem?.mp hgroup
  obtain ⟨l, hl⟩ := List.mem_iff_getElem?.mp hrule
  obtain ⟨taken, htaken⟩ := Outcome.each_eq_ok_iff.mp ⟨groups, hgroups⟩ k group hk
  rw [RuleGroup.ofRecord_eq_map, Outcome.map_eq_ok_iff] at htaken
  obtain ⟨rules, hrules, -⟩ := htaken
  obtain ⟨taken, htaken⟩ := Outcome.each_eq_ok_iff.mp ⟨rules, hrules⟩ l rule hl
  exact ⟨taken, TreeRecord.located_eq_ok_iff.mp htaken⟩

/-- A tree that was taken from a record has the record of its groups that have rules. -/
theorem toRecord_of_ofRecord (h : ofRecord record = .ok tree) :
    tree.toRecord = record.withoutEmpty.mapRules RuleRecord.kept := by
  obtain ⟨groups, hgroups, rfl⟩ := ofRecord_eq_ok_iff.mp h
  have hgroup : ∀ (index : Nat) (source : GroupRecord) (group : RuleGroup),
      RuleGroup.ofRecord index source = .ok group →
        group.toRecord = ⟨source.rules.map RuleRecord.kept⟩ := fun _ _ _ =>
    RuleGroup.toRecord_of_ofRecord
  have hrecords : groups.map RuleGroup.toRecord =
      record.groups.map fun source => ⟨source.rules.map RuleRecord.kept⟩ :=
    Outcome.map_eq_of_each hgroup hgroups
  -- A group is empty exactly when its record is, so that the same ones are left out.
  have hfilter := congrArg (List.filter fun source : GroupRecord => !source.rules.isEmpty) hrecords
  simp only [List.filter_map, Function.comp_def, RuleGroup.toRecord, List.isEmpty_map] at hfilter
  exact congrArg TreeRecord.mk hfilter

/-- **A tree keeps what was authored, apart from large integers.** The record of a tree that was
taken from a record has the groups that have rules, and in them the same rules in the same order,
with the same model and operator and their values in an array. The values are those of the rule,
each integer beyond the signed words as the nearest binary number. So the record is the authored
one, up to groups without rules and to bare values, exactly when no value of a rule is such an
integer. -/
theorem authored_values_kept (h : ofRecord record = .ok tree) :
    tree.toRecord = record.withoutEmpty.mapRules RuleRecord.kept ∧
    (tree.toRecord = record.withoutEmpty.mapRules RuleRecord.listed ↔
      ∀ group ∈ record.groups, ∀ rule ∈ group.rules, ∀ value ∈ rule.values,
        ¬value.IsLarge) := by
  refine ⟨toRecord_of_ofRecord h, ?_⟩
  rw [toRecord_of_ofRecord h, TreeRecord.mapRules_eq_iff]
  have hrule : ∀ group ∈ record.groups, ∀ rule ∈ group.rules,
      (rule.kept = rule.listed ↔ ∀ value ∈ rule.values, ¬value.IsLarge) := by
    intro group hgroup rule hrule
    obtain ⟨taken, htaken⟩ := exists_ofRecord_of_mem h hgroup hrule
    exact RuleRecord.kept_eq_listed_iff (Rule.values_ne_nil_of_ofRecord htaken)
  constructor
  · intro hsame group hgroup rule hmem
    have hkept : group ∈ record.withoutEmpty.groups := List.mem_filter.mpr
      ⟨hgroup, by simpa using List.ne_nil_of_mem hmem⟩
    exact (hrule group hgroup rule hmem).mp (hsame group hkept rule hmem)
  · intro hsmall group hgroup rule hmem
    have hgroup := (List.mem_filter.mp hgroup).1
    exact (hrule group hgroup rule hmem).mpr (hsmall group hgroup rule hmem)

/-- A group without rules, and one with a rule on a bare year. -/
def yearRecord (year : Json) : TreeRecord :=
  ⟨[⟨[]⟩, ⟨[⟨"year", "is", year⟩]⟩]⟩

/-- The smallest signed word is kept, in an array. -/
theorem authored_values_kept_smallest_year :
    ∃ tree, ofRecord (yearRecord (Json.ofInt64 (-0x8000000000000000))) = .ok tree ∧
      tree.toRecord =
        ⟨[⟨[⟨"year", "is", .array [Json.ofInt64 (-0x8000000000000000)]⟩]⟩]⟩ := by
  have htree : ofRecord (yearRecord (Json.ofInt64 (-0x8000000000000000))) = .ok _ := rfl
  refine ⟨_, htree, (authored_values_kept htree).2.mpr ?_⟩
  intro group hgroup rule hrule value hvalue
  obtain rfl | hgroup := List.mem_cons.mp hgroup
  · exact absurd hrule List.not_mem_nil
  · obtain rfl := List.mem_singleton.mp hgroup
    obtain rfl := List.mem_singleton.mp hrule
    obtain rfl := List.mem_singleton.mp hvalue
    exact Int.not_le.mpr (Int64.toInt_lt _)

/-- An integer beyond the signed words that is no binary number. -/
def largeYear : Json :=
  .number (.integer 0x8000000000000001 (by decide) (by decide))

/-- **A large integer is not kept.** The tree is taken, but its record has another value. -/
theorem large_year_not_kept :
    ∃ tree, ofRecord (yearRecord largeYear) = .ok tree ∧
      tree.toRecord ≠ (yearRecord largeYear).withoutEmpty.mapRules RuleRecord.listed := by
  have htree : ofRecord (yearRecord largeYear) = .ok _ := rfl
  refine ⟨_, htree, fun h => ?_⟩
  rw [toRecord_of_ofRecord htree] at h
  have hrule := TreeRecord.mapRules_eq_iff.mp h _ List.mem_cons_self _ List.mem_cons_self
  have hvalues : RuleRecord.values ⟨"year", "is", largeYear⟩ = [largeYear] := rfl
  have hne : RuleRecord.values ⟨"year", "is", largeYear⟩ ≠ [] := by
    rw [hvalues]
    exact List.cons_ne_nil _ _
  have hsmall := (RuleRecord.kept_eq_listed_iff hne).mp hrule
  exact hsmall largeYear List.mem_cons_self (Int.le_add_one (Int.le_refl _))

end RuleTree

end PlaylistRules
