import PlaylistRules.Proofs.Traversal
import PlaylistRules.Record.Basic
import PlaylistRules.Rule.Error

/-!
# Locations of rules

The rules of a stored tree are visited group by group, and in each group one after the other. A
step on all of them has the error of the first rule on which it fails, at the location of this rule
in the tree as it was written.

## Main definitions

* `TreeRecord.rule?` : the rule at a location.
* `TreeRecord.IsFirst` : the first location of a defect.
* `TreeRecord.scan` : a step on every rule of a tree.

## Main results

* `TreeRecord.scan_eq_error_iff` : the error of a step is the one of the first rule with a defect.
-/

namespace PlaylistRules

variable {α : Type} {error : Rule.Error} {defect : RuleRecord → Rule.Reason → Prop}

/-- A location comes before another one: it is in an earlier group, or earlier in the same one. -/
def Rule.Location.Before (a b : Rule.Location) : Prop :=
  a.group < b.group ∨ a.group = b.group ∧ a.rule < b.rule

namespace TreeRecord

variable (tree : TreeRecord)

/-- The rule at a location, counting all groups. -/
def rule? (location : Rule.Location) : Option RuleRecord :=
  tree.groups[location.group]?.bind fun group => group.rules[location.rule]?

/-- The rule at a location has a defect for a reason, and no rule before it has any. -/
structure IsFirst (defect : RuleRecord → Rule.Reason → Prop) (location : Rule.Location)
    (reason : Rule.Reason) : Prop where
  found : ∃ rule ∈ tree.rule? location, defect rule reason
  earlier : ∀ other, other.Before location → ∀ rule ∈ tree.rule? other, ∀ reason,
    ¬defect rule reason

/-- A step whose error is located at a rule. -/
def located (group rule : Nat) (step : Except Rule.Error α) : Except Rule.Error α :=
  step.mapError fun error => error.locate group rule

/-- A step on the rules of a group. -/
def scanGroup (step : RuleRecord → Except Rule.Error α) (group : Nat) (record : GroupRecord) :
    Except Rule.Error (List α) :=
  Outcome.each (fun rule record => located group rule (step record)) 0 record.rules

/-- A step on every rule of a tree, with the first error at the location of its rule. -/
def scan (step : RuleRecord → Except Rule.Error α) : Except Rule.Error (List (List α)) :=
  Outcome.each (scanGroup step) 0 tree.groups

theorem mem_rule?_iff {location : Rule.Location} {rule : RuleRecord} :
    rule ∈ tree.rule? location ↔
      ∃ group ∈ tree.groups[location.group]?, rule ∈ group.rules[location.rule]? :=
  Option.bind_eq_some_iff

variable {tree}

/-- The first defect depends only on the defects of the rules of the tree. -/
theorem IsFirst.congr {defect' : RuleRecord → Rule.Reason → Prop} {location : Rule.Location}
    {reason : Rule.Reason} (hfirst : tree.IsFirst defect location reason)
    (h : ∀ location, ∀ rule ∈ tree.rule? location, ∀ reason,
      defect rule reason ↔ defect' rule reason) : tree.IsFirst defect' location reason where
  found := by
    obtain ⟨rule, hrule, hdefect⟩ := hfirst.found
    exact ⟨rule, hrule, (h location rule hrule reason).mp hdefect⟩
  earlier other hbefore rule hrule reason hdefect :=
    hfirst.earlier other hbefore rule hrule reason ((h other rule hrule reason).mpr hdefect)

section Items

variable {ι : Type} {items : List ι} {step : ι → Except Rule.Error α}
  {defect : ι → Rule.Reason → Prop} {group : Nat}
  (hstep : ∀ item error, step item = .error error ↔
    ∃ reason, error = .of reason ∧ defect item reason)

include hstep

theorem located_eq_error_iff {index : Nat} {item : ι} :
    located group index (step item) = .error error ↔
      ∃ reason, error = ⟨reason, some ⟨group, index⟩⟩ ∧ defect item reason := by
  simp only [located, Outcome.mapError_eq_error_iff, hstep]
  constructor
  · rintro ⟨_, ⟨reason, rfl, hdefect⟩, rfl⟩
    exact ⟨reason, rfl, hdefect⟩
  · rintro ⟨reason, rfl, hdefect⟩
    exact ⟨_, ⟨reason, rfl, hdefect⟩, rfl⟩

theorem located_ne_error_iff {index : Nat} {item : ι} :
    (∀ error, located group index (step item) ≠ .error error) ↔ ∀ reason, ¬defect item reason := by
  simp only [ne_eq, located_eq_error_iff hstep, not_exists, not_and]
  exact ⟨fun h reason => h _ reason rfl, fun h _ reason _ => h reason⟩

/-- The error of a step on the items of a group is located at the first item with a defect. -/
theorem each_located_eq_error_iff :
    Outcome.each (fun index item => located group index (step item)) 0 items = .error error ↔
      ∃ index reason, error = ⟨reason, some ⟨group, index⟩⟩ ∧
        (∃ item ∈ items[index]?, defect item reason) ∧
          ∀ earlier < index, ∀ item ∈ items[earlier]?, ∀ reason, ¬defect item reason := by
  simp only [Outcome.each_eq_error_iff, located_ne_error_iff hstep, located_eq_error_iff hstep,
    Nat.zero_add]
  constructor
  · rintro ⟨index, ⟨item, hitem, reason, rfl, hdefect⟩, hearlier⟩
    exact ⟨index, reason, rfl, ⟨item, hitem, hdefect⟩, hearlier⟩
  · rintro ⟨index, reason, rfl, ⟨item, hitem, hdefect⟩, hearlier⟩
    exact ⟨index, ⟨item, hitem, reason, rfl, hdefect⟩, hearlier⟩

/-- A step succeeds on the items of a group when none of them has a defect. -/
theorem each_located_ne_error_iff :
    (∀ error, Outcome.each (fun index item => located group index (step item)) 0 items ≠
        .error error) ↔
      ∀ index : Nat, ∀ item ∈ items[index]?, ∀ reason, ¬defect item reason := by
  rw [← Outcome.exists_ok_iff, Outcome.each_eq_ok_iff]
  simp only [Outcome.exists_ok_iff, located_ne_error_iff hstep]

end Items

variable {step : RuleRecord → Except Rule.Error α}
  (hstep : ∀ rule error, step rule = .error error ↔
    ∃ reason, error = .of reason ∧ defect rule reason)

include hstep

/-- A step succeeds on a group when no rule of it has a defect. -/
theorem scanGroup_ne_error_iff {group : Nat} {record : GroupRecord} :
    (∀ error, scanGroup step group record ≠ .error error) ↔
      ∀ index : Nat, ∀ rule ∈ record.rules[index]?, ∀ reason, ¬defect rule reason :=
  each_located_ne_error_iff hstep

/-- A step succeeds on a tree when no rule of it has a defect. -/
theorem scan_ne_error_iff :
    (∀ error, tree.scan step ≠ .error error) ↔
      ∀ location, ∀ rule ∈ tree.rule? location, ∀ reason, ¬defect rule reason := by
  rw [← Outcome.exists_ok_iff, scan, Outcome.each_eq_ok_iff]
  simp only [Outcome.exists_ok_iff, scanGroup_ne_error_iff hstep, mem_rule?_iff]
  constructor
  · rintro h ⟨g, r⟩ rule ⟨group, hgroup, hrule⟩
    exact h g group hgroup r rule hrule
  · exact fun h g group hgroup r rule hrule => h ⟨g, r⟩ rule ⟨group, hgroup, hrule⟩

/-- A step fails on a tree when some rule of it has a defect. -/
theorem exists_scan_eq_error_iff :
    (∃ error, tree.scan step = .error error) ↔
      ∃ location, ∃ rule ∈ tree.rule? location, ∃ reason, defect rule reason := by
  rw [← not_iff_not]
  simpa only [not_exists, not_and] using scan_ne_error_iff hstep

/-- **The error of a step is the one of the first rule with a defect**, at its location. -/
theorem scan_eq_error_iff :
    tree.scan step = .error error ↔
      ∃ location reason, error = ⟨reason, some location⟩ ∧ tree.IsFirst defect location reason := by
  rw [scan, Outcome.each_eq_error_iff]
  simp only [scanGroup_ne_error_iff hstep, Nat.zero_add]
  simp only [scanGroup, each_located_eq_error_iff hstep]
  constructor
  · rintro ⟨g, ⟨group, hgroup, r, reason, rfl, ⟨rule, hrule, hdefect⟩, hrules⟩, hgroups⟩
    refine ⟨⟨g, r⟩, reason, rfl,
      ⟨rule, (mem_rule?_iff tree).mpr ⟨group, hgroup, hrule⟩, hdefect⟩, ?_⟩
    rintro ⟨g', r'⟩ hbefore other hother
    obtain ⟨group', hgroup', hother⟩ := (mem_rule?_iff tree).mp hother
    obtain hlt | ⟨rfl, hlt⟩ := hbefore
    · exact hgroups g' hlt group' hgroup' r' other hother
    · obtain rfl := Option.some.inj (hgroup.symm.trans hgroup')
      exact hrules r' hlt other hother
  · rintro ⟨⟨g, r⟩, reason, rfl, ⟨rule, hrule, hdefect⟩, hearlier⟩
    obtain ⟨group, hgroup, hrule⟩ := (mem_rule?_iff tree).mp hrule
    refine ⟨g, ⟨group, hgroup, r, reason, rfl, ⟨rule, hrule, hdefect⟩, ?_⟩, ?_⟩
    · exact fun r' hlt other hother =>
        hearlier ⟨g, r'⟩ (.inr ⟨rfl, hlt⟩) other ((mem_rule?_iff tree).mpr ⟨group, hgroup, hother⟩)
    · exact fun g' hlt group' hgroup' r' other hother =>
        hearlier ⟨g', r'⟩ (.inl hlt) other ((mem_rule?_iff tree).mpr ⟨group', hgroup', hother⟩)

end TreeRecord

end PlaylistRules
