import PlaylistRules.Proofs.Record.Locations
import PlaylistRules.Proofs.Rule.Defects

/-!
# Errors of trees

A tree is compiled group by group, and in each group rule by rule, up to the first rule that cannot
be compiled. This holds of all trees, whether they were read from a text or built in another way.
The error is located in the group by the index with which the group was written, and by its place in
the tree if it has none.

## Main definitions

* `RuleTree.FailsAt` : the first rule of a tree that is not compiled.

## Main results

* `RuleTree.compile_eq_error_iff_failsAt` : the error of a tree is the one of this rule.
* `RuleTree.compile_eq_error_of_entity?_eq_none` : the error of a base entity that does not exist.
-/

namespace PlaylistRules

open Catalog (Schema Entity)
open TreeRecord (located each_located_eq_error_iff each_located_ne_error_iff)

variable {schema : Schema} {base : String} {entity : Entity} {now : Calendar.Instant}
  {error : Rule.Error} {place : Nat}

theorem RuleGroup.compile_eq_each {group : RuleGroup} :
    group.compile schema base now place = Outcome.each (fun index rule =>
      located (group.sourceIndex.getD place) index (rule.compile schema base now)) 0
        group.rules := by
  have heach : ∀ (source index : Nat) (rules : List Rule),
      compileRules schema base now source index rules = Outcome.each (fun index rule =>
        located source index (rule.compile schema base now)) index rules := by
    intro source index rules
    induction rules generalizing index with
    | nil => rfl
    | cons rule rules ih =>
      rw [compileRules, Outcome.each, ih]
      cases rule.compile schema base now <;> rfl
  exact heach _ _ _

namespace RuleTree

theorem compileGroups_eq_each {groups : List RuleGroup} :
    compileGroups schema base now place groups =
      Outcome.each (fun place group => group.compile schema base now place) place groups := by
  induction groups generalizing place with
  | nil => rfl
  | cons group groups ih => rw [compileGroups, Outcome.each, ih]

/-- The rule at an index of the group at a place is not compiled, for a reason, and all rules before
it are compiled. -/
structure FailsAt (schema : Schema) (entity : Entity) (now : Calendar.Instant) (tree : RuleTree)
    (place index : Nat) (group : RuleGroup) (rule : Rule) (reason : Rule.Reason) : Prop where
  group_at : tree.groups[place]? = some group
  rule_at : group.rules[index]? = some rule
  uncompiled : rule.Uncompiled schema entity now reason
  rules_before : ∀ earlier < index, ∀ other ∈ group.rules[earlier]?, ∀ reason,
    ¬other.Uncompiled schema entity now reason
  groups_before : ∀ earlier < place, ∀ other ∈ tree.groups[earlier]?, ∀ index : Nat,
    ∀ rule ∈ other.rules[index]?, ∀ reason, ¬rule.Uncompiled schema entity now reason

variable {tree : RuleTree}

/-- **The error of a tree is the one of the first rule that is not compiled**, in the group by its
index. -/
theorem compile_eq_error_iff_failsAt (hbase : schema.entity? base = some entity) :
    tree.compile schema base now = .error error ↔
      ∃ place index group rule reason,
        tree.FailsAt schema entity now place index group rule reason ∧
          error = ⟨reason, some ⟨group.sourceIndex.getD place, index⟩⟩ := by
  have hrule : ∀ (rule : Rule) error, rule.compile schema base now = .error error ↔
      ∃ reason, error = .of reason ∧ rule.Uncompiled schema entity now reason :=
    fun _ _ => Rule.compile_eq_error_iff hbase
  unfold RuleTree.compile
  rw [Schema.requireEntity_eq_ok_iff.mpr hbase]
  dsimp only
  rw [Schema.name_of_entity? hbase, Outcome.bind_pure_eq_error_iff, compileGroups_eq_each,
    Outcome.each_eq_error_iff]
  simp only [RuleGroup.compile_eq_each, Nat.zero_add, each_located_eq_error_iff hrule,
    each_located_ne_error_iff hrule]
  constructor
  · rintro ⟨place, ⟨group, hgroup, index, reason, rfl, ⟨rule, hat, huncompiled⟩, hrules⟩, hgroups⟩
    exact ⟨place, index, group, rule, reason, ⟨hgroup, hat, huncompiled, hrules, hgroups⟩, rfl⟩
  · rintro ⟨place, index, group, rule, reason, hfails, rfl⟩
    exact ⟨place, ⟨group, hfails.group_at, index, reason, rfl,
      ⟨rule, hfails.rule_at, hfails.uncompiled⟩, hfails.rules_before⟩, hfails.groups_before⟩

/-- The error of a base entity that does not exist has no location. -/
theorem compile_eq_error_of_entity?_eq_none (hbase : schema.entity? base = none) :
    tree.compile schema base now = .error (.of (.unresolved (.unknownEntity base))) := by
  unfold RuleTree.compile Schema.requireEntity
  rw [hbase]

end RuleTree

end PlaylistRules
