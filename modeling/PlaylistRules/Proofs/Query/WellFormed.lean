import PlaylistRules.Proofs.Query.Errors
import PlaylistRules.Proofs.Query.FirstDefect
import PlaylistRules.Proofs.Query.Parentheses

/-!
# Well-formed trees

A rule is made only with as many values as its operator takes, and a tree only of groups that have
rules. Compiling relies on both: it fails only for names that are missing and for values that cannot
be bound, always at a rule of the tree, and every group puts at least one condition between its
parentheses. The predicate that no row satisfies is left for the tree without groups.

## Main results

* `Rule.of_eq_ok_iff`, `Rule.ofRecord_eq_ok_iff` : the rules that are made and taken.
* `Rule.length_of_ofRecord` : the number of values of a rule.
* `RuleTree.mem_groups_ofGroups_iff`, `RuleTree.map_length_of_ofRecord` : the groups of a tree are
  those that have rules.
* `RuleTree.isNever_iff` : the query that selects no row is the one of the tree without groups.
* `RuleTree.well_formed` : what this means for compiling.
-/

namespace PlaylistRules

open Catalog (Schema Entity)
open Query (HasNoEmptyPair)

variable {schema : Schema} {base : String} {entity : Entity} {now : Calendar.Instant}

/-- No row satisfies that zero is one. -/
theorem Query.isNever_iff_predicate_eq {query : Query} :
    query.isNever ↔ query.predicate = "0 = 1" := by
  rw [isNever, beq_iff_eq, neverText]

/-! ### Rules and groups -/

namespace Rule

theorem of_eq_ok_iff {field : String} {operator : Operator} {values : List Scalar} {rule : Rule} :
    Rule.of field operator values = .ok rule ↔
      rule.field = field ∧ rule.operator = operator ∧ rule.values = values := by
  unfold Rule.of
  split
  · constructor
    · intro h
      obtain rfl := Except.ok.inj h
      exact ⟨rfl, rfl, rfl⟩
    · rintro ⟨rfl, rfl, rfl⟩
      rfl
  · next hlength =>
    constructor
    · intro h
      cases h
    · rintro ⟨rfl, rfl, rfl⟩
      exact absurd rule.values_length hlength

/-- A rule is made of a field, an operator and values when their number is right. -/
theorem exists_of_eq_ok_iff {field : String} {operator : Operator} {values : List Scalar} :
    (∃ rule, Rule.of field operator values = .ok rule ∧ rule.values = values) ↔
      values.length = operator.arity := by
  simp only [of_eq_ok_iff]
  constructor
  · rintro ⟨rule, ⟨-, rfl, rfl⟩, -⟩
    exact rule.values_length
  · exact fun hlength => ⟨⟨field, operator, values, hlength⟩, ⟨rfl, rfl, rfl⟩, rfl⟩

/-- A rule is taken from a record with its field, its operator and its values. -/
theorem ofRecord_eq_ok_iff {record : RuleRecord} {rule : Rule} :
    Rule.ofRecord record = .ok rule ↔
      rule.field = record.model ∧ rule.operator.name = record.operator ∧
        Outcome.each (fun _ => Scalar.ofJson) 0 record.values = .ok rule.values := by
  simp only [Rule.ofRecord, Outcome.bind_eq_ok_iff, Operator.lookup_eq_ok_iff, of_eq_ok_iff,
    Outcome.mapM_eq_each 0]
  constructor
  · rintro ⟨operator, hname, values, hvalues, hfield, rfl, rfl⟩
    exact ⟨hfield, hname, hvalues⟩
  · rintro ⟨hfield, hname, hvalues⟩
    exact ⟨rule.operator, hname, rule.values, hvalues, hfield, rfl, rfl⟩

/-- A rule is taken from a record only when the record has as many values as the operator takes. -/
theorem length_of_ofRecord {record : RuleRecord} {rule : Rule}
    (h : Rule.ofRecord record = .ok rule) : record.values.length = rule.operator.arity := by
  obtain ⟨-, -, hvalues⟩ := ofRecord_eq_ok_iff.mp h
  rw [← rule.values_length, Outcome.length_of_each hvalues]

end Rule

namespace RuleTree

theorem mem_groups_ofGroups_iff {groups : List RuleGroup} {group : RuleGroup} :
    group ∈ (ofGroups groups).groups ↔ group ∈ groups ∧ group.rules ≠ [] := by
  simp [ofGroups, RuleGroup.isEmpty]

variable {tree : RuleTree} {query : Query}

/-- The groups of a stored tree keep all their rules, and those without rules are left out. -/
theorem map_length_of_ofRecord {record : TreeRecord} (h : ofRecord record = .ok tree) :
    tree.groups.map (fun group => group.rules.length) =
      (record.groups.map fun group => group.rules.length).filter (0 < ·) := by
  obtain ⟨groups, hgroups, rfl⟩ := ofRecord_eq_ok_iff.mp h
  have hlength : ∀ (index : Nat) (source : GroupRecord) (group : RuleGroup),
      RuleGroup.ofRecord index source = .ok group →
        group.rules.length = source.rules.length := fun _ _ _ hgroup =>
    (RuleGroup.index_and_length_of_ofRecord hgroup).2
  have hlengths : groups.map (fun group => group.rules.length) =
      record.groups.map fun group => group.rules.length :=
    Outcome.map_eq_of_each hlength hgroups
  rw [← hlengths, List.filter_map]
  refine congrArg _ (List.filter_congr fun group _ => ?_)
  cases hrules : group.rules <;> simp [RuleGroup.isEmpty, hrules]

/-- Every group of a scoped tree has one more rule. -/
theorem map_length_scopedTo {user : Int64} :
    (tree.scopedTo user).groups.map (fun group => group.rules.length) =
      tree.groups.map fun group => group.rules.length + 1 := by
  rw [groups_scopedTo, List.map_map]
  exact List.map_congr_left fun group _ => List.length_append

/-! ### Compiled trees -/

/-- The predicate that no row satisfies is the one of the tree without groups. -/
theorem isNever_iff (h : tree.compile schema base now = .ok query) :
    query.isNever ↔ tree.groups = [] := by
  obtain ⟨-, compiled, hcompiled, rfl⟩ := compile_eq_ok_iff.mp h
  have hproper := isProper_predicate hcompiled
  have hempty : compiled = [] ↔ tree.groups = [] := by
    rw [← List.length_eq_zero_iff, ← hcompiled.length_eq, List.length_eq_zero_iff]
  rw [Query.isNever, beq_iff_eq, ← hempty]
  constructor
  · intro htext
    have hnever : predicate compiled = .never :=
      Query.Predicate.text_inj hproper trivial htext
    unfold predicate at hnever
    split at hnever
    · next hnil => exact List.isEmpty_iff.mp hnil
    · cases hnever
  · rintro rfl
    rfl

theorem bindings_eq_nil (h : tree.compile schema base now = .ok query)
    (hgroups : tree.groups = []) : query.bindings = [] := by
  obtain ⟨-, compiled, hcompiled, rfl⟩ := compile_eq_ok_iff.mp h
  rw [hgroups, Compiled, List.forall₂_nil_left_iff] at hcompiled
  rw [hcompiled]
  rfl

/-- **Trees are well formed by construction.** A rule is made, or taken from a record, only with as
many values as its operator takes. A tree is made of those of its groups that have rules, with all
their rules, and every group gets one more when the tree is scoped to a user. On a base entity that
exists, compiling a tree therefore fails only for a name that is missing or a value that cannot be
bound, at the location of a rule of the tree. No group of a predicate is empty, and the predicate is
the one that no row satisfies, that zero is one, without bound values, exactly when the tree has no
groups. -/
theorem well_formed (hbase : schema.entity? base = some entity) (now : Calendar.Instant)
    (tree : RuleTree) :
    (∀ field operator values,
      (∃ rule, Rule.of field operator values = .ok rule ∧ rule.values = values) ↔
        values.length = operator.arity) ∧
    (∀ record rule, Rule.ofRecord record = .ok rule →
      record.values.length = rule.operator.arity) ∧
    (∀ groups group, group ∈ (ofGroups groups).groups ↔ group ∈ groups ∧ group.rules ≠ []) ∧
    (∀ record, ofRecord record = .ok tree → tree.groups.map (fun group => group.rules.length) =
      (record.groups.map fun group => group.rules.length).filter (0 < ·)) ∧
    (∀ user, (tree.scopedTo user).groups.map (fun group => group.rules.length) =
      tree.groups.map fun group => group.rules.length + 1) ∧
    (∀ group ∈ tree.groups, group.rules ≠ [] ∧
      ∀ rule ∈ group.rules, rule.values.length = rule.operator.arity) ∧
    (∀ error, tree.compile schema base now = .error error →
      error.kind ∈ [Rule.ErrorKind.unknownRelation, .unknownColumn, .unknownEntity,
        .invalidValue] ∧
      ∃ (place index : Nat) (group : RuleGroup) (rule : Rule),
        tree.groups[place]? = some group ∧ group.rules[index]? = some rule ∧
          error.location = some ⟨group.sourceIndex.getD place, index⟩) ∧
    ∀ query, tree.compile schema base now = .ok query →
      HasNoEmptyPair query.predicate.toList ∧
        (query.isNever ↔ query.predicate = "0 = 1") ∧
        (query.isNever ∧ query.bindings = [] ↔ tree.groups = []) := by
  refine ⟨fun _ _ _ => Rule.exists_of_eq_ok_iff, fun _ _ => Rule.length_of_ofRecord,
    fun _ _ => mem_groups_ofGroups_iff, fun _ => map_length_of_ofRecord,
    fun _ => map_length_scopedTo, fun group hgroup => ?_, fun error herror => ?_,
    fun query hquery => ?_⟩
  · exact ⟨tree.groups_nonempty group hgroup, fun rule _ => rule.values_length⟩
  · obtain ⟨place, index, group, rule, reason, hfails, rfl⟩ :=
      (compile_eq_error_iff_failsAt hbase).mp herror
    exact ⟨hfails.uncompiled.kind_mem, place, index, group, rule, hfails.group_at, hfails.rule_at,
      rfl⟩
  · refine ⟨?_, Query.isNever_iff_predicate_eq, fun h => (isNever_iff hquery).mp h.1,
      fun hgroups => ⟨(isNever_iff hquery).mpr hgroups, bindings_eq_nil hquery hgroups⟩⟩
    obtain ⟨-, compiled, hcompiled, rfl⟩ := compile_eq_ok_iff.mp hquery
    exact (Query.filled_predicate (isProper_predicate hcompiled)).hasNoEmptyPair

/-- An empty pair of parentheses in the name of a column is no empty group. -/
theorem well_formed_awkward_name :
    let schema := (Schema.empty 1).withEntity ⟨"t", "()", [.required "()" .int]⟩
    let now : Calendar.Instant := .midnight ⟨2018, 7, 15, by decide, by decide, by decide⟩
    let tree : RuleTree := .ofGroups [.ofRules [], .ofRules [.has "()" (.int 1)]]
    let query : Query := ⟨"t", "(\"()\" = ?)", [.int 1]⟩
    tree.compile schema "t" now = .ok query ∧ HasNoEmptyPair query.predicate.toList ∧
      ¬(query.isNever ∧ query.bindings = []) := by
  intro schema now tree query
  have hbase : schema.entity? "t" = some ⟨"t", "()", [.required "()" .int]⟩ := rfl
  have hcompile : tree.compile schema "t" now = .ok query := rfl
  obtain ⟨-, -, -, -, -, -, -, hsuccess⟩ := well_formed hbase now tree
  obtain ⟨hpair, -, hnever⟩ := hsuccess query hcompile
  exact ⟨hcompile, hpair, mt hnever.mp (List.cons_ne_nil _ _)⟩

end RuleTree

end PlaylistRules
