import PlaylistRules.Proofs.Query.Errors
import PlaylistRules.Proofs.Query.FirstDefect

/-!
# Locations of errors

An error that has a location points into the stored tree, at a rule of it, with one exception. The
scope rule of a user stands in every group after the rules of the group, and no such rule is stored.
When its path does not resolve on the base entity, and all rules of the first group that has any are
compiled, then the error is the one of the scope rule, and its location is the one after the last
rule of this group.

## Main definitions

* `RuleTree.FailsAtScope` : the scope rule is the first rule that is not compiled.
* `TreeRecord.IsEnd` : a location right after the last rule of a stored group.

## Main results

* `RuleTree.exists_record_of_mem` : a group of a tree comes from the stored group of its index.
* `RuleTree.FailsAt.own_or_scope` : a scoped tree fails at its own rules or at the scope rule.
* `Query.location_of_error` : the locations of errors.
* `Query.location_outside_tree` : the location of an error at which no rule is stored.
-/

namespace PlaylistRules

open Catalog (Schema Entity)

variable {schema : Schema} {base : String} {entity : Entity} {now : Calendar.Instant}
  {user : Int64} {tree : RuleTree} {group : RuleGroup} {rule : Rule} {reason : Rule.Reason}
  {place index : Nat}

/-- A rule is compiled when there is no reason against it. -/
theorem Rule.exists_compile_iff (hbase : schema.entity? base = some entity) :
    (∃ c, rule.compile schema base now = .ok c) ↔
      ∀ reason, ¬rule.Uncompiled schema entity now reason := by
  rw [Outcome.exists_ok_iff]
  simp only [ne_eq, Rule.compile_eq_error_iff hbase, not_exists, not_and]
  exact ⟨fun h reason => h _ reason rfl, fun h _ reason _ => h reason⟩

/-- The scope rule is not compiled exactly when its path does not resolve. -/
theorem Rule.uncompiled_scope_iff (hbase : schema.entity? base = some entity) :
    (Rule.scope user).Uncompiled schema entity now reason ↔
      ∃ fault, schema.resolve base Rule.scopeField = .error fault ∧ reason = .unresolved fault := by
  simp only [Schema.resolve_eq_error_iff hbase]
  constructor
  · rintro (hfault | ⟨-, hcoerce, -⟩)
    · exact ⟨_, hfault, rfl⟩
    · cases hcoerce
  · rintro ⟨fault, hfault, rfl⟩
    exact .unresolved hfault

/-- A group of a tree that is stored comes from the group with its index, and has as many rules. -/
theorem RuleTree.exists_record_of_mem {record : TreeRecord}
    (h : RuleTree.ofRecord record = .ok tree) (hgroup : group ∈ tree.groups) :
    ∃ index, ∃ source ∈ record.groups[index]?, group.sourceIndex = some index ∧
      group.rules.length = source.rules.length := by
  obtain ⟨groups, hgroups, rfl⟩ := ofRecord_eq_ok_iff.mp h
  have hmem : group ∈ groups := List.mem_of_mem_filter hgroup
  obtain ⟨index, source, hsource, hstep⟩ := Outcome.exists_of_mem_each hgroups hmem
  rw [Nat.zero_add] at hstep
  exact ⟨index, source, hsource, RuleGroup.index_and_length_of_ofRecord hstep⟩

/-! ### Scoped trees -/

namespace RuleTree

/-- All rules of the first group are compiled on a base entity, but the path of the scope rule does
not resolve. -/
structure FailsAtScope (schema : Schema) (base : String) (now : Calendar.Instant) (tree : RuleTree)
    (group : RuleGroup) (fault : Catalog.Fault) : Prop where
  first : tree.groups[0]? = some group
  compiled : ∀ rule ∈ group.rules, ∃ c, rule.compile schema base now = .ok c
  unresolved : schema.resolve base Rule.scopeField = .error fault

theorem getElem?_groups_scopedTo :
    (tree.scopedTo user).groups[place]? =
      tree.groups[place]?.map fun group => group.withRule (Rule.scope user) := by
  rw [groups_scopedTo, List.getElem?_map]

/-- When the path of the scope rule does not resolve, a scoped tree fails in its first group. -/
theorem FailsAt.place_eq_zero (hbase : schema.entity? base = some entity) {fault : Catalog.Fault}
    (hfault : schema.resolve base Rule.scopeField = .error fault)
    (h : (tree.scopedTo user).FailsAt schema entity now place index group rule reason) :
    place = 0 := by
  have hgroup := h.group_at
  rw [getElem?_groups_scopedTo, Option.map_eq_some_iff] at hgroup
  obtain ⟨own, hown, -⟩ := hgroup
  obtain ⟨first, hfirst⟩ : ∃ first, tree.groups[0]? = some first :=
    ⟨_, List.getElem?_eq_getElem (Nat.zero_lt_of_lt (List.getElem?_eq_some_iff.mp hown).1)⟩
  have hscoped : (tree.scopedTo user).groups[0]? = some (first.withRule (Rule.scope user)) := by
    rw [getElem?_groups_scopedTo, hfirst, Option.map_some]
  by_contra hne
  exact h.groups_before 0 (Nat.pos_of_ne_zero hne) _ hscoped first.rules.length _
    List.getElem?_concat_length _ ((Rule.uncompiled_scope_iff hbase).mpr ⟨fault, hfault, rfl⟩)

/-- **A scoped tree fails at one of its own rules, or at the scope rule of its first group.** -/
theorem FailsAt.own_or_scope (hbase : schema.entity? base = some entity)
    (h : (tree.scopedTo user).FailsAt schema entity now place index group rule reason) :
    ∃ own, tree.groups[place]? = some own ∧ group.sourceIndex = own.sourceIndex ∧
      (index < own.rules.length ∨ index = own.rules.length ∧
        ∃ fault, tree.FailsAtScope schema base now own fault ∧ reason = .unresolved fault) := by
  have hgroup := h.group_at
  rw [getElem?_groups_scopedTo, Option.map_eq_some_iff] at hgroup
  obtain ⟨own, hown, rfl⟩ := hgroup
  refine ⟨own, hown, rfl, ?_⟩
  have hlt : index < (own.rules ++ [Rule.scope user]).length :=
    (List.getElem?_eq_some_iff.mp h.rule_at).1
  rw [List.length_append, List.length_singleton] at hlt
  refine (Nat.lt_or_eq_of_le (Nat.le_of_lt_succ hlt)).imp_right ?_
  rintro rfl
  have hrule : rule = Rule.scope user :=
    (Option.some.inj (List.getElem?_concat_length.symm.trans h.rule_at)).symm
  obtain ⟨fault, hfault, rfl⟩ := (Rule.uncompiled_scope_iff hbase).mp (hrule ▸ h.uncompiled)
  have hfirst : tree.groups[0]? = some own := h.place_eq_zero hbase hfault ▸ hown
  refine ⟨rfl, fault, ⟨hfirst, fun earlier_rule hmem => ?_, hfault⟩, rfl⟩
  obtain ⟨earlier, hearlier⟩ := List.mem_iff_getElem?.mp hmem
  have hbefore : earlier < own.rules.length := (List.getElem?_eq_some_iff.mp hearlier).1
  refine (Rule.exists_compile_iff hbase).mpr (h.rules_before earlier hbefore earlier_rule ?_)
  exact (List.getElem?_append_left hbefore).trans hearlier

/-- The error of a scope rule is located after the last rule of the first group. -/
theorem compile_scopedTo_of_failsAtScope {fault : Catalog.Fault}
    (h : tree.FailsAtScope schema base now group fault) :
    (tree.scopedTo user).compile schema base now =
      .error ⟨.unresolved fault, some ⟨group.sourceIndex.getD 0, group.rules.length⟩⟩ := by
  have hmem : group ∈ tree.groups := List.mem_of_getElem? h.first
  have hentity : ∃ entity, schema.entity? base = some entity := by
    obtain ⟨rule, hrule⟩ := List.exists_mem_of_ne_nil _ (tree.groups_nonempty group hmem)
    obtain ⟨c, hc⟩ := h.compiled rule hrule
    obtain ⟨field, hfield, -⟩ := Rule.compile_eq_ok_iff.mp hc
    obtain ⟨entity, hentity, -⟩ := Outcome.bind_eq_ok_iff.mp hfield
    exact ⟨entity, Schema.requireEntity_eq_ok_iff.mp hentity⟩
  obtain ⟨entity, hbase⟩ := hentity
  refine (compile_eq_error_iff_failsAt hbase).mpr
    ⟨0, group.rules.length, group.withRule (Rule.scope user), Rule.scope user, _, ?_, rfl⟩
  refine ⟨?_, List.getElem?_concat_length,
    (Rule.uncompiled_scope_iff hbase).mpr ⟨fault, h.unresolved, rfl⟩, ?_,
    fun earlier hearlier => absurd hearlier (Nat.not_lt_zero earlier)⟩
  · rw [getElem?_groups_scopedTo, h.first, Option.map_some]
  · intro earlier hearlier rule hrule
    have hrule' : group.rules[earlier]? = some rule :=
      (List.getElem?_append_left hearlier).symm.trans hrule
    exact (Rule.exists_compile_iff hbase).mp (h.compiled rule (List.mem_of_getElem? hrule'))

end RuleTree

/-! ### Stored trees -/

/-- A location right after the last rule of a stored group. -/
def TreeRecord.IsEnd (record : TreeRecord) (location : Rule.Location) : Prop :=
  ∃ source ∈ record.groups[location.group]?, location.rule = source.rules.length

theorem TreeRecord.rule?_eq_none_of_isEnd {record : TreeRecord} {location : Rule.Location}
    (h : record.IsEnd location) : record.rule? location = none := by
  obtain ⟨source, hsource, hrule⟩ := h
  rw [rule?, hsource, Option.bind_some, hrule, List.getElem?_length]

section Taken

variable {record : TreeRecord} (h : RuleTree.ofRecord record = .ok tree)
  (hgroup : group ∈ tree.groups)

include h hgroup

/-- The rules of a tree that is stored are those of its text. -/
theorem RuleTree.exists_rule_of_lt (hindex : index < group.rules.length) :
    ∃ rule, record.rule? ⟨group.sourceIndex.getD place, index⟩ = some rule := by
  obtain ⟨k, source, hsource, hk, hlength⟩ := exists_record_of_mem h hgroup
  rw [hk, Option.getD_some, TreeRecord.rule?, hsource, Option.bind_some]
  exact ⟨_, List.getElem?_eq_getElem (hlength ▸ hindex)⟩

/-- The location after the last rule of a group has no stored rule. -/
theorem RuleTree.isEnd_length :
    record.IsEnd ⟨group.sourceIndex.getD place, group.rules.length⟩ := by
  obtain ⟨k, source, hsource, hk, hlength⟩ := exists_record_of_mem h hgroup
  rw [hk, Option.getD_some]
  exact ⟨source, hsource, hlength⟩

end Taken

namespace Query

variable {text : String} {error : Rule.Error} {location : Rule.Location}

/-- A text with an error that has a location can be read. -/
theorem exists_record_of_location {user : Option Int64}
    (h : Query.ofText schema base now user text = .error error)
    (hlocation : error.location = some location) :
    ∃ record, TreeRecord.parse text = .ok record := by
  cases hparse : TreeRecord.parse text with
  | ok record => exact ⟨record, rfl⟩
  | error fault =>
    rw [Query.ofText, RuleTree.parse_eq_malformed hparse] at h
    obtain rfl := Except.error.inj h
    cases hlocation

/-- An error of the first pass is located at a stored rule. -/
theorem exists_rule_of_ofRecord {record : TreeRecord}
    (h : RuleTree.ofRecord record = .error error) (hlocation : error.location = some location) :
    ∃ rule, record.rule? location = some rule := by
  rw [RuleTree.ofRecord_eq_error_iff,
    TreeRecord.scan_eq_error_iff fun _ _ => Rule.ofRecord_eq_error_iff] at h
  obtain ⟨_, reason, rfl, hfirst⟩ := h
  obtain rfl := Option.some.inj hlocation
  exact hfirst.found.imp fun _ hrule => hrule.1

/-- An error of the second pass is located at a stored rule, or it is the one of the scope rule. -/
theorem location_of_compile {user : Option Int64} {record : TreeRecord}
    (htree : RuleTree.ofRecord record = .ok tree)
    (h : (tree.forUser user).compile schema base now = .error error)
    (hlocation : error.location = some location) :
    (∃ rule, record.rule? location = some rule) ∨
      record.IsEnd location ∧ user.isSome ∧ ∃ group fault,
        tree.FailsAtScope schema base now group fault ∧ error.reason = .unresolved fault := by
  cases hbase : schema.entity? base with
  | none =>
    rw [RuleTree.compile_eq_error_of_entity?_eq_none hbase] at h
    obtain rfl := Except.error.inj h
    cases hlocation
  | some entity =>
    obtain ⟨place, index, group, rule, reason, hfails, rfl⟩ :=
      (RuleTree.compile_eq_error_iff_failsAt hbase).mp h
    obtain rfl := Option.some.inj hlocation
    cases user with
    | none =>
      have hindex : index < group.rules.length := (List.getElem?_eq_some_iff.mp hfails.rule_at).1
      exact .inl (RuleTree.exists_rule_of_lt htree (List.mem_of_getElem? hfails.group_at) hindex)
    | some id =>
      obtain ⟨own, hown, hsource, hindex | ⟨rfl, fault, hscope, rfl⟩⟩ := hfails.own_or_scope hbase
      · rw [hsource]
        exact .inl (RuleTree.exists_rule_of_lt htree (List.mem_of_getElem? hown) hindex)
      · rw [hsource]
        exact .inr ⟨RuleTree.isEnd_length htree (List.mem_of_getElem? hown), rfl, own, fault,
          hscope, rfl⟩

/-- **An error is located at a stored rule, unless it is the one of the scope rule.** The location
of that error is the one after the last rule of the first group that has rules. This happens exactly
when the tree is taken, a user is given, the path of the scope rule does not resolve on the base
entity, and all rules of that group are compiled. -/
theorem location_of_error (schema : Schema) (base : String) (now : Calendar.Instant)
    (user : Option Int64) (text : String) :
    (∀ error location, Query.ofText schema base now user text = .error error →
      error.location = some location →
      ∃ record, TreeRecord.parse text = .ok record ∧
        ((∃ rule, record.rule? location = some rule) ∨
          record.IsEnd location ∧ user.isSome ∧ ∃ tree group fault,
            RuleTree.ofRecord record = .ok tree ∧
              tree.FailsAtScope schema base now group fault ∧ error.reason = .unresolved fault)) ∧
    ∀ record tree group fault, TreeRecord.parse text = .ok record →
      RuleTree.ofRecord record = .ok tree → tree.FailsAtScope schema base now group fault →
      user.isSome →
        ∃ location, Query.ofText schema base now user text =
            .error ⟨.unresolved fault, some location⟩ ∧
          record.IsEnd location ∧ record.rule? location = none := by
  constructor
  · intro error location h hlocation
    obtain ⟨record, hparse⟩ := exists_record_of_location h hlocation
    refine ⟨record, hparse, ?_⟩
    rw [ofText_eq_ofRecord hparse] at h
    obtain htaken | ⟨tree, htree, hcompile⟩ := Outcome.bind_eq_error_iff.mp h
    · exact .inl (exists_rule_of_ofRecord htaken hlocation)
    · refine (location_of_compile htree hcompile hlocation).imp_right ?_
      rintro ⟨hend, huser, group, fault, hscope, hreason⟩
      exact ⟨hend, huser, tree, group, fault, htree, hscope, hreason⟩
  · intro record tree group fault hparse htree hscope huser
    obtain ⟨id, rfl⟩ := Option.isSome_iff_exists.mp huser
    have hend : record.IsEnd ⟨group.sourceIndex.getD 0, group.rules.length⟩ :=
      RuleTree.isEnd_length htree (List.mem_of_getElem? hscope.first)
    refine ⟨_, ?_, hend, TreeRecord.rule?_eq_none_of_isEnd hend⟩
    rw [ofText_eq_ofRecord hparse, Query.ofRecord, htree, Outcome.ok_bind]
    exact RuleTree.compile_scopedTo_of_failsAtScope hscope

/-! ### Artists -/

/-- The reference instant of the examples on artists. -/
def july : Calendar.Instant :=
  .midnight ⟨2018, 7, 15, by decide, by decide, by decide⟩

/-- A text with one rule, on the names of artists. -/
def namedFoo : String := "[[[[\"name\",\"is\",[\"Foo\"]]]]]"

theorem exists_record_namedFoo :
    ∃ record, TreeRecord.parse namedFoo = .ok record ∧ record.rule? ⟨0, 1⟩ = none := by
  have hnone : (TreeRecord.parse namedFoo).map (fun record => record.rule? ⟨0, 1⟩ |>.isNone) =
      .ok true := by decide +kernel
  obtain ⟨record, hparse, hnone⟩ := Outcome.map_eq_ok_iff.mp hnone
  exact ⟨record, hparse, Option.isNone_iff_eq_none.mp hnone⟩

/-- Artists have no interactions, so that the scope rule is refused on them. -/
theorem ofText_namedFoo :
    Query.ofText Catalog.library "artists" july (some 3) namedFoo =
      .error ⟨.unresolved (.unknownRelation "artists" "interactions"), some ⟨0, 1⟩⟩ := by
  decide +kernel

/-- The scope rule fails on artists, after a rule that is compiled. -/
theorem location_of_error_artists :
    ∃ record tree group fault location, TreeRecord.parse namedFoo = .ok record ∧
      RuleTree.ofRecord record = .ok tree ∧
      tree.FailsAtScope Catalog.library "artists" july group fault ∧
      Query.ofText Catalog.library "artists" july (some 3) namedFoo =
        .error ⟨.unresolved fault, some location⟩ ∧ record.IsEnd location := by
  have hlocation := location_of_error Catalog.library "artists" july (some 3) namedFoo
  obtain ⟨record, hparse, ⟨rule, hrule⟩ | ⟨-, -, tree, group, fault, htree, hscope, -⟩⟩ :=
    hlocation.1 _ _ ofText_namedFoo rfl
  · obtain ⟨other, hother, hnone⟩ := exists_record_namedFoo
    obtain rfl := Except.ok.inj (hother.symm.trans hparse)
    rw [hnone] at hrule
    cases hrule
  · obtain ⟨location, htext, hend, -⟩ := hlocation.2 record tree group fault hparse htree hscope rfl
    exact ⟨record, tree, group, fault, location, hparse, htree, hscope, htext, hend⟩

/-- **The scope rule is located where no rule is stored.** The only rule of the text is compiled. -/
theorem location_outside_tree :
    ∃ record error location, TreeRecord.parse namedFoo = .ok record ∧
      Query.ofText Catalog.library "artists" july (some 3) namedFoo = .error error ∧
      error.location = some location ∧ record.rule? location = none := by
  obtain ⟨record, hparse, hnone⟩ := exists_record_namedFoo
  exact ⟨record, _, _, hparse, ofText_namedFoo, rfl, hnone⟩

end Query

end PlaylistRules
