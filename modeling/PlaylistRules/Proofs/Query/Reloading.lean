import PlaylistRules.Proofs.Query.Locations
import PlaylistRules.Proofs.Query.Noninterference
import PlaylistRules.Proofs.Rule.Records
import PlaylistRules.Store.Value

/-!
# Trees that are stored and read again

A tree is turned into its record and taken from it again. Rules keep their fields, operators and
values, but an instant becomes the text in which it is shown, and groups get the indices that they
have in the record. The tree is compiled to the same text as before, and it binds what a table keeps
as the same values. A tree that was taken from a record, scoped to a user or not, has no instants.

## Main definitions

* `Scalar.IsFinite` : the scalars that a record can hold.
* `RuleTree.mapValues` : a tree with a function applied to its values.
* `RuleTree.shown` : a tree with its instants as texts.
* `RuleTree.numbered` : a tree whose groups have their places as indices.
* `RuleTree.IsStored` : trees that were taken from a record, scoped to users or not.
* `Query.SameInTable` : queries with the same text and the same values of a table.

## Main results

* `Rule.ofRecord_toRecord`, `RuleTree.ofRecord_toRecord` : rules and trees that are read again.
* `Rule.Operator.coerce_shown` : operators bind the same values of a table for instants as texts.
* `RuleTree.compile_shown`, `RuleTree.compile_numbered` : the queries of such trees.
* `RuleTree.IsStored.allScalars` : the values of stored trees.
* `RuleTree.reloaded_keeps_meaning` : what this means for trees that are read again.
-/

namespace PlaylistRules

open Catalog (Schema)
open Query (Condition)
open Store (Value)

/-! ### Values -/

namespace Scalar

/-- A record can hold every scalar but infinite numbers and NaN. -/
def IsFinite : Scalar → Prop
  | float value => value.isFinite = true
  | _ => True

/-- An instant as the text in which it is shown; other scalars stay. -/
def shown : Scalar → Scalar
  | instant value => text value.display
  | value => value

/-- A scalar is taken again from its JSON value, an instant as a text. -/
theorem ofJson_toJson {value : Scalar} (h : value.IsFinite) :
    ofJson value.toJson = .ok value.shown := by
  cases value with
  | null | bool | text | instant => rfl
  | int value =>
    rw [toJson, Json.ofInt64, ofJson, Number.toInt64?_toInt]
    rfl
  | float value =>
    have hjson : Json.ofBinary64 value = .number (.float value h) := dif_pos h
    rw [toJson, hjson]
    rfl

/-- A table keeps an instant as its text. -/
theorem ofScalar_shown (value : Scalar) : Value.ofScalar value.shown = Value.ofScalar value := by
  cases value <;> rfl

/-- A scalar that was taken from a JSON value is no instant, and a record can hold it. -/
theorem isFinite_and_shown_of_ofJson {json : Json} {value : Scalar} (h : ofJson json = .ok value) :
    value.IsFinite ∧ value.shown = value := by
  cases json with
  | null | bool | string =>
    cases h
    exact ⟨trivial, rfl⟩
  | array | object => cases h
  | number number =>
    cases number with
    | float f hfinite =>
      cases h
      exact ⟨hfinite, rfl⟩
    | integer i lower upper =>
      rw [ofJson] at h
      split at h
      · obtain rfl := Except.ok.inj h
        exact ⟨trivial, rfl⟩
      · obtain rfl := Except.ok.inj h
        exact ⟨Binary64.isFinite_ofInt (by omega), rfl⟩

end Scalar

/-! ### Trees that are read again -/

/-- The rule with a function applied to its values. -/
def Rule.mapValues (f : Scalar → Scalar) (rule : Rule) : Rule where
  field := rule.field
  operator := rule.operator
  values := rule.values.map f
  values_length := by rw [List.length_map, rule.values_length]

/-- The group with a function applied to the values of its rules. -/
def RuleGroup.mapValues (f : Scalar → Scalar) (group : RuleGroup) : RuleGroup :=
  { group with rules := group.rules.map (Rule.mapValues f) }

/-- A rule stays when a function keeps its values. -/
theorem Rule.mapValues_eq_self {f : Scalar → Scalar} {rule : Rule}
    (h : ∀ value ∈ rule.values, f value = value) : rule.mapValues f = rule := by
  have hvalues : rule.values.map f = rule.values :=
    (List.map_congr_left h).trans (List.map_id' _)
  cases rule
  exact (Rule.mk.injEq ..).mpr ⟨rfl, rfl, hvalues⟩

theorem RuleGroup.mapValues_eq_self {f : Scalar → Scalar} {group : RuleGroup}
    (h : ∀ rule ∈ group.rules, ∀ value ∈ rule.values, f value = value) :
    group.mapValues f = group := by
  have hrules : group.rules.map (Rule.mapValues f) = group.rules :=
    (List.map_congr_left fun rule hrule => Rule.mapValues_eq_self (h rule hrule)).trans
      (List.map_id' _)
  cases group
  exact (RuleGroup.mk.injEq ..).mpr ⟨hrules, rfl⟩

/-- The rule with its instants as texts. -/
def Rule.shown (rule : Rule) : Rule :=
  rule.mapValues Scalar.shown

/-- The group with its instants as texts. -/
def RuleGroup.shown (group : RuleGroup) : RuleGroup :=
  group.mapValues Scalar.shown

/-- The group with an index. -/
def RuleGroup.numbered (group : RuleGroup) (index : Nat) : RuleGroup :=
  { group with sourceIndex := some index }

namespace RuleTree

/-- The tree with a function applied to the values of its rules. -/
def mapValues (f : Scalar → Scalar) (tree : RuleTree) : RuleTree where
  groups := tree.groups.map (RuleGroup.mapValues f)
  groups_nonempty group h := by
    obtain ⟨source, hsource, rfl⟩ := List.mem_map.mp h
    exact mt List.map_eq_nil_iff.mp (tree.groups_nonempty source hsource)

/-- The tree with its instants as texts. -/
def shown (tree : RuleTree) : RuleTree :=
  tree.mapValues Scalar.shown

/-- The tree whose groups have their places in it as indices. -/
def numbered (tree : RuleTree) : RuleTree where
  groups := tree.groups.zipIdx.map fun source => source.1.numbered source.2
  groups_nonempty group h := by
    obtain ⟨⟨source, index⟩, hsource, rfl⟩ := List.mem_map.mp h
    exact tree.groups_nonempty source (List.fst_mem_of_mem_zipIdx hsource)

/-- All values of the rules of a tree have a property. -/
def AllScalars (property : Scalar → Prop) (tree : RuleTree) : Prop :=
  ∀ group ∈ tree.groups, ∀ rule ∈ group.rules, ∀ value ∈ rule.values, property value

theorem eq_of_groups_eq {tree tree' : RuleTree} (h : tree.groups = tree'.groups) :
    tree = tree' := by
  cases tree
  cases tree'
  exact (mk.injEq ..).mpr h

/-- A tree stays when a function keeps its values. -/
theorem mapValues_eq_self {f : Scalar → Scalar} {tree : RuleTree}
    (h : tree.AllScalars fun value => f value = value) : tree.mapValues f = tree := by
  refine eq_of_groups_eq ?_
  show tree.groups.map (RuleGroup.mapValues f) = tree.groups
  refine (List.map_congr_left fun group hgroup => ?_).trans (List.map_id' _)
  exact RuleGroup.mapValues_eq_self (h group hgroup)

/-- Nothing is left out of the groups of a tree. -/
theorem ofGroups_groups (tree : RuleTree) : ofGroups tree.groups = tree := by
  refine eq_of_groups_eq (List.filter_eq_self.mpr fun group hgroup => ?_)
  simpa [RuleGroup.isEmpty] using tree.groups_nonempty group hgroup

end RuleTree

/-- **A rule is taken again from its record**, with its instants as texts. -/
theorem Rule.ofRecord_toRecord {rule : Rule} (h : ∀ value ∈ rule.values, value.IsFinite) :
    Rule.ofRecord rule.toRecord = .ok rule.shown := by
  refine ofRecord_eq_ok_iff.mpr ⟨rfl, rfl, ?_⟩
  exact Outcome.each_map_eq_ok (fun _ value hvalue => Scalar.ofJson_toJson (h value hvalue)) 0

theorem RuleGroup.ofRecord_toRecord {group : RuleGroup} (index : Nat)
    (h : ∀ rule ∈ group.rules, ∀ value ∈ rule.values, value.IsFinite) :
    RuleGroup.ofRecord index group.toRecord = .ok (group.shown.numbered index) := by
  have hrules : TreeRecord.scanGroup Rule.ofRecord index group.toRecord =
      .ok (group.rules.map Rule.shown) := by
    refine Outcome.each_map_eq_ok (fun place rule hrule => ?_) 0
    exact TreeRecord.located_eq_ok_iff.mpr (Rule.ofRecord_toRecord (h rule hrule))
  rw [ofRecord_eq_map, hrules]
  rfl

namespace RuleTree

/-- **A tree is taken again from its record**, with its instants as texts and its groups
numbered. -/
theorem ofRecord_toRecord {tree : RuleTree} (h : tree.AllScalars Scalar.IsFinite) :
    ofRecord tree.toRecord = .ok tree.shown.numbered := by
  have hgroups : Outcome.each RuleGroup.ofRecord 0 (tree.groups.map RuleGroup.toRecord) =
      .ok (tree.groups.zipIdx.map fun source => source.1.shown.numbered source.2) :=
    Outcome.each_map_eq_ok_zipIdx (fun index group hgroup =>
      RuleGroup.ofRecord_toRecord index (h group hgroup)) 0
  have hnumbered : tree.shown.numbered.groups =
      tree.groups.zipIdx.map fun source => source.1.shown.numbered source.2 := by
    show (tree.groups.map RuleGroup.shown).zipIdx.map _ = _
    rw [List.zipIdx_map, List.map_map]
    rfl
  refine ofRecord_eq_ok_iff.mpr ⟨_, hgroups, ?_⟩
  rw [← hnumbered, ofGroups_groups]

end RuleTree

/-! ### Queries of such trees -/

/-- A table keeps the bound values of two conditions as the same ones. -/
def Query.BindsSame (c c' : Condition × List Scalar) : Prop :=
  c.2.map Value.ofScalar = c'.2.map Value.ofScalar

/-- Two queries have the same text, and a table keeps their bound values as the same ones. -/
structure Query.SameInTable (query query' : Query) : Prop where
  baseTable : query.baseTable = query'.baseTable
  predicate : query.predicate = query'.predicate
  bindings : query.bindings.map Value.ofScalar = query'.bindings.map Value.ofScalar

variable {schema : Schema} {base : String} {now : Calendar.Instant}

namespace Rule

/-- Instants have no pattern, so that a value that has one stays. -/
theorem Operator.pattern_shown {operator : Operator} {before after : String} {value bound : Scalar}
    (h : operator.pattern before after value = .ok bound) :
    operator.pattern before after value.shown = .ok bound := by
  cases value with
  | null | instant => cases h
  | bool | int | float | text => exact h

/-- Instants are no numbers of days, so that a value that is one stays. -/
theorem Operator.cutoff_shown {operator : Operator} {value bound : Scalar}
    (h : operator.cutoff now value = .ok bound) :
    operator.cutoff now value.shown = .ok bound := by
  cases value with
  | instant => cases h
  | null | bool | int | float | text => exact h

/-- **An operator binds the same values of a table** when instants are given as texts. -/
theorem Operator.coerce_shown {operator : Operator} {values bound : List Scalar}
    (h : operator.coerce now values = .ok bound) :
    ∃ bound', operator.coerce now (values.map Scalar.shown) = .ok bound' ∧
      bound'.map Value.ofScalar = bound.map Value.ofScalar := by
  -- Most operators bind the values of the rule; the others make one value of one that stays.
  have hsingle : ∀ x x' : Except Error Scalar, (∀ b, x = .ok b → x' = .ok b) →
      (do return [← x]) = .ok bound → ∃ bound', (do return [← x']) = .ok bound' ∧
        bound'.map Value.ofScalar = bound.map Value.ofScalar := by
    intro x x' hx h
    obtain ⟨b, hb, h⟩ := Outcome.bind_eq_ok_iff.mp h
    exact ⟨bound, Outcome.bind_eq_ok_iff.mpr ⟨b, hx b hb, h⟩, rfl⟩
  have hsame : ∀ values : List Scalar,
      (values.map Scalar.shown).map Value.ofScalar = values.map Value.ofScalar := by
    intro values
    rw [List.map_map]
    exact List.map_congr_left fun value _ => Scalar.ofScalar_shown value
  unfold coerce at h
  split at h
  · next low high =>
    obtain rfl := Except.ok.inj h
    exact ⟨_, rfl, hsame [low, high]⟩
  · cases h
  · next value hbetween =>
    cases operator
    case isBetween => exact absurd rfl hbetween
    case contains | doesNotContain | beginsWith | endsWith =>
      exact hsingle _ _ (fun _ => pattern_shown) h
    case inLast | notInLast => exact hsingle _ _ (fun _ => cutoff_shown) h
    all_goals
      obtain rfl := Except.ok.inj h
      exact ⟨_, rfl, hsame [value]⟩
  · cases h

/-- A rule whose instants are texts is compiled when the rule is, with the same values of a
table. -/
theorem compile_shown {rule : Rule} {c : Condition × List Scalar}
    (h : rule.compile schema base now = .ok c) :
    ∃ c', rule.shown.compile schema base now = .ok c' ∧ Query.BindsSame c c' := by
  obtain ⟨field, hfield, hbound, hcondition⟩ := compile_eq_ok_iff.mp h
  obtain ⟨bound, hbound, hsame⟩ := Operator.coerce_shown hbound
  exact ⟨(c.1, bound), compile_eq_ok_iff.mpr ⟨field, hfield, hbound, hcondition⟩, hsame.symm⟩

end Rule

namespace RuleTree

variable {tree tree' : RuleTree} {query : Query}

theorem eqUpToValues_shown (tree : RuleTree) : tree.EqUpToValues tree.shown :=
  List.forall₂_map_right_iff.mpr (List.forall₂_same.mpr fun _ _ =>
    List.forall₂_map_right_iff.mpr (List.forall₂_same.mpr fun _ _ => ⟨rfl, rfl⟩))

/-- **A tree with its instants as texts is compiled to the same query**, up to the values that a
table does not tell apart. -/
theorem compile_shown (h : tree.compile schema base now = .ok query) :
    ∃ query', tree.shown.compile schema base now = .ok query' ∧ query.SameInTable query' := by
  obtain ⟨hbase, compiled, hcompiled, rfl⟩ := compile_eq_ok_iff.mp h
  have hgroups : ∃ compiled', Compiled schema base now tree.shown.groups compiled' ∧
      List.Forall₂ (List.Forall₂ Query.BindsSame) compiled compiled' := by
    refine Related.exists_forall₂_map (fun group conditions hconditions => ?_) hcompiled
    exact Related.exists_forall₂_map (fun _ _ => Rule.compile_shown) hconditions
  obtain ⟨compiled', hcompiled', hsame⟩ := hgroups
  have hshown : tree.shown.compile schema base now =
      .ok (.ofPredicate base (predicate compiled') (bindings compiled')) :=
    compile_eq_ok_iff.mpr ⟨hbase, compiled', hcompiled', rfl⟩
  obtain ⟨htable, hpredicate⟩ := text_eq_of_eqUpToValues tree.eqUpToValues_shown h hshown
  refine ⟨_, hshown, htable, hpredicate, ?_⟩
  show (bindings compiled).map Value.ofScalar = (bindings compiled').map Value.ofScalar
  rw [bindings, bindings, List.map_flatMap, List.map_flatMap]
  refine Related.flatMap_eq hsame fun conditions conditions' hconditions => ?_
  rw [List.map_flatMap, List.map_flatMap]
  exact Related.flatMap_eq hconditions fun c c' hc => hc

/-- Only the rules of the groups count for the query of a tree. -/
theorem compile_eq_ok_congr
    (h : tree.groups.map RuleGroup.rules = tree'.groups.map RuleGroup.rules) :
    tree.compile schema base now = .ok query ↔ tree'.compile schema base now = .ok query := by
  have hcompiled : ∀ compiled, Compiled schema base now tree.groups compiled ↔
      Compiled schema base now tree'.groups compiled := by
    intro compiled
    have hrules : ∀ groups : List RuleGroup, Compiled schema base now groups compiled ↔
        List.Forall₂ (RuleGroup.Compiled schema base now) (groups.map RuleGroup.rules) compiled :=
      fun _ => List.forall₂_map_left_iff.symm
    rw [hrules, hrules, h]
  simp only [compile_eq_ok_iff, hcompiled]

/-- The groups of a tree keep their rules when they get indices. -/
theorem map_rules_numbered (tree : RuleTree) :
    tree.numbered.groups.map RuleGroup.rules = tree.groups.map RuleGroup.rules := by
  conv => rhs; rw [← List.zipIdx_map_fst 0 tree.groups, List.map_map]
  rw [numbered, List.map_map]
  rfl

/-- The indices of groups do not reach the query of a tree. -/
theorem compile_numbered : tree.numbered.compile schema base now = .ok query ↔
    tree.compile schema base now = .ok query :=
  compile_eq_ok_congr tree.map_rules_numbered

/-! ### Stored trees -/

/-- The trees that were taken from a record, scoped to users or not. -/
inductive IsStored : RuleTree → Prop
  | ofRecord {record : TreeRecord} {tree : RuleTree} :
    RuleTree.ofRecord record = .ok tree → IsStored tree
  | scopedTo {tree : RuleTree} (user : Int64) : IsStored tree → IsStored (tree.scopedTo user)

/-- A rule of a tree that was taken from a record was taken from a record of a rule. -/
theorem exists_record_of_mem_rules {record : TreeRecord} (h : RuleTree.ofRecord record = .ok tree)
    {group : RuleGroup} (hgroup : group ∈ tree.groups) {rule : Rule} (hrule : rule ∈ group.rules) :
    ∃ source, Rule.ofRecord source = .ok rule := by
  obtain ⟨groups, hgroups, rfl⟩ := ofRecord_eq_ok_iff.mp h
  obtain ⟨hgroup, -⟩ := mem_groups_ofGroups_iff.mp hgroup
  obtain ⟨_, groupRecord, -, htaken⟩ := Outcome.exists_of_mem_each hgroups hgroup
  rw [RuleGroup.ofRecord_eq_map, Outcome.map_eq_ok_iff] at htaken
  obtain ⟨rules, hrules, rfl⟩ := htaken
  obtain ⟨_, source, -, hsource⟩ := Outcome.exists_of_mem_each hrules hrule
  exact ⟨source, TreeRecord.located_eq_ok_iff.mp hsource⟩

/-- All values of a tree that was taken from a record were taken from JSON values. -/
theorem allScalars_of_ofRecord {record : TreeRecord} (h : RuleTree.ofRecord record = .ok tree) :
    tree.AllScalars fun value => ∃ json, Scalar.ofJson json = .ok value := by
  intro group hgroup rule hrule value hvalue
  obtain ⟨source, hsource⟩ := exists_record_of_mem_rules h hgroup hrule
  obtain ⟨-, -, hvalues⟩ := Rule.ofRecord_eq_ok_iff.mp hsource
  obtain ⟨_, json, -, hjson⟩ := Outcome.exists_of_mem_each hvalues hvalue
  exact ⟨json, hjson⟩

/-- A scoped tree has the values of the tree, and the user. -/
theorem AllScalars.scopedTo {property : Scalar → Prop} (h : tree.AllScalars property) {user : Int64}
    (huser : property (.int user)) : (tree.scopedTo user).AllScalars property := by
  intro group hgroup rule hrule value hvalue
  rw [groups_scopedTo] at hgroup
  obtain ⟨own, hown, rfl⟩ := List.mem_map.mp hgroup
  obtain hrule | hrule := List.mem_append.mp hrule
  · exact h own hown rule hrule value hvalue
  · obtain rfl := List.mem_singleton.mp hrule
    obtain rfl := List.mem_singleton.mp hvalue
    exact huser

/-- **A stored tree has no instants**, and a record can hold its values. -/
theorem IsStored.allScalars (h : tree.IsStored) :
    tree.AllScalars fun value => value.IsFinite ∧ value.shown = value := by
  induction h with
  | ofRecord h =>
    intro group hgroup rule hrule value hvalue
    obtain ⟨json, hjson⟩ := allScalars_of_ofRecord h group hgroup rule hrule value hvalue
    exact Scalar.isFinite_and_shown_of_ofJson hjson
  | scopedTo user _ ih => exact ih.scopedTo ⟨trivial, rfl⟩

/-- **A tree that is written to a record and taken from it again keeps its meaning.** When its
binary numbers are finite, the tree is taken again, with its instants as the texts in which they are
shown and with the places of its groups as their indices. Whenever the tree is compiled, that tree
is compiled to a query with the same text, and every bound value is the same in a table. A tree that
was taken from a record, scoped to users or not, has finite numbers and no instants: it is taken
again as it is, up to the indices of its groups. -/
theorem reloaded_keeps_meaning (tree : RuleTree) :
    (tree.AllScalars Scalar.IsFinite →
      ofRecord tree.toRecord = .ok tree.shown.numbered ∧
      ∀ schema base now query, tree.compile schema base now = .ok query →
        ∃ query', tree.shown.numbered.compile schema base now = .ok query' ∧
          query.SameInTable query') ∧
    (tree.IsStored → ofRecord tree.toRecord = .ok tree.numbered) := by
  refine ⟨fun hfinite => ⟨ofRecord_toRecord hfinite, fun schema base now query hquery => ?_⟩,
    fun hstored => ?_⟩
  · obtain ⟨query', hquery', hsame⟩ := compile_shown hquery
    exact ⟨query', compile_numbered.mpr hquery', hsame⟩
  · have hvalues := hstored.allScalars
    have hshown : tree.shown = tree :=
      mapValues_eq_self fun group hgroup rule hrule value hvalue =>
        (hvalues group hgroup rule hrule value hvalue).2
    have hfinite : tree.AllScalars Scalar.IsFinite := fun group hgroup rule hrule value hvalue =>
      (hvalues group hgroup rule hrule value hvalue).1
    rw [ofRecord_toRecord hfinite, hshown]

/-- Songs that are newer than an instant, with bounds on their length of which one is null. -/
def newSongs : RuleTree :=
  ofGroups [.ofRules [⟨"created_at", .isGreaterThan, [.instant Query.july], rfl⟩,
    ⟨"length", .isBetween, [.float (Binary64.ofInt 200), .null], rfl⟩]]

/-- An instant, a binary number and null are read again, and the tree that is read again is scoped
to a user. -/
theorem reloaded_keeps_meaning_newSongs :
    let reloaded := newSongs.shown.numbered
    newSongs.AllScalars Scalar.IsFinite ∧ ofRecord newSongs.toRecord = .ok reloaded ∧
      (∃ query query', newSongs.compile Catalog.library "songs" Query.july = .ok query ∧
        reloaded.compile Catalog.library "songs" Query.july = .ok query' ∧
          query.SameInTable query') ∧
      (reloaded.scopedTo 3).IsStored ∧
      ofRecord (reloaded.scopedTo 3).toRecord = .ok (reloaded.scopedTo 3).numbered := by
  intro reloaded
  have hfinite : newSongs.AllScalars Scalar.IsFinite := by
    intro group hgroup rule hrule value hvalue
    obtain rfl := List.mem_singleton.mp hgroup
    obtain rfl | rfl := List.mem_pair.mp hrule
    · obtain rfl := List.mem_singleton.mp hvalue
      trivial
    · obtain rfl | rfl := List.mem_pair.mp hvalue
      · exact Binary64.isFinite_ofInt (by decide)
      · trivial
  obtain ⟨query, hcompile⟩ :
      ∃ query, newSongs.compile Catalog.library "songs" Query.july = .ok query := ⟨_, rfl⟩
  obtain ⟨hreload, hmeaning⟩ := (reloaded_keeps_meaning newSongs).1 hfinite
  obtain ⟨query', hquery', hsame⟩ := hmeaning _ _ _ _ hcompile
  have hstored : (reloaded.scopedTo 3).IsStored := .scopedTo 3 (.ofRecord hreload)
  exact ⟨hfinite, hreload, ⟨query, query', hcompile, hquery', hsame⟩, hstored,
    (reloaded_keeps_meaning _).2 hstored⟩

end RuleTree

end PlaylistRules
