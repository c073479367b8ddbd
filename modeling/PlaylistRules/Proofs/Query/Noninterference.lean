import PlaylistRules.Catalog.Library
import PlaylistRules.Proofs.Query.Errors
import PlaylistRules.Proofs.Query.Unambiguous

/-!
# Values and instants in queries

Trees that differ only in the values of their rules are compiled to the same text, if both are
compiled. The values are only bound, and a tree can be refused for them, but for no other reason
than that. The reference instant counts only for the relative operators, and only by its date.

## Main definitions

* `RuleTree.EqUpToValues` : trees that differ only in the values of their rules.
* `Rule.Operator.IsRelative` : the operators that look at the reference instant.
* `Rule.bound` : the values that a rule binds.

## Main results

* `RuleTree.text_eq_of_eqUpToValues` : the texts of trees that differ only in values.
* `RuleTree.kind_of_eqUpToValues` : the error when only one of them is compiled.
* `RuleTree.compile_congr_instant` : trees at two instants.
* `RuleTree.bindings_eq_flatMap_bound` : the bound values of a tree are those of its rules.
* `RuleTree.values_noninterference` : values and instants do not reach the text.
-/

namespace PlaylistRules

open Catalog (Schema Entity)
open Query (Condition)

/-! ### Trees up to values -/

/-- Two rules have the same field and the same operator. -/
structure Rule.EqUpToValues (a b : Rule) : Prop where
  field : a.field = b.field
  operator : a.operator = b.operator

/-- Two groups have equal rules up to their values, one for one. -/
def RuleGroup.EqUpToValues (a b : RuleGroup) : Prop :=
  List.Forall₂ Rule.EqUpToValues a.rules b.rules

/-- Two trees have equal groups up to the values of their rules, one for one. -/
def RuleTree.EqUpToValues (a b : RuleTree) : Prop :=
  List.Forall₂ RuleGroup.EqUpToValues a.groups b.groups

theorem RuleTree.EqUpToValues.symm {a b : RuleTree} (h : a.EqUpToValues b) : b.EqUpToValues a := by
  have hrule : ∀ a b : Rule, a.EqUpToValues b → b.EqUpToValues a :=
    fun _ _ h => ⟨h.field.symm, h.operator.symm⟩
  have hgroup : ∀ a b : RuleGroup, a.EqUpToValues b → b.EqUpToValues a :=
    fun _ _ h => (List.Forall₂.imp hrule h).flip
  exact (List.Forall₂.imp hgroup h).flip

variable {schema : Schema} {base : String} {entity : Entity} {now now' : Calendar.Instant}
  {error : Rule.Error}

/-! ### Rules -/

namespace Rule

/-- An operator looks at the reference instant. -/
def Operator.IsRelative (operator : Operator) : Prop :=
  operator = inLast ∨ operator = notInLast

instance (operator : Operator) : Decidable operator.IsRelative :=
  inferInstanceAs (Decidable (_ ∨ _))

/-- The values that a rule binds at a reference instant, none if its operator cannot bind them. -/
def bound (now : Calendar.Instant) (rule : Rule) : List Scalar :=
  match rule.operator.coerce now rule.values with
  | .ok values => values
  | .error _ => []

/-- An operator looks at most at the date of the reference instant, and only if it is relative. -/
theorem Operator.coerce_congr {operator : Operator}
    (h : now.date = now'.date ∨ ¬operator.IsRelative) (values : List Scalar) :
    operator.coerce now values = operator.coerce now' values := by
  have hcutoff : operator.IsRelative → operator.cutoff now = operator.cutoff now' := by
    intro hrelative
    have hdate := h.resolve_right (not_not_intro hrelative)
    funext value
    rw [cutoff, cutoff, hdate]
  unfold coerce
  split
  · rfl
  · rfl
  · split
    case h_5 => rw [hcutoff (.inl rfl)]
    case h_6 => rw [hcutoff (.inr rfl)]
    all_goals rfl
  · rfl

theorem compile_congr_instant {rule : Rule}
    (h : now.date = now'.date ∨ ¬rule.operator.IsRelative) :
    rule.compile schema base now = rule.compile schema base now' := by
  rw [compile, compile, Operator.coerce_congr h]

theorem bound_congr_instant {rule : Rule}
    (h : now.date = now'.date ∨ ¬rule.operator.IsRelative) : rule.bound now = rule.bound now' := by
  rw [bound, bound, Operator.coerce_congr h]

/-- A rule that is compiled binds its own values, as many as its operator takes. -/
theorem bound_of_compile {rule : Rule} {c : Condition × List Scalar}
    (h : rule.compile schema base now = .ok c) :
    rule.bound now = c.2 ∧ (rule.bound now).length = rule.operator.arity := by
  obtain ⟨field, -, hvalues, -⟩ := compile_eq_ok_iff.mp h
  have hbound : rule.bound now = c.2 := by rw [bound, hvalues]
  rw [hbound, Operator.length_of_coerce hvalues, Operator.arity_comparison]
  exact ⟨rfl, rfl⟩

/-- A rule that is compiled has the same shape as one that is equal up to its values. -/
theorem sameShape_of_eqUpToValues {a b : Rule} (h : a.EqUpToValues b) {c : Condition × List Scalar}
    (ha : a.compile schema base now = .ok c) : a.SameShape schema base b := by
  obtain ⟨field, hfield, -⟩ := compile_eq_ok_iff.mp ha
  exact ⟨field, field, hfield, h.field ▸ hfield, rfl, rfl, congrArg _ h.operator⟩

/-- A rule whose path resolves can only be refused for its values. -/
theorem Uncompiled.kind_eq (hbase : schema.entity? base = some entity) {rule : Rule}
    {reason : Reason} (h : rule.Uncompiled schema entity now reason) {field : Catalog.Field}
    (hfield : schema.resolve base rule.field = .ok field) : reason.kind = .invalidValue := by
  cases h with
  | unresolved hfault =>
    rw [(Schema.resolve_eq_error_iff hbase).mpr hfault] at hfield
    cases hfield
  | unbound _ _ hkind => exact hkind

end Rule

/-! ### Groups -/

namespace RuleGroup

variable {group index : Nat} {rules : List Rule}

theorem compileRules_congr_instant
    (h : ∀ rule ∈ rules, now.date = now'.date ∨ ¬rule.operator.IsRelative) :
    compileRules schema base now group index rules =
      compileRules schema base now' group index rules := by
  induction rules generalizing index with
  | nil => rfl
  | cons rule rules ih =>
    rw [List.forall_mem_cons] at h
    rw [compileRules, compileRules, Rule.compile_congr_instant h.1, ih h.2]

end RuleGroup

/-! ### Trees -/

namespace RuleTree

theorem compileGroups_congr_instant {place : Nat} {groups : List RuleGroup}
    (h : ∀ group ∈ groups, ∀ rule ∈ group.rules,
      now.date = now'.date ∨ ¬rule.operator.IsRelative) :
    compileGroups schema base now place groups = compileGroups schema base now' place groups := by
  induction groups generalizing place with
  | nil => rfl
  | cons group groups ih =>
    rw [List.forall_mem_cons] at h
    rw [compileGroups, compileGroups, RuleGroup.compile, RuleGroup.compile,
      RuleGroup.compileRules_congr_instant h.1, ih h.2]

/-- **Trees at two instants have the same outcome** when the dates are the same or no operator is
relative. -/
theorem compile_congr_instant {tree : RuleTree}
    (h : ∀ operator ∈ tree.operators, now.date = now'.date ∨ ¬operator.IsRelative) :
    tree.compile schema base now = tree.compile schema base now' := by
  have hrules : ∀ group ∈ tree.groups, ∀ rule ∈ group.rules,
      now.date = now'.date ∨ ¬rule.operator.IsRelative := fun group hgroup rule hrule =>
    h rule.operator (List.mem_flatMap.mpr ⟨group, hgroup, List.mem_map_of_mem hrule⟩)
  unfold compile
  split
  · rfl
  · rw [compileGroups_congr_instant hrules]

section UpToValues

variable {a b : RuleTree} (heq : a.EqUpToValues b) {query : Query}
  (ha : a.compile schema base now = .ok query)

include heq ha

/-- A tree that is compiled has the same shape as one that is equal up to values. -/
theorem sameShape_of_eqUpToValues : a.SameShape schema base b := by
  obtain ⟨-, compiled, hcompiled, -⟩ := compile_eq_ok_iff.mp ha
  have hgroups : ∀ group ∈ a.groups, ∃ conditions,
      RuleGroup.Compiled schema base now group.rules conditions := fun group hgroup =>
    (Related.exists_of_mem_left hcompiled hgroup).imp fun _ h => h.2
  refine List.Forall₂.imp ?_ ((List.forall₂_and_left _ _).mpr ⟨hgroups, heq⟩)
  rintro group group' ⟨⟨conditions, hconditions⟩, hrules⟩
  have hcompile : ∀ rule ∈ group.rules, ∃ c, rule.compile schema base now = .ok c :=
    fun rule hrule => (Related.exists_of_mem_left hconditions hrule).imp fun _ h => h.2
  refine List.Forall₂.imp ?_ ((List.forall₂_and_left _ _).mpr ⟨hcompile, hrules⟩)
  rintro rule rule' ⟨⟨c, hc⟩, hrule⟩
  exact Rule.sameShape_of_eqUpToValues hrule hc

/-- **Trees that are equal up to values have the same text** when both are compiled. -/
theorem text_eq_of_eqUpToValues {query' : Query} (hb : b.compile schema base now' = .ok query') :
    query.baseTable = query'.baseTable ∧ query.predicate = query'.predicate := by
  refine ⟨?_, (predicate_eq_iff_sameShape ha hb).mpr (sameShape_of_eqUpToValues heq ha)⟩
  obtain ⟨-, compiled, -, rfl⟩ := compile_eq_ok_iff.mp ha
  obtain ⟨-, compiled', -, rfl⟩ := compile_eq_ok_iff.mp hb
  rfl

/-- **A tree is refused only for its values** when one that is equal up to them is compiled. -/
theorem kind_of_eqUpToValues (hb : b.compile schema base now' = .error error) :
    error.kind = .invalidValue := by
  obtain ⟨hbase, compiled, hcompiled, -⟩ := compile_eq_ok_iff.mp ha
  obtain ⟨entity, hbase⟩ := Option.isSome_iff_exists.mp hbase
  obtain ⟨place, index, group, rule, reason, hfails, rfl⟩ :=
    (compile_eq_error_iff_failsAt hbase).mp hb
  have hgroup := List.mem_of_getElem? hfails.group_at
  have hrule := List.mem_of_getElem? hfails.rule_at
  obtain ⟨group', hgroup', hrules⟩ := Related.exists_of_mem_right heq hgroup
  obtain ⟨rule', hrule', hsame⟩ := Related.exists_of_mem_right hrules hrule
  obtain ⟨conditions, -, hconditions⟩ := Related.exists_of_mem_left hcompiled hgroup'
  obtain ⟨c, -, hc⟩ := Related.exists_of_mem_left hconditions hrule'
  obtain ⟨field, hfield, -⟩ := Rule.compile_eq_ok_iff.mp hc
  exact hfails.uncompiled.kind_eq hbase (hsame.field ▸ hfield)

end UpToValues

/-- **The bound values of a tree are those of its rules**, one after the other. -/
theorem bindings_eq_flatMap_bound {tree : RuleTree}
    {compiled : List (List (Condition × List Scalar))}
    (h : Compiled schema base now tree.groups compiled) :
    bindings compiled = (tree.groups.flatMap RuleGroup.rules).flatMap (Rule.bound now) := by
  rw [List.flatMap_assoc, bindings]
  refine (Related.flatMap_eq h fun group conditions hgroup => ?_).symm
  exact Related.flatMap_eq hgroup fun rule c hrule => (Rule.bound_of_compile hrule).1

/-- **Values and instants do not reach the text of a query.** Of two trees that are equal up to
values, at any two instants, both are compiled to the same text, or one is refused for its values,
or none is compiled. For one tree, an instant counts only by its date, and only for the relative
operators: the bound values are those of the rules, one after the other, and a rule with another
operator binds the same values at all instants. -/
theorem values_noninterference (schema : Schema) (base : String) (now now' : Calendar.Instant)
    {a b : RuleTree} (heq : a.EqUpToValues b) :
    (∀ query query', a.compile schema base now = .ok query →
      b.compile schema base now' = .ok query' →
        query.baseTable = query'.baseTable ∧ query.predicate = query'.predicate) ∧
    (∀ query error, a.compile schema base now = .ok query →
      b.compile schema base now' = .error error → error.kind = .invalidValue) ∧
    (∀ query error, b.compile schema base now' = .ok query →
      a.compile schema base now = .error error → error.kind = .invalidValue) ∧
    (now.date = now'.date → a.compile schema base now = a.compile schema base now') ∧
    ((∀ operator ∈ a.operators, operator ≠ .inLast ∧ operator ≠ .notInLast) →
      a.compile schema base now = a.compile schema base now') ∧
    (∀ instant query, a.compile schema base instant = .ok query →
      query.bindings = (a.groups.flatMap RuleGroup.rules).flatMap (Rule.bound instant) ∧
        ∀ rule ∈ a.groups.flatMap RuleGroup.rules,
          (rule.bound instant).length = rule.operator.arity) ∧
    ∀ rule : Rule, rule.operator ≠ .inLast → rule.operator ≠ .notInLast →
      rule.bound now = rule.bound now' := by
  refine ⟨fun _ _ ha hb => text_eq_of_eqUpToValues heq ha hb, fun _ _ => kind_of_eqUpToValues heq,
    fun _ _ => kind_of_eqUpToValues heq.symm, fun hdate => ?_, fun hoperators => ?_,
    fun instant query ha => ?_, fun rule hin hnotIn => ?_⟩
  · exact compile_congr_instant fun _ _ => .inl hdate
  · exact compile_congr_instant fun operator h => .inr (not_or.mpr (hoperators operator h))
  · obtain ⟨-, compiled, hcompiled, rfl⟩ := compile_eq_ok_iff.mp ha
    refine ⟨bindings_eq_flatMap_bound hcompiled, fun rule hrule => ?_⟩
    obtain ⟨group, hgroup, hrule⟩ := List.mem_flatMap.mp hrule
    obtain ⟨conditions, -, hconditions⟩ := Related.exists_of_mem_left hcompiled hgroup
    obtain ⟨c, -, hc⟩ := Related.exists_of_mem_left hconditions hrule
    exact (Rule.bound_of_compile hc).2
  · exact Rule.bound_congr_instant (.inr (not_or.mpr ⟨hin, hnotIn⟩))

/-- A title with the marks of a predicate, and none at all. -/
theorem values_noninterference_quoted_title :
    let now : Calendar.Instant := .midnight ⟨2018, 7, 15, by decide, by decide, by decide⟩
    let now' : Calendar.Instant := .midnight ⟨1969, 2, 28, by decide, by decide, by decide⟩
    let tree (title : Scalar) : RuleTree := ofGroups [.ofRules [⟨"title", .contains, [title], rfl⟩]]
    ∃ query query' error, (tree (.text "Foo")).compile Catalog.library "songs" now = .ok query ∧
      (tree (.text "\" = ? or \"")).compile Catalog.library "songs" now' = .ok query' ∧
      query.predicate = query'.predicate ∧
      (tree .null).compile Catalog.library "songs" now' = .error error ∧
      error.kind = .invalidValue := by
  intro now now' tree
  have heq : ∀ title title', (tree title).EqUpToValues (tree title') := fun _ _ =>
    .cons (.cons ⟨rfl, rfl⟩ .nil) .nil
  have hfirst : (tree (.text "Foo")).compile Catalog.library "songs" now = .ok _ := rfl
  have hsecond : (tree (.text "\" = ? or \"")).compile Catalog.library "songs" now' = .ok _ := rfl
  have herror : (tree .null).compile Catalog.library "songs" now' = .error _ := rfl
  refine ⟨_, _, _, hfirst, hsecond, ?_, herror, ?_⟩
  · exact ((values_noninterference _ _ now now' (heq _ _)).1 _ _ hfirst hsecond).2
  · exact (values_noninterference _ _ now now' (heq _ _)).2.1 _ _ hfirst herror

end RuleTree

end PlaylistRules
