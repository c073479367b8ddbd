import PlaylistRules.Proofs.Outcome
import PlaylistRules.Proofs.Query.Reading
import PlaylistRules.Proofs.Related
import PlaylistRules.Query.Compile

/-!
# Compiled trees

What it means that a tree is compiled. The conditions of a compiled tree stand to its rules one for
one: each is the comparison of a rule on the field that its path resolves to, with the values that
the operator binds. The predicate of a compiled tree is proper, and its bound values are those of
the rules, one after the other.

## Main definitions

* `RuleTree.Compiled` : conditions with values that stand to the rules of groups one for one.

## Main results

* `Rule.compile_eq_ok_iff`, `RuleTree.compile_eq_ok_iff` : the rules and trees that are compiled.
* `Rule.length_of_compile` : a condition binds as many values as it has placeholders.
* `RuleTree.isProper_predicate` : the predicate of a compiled tree is proper.
-/

namespace PlaylistRules

open Query (Condition Predicate groupArity)

variable {schema : Catalog.Schema} {base : String} {now : Calendar.Instant}

/-! ### Rules -/

namespace Rule

theorem resolve_eq_ok_iff {path : String} {field : Catalog.Field} :
    Rule.resolve schema base path = .ok field ↔ schema.resolve base path = .ok field := by
  unfold Rule.resolve
  split
  · next h => rw [h]; exact ⟨congrArg Except.ok ∘ Except.ok.inj, congrArg Except.ok ∘ Except.ok.inj⟩
  · next h => rw [h]; exact ⟨nofun, nofun⟩

/-- A rule is compiled when its path resolves and its values can be bound. -/
theorem compile_eq_ok_iff {rule : Rule} {condition : Condition} {values : List Scalar} :
    rule.compile schema base now = .ok (condition, values) ↔
      ∃ field, schema.resolve base rule.field = .ok field ∧
        rule.operator.coerce now rule.values = .ok values ∧
        condition = field.condition base rule.operator.comparison := by
  simp only [Rule.compile, Outcome.bind_eq_ok_iff, resolve_eq_ok_iff]
  constructor
  · rintro ⟨field, hfield, bound, hbound, h⟩
    cases h
    exact ⟨field, hfield, hbound, rfl⟩
  · rintro ⟨field, hfield, hbound, rfl⟩
    exact ⟨field, hfield, values, hbound, rfl⟩

/-- An operator binds as many values as its comparison has placeholders. -/
theorem Operator.length_of_coerce {operator : Operator} {values bound : List Scalar}
    (h : operator.coerce now values = .ok bound) :
    bound.length = operator.comparison.arity := by
  have hsingle : ∀ x : Except Error Scalar, (do return [← x]) = .ok bound → bound.length = 1 := by
    intro x hx
    obtain ⟨value, -, hvalue⟩ := Outcome.bind_eq_ok_iff.mp hx
    rw [← Except.ok.inj hvalue, List.length_singleton]
  unfold Operator.coerce at h
  split at h
  · exact (Except.ok.inj h) ▸ rfl
  · cases h
  · next value hbetween =>
    split at h
    iterate 6 · exact hsingle _ h
    · rw [← Except.ok.inj h, arity_comparison]
      cases operator
      case isBetween => exact absurd rfl hbetween
      all_goals rfl
  · cases h

theorem test_condition (field : Catalog.Field) (comparison : Comparison) :
    (field.condition base comparison).test = ⟨field.column, comparison⟩ := by
  cases field <;> rfl

/-- The condition of a rule has a placeholder for each value that it binds. -/
theorem length_of_compile {rule : Rule} {condition : Condition} {values : List Scalar}
    (h : rule.compile schema base now = .ok (condition, values)) :
    values.length = condition.arity := by
  obtain ⟨field, -, hbound, rfl⟩ := compile_eq_ok_iff.mp h
  rw [Condition.arity, test_condition]
  exact Operator.length_of_coerce hbound

end Rule

/-! ### Groups and trees -/

namespace RuleGroup

/-- Conditions with values stand to the rules of a group one for one. -/
def Compiled (schema : Catalog.Schema) (base : String) (now : Calendar.Instant) :
    List Rule → List (Condition × List Scalar) → Prop :=
  List.Forall₂ fun rule compiled => rule.compile schema base now = .ok compiled

theorem compileRules_eq_ok_iff {group : Nat} {rules : List Rule} {index : Nat}
    {compiled : List (Condition × List Scalar)} :
    compileRules schema base now group index rules = .ok compiled ↔
      Compiled schema base now rules compiled := by
  induction rules generalizing index compiled with
  | nil =>
    rw [compileRules, Compiled, List.forall₂_nil_left_iff]
    exact ⟨fun h => (Except.ok.inj h).symm, fun h => congrArg _ h.symm⟩
  | cons rule rules ih =>
    rw [compileRules, Compiled, List.forall₂_cons_left_iff]
    split
    · next h => exact ⟨nofun, fun ⟨_, _, hrule, _⟩ => by rw [h] at hrule; cases hrule⟩
    · next first h =>
      rw [Outcome.bind_eq_ok_iff]
      constructor
      · rintro ⟨others, hothers, hcompiled⟩
        exact ⟨first, others, h, ih.mp hothers, (Except.ok.inj hcompiled).symm⟩
      · rintro ⟨c, others, hc, hothers, rfl⟩
        obtain rfl : first = c := Except.ok.inj (h.symm.trans hc)
        exact ⟨others, ih.mpr hothers, rfl⟩

end RuleGroup

namespace RuleTree

/-- Lists of conditions with values stand to the rules of groups one for one. -/
def Compiled (schema : Catalog.Schema) (base : String) (now : Calendar.Instant) :
    List RuleGroup → List (List (Condition × List Scalar)) → Prop :=
  List.Forall₂ fun group compiled => RuleGroup.Compiled schema base now group.rules compiled

theorem compileGroups_eq_ok_iff {groups : List RuleGroup} {place : Nat}
    {compiled : List (List (Condition × List Scalar))} :
    compileGroups schema base now place groups = .ok compiled ↔
      Compiled schema base now groups compiled := by
  induction groups generalizing place compiled with
  | nil =>
    rw [compileGroups, Compiled, List.forall₂_nil_left_iff]
    exact ⟨fun h => (Except.ok.inj h).symm, fun h => congrArg _ h.symm⟩
  | cons group groups ih =>
    rw [compileGroups, Compiled, List.forall₂_cons_left_iff, Outcome.bind_eq_ok_iff]
    simp only [RuleGroup.compile, RuleGroup.compileRules_eq_ok_iff, Outcome.bind_eq_ok_iff, ih]
    constructor
    · rintro ⟨first, hfirst, others, hothers, h⟩
      exact ⟨first, others, hfirst, hothers, (Except.ok.inj h).symm⟩
    · rintro ⟨first, others, hfirst, hothers, rfl⟩
      exact ⟨first, hfirst, others, hothers, rfl⟩

/-- **A tree is compiled when all its rules are**, on a base entity of the schema. -/
theorem compile_eq_ok_iff {tree : RuleTree} {query : Query} :
    tree.compile schema base now = .ok query ↔
      (schema.entity? base).isSome ∧ ∃ compiled,
        Compiled schema base now tree.groups compiled ∧
          query = .ofPredicate base (predicate compiled) (bindings compiled) := by
  unfold RuleTree.compile Catalog.Schema.requireEntity
  cases hentity : schema.entity? base with
  | none => exact ⟨nofun, fun h => absurd h.1 Bool.false_ne_true⟩
  | some entity =>
    simp only [Catalog.Schema.name_of_entity? hentity, Outcome.bind_eq_ok_iff,
      compileGroups_eq_ok_iff, Option.isSome_some, true_and]
    exact ⟨fun ⟨compiled, hcompiled, h⟩ => ⟨compiled, hcompiled, (Except.ok.inj h).symm⟩,
      fun ⟨compiled, hcompiled, h⟩ => ⟨compiled, hcompiled, congrArg _ h.symm⟩⟩

/-- Every condition of a compiled tree has a placeholder for each of its values. -/
theorem length_of_mem_compiled {groups : List RuleGroup}
    {compiled : List (List (Condition × List Scalar))}
    (h : Compiled schema base now groups compiled)
    {conditions : List (Condition × List Scalar)} (hconditions : conditions ∈ compiled)
    {c : Condition × List Scalar} (hc : c ∈ conditions) : c.2.length = c.1.arity := by
  obtain ⟨group, -, hgroup⟩ := Related.exists_of_mem_right h hconditions
  obtain ⟨rule, -, hrule⟩ := Related.exists_of_mem_right hgroup hc
  exact Rule.length_of_compile hrule

/-- The predicate of a compiled tree is proper, since no group of the tree is empty. -/
theorem isProper_predicate {tree : RuleTree} {compiled : List (List (Condition × List Scalar))}
    (h : Compiled schema base now tree.groups compiled) : (predicate compiled).IsProper := by
  unfold predicate
  split
  · trivial
  · next hne =>
    refine ⟨by simpa using hne, fun conditions hconditions => ?_⟩
    obtain ⟨cs, hcs, rfl⟩ := List.mem_map.mp hconditions
    obtain ⟨group, hgroup, hrules⟩ := Related.exists_of_mem_right h hcs
    have hlength := hrules.length_eq
    have hrulesPos := List.length_pos_iff.mpr (tree.groups_nonempty group hgroup)
    exact List.ne_nil_of_length_pos (by rwa [List.length_map, ← hlength])

/-- Conditions have as many placeholders as they have values. -/
theorem groupArity_eq_length {conditions : List (Condition × List Scalar)}
    (hlength : ∀ c ∈ conditions, c.2.length = c.1.arity) :
    groupArity (conditions.map Prod.fst) = (conditions.flatMap Prod.snd).length := by
  induction conditions with
  | nil => rfl
  | cons c conditions ih =>
    rw [List.flatMap_cons, List.length_append, hlength c List.mem_cons_self,
      ← ih fun c hc => hlength c (List.mem_cons_of_mem _ hc)]
    rfl

/-- The predicate has as many placeholders as there are bound values. -/
theorem arity_predicate {compiled : List (List (Condition × List Scalar))}
    (hlength : ∀ conditions ∈ compiled, ∀ c ∈ conditions, c.2.length = c.1.arity) :
    (predicate compiled).arity = (bindings compiled).length := by
  have hgroups : (Predicate.anyOf (compiled.map (·.map Prod.fst))).arity =
      (bindings compiled).length := by
    induction compiled with
    | nil => rfl
    | cons conditions compiled ih =>
      rw [bindings, List.flatMap_cons, List.length_append,
        ← groupArity_eq_length (hlength conditions List.mem_cons_self)]
      exact congrArg _ (ih fun conditions h => hlength conditions (List.mem_cons_of_mem _ h))
  unfold predicate
  split
  · next hempty => rw [List.isEmpty_iff.mp hempty]; rfl
  · exact hgroups

end RuleTree

end PlaylistRules
