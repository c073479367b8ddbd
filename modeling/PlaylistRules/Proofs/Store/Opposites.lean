import PlaylistRules.Proofs.Rule.Cutoffs
import PlaylistRules.Proofs.Store.Library
import PlaylistRules.Proofs.Store.Patterns

/-!
# Opposite operators

Of two opposite operators with the same values, one is true of a cell when the other one is false.
Neither is true of null. A rule and its opposite thus divide the rows with a value in a column among
themselves, and `isBetween` gives the rows with a value that `isLessThan` and `isGreaterThan` leave.

## Main definitions

* `Scalar.IsKnown` : the values that are not stored as null.
* `Store.Row.HasValue` : the rows with a value in a column.
* `Rule.Operator.IsOpposite` : pairs of opposite operators.
* `Rule.selection`, `Rule.queryAlone` : the rows of which a rule is true, and the query for them.

## Main results

* `Store.compareWith_eq_none_iff` : comparisons that are unknown.
* `Rule.Operator.IsOpposite.holdsOn_iff` : the cells for which an opposite operator is true.
* `Rule.Operator.isBetween_holdsOn_iff` : the cells between two values.
* `Rule.execute_queryAlone` : a single rule selects the rows of which it is true.
* `Rule.opposites_split` : opposite operators on the media library.
-/

namespace PlaylistRules

open Catalog (Entity Schema)
open Calendar (Instant)
open Store

/-! ### Comparisons -/

namespace Store

variable {cell : Cell} {comparison : Rule.Comparison} {values : List Value} {a b : Value}
  {affinity : Affinity} {accepts : Ordering → Bool}

theorem Truth.negate_eq_true_iff {truth : Truth} :
    truth.negate = some true ↔ truth ≠ none ∧ truth ≠ some true := by
  rcases truth with _ | _ | _ <;> decide

theorem Truth.negate_negate {truth : Truth} : truth.negate.negate = truth := by
  rcases truth with _ | _ | _ <;> rfl

/-- A comparison that accepts the other orders has the opposite truth. -/
theorem Value.test_not :
    Value.test affinity (fun order => !accepts order) a b =
      (Value.test affinity accepts a b).negate := by
  unfold Value.test
  split <;> rfl

theorem Value.isNull_iff : a.isNull = true ↔ a = .null := by
  cases a <;> simp [Value.isNull]

theorem Value.test_eq_none_iff :
    Value.test affinity accepts a b = none ↔ a = .null ∨ b = .null := by
  unfold Value.test
  split
  · next h => simpa [Value.isNull_iff] using h
  · next h => simpa [Value.isNull_iff] using h

theorem matchValue_eq_none_iff : matchValue a b = none ↔ a = .null ∨ b = .null := by
  have htext : ∀ value : Value, value.patternText? = none ↔ value = .null := fun value => by
    cases value <;> simp [Value.patternText?, Value.numberText?]
  rw [← htext, ← htext, matchValue]
  cases a.patternText? <;> cases b.patternText? <;> simp

/-- **A comparison with one value is unknown** when a null takes part, and only then. -/
theorem compareWith_eq_none_iff (h : comparison.arity = 1) :
    compareWith cell comparison [a] = none ↔ cell.value = .null ∨ a = .null := by
  cases comparison with
  | between => cases h
  | equal | unequal | greater | less | atLeast => rw [compareWith, Value.test_eq_none_iff]
  | like => rw [compareWith, matchValue_eq_none_iff]
  | notLike => rw [compareWith, Truth.negate, Option.map_eq_none_iff, matchValue_eq_none_iff]

/-- No comparison is true of null. -/
theorem compareWith_null (h : cell.value = .null) : compareWith cell comparison values = none := by
  have htest : ∀ accepts a, Value.test cell.affinity accepts cell.value a = none := fun _ _ =>
    Value.test_eq_none_iff.mpr (.inl h)
  have hmatch : ∀ a, matchValue cell.value a = none := fun _ => matchValue_eq_none_iff.mpr (.inl h)
  unfold compareWith
  split <;> simp only [htest, hmatch] <;> rfl

theorem compareWith_unequal :
    compareWith cell .unequal [a] = (compareWith cell .equal [a]).negate := by
  rw [compareWith, compareWith, ← Value.test_not]
  rfl

theorem compareWith_atLeast :
    compareWith cell .atLeast [a] = (compareWith cell .less [a]).negate := by
  rw [compareWith, compareWith, ← Value.test_not]
  rfl

theorem compareWith_between :
    compareWith cell .between [a, b] =
      (compareWith cell .less [a]).negate.both (compareWith cell .greater [b]).negate := by
  rw [← compareWith_atLeast, compareWith, compareWith, compareWith, ← Value.test_not]
  rfl

end Store

/-! ### Operators -/

/-- A value is not stored as null: it is neither null nor NaN. -/
def Scalar.IsKnown : Scalar → Prop
  | null => False
  | float value => value.isNaN = false
  | bool _ | int _ | text _ | instant _ => True

theorem Store.Value.ofScalar_ne_null {scalar : Scalar} (h : scalar.IsKnown) :
    Value.ofScalar scalar ≠ .null := by
  cases scalar with
  | null => exact h.elim
  | float value =>
    have hnumber : value.isNaN = false := h
    simp [Value.ofScalar, hnumber]
  | bool | int | text | instant => simp [Value.ofScalar]

/-- A comparison with a known value is unknown on null only. -/
theorem Store.compareWith_ne_none_iff {cell : Cell} {comparison : Rule.Comparison}
    (harity : comparison.arity = 1) {scalar : Scalar} (h : scalar.IsKnown) :
    compareWith cell comparison [.ofScalar scalar] ≠ none ↔ cell.value ≠ .null := by
  rw [ne_eq, compareWith_eq_none_iff harity, or_iff_left (Value.ofScalar_ne_null h)]

namespace Rule.Operator

variable {operator other : Operator} {now : Instant} {values bound : List Scalar}
  {value low high : Scalar} {cell : Cell}

/-- Two operators are opposite: what one of them asks for, the other one excludes. -/
def IsOpposite (operator other : Operator) : Prop :=
  (operator, other) ∈ [(is, isNot), (contains, doesNotContain), (inLast, notInLast)]

instance (operator other : Operator) : Decidable (operator.IsOpposite other) :=
  inferInstanceAs (Decidable (_ ∈ _))

/-- Each pair of opposite operators. -/
theorem IsOpposite.cases (h : operator.IsOpposite other) :
    operator = is ∧ other = isNot ∨ operator = contains ∧ other = doesNotContain ∨
      operator = inLast ∧ other = notInLast := by
  simpa only [IsOpposite, List.mem_cons, Prod.mk.injEq, List.not_mem_nil, or_false] using h

theorem IsOpposite.arity_eq (h : operator.IsOpposite other) : operator.arity = 1 := by
  obtain ⟨rfl, -⟩ | ⟨rfl, -⟩ | ⟨rfl, -⟩ := h.cases <;> rfl

/-- The comparisons of opposite operators have opposite truths. -/
theorem IsOpposite.compareWith_eq (h : operator.IsOpposite other) {a : Value} :
    compareWith cell other.comparison [a] = (compareWith cell operator.comparison [a]).negate := by
  obtain ⟨rfl, rfl⟩ | ⟨rfl, rfl⟩ | ⟨rfl, rfl⟩ := h.cases
  · exact compareWith_unequal
  · rw [comparison, comparison, compareWith, compareWith]
  · rw [comparison, comparison, compareWith_atLeast, Truth.negate_negate]

/-- Opposite operators bind the same values. -/
theorem IsOpposite.coerce_eq_ok_iff (h : operator.IsOpposite other) :
    other.coerce now [value] = .ok bound ↔ operator.coerce now [value] = .ok bound := by
  obtain ⟨rfl, rfl⟩ | ⟨rfl, rfl⟩ | ⟨rfl, rfl⟩ := h.cases
  · rfl
  · have hwildcards : contains.wildcards? = some ("%", "%") := rfl
    have hwildcards' : doesNotContain.wildcards? = some ("%", "%") := rfl
    rw [coerce_pattern_eq_ok_iff hwildcards, coerce_pattern_eq_ok_iff hwildcards']
  · rw [coerce_relative_eq_ok_iff (.inr rfl), coerce_relative_eq_ok_iff (.inl rfl)]

/-- What an operator with an opposite binds for a known value is known. -/
theorem IsOpposite.exists_bound (h : operator.IsOpposite other) (hvalue : value.IsKnown)
    (hbound : operator.coerce now [value] = .ok bound) :
    ∃ scalar, bound = [scalar] ∧ scalar.IsKnown := by
  obtain ⟨rfl, -⟩ | ⟨rfl, -⟩ | ⟨rfl, -⟩ := h.cases
  · exact ⟨value, (Except.ok.inj hbound).symm, hvalue⟩
  · have hwildcards : contains.wildcards? = some ("%", "%") := rfl
    obtain ⟨-, rfl⟩ := (coerce_pattern_eq_ok_iff hwildcards).mp hbound
    exact ⟨_, rfl, trivial⟩
  · obtain ⟨_, _, -, -, rfl⟩ := (coerce_relative_eq_ok_iff (.inl rfl)).mp hbound
    exact ⟨_, rfl, trivial⟩

/-- No operator is true of null. -/
theorem HoldsOn.value_ne_null (h : operator.HoldsOn now values cell) : cell.value ≠ .null := by
  obtain ⟨bound, -, h⟩ := h
  exact fun hnull => nomatch (compareWith_null hnull).symm.trans h

/-- **An opposite operator is true of the other cells with a value.** -/
theorem IsOpposite.holdsOn_iff (h : operator.IsOpposite other) (hvalue : value.IsKnown)
    (hbound : operator.coerce now [value] = .ok bound) :
    other.HoldsOn now [value] cell ↔
      cell.value ≠ .null ∧ ¬operator.HoldsOn now [value] cell := by
  obtain ⟨scalar, rfl, hscalar⟩ := h.exists_bound hvalue hbound
  have harity : operator.comparison.arity = 1 := (arity_comparison operator).trans h.arity_eq
  rw [Operator.holdsOn_iff hbound, Operator.holdsOn_iff (h.coerce_eq_ok_iff.mpr hbound),
    List.map_singleton, h.compareWith_eq, Truth.negate_eq_true_iff,
    compareWith_ne_none_iff harity hscalar]

/-- **The cells between two values** are those with a value that is neither less than the one nor
greater than the other. -/
theorem isBetween_holdsOn_iff (hlow : low.IsKnown) (hhigh : high.IsKnown) :
    isBetween.HoldsOn now [low, high] cell ↔
      cell.value ≠ .null ∧ ¬isLessThan.HoldsOn now [low] cell ∧
        ¬isGreaterThan.HoldsOn now [high] cell := by
  have hbetween : isBetween.coerce now [low, high] = .ok [low, high] := rfl
  have hless : isLessThan.coerce now [low] = .ok [low] := rfl
  have hgreater : isGreaterThan.coerce now [high] = .ok [high] := rfl
  rw [Operator.holdsOn_iff hbetween, Operator.holdsOn_iff hless, Operator.holdsOn_iff hgreater]
  simp only [comparison, List.map_cons, List.map_nil]
  rw [compareWith_between, Truth.both_eq_true_iff, Truth.negate_eq_true_iff,
    Truth.negate_eq_true_iff, compareWith_ne_none_iff rfl hlow, compareWith_ne_none_iff rfl hhigh,
    ← and_and_left]

end Rule.Operator

/-! ### Rows -/

/-- A row has a value in a column of an entity: its cell there is not null. -/
def Store.Row.HasValue (row : Row) (entity : Entity) (column : String) : Prop :=
  ∃ cell ∈ row.cell? entity column, cell.value ≠ .null

instance (row : Row) (entity : Entity) (column : String) :
    Decidable (row.HasValue entity column) :=
  inferInstanceAs (Decidable (∃ cell ∈ row.cell? entity column, _))

namespace Rule

variable {schema : Schema} {database : Database} {entity : Entity} {column : String}
  {now : Instant} {rule other : Rule} {query : Query}

/-- The rows of the base table of which a rule is true. -/
def selection (schema : Schema) (database : Database) (entity : Entity) (now : Instant)
    (rule : Rule) : List Row :=
  (database.rows entity.name).filter fun row => rule.HoldsOn schema database entity now row

/-- The query of a rule that is the only one of its tree. -/
def queryAlone (schema : Schema) (base : String) (now : Instant) (rule : Rule) :
    Except Rule.Error Query :=
  (RuleTree.ofGroups [.ofRules [rule]]).compile schema base now

/-- A tree of a single rule is compiled to the condition of the rule. -/
theorem compiled_alone_iff {base : String}
    {compiled : List (List (Query.Condition × List Scalar))} :
    RuleTree.Compiled schema base now (RuleTree.ofGroups [.ofRules [rule]]).groups compiled ↔
      ∃ c, rule.compile schema base now = .ok c ∧ compiled = [[c]] := by
  constructor
  · intro h
    obtain ⟨conditions, _, hgroup, hgroups, rfl⟩ := List.forall₂_cons_left_iff.mp h
    obtain ⟨c, _, hrule, hrules, rfl⟩ := List.forall₂_cons_left_iff.mp hgroup
    rw [List.forall₂_nil_left_iff.mp hgroups, List.forall₂_nil_left_iff.mp hrules]
    exact ⟨c, hrule, rfl⟩
  · rintro ⟨c, hrule, rfl⟩
    exact .cons (.cons hrule .nil) .nil

/-- The query of a single rule on a column of the base entity makes one comparison, with the values
that the operator binds. -/
theorem queryAlone_eq_ok_iff (hentity : entity ∈ schema.entities)
    (hfield : schema.resolve entity.name rule.field = .ok (.own column)) :
    rule.queryAlone schema entity.name now = .ok query ↔
      ∃ bound, rule.operator.coerce now rule.values = .ok bound ∧
        query = .ofPredicate entity.name (.anyOf [[.own ⟨column, rule.operator.comparison⟩]])
          bound := by
  have hsome : (schema.entity? entity.name).isSome := by
    rw [Catalog.Schema.entity?_name hentity, Option.isSome_some]
  have hquery : ∀ (condition : Query.Condition) (bound : List Scalar),
      Query.ofPredicate entity.name (RuleTree.predicate [[(condition, bound)]])
        (RuleTree.bindings [[(condition, bound)]]) =
          .ofPredicate entity.name (.anyOf [[condition]]) bound := fun condition bound => by
    simp [RuleTree.predicate, RuleTree.bindings]
  simp only [queryAlone, RuleTree.compile_eq_ok_iff, compiled_alone_iff, hsome, true_and]
  constructor
  · rintro ⟨_, ⟨⟨condition, bound⟩, hrule, rfl⟩, rfl⟩
    obtain ⟨field, hfield', hbound, rfl⟩ := compile_eq_ok_iff.mp hrule
    obtain rfl := Except.ok.inj (hfield'.symm.trans hfield)
    exact ⟨bound, hbound, hquery _ bound⟩
  · rintro ⟨bound, hbound, rfl⟩
    have hrule := compile_eq_ok_iff.mpr ⟨_, hfield, hbound, rfl⟩
    exact ⟨_, ⟨_, hrule, rfl⟩, (hquery _ bound).symm⟩

/-- The query of a single rule on a column of the base entity is within the limits, unless it binds
a long pattern. -/
theorem isWithinLimits_of_queryAlone (hentity : entity ∈ schema.entities)
    (hfield : schema.resolve entity.name rule.field = .ok (.own column))
    (h : rule.queryAlone schema entity.name now = .ok query) (hshort : query.HasShortPatterns) :
    query.IsWithinLimits := by
  obtain ⟨bound, -, rfl⟩ := (queryAlone_eq_ok_iff hentity hfield).mp h
  have hproper : (Query.Predicate.anyOf [[.own ⟨column, rule.operator.comparison⟩]]).IsProper :=
    ⟨List.cons_ne_nil _ _, by simp⟩
  rw [Query.hasShortPatterns_ofPredicate_iff hproper] at hshort
  exact (Query.isWithinLimits_ofPredicate_iff hproper).mpr (isWithinLimits_single hshort)

/-- **A single rule selects the rows of which it is true**, on the media library, unless it binds a
long pattern. -/
theorem execute_queryAlone (hdatabase : database.IsOf Catalog.library)
    (hentity : entity ∈ Catalog.library.entities)
    (hfield : Catalog.library.resolve entity.name rule.field = .ok (.own column))
    (h : rule.queryAlone Catalog.library entity.name now = .ok query)
    (hshort : query.HasShortPatterns) :
    ∃ result, execute database query = .ok result ∧
      result.rows.Perm ((rule.selection Catalog.library database entity now).map fun row =>
        row.values.map Value.toScalar) := by
  obtain ⟨result, hexecute, -, hrows⟩ := RuleTree.execute_compile Catalog.validate_library
    Catalog.hasSeparateNames_library hdatabase hentity Catalog.target_ne_source_library h
    (isWithinLimits_of_queryAlone hentity hfield h hshort)
  simp only [RuleTree.holdsOn_single_iff] at hrows
  exact ⟨result, hexecute, hrows⟩

/-- A rule with the opposite operator binds the same values. -/
theorem coerce_of_isOpposite (hopposite : rule.operator.IsOpposite other.operator)
    (hvalues : rule.values = other.values) {bound : List Scalar}
    (hbound : rule.operator.coerce now rule.values = .ok bound) :
    other.operator.coerce now other.values = .ok bound := by
  obtain ⟨value, hvalue⟩ :=
    List.length_eq_one_iff.mp (rule.values_length.trans hopposite.arity_eq)
  rw [hvalue] at hbound
  rw [← hvalues, hvalue]
  exact hopposite.coerce_eq_ok_iff.mpr hbound

variable {row : Row}

/-- No rule on a column is true of a row without a value there. -/
theorem hasValue_of_holdsOn (hentity : entity ∈ schema.entities)
    (hrule : schema.resolve entity.name rule.field = .ok (.own column))
    (h : rule.HoldsOn schema database entity now row) :
    row.HasValue entity column := by
  obtain ⟨cell, hcell, h⟩ := (holdsOn_own_iff hentity hrule).mp h
  exact ⟨cell, hcell, h.value_ne_null⟩

/-- An opposite rule on a column is true of the other rows with a value there. -/
theorem opposite_holdsOn_iff (hentity : entity ∈ schema.entities)
    (hrule : schema.resolve entity.name rule.field = .ok (.own column))
    (hother : schema.resolve entity.name other.field = .ok (.own column))
    (hopposite : rule.operator.IsOpposite other.operator) (hvalues : rule.values = other.values)
    (hknown : ∀ value ∈ rule.values, value.IsKnown) {bound : List Scalar}
    (hbound : rule.operator.coerce now rule.values = .ok bound) :
    other.HoldsOn schema database entity now row ↔
      row.HasValue entity column ∧ ¬rule.HoldsOn schema database entity now row := by
  obtain ⟨value, hvalue⟩ :=
    List.length_eq_one_iff.mp (rule.values_length.trans hopposite.arity_eq)
  rw [hvalue] at hbound hknown
  have hcell : ∀ cell : Cell, other.operator.HoldsOn now [value] cell ↔
      cell.value ≠ .null ∧ ¬rule.operator.HoldsOn now [value] cell := fun _ =>
    hopposite.holdsOn_iff (List.forall_mem_singleton.mp hknown) hbound
  rw [holdsOn_own_iff hentity hrule, holdsOn_own_iff hentity hother, Row.HasValue, ← hvalues, hvalue]
  cases row.cell? entity column with
  | none => simp
  | some cell => simpa using hcell cell

/-- The rule that a column is between two values is true of the rows with a value there that is
neither less than the one nor greater than the other. -/
theorem between_holdsOn_iff (hentity : entity ∈ schema.entities)
    (hcolumn : schema.resolve entity.name column = .ok (.own column))
    {low high : Scalar} (hlow : low.IsKnown) (hhigh : high.IsKnown) :
    Rule.HoldsOn schema database entity now row ⟨column, .isBetween, [low, high], rfl⟩ ↔
      row.HasValue entity column ∧
        ¬Rule.HoldsOn schema database entity now row ⟨column, .isLessThan, [low], rfl⟩ ∧
        ¬Rule.HoldsOn schema database entity now row ⟨column, .isGreaterThan, [high], rfl⟩ := by
  have hholds : ∀ operator values h,
      Rule.HoldsOn schema database entity now row ⟨column, operator, values, h⟩ ↔
        ∃ cell ∈ row.cell? entity column, operator.HoldsOn now values cell :=
    fun _ _ _ => holdsOn_own_iff hentity hcolumn
  rw [hholds .isBetween [low, high] rfl, hholds .isLessThan [low] rfl,
    hholds .isGreaterThan [high] rfl, Row.HasValue]
  cases row.cell? entity column with
  | none => simp
  | some cell => simpa using Operator.isBetween_holdsOn_iff hlow hhigh

/-! ### Selections -/

theorem mem_selection_iff :
    row ∈ rule.selection schema database entity now ↔
      row ∈ database.rows entity.name ∧ rule.HoldsOn schema database entity now row := by
  rw [selection, List.mem_filter, decide_eq_true_iff]

/-- A rule and its opposite select different rows, and together those with a value. -/
theorem selection_opposite (hentity : entity ∈ schema.entities)
    (hrule : schema.resolve entity.name rule.field = .ok (.own column))
    (hother : schema.resolve entity.name other.field = .ok (.own column))
    (hopposite : rule.operator.IsOpposite other.operator) (hvalues : rule.values = other.values)
    (hknown : ∀ value ∈ rule.values, value.IsKnown) {bound : List Scalar}
    (hbound : rule.operator.coerce now rule.values = .ok bound) :
    (rule.selection schema database entity now).Disjoint
        (other.selection schema database entity now) ∧
      (rule.selection schema database entity now ++
        other.selection schema database entity now).Perm
          ((database.rows entity.name).filter fun row => row.HasValue entity column) := by
  let accepts (row : Row) : Bool := rule.HoldsOn schema database entity now row
  have hholds : ∀ row, other.HoldsOn schema database entity now row ↔
      row.HasValue entity column ∧ ¬rule.HoldsOn schema database entity now row := fun row =>
    opposite_holdsOn_iff hentity hrule hother hopposite hvalues hknown hbound
  have hselected : rule.selection schema database entity now =
      ((database.rows entity.name).filter fun row => row.HasValue entity column).filter
        accepts := by
    rw [List.filter_filter]
    refine List.filter_congr fun row _ => Bool.eq_iff_iff.mpr ?_
    simpa [accepts] using hasValue_of_holdsOn hentity hrule
  have hrejected : other.selection schema database entity now =
      ((database.rows entity.name).filter fun row => row.HasValue entity column).filter
        fun row => !accepts row := by
    rw [List.filter_filter]
    refine List.filter_congr fun row _ => Bool.eq_iff_iff.mpr ?_
    simp [accepts, hholds row, and_comm]
  refine ⟨fun row hrow hrow' => ?_, ?_⟩
  · exact ((hholds row).mp (mem_selection_iff.mp hrow').2).2 (mem_selection_iff.mp hrow).2
  · rw [hselected, hrejected]
    exact List.filter_append_perm _ _

/-- The rows between two values are those with a value that two other rules leave. -/
theorem selection_between (hentity : entity ∈ schema.entities)
    (hcolumn : schema.resolve entity.name column = .ok (.own column))
    {low high : Scalar} (hlow : low.IsKnown) (hhigh : high.IsKnown) :
    selection schema database entity now ⟨column, .isBetween, [low, high], rfl⟩ =
      ((database.rows entity.name).filter fun row => row.HasValue entity column).filter fun row =>
        row ∉ selection schema database entity now ⟨column, .isLessThan, [low], rfl⟩ ∧
          row ∉ selection schema database entity now ⟨column, .isGreaterThan, [high], rfl⟩ := by
  rw [List.filter_filter]
  refine List.filter_congr fun row hrow => Bool.eq_iff_iff.mpr ?_
  rw [decide_eq_true_iff, between_holdsOn_iff hentity hcolumn hlow hhigh]
  simp [mem_selection_iff, hrow, and_comm]

/-- **Opposite operators split the rows** of the media library. On every database and every column
of a base entity, each rule that compiles selects rows with a value in the column only; these are
what its query gives, unless it binds a long pattern. A rule with an opposite operator compiles too;
the two select no row in common, and together the rows with a value. The rows with a value that are
neither less than a value nor greater than another one are those that `isBetween` selects. -/
theorem opposites_split (hdatabase : database.IsOf Catalog.library)
    (hentity : entity ∈ Catalog.library.entities) (hcolumn : entity.hasColumn column)
    (now : Instant) :
    let query (rule : Rule) := rule.queryAlone Catalog.library entity.name now
    let selection (rule : Rule) := rule.selection Catalog.library database entity now
    let known := (database.rows entity.name).filter fun row => row.HasValue entity column
    (∀ rule compiled, rule.field = column → query rule = .ok compiled →
      (compiled.HasShortPatterns → ∃ result, execute database compiled = .ok result ∧
        result.rows.Perm ((selection rule).map fun row => row.values.map Value.toScalar)) ∧
      ∀ row ∈ selection rule, row.HasValue entity column) ∧
    (∀ rule other compiled, rule.field = column → other.field = column →
      rule.operator.IsOpposite other.operator → rule.values = other.values →
      (∀ value ∈ rule.values, value.IsKnown) → query rule = .ok compiled →
        (∃ compiled', query other = .ok compiled') ∧
        (selection rule).Disjoint (selection other) ∧
        (selection rule ++ selection other).Perm known) ∧
    ∀ low high : Scalar, low.IsKnown → high.IsKnown →
      selection ⟨column, .isBetween, [low, high], rfl⟩ = known.filter fun row =>
        row ∉ selection ⟨column, .isLessThan, [low], rfl⟩ ∧
          row ∉ selection ⟨column, .isGreaterThan, [high], rfl⟩ := by
  intro query selection known
  have hresolve : ∀ rule : Rule, rule.field = column →
      Catalog.library.resolve entity.name rule.field = .ok (.own column) := fun rule hfield => by
    rw [hfield]
    exact Catalog.resolve_own_library hentity hcolumn
  refine ⟨fun rule compiled hfield h => ⟨?_, fun row hrow => ?_⟩,
    fun rule other compiled hfield hfield' hopposite hvalues hknown h => ?_,
    fun low high hlow hhigh => ?_⟩
  · exact fun hshort => execute_queryAlone hdatabase hentity (hresolve rule hfield) h hshort
  · exact hasValue_of_holdsOn hentity (hresolve rule hfield) (mem_selection_iff.mp hrow).2
  · obtain ⟨bound, hbound, -⟩ := (queryAlone_eq_ok_iff hentity (hresolve rule hfield)).mp h
    have hbound' := coerce_of_isOpposite hopposite hvalues hbound
    exact ⟨⟨_, (queryAlone_eq_ok_iff hentity (hresolve other hfield')).mpr ⟨bound, hbound', rfl⟩⟩,
      selection_opposite hentity (hresolve rule hfield) (hresolve other hfield') hopposite hvalues hknown
        hbound⟩
  · exact selection_between hentity (Catalog.resolve_own_library hentity hcolumn) hlow hhigh

/-- Of three albums two have a cover, and one of two opposite rules selects each of these. -/
theorem opposites_split_cover :
    let database := (((Database.ofSchema Catalog.library).insert "albums"
        [.int 1, .int 1, .text "A", .null, .int 0, .text "2018-07-15", .text "2018-07-15"]).insert
        "albums" [.int 2, .int 1, .text "B", .text "b", .int 0, .text "2018-07-15",
          .text "2018-07-15"]).insert "albums"
        [.int 3, .int 1, .text "C", .text "c", .int 0, .text "2018-07-15", .text "2018-07-15"]
    let now : Instant := .midnight ⟨2018, 7, 15, by decide, by decide, by decide⟩
    ∃ query result,
      queryAlone Catalog.library "albums" now ⟨"cover", .isNot, [.text "b"], rfl⟩ = .ok query ∧
      execute database query = .ok result ∧
      result.rows.Perm
        [[.int 3, .int 1, .text "C", .text "c", .int 0, .text "2018-07-15", .text "2018-07-15"]] ∧
      ((Rule.has "cover" (.text "b")).selection Catalog.library database Catalog.albums now ++
        selection Catalog.library database Catalog.albums now
          ⟨"cover", .isNot, [.text "b"], rfl⟩).length = 2 ∧
      (selection Catalog.library database Catalog.albums now
        ⟨"cover", .isBetween, [.text "a", .text "b"], rfl⟩).map Row.number = [2] := by
  intro database now
  have halbums : Catalog.albums ∈ Catalog.library.entities := by decide
  have hdatabase : database.IsOf Catalog.library :=
    (((Database.isOf_ofSchema _).insert Catalog.hasSeparateNames_library halbums rfl).insert
      Catalog.hasSeparateNames_library halbums rfl).insert Catalog.hasSeparateNames_library
        halbums rfl
  have hcolumn : Catalog.albums.hasColumn "cover" := by decide
  obtain ⟨hresults, hopposites, hbetween⟩ := opposites_split hdatabase halbums hcolumn now
  obtain ⟨⟨query, hquery⟩, -, hrows⟩ := hopposites (.has "cover" (.text "b"))
    ⟨"cover", .isNot, [.text "b"], rfl⟩ _ rfl rfl (by decide) rfl
    (List.forall_mem_singleton.mpr trivial) rfl
  have hquery' : query = .ofPredicate "albums" (.anyOf [[.own ⟨"cover", .unequal⟩]])
      [.text "b"] := (Except.ok.inj hquery).symm
  have hproper : (Query.Predicate.anyOf [[.own ⟨"cover", .unequal⟩]]).IsProper :=
    ⟨by decide, by decide⟩
  have hshort : query.HasShortPatterns := by
    rw [hquery', Query.hasShortPatterns_ofPredicate_iff hproper]
    decide
  obtain ⟨hresult, -⟩ := hresults _ query rfl hquery
  obtain ⟨result, hexecute, hresult⟩ := hresult hshort
  refine ⟨query, result, hquery, hexecute, hresult.trans (List.Perm.of_eq ?_), ?_, ?_⟩
  · decide +kernel
  · rw [hrows.length_eq]
    decide +kernel
  · have hselected := hbetween (.text "a") (.text "b") trivial trivial
    exact (congrArg (List.map Row.number) hselected).trans (by decide +kernel)

end Rule

end PlaylistRules
