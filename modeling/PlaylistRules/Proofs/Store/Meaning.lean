import PlaylistRules.Proofs.Catalog.Resolution
import PlaylistRules.Proofs.Store.Tables
import PlaylistRules.Query.Compile

/-!
# The meaning of rules

What rules say about the rows of a database, without regard to queries and to how they are made. An
operator has a meaning of its own, a test of a cell with values that stand for the coerced ones. A
rule on a column of the base entity is true of a row when its cell passes the test. A rule on a
related column is true when a row of the related table joins the row and its cell passes the test. A
tree is true of a row when all rules of one of its groups are.

## Main definitions

* `Store.Row.Satisfies`, `Store.Row.Joins` : comparisons and joins of rows that are true.
* `Store.Value.StandsFor` : the values of tables that stand for scalars.
* `Rule.Operator.meaning` : the test that an operator stands for.
* `Rule.Operator.HoldsOn` : what the comparison of an operator is true of.
* `Catalog.Field.HoldsOn`, `Rule.HoldsOn`, `RuleTree.HoldsOn` : what is true of a row.

## Main results

* `Store.Value.forall₂_standsFor_iff` : the bound values stand for the scalars.
* `Rule.Operator.compareWith_comparison` : the comparison of an operator has its meaning.
* `Rule.holdsOn_iff` : the meaning of a rule that is compiled.
-/

namespace PlaylistRules

open Catalog (Schema Entity)
open Store (Cell Database Row Truth Value compareWith equalCells matchValue)

namespace Store

/-- The rows of the table of a name. -/
def Database.rows (database : Database) (name : String) : List Row :=
  (database.table? name).elim [] Table.rows

/-- The comparison of a row's cell in a column with values is true, neither false nor unknown. -/
def Row.Satisfies (row : Row) (entity : Entity) (column : String) (comparison : Rule.Comparison)
    (values : List Value) : Prop :=
  ∃ cell ∈ row.cell? entity column, compareWith cell comparison values = some true

/-- The cells of two rows in two columns are equal, and neither is null. -/
def Row.Joins (row : Row) (entity : Entity) (column : String) (other : Row) (target : Entity)
    (targetColumn : String) : Prop :=
  ∃ a ∈ row.cell? entity column, ∃ b ∈ other.cell? target targetColumn, equalCells a b = some true

instance (row : Row) (entity : Entity) (column : String) (comparison : Rule.Comparison)
    (values : List Value) : Decidable (row.Satisfies entity column comparison values) :=
  inferInstanceAs (Decidable (∃ cell ∈ row.cell? entity column, _))

instance (row : Row) (entity : Entity) (column : String) (other : Row) (target : Entity)
    (targetColumn : String) : Decidable (row.Joins entity column other target targetColumn) :=
  inferInstanceAs (Decidable (∃ a ∈ row.cell? entity column, _))

/-- A value of a table stands for a scalar: one and zero for booleans, the text in which it is shown
for an instant, null for a number that is none, and otherwise the same value. -/
inductive Value.StandsFor : Value → Scalar → Prop
  | null : StandsFor .null .null
  | yes : StandsFor (.int 1) (.bool true)
  | no : StandsFor (.int 0) (.bool false)
  | int (word : Int64) : StandsFor (.int word) (.int word)
  | real {f : Binary64} : f.isNaN = false → StandsFor (.real f) (.float f)
  | notNumber {f : Binary64} : f.isNaN = true → StandsFor .null (.float f)
  | text (text : String) : StandsFor (.text text) (.text text)
  | instant (instant : Calendar.Instant) : StandsFor (.text instant.display) (.instant instant)

theorem Value.standsFor_iff {value : Value} {scalar : Scalar} :
    value.StandsFor scalar ↔ value = Value.ofScalar scalar := by
  constructor
  · intro h
    cases h with
    | real hnumber => rw [Value.ofScalar, hnumber]; rfl
    | notNumber hnone => rw [Value.ofScalar, if_pos hnone]
    | _ => rfl
  · rintro rfl
    cases scalar with
    | null => exact .null
    | bool truth => cases truth with
      | true => exact .yes
      | false => exact .no
    | int word => exact .int word
    | float f =>
      rw [Value.ofScalar]
      split
      · next hnone => exact .notNumber hnone
      · next hnumber => exact .real (Bool.eq_false_iff.mpr hnumber)
    | text text => exact .text text
    | instant instant => exact .instant instant

/-- **The bound values stand for the scalars.** -/
theorem Value.forall₂_standsFor_iff {values : List Value} {bound : List Scalar} :
    List.Forall₂ Value.StandsFor values bound ↔ values = bound.map Value.ofScalar := by
  have hstands : Value.StandsFor = fun value scalar => value = Value.ofScalar scalar :=
    funext fun _ => funext fun _ => propext Value.standsFor_iff
  rw [hstands, ← List.forall₂_map_right_iff, List.forall₂_eq_eq_eq]

end Store

namespace Rule.Operator

/-- The test that an operator stands for, of a cell with values: equal or not, a match with a
pattern or none, between two values, greater or less than a value, and at an instant or after it, or
before it. -/
def meaning (operator : Operator) (cell : Cell) (values : List Value) : Truth :=
  match operator, values with
  | is, [value] => Value.test cell.affinity (· == .eq) cell.value value
  | isNot, [value] => Value.test cell.affinity (· != .eq) cell.value value
  | contains, [pattern] | beginsWith, [pattern] | endsWith, [pattern] =>
    matchValue cell.value pattern
  | doesNotContain, [pattern] => (matchValue cell.value pattern).negate
  | isBetween, [low, high] =>
    Truth.both (Value.test cell.affinity (· != .lt) cell.value low)
      (Value.test cell.affinity (· != .gt) cell.value high)
  | isGreaterThan, [value] => Value.test cell.affinity (· == .gt) cell.value value
  | isLessThan, [value] => Value.test cell.affinity (· == .lt) cell.value value
  | inLast, [instant] => Value.test cell.affinity (· != .lt) cell.value instant
  | notInLast, [instant] => Value.test cell.affinity (· == .lt) cell.value instant
  | _, _ => none

/-- **The comparison of an operator has its meaning.** -/
theorem compareWith_comparison (operator : Operator) (cell : Cell) (values : List Value) :
    compareWith cell operator.comparison values = operator.meaning cell values := by
  -- Only the number of values counts, and no operator takes more than two.
  rcases values with _ | ⟨first, _ | ⟨second, _ | ⟨third, others⟩⟩⟩ <;> cases operator <;> rfl

end Rule.Operator

/-- An operator with values is true of a cell: it can bind the values, and its comparison with what
it binds is true. -/
def Rule.Operator.HoldsOn (operator : Operator) (now : Calendar.Instant) (values : List Scalar)
    (cell : Cell) : Prop :=
  ∃ bound ∈ (operator.coerce now values).toOption,
    compareWith cell operator.comparison (bound.map Value.ofScalar) = some true

instance (operator : Rule.Operator) (now : Calendar.Instant) (values : List Scalar) (cell : Cell) :
    Decidable (operator.HoldsOn now values cell) :=
  inferInstanceAs (Decidable (∃ bound ∈ (operator.coerce now values).toOption, _))

variable (schema : Schema) (database : Database) (entity : Entity) (now : Calendar.Instant)
  (row : Row)

/-- A test of a cell in the column of a field is true of a row: on its own cell, or on the cell of a
related row. -/
def Catalog.Field.HoldsOn (test : Cell → Truth) : Catalog.Field → Prop
  | own column => ∃ cell ∈ row.cell? entity column, test cell = some true
  | related relation column =>
    ∃ target ∈ schema.entity? relation.target, ∃ other ∈ database.rows target.name,
      row.Joins entity relation.sourceColumn other target relation.targetColumn ∧
        ∃ cell ∈ other.cell? target column, test cell = some true

instance (test : Cell → Truth) :
    (field : Catalog.Field) → Decidable (field.HoldsOn schema database entity row test)
  | .own column => inferInstanceAs (Decidable (∃ cell ∈ row.cell? entity column, _))
  | .related relation _ =>
    inferInstanceAs (Decidable (∃ target ∈ schema.entity? relation.target, _))

/-- A rule is true of a row of a base entity: its operator takes the values, the schema has the
field that its path names, and the test of the operator is true of the field, with values that stand
for the coerced ones. -/
def Rule.HoldsOn (rule : Rule) : Prop :=
  ∃ coerced ∈ (rule.operator.coerce now rule.values).toOption,
    ∃ values, List.Forall₂ Value.StandsFor values coerced ∧ ∃ field : Catalog.Field,
      rule.field = field.path ∧ field.IsReachable schema entity ∧
        field.HoldsOn schema database entity row (rule.operator.meaning · values)

/-- The meaning of a rule in terms of its bound values and of the fields that its path may name. -/
theorem Rule.holdsOn_iff_exists_mem_fieldsAt (rule : Rule) :
    (∃ coerced ∈ (rule.operator.coerce now rule.values).toOption,
      ∃ field ∈ schema.fieldsAt rule.field, rule.field = field.path ∧
        field.IsReachable schema entity ∧ field.HoldsOn schema database entity row
          (rule.operator.meaning · (coerced.map Value.ofScalar))) ↔
      rule.HoldsOn schema database entity now row := by
  simp only [HoldsOn, Value.forall₂_standsFor_iff, exists_eq_left, Schema.exists_mem_fieldsAt_iff]

instance (rule : Rule) : Decidable (rule.HoldsOn schema database entity now row) :=
  decidable_of_iff _ (rule.holdsOn_iff_exists_mem_fieldsAt schema database entity now row)

/-- A tree is true of a row of a base entity: all rules of some group are. -/
def RuleTree.HoldsOn (tree : RuleTree) : Prop :=
  ∃ group ∈ tree.groups, ∀ rule ∈ group.rules, rule.HoldsOn schema database entity now row

instance (tree : RuleTree) : Decidable (tree.HoldsOn schema database entity now row) :=
  inferInstanceAs (Decidable (∃ group ∈ tree.groups, _))

variable {schema database entity now row}

/-- A comparison on a related column is true when some related row joins and satisfies it. -/
theorem Catalog.Field.holdsOn_related_iff {relation : Catalog.Relation} {column : String}
    {comparison : Rule.Comparison} {values : List Value} {target : Entity}
    (htarget : schema.entity? relation.target = some target) :
    (Catalog.Field.related relation column).HoldsOn schema database entity row
        (compareWith · comparison values) ↔
      ∃ other ∈ database.rows target.name,
        row.Joins entity relation.sourceColumn other target relation.targetColumn ∧
          other.Satisfies target column comparison values := by
  simp only [Catalog.Field.HoldsOn, htarget, Option.mem_def, Option.some.injEq, exists_eq_left',
    Row.Satisfies]

/-- A rule that is compiled is true when its comparison is true of its field. -/
theorem Rule.holdsOn_iff {rule : Rule} {field : Catalog.Field} {values : List Scalar}
    (hentity : entity ∈ schema.entities)
    (hfield : schema.resolve entity.name rule.field = .ok field)
    (hvalues : rule.operator.coerce now rule.values = .ok values) :
    rule.HoldsOn schema database entity now row ↔
      field.HoldsOn schema database entity row
        (compareWith · rule.operator.comparison (values.map Value.ofScalar)) := by
  simp only [Rule.HoldsOn, hvalues, Except.toOption, Option.mem_def, Option.some.injEq,
    exists_eq_left', Value.forall₂_standsFor_iff, exists_eq_left,
    Schema.exists_field_iff hentity hfield, Operator.compareWith_comparison]

theorem Rule.Operator.holdsOn_iff {operator : Operator} {values bound : List Scalar} {cell : Cell}
    (hbound : operator.coerce now values = .ok bound) :
    operator.HoldsOn now values cell ↔
      compareWith cell operator.comparison (bound.map Value.ofScalar) = some true := by
  rw [HoldsOn, hbound]
  simp only [Except.toOption, Option.mem_def, Option.some.injEq, exists_eq_left']

/-- A rule on a column of the base entity is true of a row when its operator is true of the row's
cell in the column. -/
theorem Rule.holdsOn_own_iff {rule : Rule} {column : String} (hentity : entity ∈ schema.entities)
    (hfield : schema.resolve entity.name rule.field = .ok (.own column)) :
    rule.HoldsOn schema database entity now row ↔
      ∃ cell ∈ row.cell? entity column, rule.operator.HoldsOn now rule.values cell := by
  simp only [Rule.HoldsOn, Value.forall₂_standsFor_iff, exists_eq_left,
    Schema.exists_field_iff hentity hfield, Catalog.Field.HoldsOn, Operator.HoldsOn,
    Operator.compareWith_comparison]
  exact ⟨fun ⟨values, hvalues, cell, hcell, h⟩ => ⟨cell, hcell, values, hvalues, h⟩,
    fun ⟨cell, hcell, values, hvalues, h⟩ => ⟨values, hvalues, cell, hcell, h⟩⟩

/-- The tree of a single rule is true when the rule is. -/
theorem RuleTree.holdsOn_single_iff {rule : Rule} :
    (RuleTree.ofGroups [.ofRules [rule]]).HoldsOn schema database entity now row ↔
      rule.HoldsOn schema database entity now row := by
  have hgroups : (RuleTree.ofGroups [.ofRules [rule]]).groups = [.ofRules [rule]] := rfl
  rw [RuleTree.HoldsOn, hgroups]
  simp only [List.mem_singleton, exists_eq_left, RuleGroup.ofRules, forall_eq]

end PlaylistRules
