import PlaylistRules.Proofs.Store.Limits
import PlaylistRules.Proofs.Store.Meaning
import PlaylistRules.Store.Execute

/-!
# Executing compiled trees

The compiled query of a tree selects the rows for which the tree is true, within the limits of
statements and of patterns. The statement is read back from the text of the query, the names that a
condition uses are found in the right tables, each condition tests its own share of the bound
values, and the predicate is true of a row exactly when all rules of some group are.

## Main definitions

* `Query.IsWithinLimits`, `Query.HasShortPatterns` : the limits of the statement of a query.

## Main results

* `Store.conditionHolds_condition_iff` : the condition of a field has the field's meaning.
* `Store.holds_predicate_iff` : a predicate is true when all conditions of a group are.
* `RuleTree.execute_compile` : executing a compiled tree gives the rows for which it is true.
-/

namespace PlaylistRules

open Catalog (Schema Entity Field)
open Query (Condition Predicate Statement)

namespace Store

variable {schema : Schema} {database : Database} {entity : Entity} {table : Table} {row : Row}
  {column : String} {comparison : Rule.Comparison} {values : List Value}

/-! ### Conditions -/

/-- A comparison on a column of the nearest table is made with the cell that is found there. -/
theorem testHolds_eq {cell : Cell} (h : table.cell? row column = some cell) {scope : Scope} :
    testHolds (⟨table, row⟩ :: scope) ⟨column, comparison⟩ values =
      compareWith cell comparison values := by
  rw [testHolds, Scope.cell, List.findSome?_cons, h, Option.getD_some]

/-- A column of the nearest table is found there. -/
theorem testHolds_iff (htable : table.IsOf entity)
    (hnames : SeparateNames (entity.columns.map Catalog.Column.name)) (hrow : row ∈ table.rows)
    (hcolumn : entity.hasColumn column) (scope : Scope) :
    testHolds (⟨table, row⟩ :: scope) ⟨column, comparison⟩ values = some true ↔
      row.Satisfies entity column comparison values := by
  obtain ⟨cell, hcell, hfound⟩ := htable.exists_cell? hnames hrow hcolumn
  simp only [testHolds_eq hfound, Row.Satisfies, hcell, Option.mem_def, Option.some.injEq,
    exists_eq_left']

/-- The join columns of a related row belong to the two tables by their names. -/
theorem joinHolds_iff {target : Entity} {targetTable : Table} {other : Row}
    {sourceColumn targetColumn : String} (htable : table.IsOf entity)
    (hnames : SeparateNames (entity.columns.map Catalog.Column.name)) (hrow : row ∈ table.rows)
    (hsource : entity.hasColumn sourceColumn) (htarget : targetTable.IsOf target)
    (hnames' : SeparateNames (target.columns.map Catalog.Column.name))
    (hother : other ∈ targetTable.rows) (hjoin : target.hasColumn targetColumn)
    (hcolumn : target.hasColumn column) (hne : sameName target.name entity.name = false) :
    joinHolds [⟨targetTable, other⟩, ⟨table, row⟩] ⟨entity.name, sourceColumn⟩
        ⟨target.name, targetColumn⟩ ⟨column, comparison⟩ values = some true ↔
      row.Joins entity sourceColumn other target targetColumn ∧
        other.Satisfies target column comparison values := by
  obtain ⟨a, ha, hfound⟩ := htable.exists_cell? hnames hrow hsource
  obtain ⟨b, hb, hfound'⟩ := htarget.exists_cell? hnames' hother hjoin
  have houter : Scope.qualified? [⟨targetTable, other⟩, ⟨table, row⟩]
      ⟨entity.name, sourceColumn⟩ = some a := by
    simp only [Scope.qualified?, List.findSome?_cons, htarget.name_eq, hne, htable.name_eq,
      sameName_self, hfound, Bool.false_eq_true, if_true, if_false]
  have hinner : Scope.qualified? [⟨targetTable, other⟩, ⟨table, row⟩]
      ⟨target.name, targetColumn⟩ = some b := by
    simp only [Scope.qualified?, List.findSome?_cons, htarget.name_eq, sameName_self, hfound',
      if_true]
  rw [joinHolds, houter, hinner, Truth.both_eq_true_iff,
    testHolds_iff htarget hnames' hother hcolumn]
  simp only [Row.Joins, ha, hb, Option.mem_def, Option.some.injEq, exists_eq_left']

/-- A condition on a related row is true when some row of the related table has a true join and a
true comparison. -/
theorem conditionHolds_related_iff {targetTable : Table} {name : String}
    {outer inner : Query.ColumnRef} {test : Query.Test} {scope : Scope} {joined : Row → Prop}
    (hfound : database.table? name = some targetTable)
    (hjoined : ∀ other ∈ targetTable.rows,
      joinHolds (⟨targetTable, other⟩ :: scope) outer inner test values = some true ↔
        joined other) :
    conditionHolds database scope values (.related name outer inner test) = some true ↔
      ∃ other ∈ database.rows name, joined other := by
  simp only [conditionHolds, hfound, Option.some.injEq, List.any_eq_true, beq_iff_eq,
    Database.rows, Option.elim_some]
  exact exists_congr fun other => and_congr_right (hjoined other)

section Field

variable (hvalid : schema.validate = .ok ()) (hnames : schema.HasSeparateNames)
  (hdatabase : database.IsOf schema) (hentity : entity ∈ schema.entities)
  (htable : table.IsOf entity) {field : Field} (hfield : field.IsIn schema entity)

include hvalid hnames hdatabase hentity htable hfield

/-- The table and the join columns of the condition of a field exist. -/
theorem checkCondition_condition :
    checkCondition database table (field.condition entity.name comparison) = .ok () := by
  cases field with
  | own column => rfl
  | related relation column =>
    obtain ⟨target, hmem, htarget, hname, hsource, hjoin, -⟩ :=
      Schema.exists_target_of_isIn hvalid hentity hfield
    obtain ⟨targetTable, hfound, hof⟩ := hdatabase.exists_table? hnames hmem
    have houter : checkRef [targetTable, table] ⟨entity.name, relation.sourceColumn⟩ = .ok () := by
      rw [checkRef, if_pos]
      simp only [List.any_cons, htable.name_eq, sameName_self, htable.isSome_place? hsource,
        Bool.true_and, Bool.or_true, Bool.true_or]
    have hinner : checkRef [targetTable, table] ⟨target.name, relation.targetColumn⟩ = .ok () := by
      rw [checkRef, if_pos]
      simp only [List.any_cons, hof.name_eq, sameName_self, hof.isSome_place? hjoin,
        Bool.true_and, Bool.true_or]
    simp only [Field.condition, checkCondition, ← hname, hfound, houter, hinner]
    rfl

variable (hself : ∀ relation, field.relation? = some relation → relation.target ≠ entity.name)

include hself

/-- **The condition of a field has the field's meaning**, unless a relation leads from the base
entity to itself: the related row would hide the row of the base table. -/
theorem conditionHolds_condition_iff (hrow : row ∈ table.rows) :
    conditionHolds database [⟨table, row⟩] values (field.condition entity.name comparison) =
        some true ↔
      field.HoldsOn schema database entity row (compareWith · comparison values) := by
  have hcolumns := hnames.columns entity hentity
  cases field with
  | own column => exact testHolds_iff htable hcolumns hrow hfield []
  | related relation column =>
    obtain ⟨target, hmem, htarget, hname, hsource, hjoin, hcolumn⟩ :=
      Schema.exists_target_of_isIn hvalid hentity hfield
    obtain ⟨targetTable, hfound, hof⟩ := hdatabase.exists_table? hnames hmem
    have hne : sameName target.name entity.name = false := by
      rw [hnames.entities.sameName_eq_beq (List.mem_map_of_mem hmem) (List.mem_map_of_mem hentity),
        hname, beq_false_of_ne (hself relation rfl)]
    have hjoined : ∀ other ∈ targetTable.rows,
        joinHolds [⟨targetTable, other⟩, ⟨table, row⟩] ⟨entity.name, relation.sourceColumn⟩
          ⟨target.name, relation.targetColumn⟩ ⟨column, comparison⟩ values = some true ↔
        row.Joins entity relation.sourceColumn other target relation.targetColumn ∧
          other.Satisfies target column comparison values := fun other hother =>
      joinHolds_iff htable hcolumns hrow hsource hof (hnames.columns target hmem) hother hjoin
        hcolumn hne
    rw [Field.condition, ← hname, conditionHolds_related_iff hfound hjoined,
      Field.holdsOn_related_iff htarget]

end Field

/-! ### Predicates -/

section Predicates

variable {scope : Scope} {conditions : List (Condition × List Scalar)}
  {compiled : List (List (Condition × List Scalar))}

/-- Each condition of a group tests its own values, and the values of other groups are left. -/
theorem groupTruths_append (hlength : ∀ c ∈ conditions, c.2.length = c.1.arity)
    (rest : List Value) :
    groupTruths database scope (conditions.map Prod.fst)
        ((conditions.flatMap Prod.snd).map Value.ofScalar ++ rest) =
      (conditions.map fun c => conditionHolds database scope (c.2.map Value.ofScalar) c.1,
        rest) := by
  induction conditions with
  | nil => rfl
  | cons c conditions ih =>
    rw [List.forall_mem_cons] at hlength
    have harity : c.1.arity = (c.2.map Value.ofScalar).length := by
      rw [List.length_map, hlength.1]
    rw [List.map_cons, groupTruths, List.flatMap_cons, List.map_append, List.append_assoc, harity,
      List.take_left, List.drop_left, ih hlength.2, List.map_cons]

theorem choiceTruths_bindings
    (hlength : ∀ conditions ∈ compiled, ∀ c ∈ conditions, c.2.length = c.1.arity) :
    choiceTruths database scope (compiled.map fun conditions => conditions.map Prod.fst)
        ((RuleTree.bindings compiled).map Value.ofScalar) =
      compiled.map fun conditions => Truth.all (conditions.map fun c =>
        conditionHolds database scope (c.2.map Value.ofScalar) c.1) := by
  induction compiled with
  | nil => rfl
  | cons conditions compiled ih =>
    rw [List.forall_mem_cons] at hlength
    rw [List.map_cons, choiceTruths, RuleTree.bindings, List.flatMap_cons, List.map_append,
      groupTruths_append hlength.1, List.map_cons, ← RuleTree.bindings]
    exact congrArg _ (ih hlength.2)

/-- **A compiled predicate is true when all conditions of some group are**, each with the values
that its own rule binds. -/
theorem holds_predicate_iff
    (hlength : ∀ conditions ∈ compiled, ∀ c ∈ conditions, c.2.length = c.1.arity) :
    holds database scope ((RuleTree.bindings compiled).map Value.ofScalar)
        (RuleTree.predicate compiled) = some true ↔
      ∃ conditions ∈ compiled, ∀ c ∈ conditions,
        conditionHolds database scope (c.2.map Value.ofScalar) c.1 = some true := by
  unfold RuleTree.predicate
  split
  · next hempty =>
    rw [List.isEmpty_iff.mp hempty]
    exact ⟨fun h => (Bool.false_ne_true (Option.some.inj h)).elim, fun ⟨_, h, _⟩ => nomatch h⟩
  · rw [holds, choiceTruths_bindings hlength, Truth.any_eq_true_iff]
    simp only [List.mem_map, exists_exists_and_eq_and, Truth.all_eq_true_iff, forall_exists_index,
      and_imp, forall_apply_eq_imp_iff₂]

theorem checkPredicate_predicate {base : Table}
    (h : ∀ conditions ∈ compiled, ∀ c ∈ conditions, checkCondition database base c.1 = .ok ()) :
    checkPredicate database base (RuleTree.predicate compiled) = .ok () := by
  unfold RuleTree.predicate
  split
  · rfl
  · rw [checkPredicate, Outcome.forM_eq_ok_iff]
    intro condition hcondition
    obtain ⟨group, hgroup, hmem⟩ := List.mem_flatten.mp hcondition
    obtain ⟨conditions, hconditions, rfl⟩ := List.mem_map.mp hgroup
    obtain ⟨c, hc, rfl⟩ := List.mem_map.mp hmem
    exact h conditions hconditions c hc

end Predicates

/-! ### Results -/

/-- The rows that are visited are those that are selected, in some order. -/
theorem visited_perm (database : Database) (base : Table) (predicate : Predicate)
    (values : List Value) :
    (visited database base predicate values).Perm (select database base predicate values) := by
  cases predicate with
  | never => exact List.Perm.refl _
  | anyOf groups =>
    refine (arrange_perm base _ _).trans ?_
    rw [List.map_map]
    exact List.Perm.of_eq (List.map_id' _)

/-- A statement within the limits is executed when its table and its names exist and each
placeholder has a bound value. -/
theorem executeStatement_eq_ok {database : Database} {text : String} {statement : Statement}
    {bindings : List Scalar} {base : Table} (hbase : database.table? statement.table = some base)
    (hlimits : IsWithinLimits statement.predicate bindings)
    (hnames : checkPredicate database base statement.predicate = .ok ())
    (hcount : bindings.length = statement.predicate.arity) :
    executeStatement database text statement bindings =
      .ok ⟨base.columns.map Prod.fst,
        (visited database base statement.predicate (bindings.map Value.ofScalar)).map
          fun row => row.values.map Value.toScalar⟩ := by
  have hcheck : checkLimits statement.predicate = .ok () :=
    checkLimits_eq_ok_iff.mpr ⟨hlimits.arity_le,
      Nat.le_trans (predicateHeight_le_nestedHeight _) hlimits.isShallow⟩
  simp only [executeStatement, hcheck, hbase, hlimits.isShallow, hnames, hcount, not_true, ne_eq,
    if_false]
  rfl

end Store

open Store

/-! ### Limits -/

namespace Query

/-- The statement of a query is within the limits, with the bound values of the query. -/
def IsWithinLimits (query : Query) : Prop :=
  ∀ statement ∈ Statement.read? query.sql,
    Store.IsWithinLimits statement.predicate query.bindings

/-- No bound value of a query is a long pattern in its statement. -/
def HasShortPatterns (query : Query) : Prop :=
  ∀ statement ∈ Statement.read? query.sql,
    Store.HasShortPatterns statement.predicate query.bindings

variable {base : String} {predicate : Predicate} {bindings : List Scalar}

/-- The statement of a query of a proper predicate. -/
theorem read?_sql_ofPredicate (h : predicate.IsProper) :
    Statement.read? (Query.ofPredicate base predicate bindings).sql = some ⟨base, predicate⟩ := by
  rw [Statement.read?_sql, ofPredicate, Predicate.read?_text h, Option.map_some]

theorem isWithinLimits_ofPredicate_iff (h : predicate.IsProper) :
    (Query.ofPredicate base predicate bindings).IsWithinLimits ↔
      Store.IsWithinLimits predicate bindings := by
  rw [IsWithinLimits, read?_sql_ofPredicate h]
  simp only [Option.mem_def, Option.some.injEq, forall_eq']
  rfl

theorem hasShortPatterns_ofPredicate_iff (h : predicate.IsProper) :
    (Query.ofPredicate base predicate bindings).HasShortPatterns ↔
      Store.HasShortPatterns predicate bindings := by
  rw [HasShortPatterns, read?_sql_ofPredicate h]
  simp only [Option.mem_def, Option.some.injEq, forall_eq']
  rfl

end Query

namespace RuleTree

variable {schema : Schema} {database : Database} {entity : Entity} {now : Calendar.Instant}

/-- A rule that is compiled on a base entity has a field of it, with the comparison of the rule as
its condition. -/
theorem exists_field_of_compile {rule : Rule} {c : Condition × List Scalar}
    (hentity : entity ∈ schema.entities) (h : rule.compile schema entity.name now = .ok c) :
    ∃ field, field.IsIn schema entity ∧ schema.resolve entity.name rule.field = .ok field ∧
      rule.operator.coerce now rule.values = .ok c.2 ∧
      c.1 = field.condition entity.name rule.operator.comparison := by
  obtain ⟨field, hfield, hvalues, hcondition⟩ := Rule.compile_eq_ok_iff.mp h
  exact ⟨field, Schema.isIn_of_resolve (Schema.entity?_name hentity) hfield, hfield, hvalues,
    hcondition⟩

/-- The relation of a field does not lead back to the base entity if no relation from it does. -/
theorem target_ne_of_isIn {field : Field} (hfield : field.IsIn schema entity)
    (hself : ∀ relation ∈ schema.relations, relation.source = entity.name →
      relation.target ≠ entity.name) :
    ∀ relation, field.relation? = some relation → relation.target ≠ entity.name := by
  intro relation hrelation
  cases field with
  | own column => cases hrelation
  | related other column =>
    obtain rfl := Option.some.inj hrelation
    exact hself other hfield.1 hfield.2.1

section Execution

variable (hvalid : schema.validate = .ok ()) (hnames : schema.HasSeparateNames)
  (hdatabase : database.IsOf schema) (hentity : entity ∈ schema.entities)

include hvalid hnames hdatabase hentity

/-- The query of a compiled tree within the limits is executed, and gives the rows of the base table
on which the predicate is true. -/
theorem execute_of_holds_iff {tree : RuleTree} {compiled : List (List (Condition × List Scalar))}
    (hcompiled : Compiled schema entity.name now tree.groups compiled)
    (hlimits : Store.IsWithinLimits (predicate compiled) (bindings compiled)) {table : Table}
    (hfound : database.table? entity.name = some table) (htable : table.IsOf entity)
    {selected : Row → Prop} [DecidablePred selected]
    (hholds : ∀ row ∈ table.rows, holds database [⟨table, row⟩]
      ((bindings compiled).map Value.ofScalar) (predicate compiled) = some true ↔ selected row) :
    ∃ result, execute database (.ofPredicate entity.name (predicate compiled)
        (bindings compiled)) = .ok result ∧
      result.columns = entity.columns.map Catalog.Column.name ∧
      result.rows.Perm (((database.rows entity.name).filter fun row => selected row).map fun row =>
        row.values.map Value.toScalar) := by
  have hlength : ∀ conditions ∈ compiled, ∀ c ∈ conditions, c.2.length = c.1.arity :=
    fun _ hconditions _ hc => length_of_mem_compiled hcompiled hconditions hc
  have hread : Statement.read? (Query.ofPredicate entity.name (predicate compiled)
      (bindings compiled)).sql = some ⟨entity.name, predicate compiled⟩ :=
    Query.read?_sql_ofPredicate (isProper_predicate hcompiled)
  have hcheck : checkPredicate database table (predicate compiled) = .ok () := by
    refine checkPredicate_predicate fun conditions hconditions c hc => ?_
    obtain ⟨group, -, hgroup⟩ := Related.exists_of_mem_right hcompiled hconditions
    obtain ⟨rule, -, hrule⟩ := Related.exists_of_mem_right hgroup hc
    obtain ⟨field, hfield, -, -, hcondition⟩ := exists_field_of_compile hentity hrule
    rw [hcondition]
    exact checkCondition_condition hvalid hnames hdatabase hentity htable hfield
  have hrows : select database table (predicate compiled)
      ((bindings compiled).map Value.ofScalar) =
        (database.rows entity.name).filter fun row => selected row := by
    rw [Database.rows, hfound, Option.elim_some]
    refine List.filter_congr fun row hrow => Bool.eq_iff_iff.mpr ?_
    rw [beq_iff_eq, decide_eq_true_iff]
    exact hholds row hrow
  rw [execute, hread]
  refine ⟨_, executeStatement_eq_ok hfound hlimits hcheck (arity_predicate hlength).symm,
    htable.map_fst_columns, ?_⟩
  rw [← hrows]
  exact (visited_perm database table _ _).map _

variable (hself : ∀ relation ∈ schema.relations, relation.source = entity.name →
  relation.target ≠ entity.name)

include hself

/-- The predicate of a compiled tree is true of a row exactly when the tree is. -/
theorem holds_predicate_iff_holdsOn {table : Table} (htable : table.IsOf entity) {row : Row}
    (hrow : row ∈ table.rows) {tree : RuleTree} {compiled : List (List (Condition × List Scalar))}
    (hcompiled : Compiled schema entity.name now tree.groups compiled) :
    holds database [⟨table, row⟩] ((bindings compiled).map Value.ofScalar) (predicate compiled) =
        some true ↔ tree.HoldsOn schema database entity now row := by
  rw [holds_predicate_iff fun _ hconditions _ hc => length_of_mem_compiled hcompiled hconditions hc]
  refine (Related.exists_mem_iff hcompiled fun group conditions hgroup => ?_).symm
  refine Related.forall_mem_iff hgroup fun rule c hrule => ?_
  obtain ⟨field, hfield, hresolve, hvalues, hcondition⟩ := exists_field_of_compile hentity hrule
  rw [Rule.holdsOn_iff hentity hresolve hvalues, hcondition,
    conditionHolds_condition_iff hvalid hnames hdatabase hentity htable hfield
      (target_ne_of_isIn hfield hself) hrow]

/-- **Compiling keeps the meaning of a tree.** On a database of a valid schema with separate names,
the query of a tree is executed and gives the rows for which the tree is true, each once. No
relation may lead from the base entity to itself. -/
theorem execute_compile {tree : RuleTree} {query : Query}
    (hcompile : tree.compile schema entity.name now = .ok query)
    (hlimits : query.IsWithinLimits) :
    ∃ result, execute database query = .ok result ∧
      result.columns = entity.columns.map Catalog.Column.name ∧
      result.rows.Perm (((database.rows entity.name).filter fun row =>
        tree.HoldsOn schema database entity now row).map fun row =>
          row.values.map Value.toScalar) := by
  obtain ⟨-, compiled, hcompiled, rfl⟩ := compile_eq_ok_iff.mp hcompile
  obtain ⟨table, hfound, htable⟩ := hdatabase.exists_table? hnames hentity
  rw [Query.isWithinLimits_ofPredicate_iff (isProper_predicate hcompiled)] at hlimits
  exact execute_of_holds_iff hvalid hnames hdatabase hentity hcompiled hlimits hfound htable
    fun row hrow =>
      holds_predicate_iff_holdsOn hvalid hnames hdatabase hentity hself htable hrow hcompiled

end Execution

end RuleTree

end PlaylistRules
