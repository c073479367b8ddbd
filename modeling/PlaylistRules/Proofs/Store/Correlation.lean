import PlaylistRules.Catalog.Library
import PlaylistRules.Proofs.Catalog.Paths
import PlaylistRules.Proofs.Store.Execution

/-!
# Related rows of one table

A rule on a related column asks for a row of the related table that joins the row of the base table.
When the relation leads from the base entity to itself, the subquery reads from a table of the same
name as the statement around it, and both join columns belong to the row of the subquery. The row
of the base table does not take part any more: all rows are selected as soon as some row joins
itself and satisfies the comparison, and otherwise no row is.

## Main definitions

* `Catalog.Relation.HoldsOnItself` : some row of a table joins itself and satisfies a comparison.
* `Catalog.nestedLibrary` : the media library with albums that belong to albums.

## Main results

* `Store.joinHolds_self_iff` : both join columns belong to the row of the subquery.
* `RuleTree.execute_related` : the rows that a rule on a related column selects.
* `RuleTree.not_correlated_self` : a relation from an entity to itself does not select the rows that
  it relates.
-/

namespace PlaylistRules

open Catalog (Schema Entity Relation Field)
open Query (Condition)
open Store

/-- Some row of the table of an entity has equal cells in the join columns of a relation, and
satisfies a comparison. -/
def Catalog.Relation.HoldsOnItself (relation : Relation) (database : Database) (entity : Entity)
    (column : String) (comparison : Rule.Comparison) (values : List Value) : Prop :=
  ∃ other ∈ database.rows entity.name,
    other.Joins entity relation.sourceColumn other entity relation.targetColumn ∧
      other.Satisfies entity column comparison values

instance (relation : Relation) (database : Database) (entity : Entity) (column : String)
    (comparison : Rule.Comparison) (values : List Value) :
    Decidable (relation.HoldsOnItself database entity column comparison values) :=
  inferInstanceAs (Decidable (∃ other ∈ database.rows entity.name, _))

variable {schema : Schema} {database : Database} {entity : Entity} {now : Calendar.Instant}
  {relation : Relation} {column : String} {comparison : Rule.Comparison} {values : List Value}

/-! ### Conditions -/

namespace Store

variable {table : Table} {row other : Row}

/-- Both join columns belong to the row of the subquery when the table around it has the same name:
the nearest table of the name counts. -/
theorem joinHolds_self_iff {sourceColumn targetColumn : String} (htable : table.IsOf entity)
    (hnames : SeparateNames (entity.columns.map Catalog.Column.name)) (hother : other ∈ table.rows)
    (hsource : entity.hasColumn sourceColumn) (htarget : entity.hasColumn targetColumn)
    (hcolumn : entity.hasColumn column) :
    joinHolds [⟨table, other⟩, ⟨table, row⟩] ⟨entity.name, sourceColumn⟩
        ⟨entity.name, targetColumn⟩ ⟨column, comparison⟩ values = some true ↔
      other.Joins entity sourceColumn other entity targetColumn ∧
        other.Satisfies entity column comparison values := by
  obtain ⟨a, ha, hfound⟩ := htable.exists_cell? hnames hother hsource
  obtain ⟨b, hb, hfound'⟩ := htable.exists_cell? hnames hother htarget
  have hnearest : ∀ {name : String} {cell : Cell}, table.cell? other name = some cell →
      Scope.qualified? [⟨table, other⟩, ⟨table, row⟩] ⟨entity.name, name⟩ = some cell := by
    intro name cell hcell
    simp only [Scope.qualified?, List.findSome?_cons, htable.name_eq, sameName_self, hcell,
      if_true]
  rw [joinHolds, hnearest hfound, hnearest hfound', Truth.both_eq_true_iff,
    testHolds_iff htable hnames hother hcolumn]
  simp only [Row.Joins, ha, hb, Option.mem_def, Option.some.injEq, exists_eq_left']

/-- The condition of a relation from an entity to itself is the same on all rows. -/
theorem conditionHolds_self_iff (hvalid : schema.validate = .ok ())
    (hnames : schema.HasSeparateNames) (hentity : entity ∈ schema.entities)
    (hfound : database.table? entity.name = some table) (htable : table.IsOf entity)
    (hfield : (Field.related relation column).IsIn schema entity)
    (hself : relation.target = entity.name) :
    conditionHolds database [⟨table, row⟩] values
        ((Field.related relation column).condition entity.name comparison) = some true ↔
      relation.HoldsOnItself database entity column comparison values := by
  obtain ⟨target, hmem, htarget, -, hsource, hjoin, hcolumn⟩ :=
    Schema.exists_target_of_isIn hvalid hentity hfield
  rw [hself, Schema.entity?_name hentity, Option.some.injEq] at htarget
  subst htarget
  have hjoined : ∀ other ∈ table.rows,
      joinHolds [⟨table, other⟩, ⟨table, row⟩] ⟨entity.name, relation.sourceColumn⟩
        ⟨entity.name, relation.targetColumn⟩ ⟨column, comparison⟩ values = some true ↔
      other.Joins entity relation.sourceColumn other entity relation.targetColumn ∧
        other.Satisfies entity column comparison values := fun other hother =>
    joinHolds_self_iff htable (hnames.columns entity hentity) hother hsource hjoin hcolumn
  rw [Field.condition, hself, conditionHolds_related_iff hfound hjoined, Relation.HoldsOnItself]

end Store

/-! ### Results -/

namespace RuleTree

/-- The predicate of a single rule is true when its condition is. -/
theorem holds_single_iff {scope : Scope} {groups : List RuleGroup} {c : Condition × List Scalar}
    (h : Compiled schema entity.name now groups [[c]]) :
    holds database scope ((bindings [[c]]).map Value.ofScalar) (predicate [[c]]) = some true ↔
      conditionHolds database scope (c.2.map Value.ofScalar) c.1 = some true := by
  rw [holds_predicate_iff fun _ hconditions _ hc => length_of_mem_compiled h hconditions hc]
  simp only [List.mem_singleton, exists_eq_left, forall_eq]

/-- **The rows that a rule on a related column selects.** On every database of a valid schema with
separate names, the rule is compiled, and executed unless it binds a long pattern. When the relation
leads to another entity, it selects the rows of the base table that some related row joins and
satisfies the comparison. When the relation leads from the base entity to itself, it selects all
rows of the base table if some row joins itself and satisfies the comparison, and else none. -/
theorem execute_related (hvalid : schema.validate = .ok ()) (hnames : schema.HasSeparateNames)
    (hdatabase : database.IsOf schema) (hentity : entity ∈ schema.entities)
    (hrelation : schema.relation? entity.name relation.name = some relation) {target : Entity}
    (htarget : schema.entity? relation.target = some target) (hcolumn : target.hasColumn column)
    (hpoint : '.' ∉ column.toList) {rule : Rule}
    (hpath : rule.field = relation.name ++ "." ++ column) {values : List Scalar}
    (hvalues : rule.operator.coerce now rule.values = .ok values) :
    ∃ query,
      (ofGroups [.ofRules [rule]]).compile schema entity.name now = .ok query ∧
      (query.HasShortPatterns → ∃ result,
        execute database query = .ok result ∧
        result.columns = entity.columns.map Catalog.Column.name ∧
        (relation.target ≠ entity.name →
          result.rows.Perm (((database.rows entity.name).filter fun row =>
            ∃ other ∈ database.rows target.name,
              row.Joins entity relation.sourceColumn other target relation.targetColumn ∧
                other.Satisfies target column rule.operator.comparison
                  (values.map Value.ofScalar)).map fun row => row.values.map Value.toScalar)) ∧
        (relation.target = entity.name →
          result.rows.Perm (((database.rows entity.name).filter fun _ =>
            relation.HoldsOnItself database entity column rule.operator.comparison
              (values.map Value.ofScalar)).map fun row => row.values.map Value.toScalar))) := by
  have hbase := Schema.entity?_name hentity
  have hresolve : schema.resolve entity.name rule.field = .ok (.related relation column) := by
    rw [hpath]
    exact Schema.resolve_related hbase hrelation htarget hcolumn hpoint
  have hfield := Schema.isIn_of_resolve hbase hresolve
  have hcompiled : Compiled schema entity.name now (ofGroups [.ofRules [rule]]).groups
      [[((Field.related relation column).condition entity.name rule.operator.comparison,
        values)]] :=
    .cons (.cons (Rule.compile_eq_ok_iff.mpr ⟨_, hresolve, hvalues, rfl⟩) .nil) .nil
  have hcompile : (ofGroups [.ofRules [rule]]).compile schema entity.name now = .ok _ :=
    compile_eq_ok_iff.mpr ⟨by rw [hbase, Option.isSome_some], _, hcompiled, rfl⟩
  refine ⟨_, hcompile, fun hshort => ?_⟩
  rw [Query.hasShortPatterns_ofPredicate_iff (isProper_predicate hcompiled)] at hshort
  have hlimits := isWithinLimits_single hshort
  obtain ⟨table, hfound, htable⟩ := hdatabase.exists_table? hnames hentity
  by_cases hself : relation.target = entity.name
  · obtain ⟨result, hexecute, hcolumns, hrows⟩ :=
      execute_of_holds_iff hvalid hnames hdatabase hentity hcompiled hlimits hfound htable
        fun row _ => (holds_single_iff hcompiled).trans
          (conditionHolds_self_iff hvalid hnames hentity hfound htable hfield hself)
    exact ⟨result, hexecute, hcolumns, fun hne => absurd hself hne, fun _ => hrows⟩
  · have hother : ∀ other, (Field.related relation column).relation? = some other →
        other.target ≠ entity.name := fun other h => Option.some.inj h ▸ hself
    obtain ⟨result, hexecute, hcolumns, hrows⟩ :=
      execute_of_holds_iff hvalid hnames hdatabase hentity hcompiled hlimits hfound htable
        fun row hrow => (holds_single_iff hcompiled).trans
          ((conditionHolds_condition_iff hvalid hnames hdatabase hentity htable hfield hother
            hrow).trans (Field.holdsOn_related_iff htarget))
    exact ⟨result, hexecute, hcolumns, fun _ => hrows, fun h => absurd h hself⟩

end RuleTree

/-! ### Albums of albums -/

namespace Catalog

/-- The album that another album belongs to. -/
def parentRelation : Relation :=
  .belongsTo "parent" "albums" "artist_id" "albums" "id"

/-- The media library with albums that belong to albums. -/
def nestedLibrary : Schema :=
  library.withRelation parentRelation

theorem validate_nestedLibrary : nestedLibrary.validate = .ok () :=
  rfl

theorem hasSeparateNames_nestedLibrary : nestedLibrary.HasSeparateNames :=
  ⟨by decide +kernel, by decide +kernel⟩

theorem albums_mem_nestedLibrary : albums ∈ nestedLibrary.entities := by
  decide

end Catalog

open Catalog (albums parentRelation nestedLibrary validate_nestedLibrary
  hasSeparateNames_nestedLibrary albums_mem_nestedLibrary)

/-- Albums can be stored in the nested library. -/
theorem Store.Database.isOf_insert_albums {first second : List Value}
    (hfirst : first.length = albums.columns.length)
    (hsecond : second.length = albums.columns.length) :
    (((Database.ofSchema nestedLibrary).insert "albums" first).insert "albums" second).IsOf
      nestedLibrary :=
  ((isOf_ofSchema _).insert hasSeparateNames_nestedLibrary albums_mem_nestedLibrary hfirst).insert
    hasSeparateNames_nestedLibrary albums_mem_nestedLibrary hsecond

namespace RuleTree

/-- One album that joins itself selects all albums, those without a related album too. -/
theorem execute_related_self_joined :
    let database := ((Database.ofSchema nestedLibrary).insert "albums"
        [.int 1, .int 1, .text "A", .null, .int 0, .text "2018-07-15", .text "2018-07-15"]).insert
        "albums"
        [.int 2, .int 9, .text "B", .null, .int 0, .text "2018-07-15", .text "2018-07-15"]
    let now : Calendar.Instant := .midnight ⟨2018, 7, 15, by decide, by decide, by decide⟩
    ∃ query result,
      (ofGroups [.ofRules [.has "parent.name" (.text "A")]]).compile nestedLibrary "albums" now =
        .ok query ∧
      execute database query = .ok result ∧
      (result.rows.map List.head?).Perm [some (.int 1), some (.int 2)] := by
  intro database now
  have hdatabase : database.IsOf nestedLibrary := Database.isOf_insert_albums rfl rfl
  have hrelation : nestedLibrary.relation? albums.name parentRelation.name = some parentRelation :=
    by decide
  have hcolumn : albums.hasColumn "name" := by decide
  have hvalues : (Rule.has "parent.name" (.text "A")).operator.coerce now [.text "A"] =
      .ok [.text "A"] := rfl
  obtain ⟨query, hcompile, hresult⟩ :=
    execute_related validate_nestedLibrary hasSeparateNames_nestedLibrary hdatabase
      albums_mem_nestedLibrary hrelation rfl hcolumn (by decide) (by decide) hvalues
  have hcompiled : Compiled nestedLibrary albums.name now
      (ofGroups [.ofRules [.has "parent.name" (.text "A")]]).groups
      [[((Field.related parentRelation "name").condition "albums" .equal, [.text "A"])]] :=
    .cons (.cons rfl .nil) .nil
  obtain rfl := Except.ok.inj
    (hcompile.symm.trans (compile_eq_ok_iff.mpr ⟨rfl, _, hcompiled, rfl⟩))
  rw [Query.hasShortPatterns_ofPredicate_iff (isProper_predicate hcompiled)] at hresult
  obtain ⟨result, hexecute, -, -, hrows⟩ := hresult (by decide)
  refine ⟨_, result, hcompile, hexecute, ?_⟩
  refine ((hrows rfl).map List.head?).trans (List.Perm.of_eq ?_)
  decide +kernel

/-- **The row of the base table is hidden by a relation from its entity to itself.** The second
album is related to the first, but the rule on the name of the related album does not select it. -/
theorem not_correlated_self :
    let database := ((Database.ofSchema nestedLibrary).insert "albums"
        [.int 1, .int 9, .text "A", .null, .int 0, .text "2018-07-15", .text "2018-07-15"]).insert
        "albums"
        [.int 2, .int 1, .text "B", .null, .int 0, .text "2018-07-15", .text "2018-07-15"]
    let now : Calendar.Instant := .midnight ⟨2018, 7, 15, by decide, by decide, by decide⟩
    let rule := Rule.has "parent.name" (.text "A")
    nestedLibrary.validate = .ok () ∧ nestedLibrary.HasSeparateNames ∧
      database.IsOf nestedLibrary ∧
      (∃ row ∈ database.rows "albums", rule.HoldsOn nestedLibrary database albums now row) ∧
      ∃ query result, (ofGroups [.ofRules [rule]]).compile nestedLibrary "albums" now = .ok query ∧
        execute database query = .ok result ∧ result.rows = [] := by
  intro database now rule
  have hdatabase : database.IsOf nestedLibrary := Database.isOf_insert_albums rfl rfl
  have hresolve : nestedLibrary.resolve "albums" rule.field =
      .ok (.related parentRelation "name") := by decide +kernel
  let compiled : List (List (Condition × List Scalar)) :=
    [[((Field.related parentRelation "name").condition "albums" .equal, [.text "A"])]]
  have hcompiled : Compiled nestedLibrary "albums" now (ofGroups [.ofRules [rule]]).groups
      compiled := .cons (.cons (Rule.compile_eq_ok_iff.mpr ⟨_, hresolve, rfl, rfl⟩) .nil) .nil
  have hread : Query.Statement.read? (Query.ofPredicate "albums" (predicate compiled)
      (bindings compiled)).sql = some ⟨"albums", predicate compiled⟩ :=
    Query.read?_sql_ofPredicate (isProper_predicate hcompiled)
  have hexecute : execute database
      (.ofPredicate "albums" (predicate compiled) (bindings compiled)) =
        .ok ⟨albums.columns.map Catalog.Column.name, []⟩ := by
    rw [execute, hread]
    decide +kernel
  exact ⟨validate_nestedLibrary, hasSeparateNames_nestedLibrary, hdatabase, by decide +kernel, _, _,
    compile_eq_ok_iff.mpr ⟨rfl, _, hcompiled, rfl⟩, hexecute, rfl⟩

end RuleTree

end PlaylistRules
