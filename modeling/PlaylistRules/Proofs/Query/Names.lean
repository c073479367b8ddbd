import PlaylistRules.Proofs.Query.Errors

/-!
# Names in queries

A schema is closed when every name in it leads somewhere: each entity has its identity column, and
each relation joins columns of entities of the schema. This is what the validation of a schema
checks. On a closed schema no path leads to an entity that is missing, and a query names only what
the schema has: the base table with its columns, and related tables with theirs.

## Main definitions

* `Catalog.Schema.IsClosed` : every name in a schema leads somewhere.
* `Query.Condition.NamesIn` : the tables and columns of a condition are those of a schema.

## Main results

* `Catalog.Schema.validate_eq_ok_iff_isClosed` : a schema is valid exactly when it is closed.
* `Catalog.Schema.IsClosed.fault_ne` : no path leads to a missing entity.
* `RuleTree.namesIn_of_compile` : the names of a query are those of the schema.
* `RuleTree.no_dangling_name` : what a valid schema means for resolving and compiling.
-/

namespace PlaylistRules

open Catalog (Schema Entity Relation Field)
open Query (Condition Predicate)

/-! ### Closed schemas -/

namespace Catalog

namespace Schema

/-- Every name in a schema leads somewhere. -/
structure IsClosed (schema : Schema) : Prop where
  /-- Each entity has a column with the name of its identity column. -/
  identity : ∀ entity ∈ schema.entities, entity.Has entity.identity
  /-- Each relation leads from an entity to an entity, and both have their join columns. -/
  relation : ∀ relation ∈ schema.relations,
    ∃ source ∈ schema.entities, ∃ target ∈ schema.entities,
      source.name = relation.source ∧ target.name = relation.target ∧
        source.Has relation.sourceColumn ∧ target.Has relation.targetColumn

variable {schema : Schema} {entity : Entity} {name path : String} {fault : Fault}

/-- **A schema is valid exactly when every name in it leads somewhere.** -/
theorem validate_eq_ok_iff_isClosed : schema.validate = .ok () ↔ schema.IsClosed := by
  rw [validate_eq_ok_iff]
  simp only [entity?_eq_some_iff, Entity.hasColumn_iff]
  constructor
  · rintro ⟨hidentity, hrelation⟩
    refine ⟨fun entity h => Entity.hasColumn_iff.mp (hidentity entity h), fun relation h => ?_⟩
    obtain ⟨source, target, ⟨hsource, hname⟩, ⟨htarget, hname'⟩, hcolumns⟩ := hrelation relation h
    exact ⟨source, hsource, target, htarget, hname, hname', hcolumns⟩
  · intro h
    refine ⟨fun entity hentity => Entity.hasColumn_iff.mpr (h.identity entity hentity),
      fun relation hrelation => ?_⟩
    obtain ⟨source, hsource, target, htarget, hname, hname', hcolumns⟩ :=
      h.relation relation hrelation
    exact ⟨source, target, ⟨hsource, hname⟩, ⟨htarget, hname'⟩, hcolumns⟩

/-- **No path of a closed schema leads to a missing entity**, since every relation has its
target. -/
theorem IsClosed.fault_ne (h : schema.IsClosed) (hfault : schema.Unresolved entity path fault) :
    fault ≠ .unknownEntity name := by
  cases hfault with
  | column | relation | targetColumn => exact nofun
  | target _ _ hfound hmissing =>
    obtain ⟨hrelation, -⟩ := mem_relations_of_relation? hfound
    obtain ⟨-, -, target, htarget, -, hname, -⟩ := h.relation _ hrelation
    rw [entity?_eq_some_iff.mpr ⟨htarget, hname⟩] at hmissing
    cases hmissing

end Schema

end Catalog

/-! ### Names of conditions -/

namespace Query

/-- The conditions of a predicate in all its groups. -/
def Predicate.conditions : Predicate → List Condition
  | never => []
  | anyOf groups => groups.flatten

/-- The tables and columns that a condition names are those of a schema. A column of the base table
is one of the base entity. A related table is an entity of the schema, and the outer join column is
one of the base entity, the inner one and the column that is compared are columns of that table. -/
def Condition.NamesIn (schema : Schema) (entity : Entity) : Condition → Prop
  | own test => entity.Has test.column
  | related table outer inner test =>
    outer.table = entity.name ∧ entity.Has outer.column ∧
      ∃ target ∈ schema.entities, target.name = table ∧ inner.table = table ∧
        target.Has inner.column ∧ target.Has test.column

end Query

variable {schema : Schema} {base : String} {entity : Entity} {now : Calendar.Instant}

/-- The condition of a field of a closed schema names what the schema has. -/
theorem Catalog.Field.namesIn_condition (hvalid : schema.validate = .ok ())
    (hentity : entity ∈ schema.entities) {field : Field} (hfield : field.IsIn schema entity)
    (comparison : Rule.Comparison) :
    (field.condition entity.name comparison).NamesIn schema entity := by
  cases field with
  | own column => exact Entity.hasColumn_iff.mp hfield
  | related relation column =>
    obtain ⟨target, htarget, -, hname, hsource, htargetColumn, hcolumn⟩ :=
      Schema.exists_target_of_isIn hvalid hentity hfield
    exact ⟨rfl, Entity.hasColumn_iff.mp hsource, target, htarget, hname, rfl,
      Entity.hasColumn_iff.mp htargetColumn, Entity.hasColumn_iff.mp hcolumn⟩

namespace RuleTree

variable {tree : RuleTree} {query : Query}

theorem exists_mem_of_mem_conditions {compiled : List (List (Condition × List Scalar))}
    {condition : Condition} (h : condition ∈ (predicate compiled).conditions) :
    ∃ conditions ∈ compiled, ∃ c ∈ conditions, c.1 = condition := by
  unfold predicate at h
  split at h
  · exact absurd h List.not_mem_nil
  · obtain ⟨_, hgroup, hcondition⟩ := List.mem_flatten.mp h
    obtain ⟨conditions, hconditions, rfl⟩ := List.mem_map.mp hgroup
    obtain ⟨c, hc, rfl⟩ := List.mem_map.mp hcondition
    exact ⟨conditions, hconditions, c, hc, rfl⟩

/-- **The names of a query are those of the schema**, if the schema is valid. -/
theorem namesIn_of_compile (hvalid : schema.validate = .ok ())
    (hbase : schema.entity? base = some entity)
    (h : tree.compile schema base now = .ok query) :
    query.baseTable = entity.name ∧ ∃ predicate : Predicate, predicate.IsProper ∧
      query.predicate = predicate.text ∧
        ∀ condition ∈ predicate.conditions, condition.NamesIn schema entity := by
  obtain ⟨hentity, rfl⟩ := Schema.entity?_eq_some_iff.mp hbase
  obtain ⟨-, compiled, hcompiled, rfl⟩ := compile_eq_ok_iff.mp h
  refine ⟨rfl, predicate compiled, isProper_predicate hcompiled, rfl,
    fun condition hcondition => ?_⟩
  obtain ⟨conditions, hconditions, c, hc, rfl⟩ := exists_mem_of_mem_conditions hcondition
  obtain ⟨group, -, hgroup⟩ := Related.exists_of_mem_right hcompiled hconditions
  obtain ⟨rule, -, hrule⟩ := Related.exists_of_mem_right hgroup hc
  obtain ⟨field, hfield, -, heq⟩ := Rule.compile_eq_ok_iff.mp hrule
  rw [heq]
  exact Field.namesIn_condition hvalid hentity (Schema.isIn_of_resolve hbase hfield) _

/-- No rule is refused for a missing entity, if the schema is closed. -/
theorem kind_ne_unknownEntity (hclosed : schema.IsClosed)
    (hbase : schema.entity? base = some entity) {error : Rule.Error}
    (h : tree.compile schema base now = .error error) : error.kind ≠ .unknownEntity := by
  obtain ⟨place, index, group, rule, reason, hfails, rfl⟩ :=
    (compile_eq_error_iff_failsAt hbase).mp h
  intro hkind
  cases hfails.uncompiled with
  | unresolved hfault =>
    cases hfault with
    | target hpath hafter hfound hmissing =>
      exact hclosed.fault_ne (.target hpath hafter hfound hmissing) rfl
    | column | relation | targetColumn => cases hkind
  | unbound _ _ hvalue => cases hvalue.symm.trans hkind

/-- **A valid schema has no dangling names.** A schema is valid exactly when every entity has a
column with the name of its identity column and every relation joins columns of two entities of the
schema. Then no path from a base entity leads to a missing entity, no tree is refused for one, and
a query names only the base table with its columns, and related tables of the schema with theirs. -/
theorem no_dangling_name (schema : Schema) :
    (schema.validate = .ok () ↔ schema.IsClosed) ∧
    (schema.validate = .ok () → ∀ entity ∈ schema.entities,
      (∀ path name, schema.resolve entity.name path ≠ .error (.unknownEntity name)) ∧
      ∀ (now : Calendar.Instant) (tree : RuleTree),
        (∀ error, tree.compile schema entity.name now = .error error →
          error.kind ≠ .unknownEntity) ∧
        ∀ query, tree.compile schema entity.name now = .ok query →
          query.baseTable = entity.name ∧ ∃ predicate : Predicate,
            Predicate.read? query.predicate = some predicate ∧
              query.predicate = predicate.text ∧
              ∀ condition ∈ predicate.conditions, condition.NamesIn schema entity) := by
  refine ⟨Schema.validate_eq_ok_iff_isClosed, fun hvalid entity hentity => ?_⟩
  have hclosed := Schema.validate_eq_ok_iff_isClosed.mp hvalid
  have hbase := Schema.entity?_name hentity
  refine ⟨fun path name h => ?_, fun now tree => ⟨fun error => kind_ne_unknownEntity hclosed hbase,
    fun query h => ?_⟩⟩
  · exact hclosed.fault_ne ((Schema.resolve_eq_error_iff hbase).mp h) rfl
  · obtain ⟨htable, predicate, hproper, htext, hnames⟩ := namesIn_of_compile hvalid hbase h
    exact ⟨htable, predicate, htext ▸ Predicate.read?_text hproper, htext, hnames⟩

end RuleTree

/-! ### Folders -/

/-- Folders, each with the folder that it lies in. -/
def Catalog.folders : Entity :=
  ⟨"folders", "id", [.required "id" .int, .required "parent_id" .int]⟩

/-- A schema with folders that replace others of the name, and a relation that is declared twice. -/
def Catalog.folderSchema : Schema :=
  ((((Schema.empty 1).withEntity ⟨"folders", "key", []⟩).withEntity folders).withRelation
    (.belongsTo "parent" "folders" "parent_id" "folders" "id")).withRelation
      (.belongsTo "parent" "folders" "id" "folders" "parent_id")

/-- The folder that is named is the one that replaced the other. -/
theorem RuleTree.no_dangling_name_folders :
    let now : Calendar.Instant := .midnight ⟨2018, 7, 15, by decide, by decide, by decide⟩
    let tree : RuleTree := .ofGroups [.ofRules [.has "parent.id" (.int 1)]]
    ∃ (query : Query) (predicate : Predicate), Catalog.folderSchema.validate = .ok () ∧
      Catalog.folderSchema.IsClosed ∧ Catalog.folders ∈ Catalog.folderSchema.entities ∧
      tree.compile Catalog.folderSchema "folders" now = .ok query ∧
      Predicate.read? query.predicate = some predicate ∧
      ∀ condition ∈ predicate.conditions,
        condition.NamesIn Catalog.folderSchema Catalog.folders := by
  intro now tree
  have hvalid : Catalog.folderSchema.validate = .ok () := by decide +kernel
  have hentity : Catalog.folders ∈ Catalog.folderSchema.entities := by decide +kernel
  have hcompile : tree.compile Catalog.folderSchema Catalog.folders.name now = .ok _ := rfl
  obtain ⟨hclosed, hnames⟩ := no_dangling_name Catalog.folderSchema
  obtain ⟨-, predicate, hread, -, hconditions⟩ :=
    ((hnames hvalid Catalog.folders hentity).2 now tree).2 _ hcompile
  exact ⟨_, predicate, hvalid, hclosed.mp hvalid, hentity, hcompile, hread, hconditions⟩

end PlaylistRules
