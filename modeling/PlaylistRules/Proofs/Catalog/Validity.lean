import PlaylistRules.Catalog.Field
import PlaylistRules.Proofs.Outcome

/-!
# Valid schemas

Names that a schema finds belong to it. A path that resolves leads to a column that exists, and a
valid schema has both join columns of every relation.

## Main definitions

* `Catalog.Entity.Has` : an entity has a column of a name.
* `Catalog.Field.IsIn` : the column of a field exists, in the base entity or in a related one.

## Main results

* `Catalog.Schema.isIn_of_resolve` : a path resolves to a column that exists.
* `Catalog.Schema.validate_eq_ok_iff` : the names that a valid schema has.
-/

namespace PlaylistRules.Catalog

variable {schema : Schema} {base : String} {entity : Entity}

namespace Schema

/-! ### Look-ups -/

theorem mem_entities_of_entity? (h : schema.entity? base = some entity) :
    entity ∈ schema.entities :=
  List.mem_of_find?_eq_some h

/-- An entity is found under its own name, since no other one has it. -/
theorem entity?_name (h : entity ∈ schema.entities) : schema.entity? entity.name = some entity := by
  refine List.find?_eq_some_iff_append.mpr ⟨beq_self_eq_true _, ?_⟩
  obtain ⟨before, after, heq⟩ := List.append_of_mem h
  refine ⟨before, after, heq, fun other hother => ?_⟩
  have hordered := schema.entities_ordered
  rw [heq, List.pairwise_append] at hordered
  have hlt : other.name < entity.name := hordered.2.2 other hother entity List.mem_cons_self
  have hne : other.name ≠ entity.name := fun h => String.lt_irrefl _ (h ▸ hlt)
  simpa only [Bool.not_eq_true', beq_eq_false_iff_ne] using hne

/-- An entity is found under a name when it is an entity of the schema with this name. -/
theorem entity?_eq_some_iff :
    schema.entity? base = some entity ↔ entity ∈ schema.entities ∧ entity.name = base :=
  ⟨fun h => ⟨mem_entities_of_entity? h, name_of_entity? h⟩,
    fun ⟨hmem, hname⟩ => hname ▸ entity?_name hmem⟩

theorem requireEntity_eq_ok_iff :
    schema.requireEntity base = .ok entity ↔ schema.entity? base = some entity := by
  unfold requireEntity
  cases schema.entity? base with
  | none => exact ⟨nofun, nofun⟩
  | some other => rw [Except.ok.injEq, Option.some.injEq]

theorem requireColumn_eq_ok_iff {name : String} {column : Column} :
    requireColumn entity name = .ok column ↔ entity.column? name = some column := by
  unfold requireColumn
  cases entity.column? name with
  | none => exact ⟨nofun, nofun⟩
  | some other => rw [Except.ok.injEq, Option.some.injEq]

theorem requireRelation_eq_ok_iff {name : String} {relation : Relation} :
    schema.requireRelation entity name = .ok relation ↔
      schema.relation? entity.name name = some relation := by
  unfold requireRelation
  cases schema.relation? entity.name name with
  | none => exact ⟨nofun, nofun⟩
  | some other => rw [Except.ok.injEq, Option.some.injEq]

/-- A relation that is found is a relation of the schema from the entity that was asked for. -/
theorem mem_relations_of_relation? {name : String} {relation : Relation}
    (h : schema.relation? base name = some relation) :
    relation ∈ schema.relations ∧ relation.source = base := by
  have hnames := List.find?_some h
  rw [Bool.and_eq_true, beq_iff_eq] at hnames
  exact ⟨List.mem_of_find?_eq_some h, hnames.1⟩

end Schema

/-- An entity has a column of a name. -/
def Entity.Has (entity : Entity) (name : String) : Prop :=
  ∃ column ∈ entity.columns, column.name = name

theorem Entity.hasColumn_iff {entity : Entity} {name : String} :
    entity.hasColumn name ↔ entity.Has name := by
  simp only [Entity.hasColumn, Entity.column?, List.find?_isSome, beq_iff_eq, Entity.Has]

/-! ### Fields -/

/-- The column of a field exists: it is a column of the base entity, or of the entity that a
relation from the base entity leads to. -/
def Field.IsIn (schema : Schema) (entity : Entity) : Field → Prop
  | own column => entity.hasColumn column
  | related relation column =>
    relation ∈ schema.relations ∧ relation.source = entity.name ∧
      ∃ target, schema.entity? relation.target = some target ∧ target.hasColumn column

theorem Entity.hasColumn_of_column? {name : String} {column : Column}
    (h : entity.column? name = some column) : entity.hasColumn column.name := by
  rw [Entity.hasColumn, Entity.name_of_column? h, h, Option.isSome_some]

/-- A path that resolves leads to a column that exists. -/
theorem Schema.isIn_of_resolve {path : String} {field : Field}
    (hentity : schema.entity? base = some entity) (h : schema.resolve base path = .ok field) :
    field.IsIn schema entity := by
  obtain ⟨source, hsource, h⟩ := Outcome.bind_eq_ok_iff.mp h
  rw [requireEntity_eq_ok_iff, hentity, Option.some.injEq] at hsource
  subst hsource
  split at h
  · obtain ⟨column, hcolumn, h⟩ := Outcome.bind_eq_ok_iff.mp h
    obtain rfl := Except.ok.inj h
    exact Entity.hasColumn_of_column? (requireColumn_eq_ok_iff.mp hcolumn)
  · obtain ⟨relation, hrelation, h⟩ := Outcome.bind_eq_ok_iff.mp h
    obtain ⟨target, htarget, h⟩ := Outcome.bind_eq_ok_iff.mp h
    obtain ⟨column, hcolumn, h⟩ := Outcome.bind_eq_ok_iff.mp h
    obtain rfl := Except.ok.inj h
    obtain ⟨hmem, hname⟩ := mem_relations_of_relation? (requireRelation_eq_ok_iff.mp hrelation)
    exact ⟨hmem, hname, target, requireEntity_eq_ok_iff.mp htarget,
      Entity.hasColumn_of_column? (requireColumn_eq_ok_iff.mp hcolumn)⟩

/-! ### Validation -/

namespace Schema

theorem checkIdentity_eq_ok_iff :
    checkIdentity entity = .ok () ↔ entity.identityColumn?.isSome := by
  unfold checkIdentity
  split <;> simp_all

theorem checkColumn_eq_ok_iff {name : String} :
    checkColumn entity name = .ok () ↔ entity.hasColumn name := by
  unfold checkColumn
  split <;> simp_all

theorem checkRelation_eq_ok_iff {relation : Relation} :
    schema.checkRelation relation = .ok () ↔
      ∃ source target, schema.entity? relation.source = some source ∧
        schema.entity? relation.target = some target ∧
        source.hasColumn relation.sourceColumn ∧ target.hasColumn relation.targetColumn := by
  simp only [checkRelation, Outcome.bind_eq_ok_iff, requireEntity_eq_ok_iff,
    checkColumn_eq_ok_iff]
  constructor
  · rintro ⟨source, hsource, target, htarget, ⟨⟩, hcolumn, hcolumn'⟩
    exact ⟨source, target, hsource, htarget, checkColumn_eq_ok_iff.mp hcolumn, hcolumn'⟩
  · rintro ⟨source, target, hsource, htarget, hcolumn, hcolumn'⟩
    exact ⟨source, hsource, target, htarget, (), checkColumn_eq_ok_iff.mpr hcolumn, hcolumn'⟩

/-- **A schema is valid when every name that it uses exists**: the identity column of every entity,
and both entities and both join columns of every relation. -/
theorem validate_eq_ok_iff :
    schema.validate = .ok () ↔
      (∀ entity ∈ schema.entities, entity.identityColumn?.isSome) ∧
        ∀ relation ∈ schema.relations,
          ∃ source target, schema.entity? relation.source = some source ∧
            schema.entity? relation.target = some target ∧
            source.hasColumn relation.sourceColumn ∧ target.hasColumn relation.targetColumn := by
  rw [validate, Outcome.check_eq_ok_iff, Outcome.forM_eq_ok_iff, Outcome.forM_eq_ok_iff]
  simp only [checkIdentity_eq_ok_iff, checkRelation_eq_ok_iff]

/-- The related entity of a field of a valid schema, with the columns that the field uses. -/
theorem exists_target_of_isIn (hvalid : schema.validate = .ok ())
    (hentity : entity ∈ schema.entities) {relation : Relation} {column : String}
    (hfield : (Field.related relation column).IsIn schema entity) :
    ∃ target ∈ schema.entities, schema.entity? relation.target = some target ∧
      target.name = relation.target ∧ entity.hasColumn relation.sourceColumn ∧
      target.hasColumn relation.targetColumn ∧ target.hasColumn column := by
  obtain ⟨hrelation, hsource, target, htarget, hcolumn⟩ := hfield
  obtain ⟨source, target', hsource', htarget', hjoin, hjoin'⟩ :=
    (validate_eq_ok_iff.mp hvalid).2 relation hrelation
  rw [hsource, entity?_name hentity, Option.some.injEq] at hsource'
  rw [htarget, Option.some.injEq] at htarget'
  subst hsource' htarget'
  exact ⟨target, mem_entities_of_entity? htarget, htarget, name_of_entity? htarget, hjoin, hjoin',
    hcolumn⟩

end Schema

end PlaylistRules.Catalog
