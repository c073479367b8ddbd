import PlaylistRules.Catalog.Entity

/-!
# Schemas

A schema holds the entities of a catalog, in the order of their names and each name once, and the
relations between them in the order of their declaration.

## Main definitions

* `Catalog.Relation` : a named link from one entity to another.
* `Catalog.Schema` : entities and relations.
* `Catalog.Schema.withEntity`, `Catalog.Schema.withRelation` : larger schemas.
* `Catalog.Schema.entity?`, `Catalog.Schema.relation?` : look-ups.
* `Catalog.Fault` : a name that is missing in a schema.
* `Catalog.Schema.validate` : every name that the schema uses exists.
-/

namespace PlaylistRules.Catalog

/-- The number of records on the two sides of a relation. -/
inductive Cardinality where
  | manyToOne
  | oneToMany
deriving DecidableEq, Repr

/-- The name of a cardinality. -/
def Cardinality.name : Cardinality → String
  | manyToOne => "many-to-one"
  | oneToMany => "one-to-many"

/-- A named link. Records are related when the join columns of both are equal. -/
structure Relation where
  name : String
  source : String
  sourceColumn : String
  target : String
  targetColumn : String
  cardinality : Cardinality
deriving DecidableEq, Repr

namespace Relation

/-- A relation whose source holds the key of one target. -/
def belongsTo (name source sourceColumn target targetColumn : String) : Relation :=
  ⟨name, source, sourceColumn, target, targetColumn, .manyToOne⟩

/-- A relation whose source is referred to by many targets. -/
def hasMany (name source sourceColumn target targetColumn : String) : Relation :=
  ⟨name, source, sourceColumn, target, targetColumn, .oneToMany⟩

end Relation

/-- A name that is missing in a schema. -/
inductive Fault where
  | unknownEntity (entity : String)
  | unknownRelation (entity relation : String)
  | unknownColumn (entity column : String)
deriving DecidableEq, Repr

/-- The wording of a fault. -/
def Fault.message : Fault → String
  | unknownEntity entity => "unknown entity '" ++ entity ++ "'"
  | unknownRelation entity relation =>
    "unknown relation '" ++ relation ++ "' on entity '" ++ entity ++ "'"
  | unknownColumn entity column =>
    "unknown column '" ++ column ++ "' on entity '" ++ entity ++ "'"

/-- An entity added to entities in the order of their names. One of the same name is replaced. -/
def insertEntity (entity : Entity) : List Entity → List Entity
  | [] => [entity]
  | other :: entities =>
    if entity.name < other.name then entity :: other :: entities
    else if entity.name = other.name then entity :: entities
    else other :: insertEntity entity entities

theorem mem_insertEntity {entity other : Entity} {entities : List Entity}
    (h : other ∈ insertEntity entity entities) : other = entity ∨ other ∈ entities := by
  induction entities with
  | nil => simpa [insertEntity] using h
  | cons first entities ih =>
    simp only [insertEntity] at h
    split at h
    · simpa using h
    · split at h
      · simp only [List.mem_cons] at h ⊢
        exact h.imp id Or.inr
      · simp only [List.mem_cons] at h ⊢
        rcases h with h | h
        · exact .inr (.inl h)
        · exact (ih h).imp id Or.inr

private theorem name_lt_of_not_lt {a b : String} (h₁ : ¬a < b) (h₂ : a ≠ b) : b < a := by
  rcases String.le_total a b with h | h
  · exact absurd (String.le_antisymm h (String.not_lt.mp h₁)) h₂
  · exact String.not_le.mp fun h' => h₂ (String.le_antisymm h' h)

/-- The names stay in increasing order. -/
theorem pairwise_insertEntity {entity : Entity} {entities : List Entity}
    (h : entities.Pairwise fun a b => a.name < b.name) :
    (insertEntity entity entities).Pairwise fun a b => a.name < b.name := by
  induction entities with
  | nil => simp [insertEntity]
  | cons first entities ih =>
    rw [List.pairwise_cons] at h
    simp only [insertEntity]
    split
    · rename_i hlt
      refine List.pairwise_cons.2 ⟨fun other hother => ?_, List.pairwise_cons.2 h⟩
      rcases List.mem_cons.1 hother with rfl | hmem
      · exact hlt
      · exact String.lt_trans hlt (h.1 other hmem)
    · rename_i hlt
      split
      · rename_i heq
        refine List.pairwise_cons.2 ⟨fun other hother => ?_, h.2⟩
        rw [heq]
        exact h.1 other hother
      · rename_i hne
        refine List.pairwise_cons.2 ⟨fun other hother => ?_, ih h.2⟩
        rcases mem_insertEntity hother with rfl | hmem
        · exact name_lt_of_not_lt hlt hne
        · exact h.1 other hmem

/-- Entities in the order of their names, each name once, and relations in the order of their
declaration. -/
structure Schema where
  version : UInt64
  entities : List Entity
  relations : List Relation
  entities_ordered : entities.Pairwise fun a b => a.name < b.name

namespace Schema

/-- A schema without entities and relations. -/
def empty (version : UInt64) : Schema :=
  ⟨version, [], [], .nil⟩

/-- The schema with one more entity. An entity of the same name is replaced. -/
def withEntity (schema : Schema) (entity : Entity) : Schema where
  version := schema.version
  entities := insertEntity entity schema.entities
  relations := schema.relations
  entities_ordered := pairwise_insertEntity schema.entities_ordered

/-- The schema with one more relation, after the others. -/
def withRelation (schema : Schema) (relation : Relation) : Schema :=
  { schema with relations := schema.relations ++ [relation] }

/-- The entity of a name. -/
def entity? (schema : Schema) (name : String) : Option Entity :=
  schema.entities.find? fun entity => entity.name == name

/-- The first relation of a name from an entity. -/
def relation? (schema : Schema) (source name : String) : Option Relation :=
  schema.relations.find? fun relation => relation.source == source && relation.name == name

/-- The relations from an entity. -/
def relationsFrom (schema : Schema) (source : String) : List Relation :=
  schema.relations.filter fun relation => relation.source == source

/-- The names of the entities in increasing order. -/
def entityNames (schema : Schema) : List String :=
  schema.entities.map Entity.name

/-- The entity of a name, or the fault that there is none. -/
def requireEntity (schema : Schema) (name : String) : Except Fault Entity :=
  match schema.entity? name with
  | some entity => .ok entity
  | none => .error (.unknownEntity name)

/-- An entity has its identity column. -/
def checkIdentity (entity : Entity) : Except Fault Unit :=
  if entity.identityColumn?.isSome then .ok ()
  else .error (.unknownColumn entity.name entity.identity)

/-- An entity has a column. -/
def checkColumn (entity : Entity) (name : String) : Except Fault Unit :=
  if entity.hasColumn name then .ok () else .error (.unknownColumn entity.name name)

/-- Both entities of a relation exist and have its join columns. -/
def checkRelation (schema : Schema) (relation : Relation) : Except Fault Unit := do
  let source ← schema.requireEntity relation.source
  let target ← schema.requireEntity relation.target
  checkColumn source relation.sourceColumn
  checkColumn target relation.targetColumn

/-- Every entity has its identity column, and every relation joins existing columns of existing
entities. The first fault is reported, those of entities before those of relations. -/
def validate (schema : Schema) : Except Fault Unit := do
  schema.entities.forM checkIdentity
  schema.relations.forM schema.checkRelation

/-- An entity that is found has the name that was asked for. -/
theorem name_of_entity? {schema : Schema} {name : String} {entity : Entity}
    (h : schema.entity? name = some entity) : entity.name = name := by
  simpa using List.find?_some h

end Schema

end PlaylistRules.Catalog
