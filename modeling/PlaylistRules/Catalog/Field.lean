import PlaylistRules.Catalog.Schema

/-!
# Fields

A rule names a field by a path: the name of a column of the base entity, or the name of a relation,
a point, and the name of a column of the entity that the relation leads to. The last point divides
a path.

## Main definitions

* `Catalog.splitPath` : the two parts of a path with a point.
* `Catalog.Field` : a column of the base entity or of a related one.
* `Catalog.Schema.resolve` : the field of a path.
-/

namespace PlaylistRules.Catalog

/-- The text before the last point and the text after it, if there is a point. -/
def splitPath : List Char → Option (List Char × List Char)
  | [] => none
  | c :: cs =>
    match splitPath cs with
    | some (before, after) => some (c :: before, after)
    | none => if c = '.' then some ([], cs) else none

/-- A column of the base entity or of an entity that a relation leads to. -/
inductive Field where
  | own (column : String)
  | related (relation : Relation) (column : String)
deriving DecidableEq, Repr

namespace Field

/-- The name of the column. -/
def column : Field → String
  | own column => column
  | related _ column => column

/-- The relation of a related column. -/
def relation? : Field → Option Relation
  | own _ => none
  | related relation _ => some relation

/-- The column is one of the base entity. -/
def isOwn : Field → Bool
  | own _ => true
  | related _ _ => false

end Field

namespace Schema

/-- The column of a name in an entity, or the fault that there is none. -/
def requireColumn (entity : Entity) (name : String) : Except Fault Column :=
  match entity.column? name with
  | some column => .ok column
  | none => .error (.unknownColumn entity.name name)

/-- The relation of a name from an entity, or the fault that there is none. -/
def requireRelation (schema : Schema) (source : Entity) (name : String) : Except Fault Relation :=
  match schema.relation? source.name name with
  | some relation => .ok relation
  | none => .error (.unknownRelation source.name name)

/-- The field of a path from a base entity. -/
def resolve (schema : Schema) (base path : String) : Except Fault Field := do
  let entity ← schema.requireEntity base
  match splitPath path.toList with
  | none =>
    let column ← requireColumn entity path
    .ok (.own column.name)
  | some (before, after) =>
    let relation ← schema.requireRelation entity (String.ofList before)
    let target ← schema.requireEntity relation.target
    let column ← requireColumn target (String.ofList after)
    .ok (.related relation column.name)

end Schema

end PlaylistRules.Catalog
