import PlaylistRules.Text.Quoted

/-!
# Entities

An entity is a kind of record of the media catalog, kept in a table of the same name. Its columns
are in table order, and one of them identifies a record.

## Main definitions

* `Catalog.ColumnType`, `Catalog.Column`, `Catalog.Entity` : the parts of an entity.
* `Catalog.Entity.column?` : a column by its name.
* `Catalog.Entity.createTable` : the statement that creates the table.
-/

namespace PlaylistRules.Catalog

/-- The types of columns. -/
inductive ColumnType where
  | bool
  | int
  | float
  | text
  | instant
deriving DecidableEq, Repr

namespace ColumnType

/-- The name of the type in a catalog. -/
def name : ColumnType → String
  | bool => "bool"
  | int => "int"
  | float => "float"
  | text => "string"
  | instant => "timestamp"

/-- The name of the type in a table. -/
def sqlName : ColumnType → String
  | bool => "BOOLEAN"
  | int => "INTEGER"
  | float => "REAL"
  | text => "TEXT"
  | instant => "TIMESTAMP"

end ColumnType

/-- A column of an entity. -/
structure Column where
  name : String
  type : ColumnType
  nullable : Bool
deriving DecidableEq, Repr

/-- An entity with the name of its table, the name of its identity column, and its columns. -/
structure Entity where
  name : String
  identity : String
  columns : List Column
deriving DecidableEq, Repr

namespace Column

/-- A column that holds a value in every record. -/
def required (name : String) (type : ColumnType) : Column :=
  ⟨name, type, false⟩

/-- A column that may hold null. -/
def optional (name : String) (type : ColumnType) : Column :=
  ⟨name, type, true⟩

/-- The definition of a column in a table with an identity column. -/
def definition (identity : String) (column : Column) : String :=
  Text.quoteName column.name ++ " " ++ column.type.sqlName ++
    (if column.name = identity then " PRIMARY KEY"
      else if column.nullable then "" else " NOT NULL")

end Column

namespace Entity

/-- The first column of a name. -/
def column? (entity : Entity) (name : String) : Option Column :=
  entity.columns.find? fun column => column.name == name

/-- The entity has a column of a name. -/
def hasColumn (entity : Entity) (name : String) : Bool :=
  (entity.column? name).isSome

/-- The identity column, if the entity has it. -/
def identityColumn? (entity : Entity) : Option Column :=
  entity.column? entity.identity

/-- The statement that creates the table of the entity. -/
def createTable (entity : Entity) : String :=
  "CREATE TABLE " ++ Text.quoteName entity.name ++ " (" ++
    String.intercalate ", " (entity.columns.map (Column.definition entity.identity)) ++ ")"

/-- A column that is found has the name that was asked for. -/
theorem name_of_column? {entity : Entity} {name : String} {column : Column}
    (h : entity.column? name = some column) : column.name = name := by
  simpa using List.find?_some h

end Entity

end PlaylistRules.Catalog
