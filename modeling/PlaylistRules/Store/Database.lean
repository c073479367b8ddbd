import PlaylistRules.Catalog.Schema
import PlaylistRules.Store.Table

/-!
# Databases

A database has the tables of a schema and tables that list them. Names of tables are the same up to
the case of ASCII letters.

## Main definitions

* `Store.listing` : the table that lists the tables of entities and their indexes.
* `Store.Database` : the tables of a database.
* `Store.Database.ofSchema` : the empty tables of a schema.
* `Store.Database.insert` : a database with one more row.
-/

namespace PlaylistRules.Store

/-! ### Listings -/

/-- The columns of a listing. -/
def listingColumns : List (String × Affinity) :=
  [("type", .text), ("name", .text), ("tbl_name", .text), ("rootpage", .integer), ("sql", .text)]

/-- The values of a listed table or index, with the page on which it starts. -/
def listed (kind name table : String) (statement : Value) (page : Nat) : List Value :=
  [.text kind, .text name, .text table, .int (Int64.ofNat page), statement]

/-- The table of an entity, and the index of an identity column that does not hold integers. -/
def listedEntity (entity : Catalog.Entity) : List (Nat → List Value) :=
  let table := listed "table" entity.name entity.name (.text entity.createTable)
  let index := listed "index" ("sqlite_autoindex_" ++ entity.name ++ "_1") entity.name .null
  match entity.identityColumn? with
  | none => [table]
  | some column => if column.type = .int then [table] else [table, index]

/-- The table that lists the tables of entities and their indexes. They start on the pages after
the first one, in order. -/
def listing (name : String) (entities : List Catalog.Entity) : Table where
  name := name
  columns := listingColumns
  identity := none
  rows := (entities.flatMap listedEntity).mapIdx fun i values => ⟨i + 1, values (i + 2)⟩

/-- The listings of a database under their names. Nothing is listed as temporary. -/
def listings (entities : List Catalog.Entity) : List Table :=
  [listing "sqlite_master" entities, listing "sqlite_schema" entities,
    listing "sqlite_temp_master" [], listing "sqlite_temp_schema" []]

/-! ### Databases -/

/-- The tables of a database. -/
structure Database where
  tables : List Table
deriving DecidableEq, Repr

namespace Database

/-- The empty tables of the entities of a schema. -/
def ofSchema (schema : Catalog.Schema) : Database :=
  ⟨schema.entities.map Table.ofEntity ++ listings schema.entities⟩

/-- The database without tables of entities. -/
def empty : Database :=
  ⟨listings []⟩

/-- The table of a name. -/
def table? (database : Database) (name : String) : Option Table :=
  database.tables.find? fun table => sameName table.name name

/-- The database with one more row in the table of a name. -/
def insert (database : Database) (name : String) (values : List Value) : Database :=
  ⟨database.tables.map fun table =>
    if sameName table.name name then table.insert values else table⟩

end Database

end PlaylistRules.Store
