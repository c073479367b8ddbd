import PlaylistRules.Output.Table
import PlaylistRules.Store.Execute

/-!
# Output formats

Queries, results and schemas are shown in one of three formats: as statements, as JSON, or as
tables.

## Main definitions

* `Output.Format` : the formats.
* `Output.literal` : a bound value as a literal of a statement.
* `Output.formatQuery`, `Output.formatResult`, `Output.formatSchema` : the texts that are shown.
-/

namespace PlaylistRules.Output

/-- The formats of the output. -/
inductive Format where
  | sql
  | json
  | table
deriving DecidableEq, Repr

namespace Format

/-- The name of a format. -/
def name : Format → String
  | sql => "sql"
  | json => "json"
  | table => "table"

/-- The format of a name. -/
def ofName? (name : String) : Option Format :=
  [sql, json, table].find? fun format => format.name == name

end Format

/-! ### Queries -/

/-- A bound value as a literal of a statement. -/
def literal : Scalar → String
  | .null => "NULL"
  | .bool value => if value then "1" else "0"
  | .int value => (Scalar.int value).display
  | .float value => (Scalar.float value).display
  | .text value => Text.quoteLiteral value
  | .instant value => Text.quoteLiteral value.display

/-- The statement of a query, and the literals of its bound values in a comment. -/
def queryStatement (query : Query) : String :=
  query.sql ++ ";\n-- bindings: [" ++ String.intercalate ", " (query.bindings.map literal) ++ "]"

/-- A query as JSON. -/
def queryJson (query : Query) : Json :=
  .object (Json.ofMembers
    [("sql", .string query.sql), ("base_table", .string query.baseTable),
      ("predicate", .string query.predicate),
      ("bindings", .array (query.bindings.map Scalar.toJson))])

/-- The bound values of a query as a table, numbered from one. -/
def bindingsTable (query : Query) : Table where
  header := ["#", "Value", "Type"]
  rows := query.bindings.mapIdx fun i value =>
    [String.ofList (Number.digits (i + 1)), value.display, value.typeName]

/-- A query in a format. -/
def formatQuery (query : Query) : Format → String
  | .sql => queryStatement query
  | .json => (queryJson query).indented
  | .table =>
    if query.bindings.isEmpty then query.sql
    else query.sql ++ "\n\n" ++ (bindingsTable query).draw

/-! ### Results -/

/-- A row as a JSON object with a member for every column. -/
def rowJson (columns : List String) (row : List Scalar) : Json :=
  .object (Json.ofMembers (columns.zip (row.map Scalar.toJson)))

/-- A result as a table, with the number of its rows below. -/
def resultTable (result : Store.Result) : String :=
  if result.isEmpty then "No results"
  else
    let table : Table := ⟨result.columns, result.rows.map fun row => row.map Scalar.display⟩
    table.draw ++ "\n(" ++ String.ofList (Number.digits result.rows.length) ++ " row(s))"

/-- A result in a format. Statements have no rows, so that a table is shown in their place. -/
def formatResult (result : Store.Result) : Format → String
  | .json => (Json.array (result.rows.map (rowJson result.columns))).indented
  | .sql | .table => resultTable result

/-! ### Schemas -/

/-- A column with a point after the name of its entity. -/
def columnPath (entity column : String) : String :=
  entity ++ "." ++ column

/-- The statements that create the tables of a schema. -/
def schemaStatements (schema : Catalog.Schema) : String :=
  String.intercalate "\n" (schema.entities.map fun entity => entity.createTable ++ ";")

/-- An entity as JSON. -/
def entityJson (entity : Catalog.Entity) : Json :=
  .object (Json.ofMembers
    [("identity", .string entity.identity),
      ("fields", .array (entity.columns.map fun column =>
        .object (Json.ofMembers
          [("name", .string column.name), ("type", .string column.type.name),
            ("nullable", .bool column.nullable)])))])

/-- A relation as JSON. -/
def relationJson (relation : Catalog.Relation) : Json :=
  .object (Json.ofMembers
    [("name", .string relation.name),
      ("from", .string (columnPath relation.source relation.sourceColumn)),
      ("to", .string (columnPath relation.target relation.targetColumn)),
      ("cardinality", .string relation.cardinality.name)])

/-- A schema as JSON. -/
def schemaJson (schema : Catalog.Schema) : Json :=
  .object (Json.ofMembers
    [("version", Json.ofUInt64 schema.version),
      ("entities", .object (Json.ofMembers
        (schema.entities.map fun entity => (entity.name, entityJson entity)))),
      ("relations", .array (schema.relations.map relationJson))])

/-- The columns of all entities as a table. -/
def columnsTable (schema : Catalog.Schema) : Table where
  header := ["Entity", "Column", "Type", "Nullable"]
  rows := schema.entities.flatMap fun entity =>
    entity.columns.map fun column =>
      [entity.name, column.name, column.type.name, if column.nullable then "yes" else "no"]

/-- The relations as a table. -/
def relationsTable (schema : Catalog.Schema) : Table where
  header := ["Relation", "From", "To", "Cardinality"]
  rows := schema.relations.map fun relation =>
    [columnPath relation.source relation.name,
      columnPath relation.source relation.sourceColumn,
      columnPath relation.target relation.targetColumn, relation.cardinality.name]

/-- A schema in a format. -/
def formatSchema (schema : Catalog.Schema) : Format → String
  | .sql => schemaStatements schema
  | .json => (schemaJson schema).indented
  | .table => (columnsTable schema).draw ++ "\n\n" ++ (relationsTable schema).draw

end PlaylistRules.Output
