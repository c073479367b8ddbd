import PlaylistRules.Store.Compare

/-!
# Tables

A table has typed columns and numbered rows in the order of their numbers. An identity column of
integers holds the numbers; in other tables they are counted. Names of columns are the same up to
the case of ASCII letters, and the number of a row has names of its own.

## Main definitions

* `Store.Row`, `Store.Table` : rows and tables.
* `Store.Table.ofEntity` : the empty table of an entity.
* `Store.Table.insert` : a table with one more row.
* `Store.Table.cell?` : the cell of a row in a column.
-/

namespace PlaylistRules.Store

/-- The same name, up to the case of ASCII letters. -/
def sameName (a b : String) : Bool :=
  a.toList.map foldCase == b.toList.map foldCase

/-- A row: its number in the table, and its values in the order of the columns. -/
structure Row where
  number : Int
  values : List Value
deriving DecidableEq, Repr

/-- A table: its columns with their preferences, the place of the identity column, and the rows in
the order of their numbers. -/
structure Table where
  name : String
  columns : List (String × Affinity)
  identity : Option Nat
  rows : List Row
deriving DecidableEq, Repr

/-- The names of the number of a row. -/
def numberNames : List String :=
  ["rowid", "_rowid_", "oid"]

namespace Row

/-- The integer in a place of a row. -/
def int? (values : List Value) (place : Nat) : Option Int :=
  match values[place]? with
  | some (.int value) => some value.toInt
  | _ => none

/-- Rows with one more row, after those of smaller numbers. -/
def insert (row : Row) : List Row → List Row
  | [] => [row]
  | other :: rows =>
    if row.number < other.number then row :: other :: rows else other :: insert row rows

theorem mem_insert {row other : Row} {rows : List Row} :
    other ∈ row.insert rows ↔ other = row ∨ other ∈ rows := by
  induction rows with
  | nil => simp [insert]
  | cons first rows ih =>
    simp only [insert]
    split
    · simp
    · simp only [List.mem_cons, ih]
      exact or_left_comm

end Row

namespace Table

/-- The empty table of an entity. -/
def ofEntity (entity : Catalog.Entity) : Table where
  name := entity.name
  columns := entity.columns.map fun column => (column.name, .ofType column.type)
  identity := entity.columns.findIdx? fun column => column.name == entity.identity
  rows := []

/-- The place of the identity column, if it holds the numbers of the rows. -/
def numberPlace? (table : Table) : Option Nat :=
  table.identity.filter fun place => (table.columns[place]?.map Prod.snd) == some .integer

/-- The values of a row as the columns keep them. -/
def keep (table : Table) (values : List Value) : List Value :=
  List.zipWith (fun column value => column.2.keep value) table.columns values

/-- The number after the last one. -/
def nextNumber (table : Table) : Int :=
  match table.rows.getLast? with
  | some row => row.number + 1
  | none => 1

/-- The row of values. A number that is not given is the next one. -/
def rowOf (table : Table) (values : List Value) : Row :=
  let values := table.keep values
  match table.numberPlace? with
  | none => ⟨table.nextNumber, values⟩
  | some place => match Row.int? values place with
    | some number => ⟨number, values⟩
    | none => ⟨table.nextNumber, values.set place (.int (Int64.ofInt table.nextNumber))⟩

/-- The table with one more row. -/
def insert (table : Table) (values : List Value) : Table :=
  { table with rows := (table.rowOf values).insert table.rows }

/-- The place of a column. -/
def place? (table : Table) (column : String) : Option Nat :=
  table.columns.findIdx? fun other => sameName other.1 column

/-- The cell of a row in a place. -/
def cellAt? (table : Table) (row : Row) (place : Nat) : Option Cell :=
  match table.columns[place]?, row.values[place]? with
  | some (_, affinity), some value => some ⟨affinity, value⟩
  | _, _ => none

/-- The cell of a row in a column, or the number of the row under one of its names. -/
def cell? (table : Table) (row : Row) (column : String) : Option Cell :=
  match table.place? column with
  | some place => table.cellAt? row place
  | none =>
    if numberNames.any (sameName column) then
      some ⟨.integer, .int (Int64.ofInt row.number)⟩
    else none

end Table

end PlaylistRules.Store
