import Mathlib.Data.List.Pairwise
import PlaylistRules.Proofs.Catalog.Validity
import PlaylistRules.Store.Database

/-!
# Tables of entities

A database of a schema has the table of every entity, with rows that give each column a value. When
no two names are the same up to the case of ASCII letters, tables and columns are found by the
names that the schema gives them.

## Main definitions

* `Store.SeparateNames`, `Catalog.Schema.HasSeparateNames` : names that are told apart.
* `Store.Table.IsOf`, `Store.Database.IsOf` : tables of entities and databases of schemas.
* `Store.Row.cell?` : the cell of a row in a column of an entity.

## Main results

* `Store.Database.isOf_ofSchema`, `Store.Database.IsOf.insert` : the databases of a schema that
  insertions lead to.
* `Store.Database.IsOf.exists_table?` : the table of an entity is found.
* `Store.Table.IsOf.exists_cell?` : the cell of a column is found.
-/

namespace PlaylistRules

open Catalog (Schema Entity Column)

namespace Store

/-! ### Names -/

theorem sameName_self (name : String) : sameName name name = true :=
  beq_self_eq_true _

theorem sameName_comm (a b : String) : sameName a b = sameName b a :=
  BEq.comm

/-- No two names are the same up to the case of ASCII letters. -/
def SeparateNames (names : List String) : Prop :=
  names.Pairwise fun a b => sameName a b = false

instance (names : List String) : Decidable (SeparateNames names) :=
  inferInstanceAs (Decidable (names.Pairwise fun a b => sameName a b = false))

/-- Separate names are the same only if they are equal. -/
theorem SeparateNames.sameName_eq_beq {names : List String} (h : SeparateNames names)
    {a b : String} (ha : a ∈ names) (hb : b ∈ names) : sameName a b = (a == b) := by
  rcases eq_or_ne a b with rfl | hne
  · rw [sameName_self, beq_self_eq_true]
  · have : Std.Symm fun a b => sameName a b = false :=
      ⟨fun a b hab => (sameName_comm b a).trans hab⟩
    rw [h.forall ha hb hne, beq_false_of_ne hne]

end Store

open Store

/-- The names of the tables of a schema are separate, and so are the names of the columns of each
entity. -/
structure Catalog.Schema.HasSeparateNames (schema : Schema) : Prop where
  tables : SeparateNames ((Database.ofSchema schema).tables.map Table.name)
  columns : ∀ entity ∈ schema.entities, SeparateNames (entity.columns.map Column.name)

theorem Catalog.Schema.HasSeparateNames.entities {schema : Schema} (h : schema.HasSeparateNames) :
    SeparateNames schema.entityNames := by
  have htables := h.tables
  rw [Database.ofSchema, List.map_append, List.map_map] at htables
  exact (List.pairwise_append.mp htables).1

namespace Store

/-! ### Tables -/

/-- A table is the one of an entity, and each of its rows has one value for each column. -/
structure Table.IsOf (table : Table) (entity : Entity) : Prop where
  emptied : { table with rows := [] } = Table.ofEntity entity
  width : ∀ row ∈ table.rows, row.values.length = entity.columns.length

namespace Table.IsOf

variable {table : Table} {entity : Entity}

theorem name_eq (h : table.IsOf entity) : table.name = entity.name :=
  congrArg Table.name h.emptied

theorem columns_eq (h : table.IsOf entity) :
    table.columns = entity.columns.map fun column => (column.name, .ofType column.type) :=
  congrArg Table.columns h.emptied

theorem map_fst_columns (h : table.IsOf entity) :
    table.columns.map Prod.fst = entity.columns.map Column.name := by
  rw [h.columns_eq, List.map_map]
  rfl

end Table.IsOf

theorem Table.isOf_ofEntity (entity : Entity) : (Table.ofEntity entity).IsOf entity :=
  ⟨rfl, fun _ h => absurd h List.not_mem_nil⟩

/-- A row has as many values as are inserted, one for each column. -/
private theorem length_values_rowOf {table : Table} {values : List Value}
    (h : values.length = table.columns.length) :
    (table.rowOf values).values.length = table.columns.length := by
  have hkeep : (table.keep values).length = table.columns.length := by
    rw [Table.keep, List.length_zipWith, h, Nat.min_self]
  unfold Table.rowOf
  split
  · exact hkeep
  · dsimp only
    split
    · exact hkeep
    · rw [List.length_set, hkeep]

/-- The table of an entity stays one when a row is inserted. -/
theorem Table.IsOf.insert {table : Table} {entity : Entity} (h : table.IsOf entity)
    {values : List Value} (hvalues : values.length = entity.columns.length) :
    (table.insert values).IsOf entity := by
  have hlength : table.columns.length = entity.columns.length := by
    rw [h.columns_eq, List.length_map]
  refine ⟨h.emptied, fun row hrow => ?_⟩
  rcases Row.mem_insert.mp hrow with rfl | hrow
  · rw [length_values_rowOf (hvalues.trans hlength.symm), hlength]
  · exact h.width row hrow

/-! ### Databases -/

/-- A database has the tables of the entities of a schema, in order, and those that list them. -/
def Database.IsOf (database : Database) (schema : Schema) : Prop :=
  ∃ tables, database.tables = tables ++ listings schema.entities ∧
    List.Forall₂ (fun entity table => table.IsOf entity) schema.entities tables

namespace Database

variable {schema : Schema}

theorem isOf_ofSchema (schema : Schema) : (ofSchema schema).IsOf schema := by
  refine ⟨schema.entities.map Table.ofEntity, rfl, ?_⟩
  rw [List.forall₂_map_right_iff]
  exact List.forall₂_same.mpr fun entity _ => Table.isOf_ofEntity entity

/-- A database stays one of its schema when a row is inserted into the table of an entity. -/
theorem IsOf.insert {database : Database} (h : database.IsOf schema)
    (hnames : schema.HasSeparateNames) {entity : Entity} (hentity : entity ∈ schema.entities)
    {values : List Value} (hvalues : values.length = entity.columns.length) :
    (database.insert entity.name values).IsOf schema := by
  obtain ⟨tables, htables, hof⟩ := h
  have hname : entity.name ∈ schema.entities.map Entity.name := List.mem_map_of_mem hentity
  have hlistings : ∀ table ∈ listings schema.entities,
      (if sameName table.name entity.name then table.insert values else table) = table := by
    intro table htable
    have hseparate := hnames.tables
    rw [ofSchema, List.map_append, List.map_map] at hseparate
    have hne := (List.pairwise_append.mp hseparate).2.2 _ hname _ (List.mem_map_of_mem htable)
    rw [if_neg (by rw [sameName_comm, hne]; exact Bool.false_ne_true)]
  refine ⟨tables.map fun table =>
    if sameName table.name entity.name then table.insert values else table, ?_, ?_⟩
  · rw [Database.insert, htables, List.map_append, List.map_congr_left hlistings, List.map_id']
  · have hmem := (List.forall₂_and_left schema.entities tables).mpr ⟨fun _ h => h, hof⟩
    rw [List.forall₂_map_right_iff]
    refine hmem.imp fun other table ⟨hother, htable⟩ => ?_
    split
    · next hsame =>
      rw [htable.name_eq, hnames.entities.sameName_eq_beq (List.mem_map_of_mem hother) hname,
        beq_iff_eq] at hsame
      have hfound := Schema.entity?_name hother
      rw [hsame, Schema.entity?_name hentity, Option.some.injEq] at hfound
      exact htable.insert (hfound ▸ hvalues)
    · exact htable

private theorem exists_find?_of_forall₂ {entities : List Entity} {tables : List Table}
    (h : List.Forall₂ (fun entity table => table.IsOf entity) entities tables)
    {entity : Entity} (hentity : entity ∈ entities) {p : String → Bool}
    (hp : ∀ other ∈ entities, p other.name = true ↔ other = entity) :
    ∃ table, tables.find? (fun table => p table.name) = some table ∧ table.IsOf entity := by
  induction h with
  | nil => exact absurd hentity List.not_mem_nil
  | @cons first table entities tables htable _ ih =>
    rw [List.forall_mem_cons] at hp
    rw [List.find?_cons, htable.name_eq]
    by_cases hfirst : first = entity
    · rw [hp.1.mpr hfirst]
      exact ⟨table, rfl, hfirst ▸ htable⟩
    · rw [Bool.eq_false_iff.mpr (mt hp.1.mp hfirst)]
      exact ih ((List.mem_cons.mp hentity).resolve_left (Ne.symm hfirst)) hp.2

/-- The table of an entity is found under its name. -/
theorem IsOf.exists_table? {database : Database} (h : database.IsOf schema)
    (hnames : schema.HasSeparateNames) {entity : Entity} (hentity : entity ∈ schema.entities) :
    ∃ table, database.table? entity.name = some table ∧ table.IsOf entity := by
  obtain ⟨tables, htables, hof⟩ := h
  have hp : ∀ other ∈ schema.entities, sameName other.name entity.name = true ↔ other = entity := by
    intro other hother
    rw [hnames.entities.sameName_eq_beq (List.mem_map_of_mem hother) (List.mem_map_of_mem hentity),
      beq_iff_eq]
    refine ⟨fun hname => ?_, congrArg Entity.name⟩
    have hfound := Schema.entity?_name hother
    rwa [hname, Schema.entity?_name hentity, Option.some.injEq, eq_comm] at hfound
  obtain ⟨table, hfind, htable⟩ := exists_find?_of_forall₂ hof hentity
    (p := fun name => sameName name entity.name) hp
  refine ⟨table, ?_, htable⟩
  rw [table?, htables, List.find?_append, hfind, Option.some_or]

end Database

/-! ### Cells -/

/-- The cell of a row of an entity in the first column of a name. -/
def Row.cell? (row : Row) (entity : Entity) (column : String) : Option Cell :=
  ((entity.columns.zip row.values).find? fun (other, _) => other.name == column).map
    fun (other, value) => ⟨.ofType other.type, value⟩

private theorem exists_findIdx?_of_zip {columns : List Column} {values : List Value}
    (hlength : values.length = columns.length) {p q : Column → Bool}
    (hpq : ∀ column ∈ columns, p column = q column) (hq : ∃ column ∈ columns, q column) :
    ∃ place column value, columns.findIdx? p = some place ∧ columns[place]? = some column ∧
      values[place]? = some value ∧
      (columns.zip values).find? (fun x => q x.1) = some (column, value) := by
  induction columns generalizing values with
  | nil => exact absurd hq (by simp)
  | cons column columns ih =>
    obtain ⟨value, values, rfl⟩ := List.exists_cons_of_length_eq_add_one hlength
    rw [List.forall_mem_cons] at hpq
    rw [List.findIdx?_cons, List.zip_cons_cons, List.find?_cons, hpq.1]
    by_cases hcolumn : q column
    · rw [if_pos hcolumn, hcolumn]
      exact ⟨0, column, value, rfl, rfl, rfl, rfl⟩
    · rw [if_neg hcolumn, Bool.eq_false_iff.mpr hcolumn]
      have hq' : ∃ column ∈ columns, q column := by
        simpa only [List.mem_cons, exists_eq_or_imp, hcolumn, Bool.false_eq_true,
          false_or] using hq
      obtain ⟨place, column', value', hplace, hcolumn', hvalue', hfind⟩ :=
        ih (Nat.succ.inj hlength) hpq.2 hq'
      exact ⟨place + 1, column', value', by rw [hplace]; rfl, hcolumn', hvalue', hfind⟩

namespace Table.IsOf

variable {table : Table} {entity : Entity} {column : String}

/-- The cell of a row of an entity's table in a column of the entity. -/
theorem exists_cell? (h : table.IsOf entity)
    (hnames : SeparateNames (entity.columns.map Column.name)) {row : Row} (hrow : row ∈ table.rows)
    (hcolumn : entity.hasColumn column) :
    ∃ cell, row.cell? entity column = some cell ∧ table.cell? row column = some cell := by
  have hexists : ∃ other ∈ entity.columns, other.name == column := by
    simpa only [Entity.hasColumn, Entity.column?, List.find?_isSome] using hcolumn
  have hname : column ∈ entity.columns.map Column.name := by
    obtain ⟨other, hother, heq⟩ := hexists
    exact List.mem_map.mpr ⟨other, hother, eq_of_beq heq⟩
  obtain ⟨place, other, value, hplace, hother, hvalue, hfind⟩ :=
    exists_findIdx?_of_zip (h.width row hrow)
      (p := fun other => sameName other.name column) (q := fun other => other.name == column)
      (fun other hother => hnames.sameName_eq_beq (List.mem_map_of_mem hother) hname) hexists
  refine ⟨⟨.ofType other.type, value⟩, by rw [Row.cell?, hfind]; rfl, ?_⟩
  have hplace' : table.place? column = some place := by
    rw [Table.place?, h.columns_eq, List.findIdx?_map]
    exact hplace
  simp only [Table.cell?, hplace', Table.cellAt?, h.columns_eq, List.getElem?_map, hother, hvalue,
    Option.map_some]

theorem isSome_place? (h : table.IsOf entity) (hcolumn : entity.hasColumn column) :
    (table.place? column).isSome := by
  rw [Entity.hasColumn, Entity.column?, List.find?_isSome] at hcolumn
  obtain ⟨other, hother, hname⟩ := hcolumn
  rw [Table.place?, h.columns_eq, List.findIdx?_map, List.findIdx?_isSome, List.any_eq_true]
  refine ⟨other, hother, ?_⟩
  show sameName other.name column = true
  rw [eq_of_beq hname, sameName_self]

end Table.IsOf

end Store

end PlaylistRules
