import PlaylistRules.Output.Format
import PlaylistRules.Proofs.Json.Indented
import PlaylistRules.Proofs.Json.Members

/-!
# Queries and results as JSON

The JSON in which a query or a result is shown is read back as the same data, whatever characters
the names and the texts have. A row becomes an object whose members are in the order of their keys:
the order of the columns is lost, but each column keeps its cell.

Values that are binary numbers are left out.

## Main definitions

* `Output.IsRow` : the members of an object are the cells of a row.

## Main results

* `Output.isRow_ofMembers` : columns and cells in pairs.
* `Output.json_carries_data` : queries and results are read back.
-/

namespace PlaylistRules

/-! ### Scalars -/

/-- The JSON value of a scalar value is plain, at any depth. -/
theorem Scalar.isPlain_toJson {value : Scalar} (h : ∀ f, value ≠ .float f) (depth : Nat) :
    value.toJson.IsPlain depth := by
  cases value with
  | float f => exact absurd rfl (h f)
  | _ => exact ⟨trivial, trivial, by cases depth <;> trivial⟩

namespace Output

theorem isPlain_of_mem_map_toJson {values : List Scalar} (h : ∀ f, Scalar.float f ∉ values)
    (depth : Nat) : ∀ json ∈ values.map Scalar.toJson, json.IsPlain depth := by
  rw [List.forall_mem_map]
  exact fun value hvalue => Scalar.isPlain_toJson (fun f hf => h f (hf ▸ hvalue)) depth

/-! ### Queries -/

/-- The members of a query in the order of their keys. -/
theorem queryJson_eq (query : Query) :
    queryJson query = .object
      [("base_table", .string query.baseTable),
        ("bindings", .array (query.bindings.map Scalar.toJson)),
        ("predicate", .string query.predicate), ("sql", .string query.sql)] := by
  simp +decide only [queryJson, Json.ofMembers, List.foldl_cons, List.foldl_nil, Json.insertMember,
    if_true, if_false]

theorem isPlain_queryJson {query : Query} (h : ∀ f, Scalar.float f ∉ query.bindings)
    (depth : Nat) : (queryJson query).IsPlain (depth + 2) := by
  have hbindings : (Json.array (query.bindings.map Scalar.toJson)).IsPlain (depth + 1) :=
    .array (isPlain_of_mem_map_toJson h depth)
  have hstring (text : String) : (Json.string text).IsPlain (depth + 1) :=
    ⟨trivial, trivial, trivial⟩
  refine Json.IsPlain.object ?_
  simp only [List.forall_mem_cons, List.not_mem_nil, false_imp_iff, implies_true, and_true]
  exact ⟨hstring _, hstring _, hstring _, hbindings⟩

/-! ### Rows -/

/-- The members of an object are the cells of a row: its keys are the columns, and under each column
it has the JSON value of the cell in that place. -/
structure IsRow (columns : List String) (row : List Scalar) (members : List (String × Json)) :
    Prop where
  keys : (members.map Prod.fst).Perm columns
  cell {i : Nat} {column : String} (h : columns[i]? = some column) :
    ∃ value, row[i]? = some value ∧ members.lookup column = some value.toJson

variable {columns : List String} {row : List Scalar}

/-- **Columns and cells in pairs** make an object of the row, if no column is repeated and each has
a cell. -/
theorem isRow_ofMembers (hcolumns : columns.Nodup) (hlength : row.length = columns.length) :
    IsRow columns row (Json.ofMembers (columns.zip (row.map Scalar.toJson))) := by
  have hkeys : (columns.zip (row.map Scalar.toJson)).map Prod.fst = columns :=
    List.map_fst_zip (by rw [List.length_map, hlength])
  have hnodup : ((columns.zip (row.map Scalar.toJson)).map Prod.fst).Nodup := hkeys.symm ▸ hcolumns
  refine ⟨(Json.map_fst_ofMembers_perm hnodup).trans (.of_eq hkeys), fun {i column} hcolumn => ?_⟩
  have hi : i < row.length := by
    rw [hlength]
    exact (List.getElem?_eq_some_iff.mp hcolumn).1
  refine ⟨row[i], List.getElem?_eq_getElem hi, ?_⟩
  have hcell : (row.map Scalar.toJson)[i]? = some row[i].toJson := by
    rw [List.getElem?_map, List.getElem?_eq_getElem hi, Option.map_some]
  have hpair : (columns.zip (row.map Scalar.toJson))[i]? = some (column, row[i].toJson) :=
    List.getElem?_zip_eq_some.mpr ⟨hcolumn, hcell⟩
  exact Json.lookup_ofMembers_of_mem hnodup (List.mem_of_getElem? hpair)

theorem isPlain_rowJson (h : ∀ f, Scalar.float f ∉ row) (depth : Nat) :
    (rowJson columns row).IsPlain (depth + 1) :=
  .object fun _ hmember =>
    isPlain_of_mem_map_toJson h depth _ (List.of_mem_zip hmember).2

/-! ### Texts -/

/-- **The JSON output carries the data.** A query that binds no binary number is read back as an
object with its statement, table, predicate and bound values. A result without binary numbers, with
different columns and a cell for each of them in every row, is read back as an array with an object
for every row. -/
theorem json_carries_data :
    (∀ query : Query, (∀ f, Scalar.float f ∉ query.bindings) →
      Json.parse (formatQuery query .json) = .ok (.object
        [("base_table", .string query.baseTable),
          ("bindings", .array (query.bindings.map Scalar.toJson)),
          ("predicate", .string query.predicate), ("sql", .string query.sql)])) ∧
    ∀ result : Store.Result, (∀ row ∈ result.rows, ∀ f, Scalar.float f ∉ row) →
      result.columns.Nodup → (∀ row ∈ result.rows, row.length = result.columns.length) →
      ∃ objects : List (List (String × Json)),
        Json.parse (formatResult result .json) = .ok (.array (objects.map .object)) ∧
        List.Forall₂ (IsRow result.columns) result.rows objects := by
  constructor
  · intro query hbindings
    rw [← queryJson_eq]
    exact (isPlain_queryJson hbindings 125).parse_indented
  · intro result hcells hcolumns hlength
    let members (row : List Scalar) := Json.ofMembers (result.columns.zip (row.map Scalar.toJson))
    refine ⟨result.rows.map members, ?_, ?_⟩
    · rw [List.map_map]
      refine Json.IsPlain.parse_indented (.array ?_)
      rw [List.forall_mem_map]
      exact fun row hrow => isPlain_rowJson (hcells row hrow) 125
    · rw [List.forall₂_map_right_iff, List.forall₂_same]
      exact fun row hrow => isRow_ofMembers hcolumns (hlength row hrow)

/-- Quotation marks, backslashes, control characters and line feeds in names and texts. -/
theorem json_carries_data_escapes :
    Json.parse (formatQuery ⟨"a\"b", "(\"\\\" = ?)", [.null, .int (-1), .text "\"\\\x01\n"]⟩
        .json) =
      .ok (.object
        [("base_table", .string "a\"b"),
          ("bindings", .array [.null, Json.ofInt64 (-1), .string "\"\\\x01\n"]),
          ("predicate", .string "(\"\\\" = ?)"),
          ("sql", .string "select * from \"a\"\"b\" where (\"\\\" = ?)")]) ∧
    ∃ objects : List (List (String × Json)),
      Json.parse (formatResult ⟨["z", "\n\""], [[.text "\t", .bool true], [.null, .int 2]]⟩
          .json) =
        .ok (.array (objects.map .object)) ∧
      List.Forall₂ (IsRow ["z", "\n\""]) [[.text "\t", .bool true], [.null, .int 2]] objects := by
  have hsql : "select * from \"a\"\"b\" where (\"\\\" = ?)" =
      Query.sql ⟨"a\"b", "(\"\\\" = ?)", [.null, .int (-1), .text "\"\\\x01\n"]⟩ := by
    decide +kernel
  rw [hsql]
  exact ⟨json_carries_data.1 _ (by simp),
    json_carries_data.2 ⟨["z", "\n\""], [[.text "\t", .bool true], [.null, .int 2]]⟩
      (by simp) (by decide) (by decide)⟩

end Output

end PlaylistRules
