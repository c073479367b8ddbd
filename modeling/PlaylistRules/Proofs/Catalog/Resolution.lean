import PlaylistRules.Catalog.Library
import PlaylistRules.Proofs.Catalog.Paths

/-!
# Resolution of paths

A field has one path, and the path resolves to it exactly when the schema has what it names: the
column of a local field, or the relation of a related one, its target and a column there. Of several
relations with the same name from an entity, the first one that was declared counts. Points divide a
path only before the name of a column, so that a relation may have points in its name and a column
may not. A path that names nothing fails at the first name that is missing.

## Main definitions

* `Catalog.Schema.IsFirstRelation` : the first relation with a name from an entity.
* `Catalog.Field.path` : the path of a field.
* `Catalog.Field.IsReachable` : the schema has what the path of a field names.
* `Catalog.Schema.fieldsAt` : the fields of which a text may be the path.

## Main results

* `Catalog.Schema.resolve_eq_ok_iff` : the fields that paths resolve to.
* `Catalog.Schema.resolve_exact` : the outcomes of all paths.
-/

namespace PlaylistRules.Catalog

variable {schema : Schema} {entity : Entity} {name source : String} {relation : Relation}

/-! ### Look-ups -/

instance (entity : Entity) (name : String) : Decidable (entity.Has name) :=
  inferInstanceAs (Decidable (∃ column ∈ entity.columns, column.name = name))

theorem Entity.column?_eq_none_iff : entity.column? name = none ↔ ¬entity.Has name := by
  rw [← hasColumn_iff, hasColumn, Bool.not_eq_true, Option.isSome_eq_false_iff,
    Option.isNone_iff_eq_none]

namespace Schema

/-- A relation is the first one with a name from an entity, in the order of their declaration. -/
def IsFirstRelation (schema : Schema) (source name : String) (relation : Relation) : Prop :=
  ∃ earlier later, schema.relations = earlier ++ relation :: later ∧
    (relation.source = source ∧ relation.name = name) ∧
    ∀ other ∈ earlier, ¬(other.source = source ∧ other.name = name)

theorem relation?_eq_some_iff :
    schema.relation? source name = some relation ↔ schema.IsFirstRelation source name relation := by
  simp only [relation?, List.find?_eq_some_iff_append, Bool.and_eq_true, beq_iff_eq,
    IsFirstRelation, Bool.not_eq_true', ← Bool.not_eq_true]
  constructor
  · rintro ⟨hnames, earlier, later, heq, hearlier⟩
    exact ⟨earlier, later, heq, hnames, hearlier⟩
  · rintro ⟨earlier, later, heq, hnames, hearlier⟩
    exact ⟨hnames, earlier, later, heq, hearlier⟩

instance (schema : Schema) (source name : String) (relation : Relation) :
    Decidable (schema.IsFirstRelation source name relation) :=
  decidable_of_iff _ relation?_eq_some_iff

theorem relation?_eq_none_iff :
    schema.relation? source name = none ↔
      ∀ relation ∈ schema.relations, ¬(relation.source = source ∧ relation.name = name) := by
  simp only [relation?, List.find?_eq_none, Bool.and_eq_true, beq_iff_eq]

theorem entity?_eq_none_iff :
    schema.entity? name = none ↔ ∀ entity ∈ schema.entities, entity.name ≠ name := by
  simp only [entity?, List.find?_eq_none, beq_iff_eq, ne_eq]

end Schema

/-! ### Fields and their paths -/

namespace Field

/-- The path of a field: the name of its column, after the name of its relation and a point. -/
def path : Field → String
  | own column => column
  | related relation column => relation.name ++ "." ++ column

/-- A schema has what the path of a field names: the column of a local field, or the relation of a
related field, as the first one of its name, an entity that it leads to, and the column there. The
name of the column has no point. -/
def IsReachable (schema : Schema) (entity : Entity) : Field → Prop
  | own column => '.' ∉ column.toList ∧ entity.Has column
  | related relation column => '.' ∉ column.toList ∧
      schema.IsFirstRelation entity.name relation.name relation ∧
        ∃ target ∈ schema.entities, target.name = relation.target ∧ target.Has column

instance (schema : Schema) (entity : Entity) :
    (field : Field) → Decidable (field.IsReachable schema entity)
  | own column => inferInstanceAs (Decidable ('.' ∉ column.toList ∧ entity.Has column))
  | related relation column => inferInstanceAs (Decidable ('.' ∉ column.toList ∧
      schema.IsFirstRelation entity.name relation.name relation ∧
        ∃ target ∈ schema.entities, target.name = relation.target ∧ target.Has column))

end Field

namespace Schema

variable {path : String} {field : Field}

/-- The fields of which a text may be the path: a column of this name, and after the name of each
relation the column that the rest of the text names. -/
def fieldsAt (schema : Schema) (path : String) : List Field :=
  .own path :: schema.relations.map fun relation =>
    .related relation (String.ofList (path.toList.drop (relation.name.toList.length + 1)))

theorem mem_fieldsAt_path (h : field.IsReachable schema entity) :
    field ∈ schema.fieldsAt field.path := by
  cases field with
  | own column => exact List.mem_cons_self
  | related relation column =>
    obtain ⟨-, ⟨earlier, later, hrelations, -⟩, -⟩ := h
    have hmem : relation ∈ schema.relations := by
      rw [hrelations]
      exact List.mem_append_right _ List.mem_cons_self
    have hcolumn : (Field.related relation column).path.toList.drop
        (relation.name.toList.length + 1) = column.toList := by
      rw [Field.path, String.toList_append, String.toList_append, List.append_assoc,
        ← List.drop_drop, List.drop_left]
      rfl
    refine List.mem_cons_of_mem _ (List.mem_map.mpr ⟨relation, hmem, ?_⟩)
    rw [hcolumn, String.ofList_toList]

/-- Only the fields of which a text may be the path can be named by it. -/
theorem exists_mem_fieldsAt_iff {property : Field → Prop} :
    (∃ field ∈ schema.fieldsAt path, path = field.path ∧ field.IsReachable schema entity ∧
        property field) ↔
      ∃ field : Field, path = field.path ∧ field.IsReachable schema entity ∧ property field := by
  constructor
  · exact fun ⟨field, _, h⟩ => ⟨field, h⟩
  · rintro ⟨field, rfl, hreachable, h⟩
    exact ⟨field, mem_fieldsAt_path hreachable, rfl, hreachable, h⟩

/-- The two texts of a path with a point. -/
theorem toList_eq_append_iff {before after : List Char} :
    path.toList = before ++ '.' :: after ↔
      path = String.ofList before ++ "." ++ String.ofList after := by
  have hpoint : ".".toList = ['.'] := rfl
  rw [← String.toList_inj, String.toList_append, String.toList_append, hpoint,
    String.toList_ofList, String.toList_ofList, List.append_assoc, List.singleton_append]

/-- **A path resolves to a field** when it is the path of the field and the schema has what it
names. -/
theorem resolve_eq_ok_iff (hentity : entity ∈ schema.entities) :
    schema.resolve entity.name path = .ok field ↔
      path = field.path ∧ field.IsReachable schema entity := by
  have hbase : schema.entity? entity.name = some entity := entity?_name hentity
  constructor
  · intro h
    rw [resolve, requireEntity_eq_ok_iff.mpr hbase, Outcome.ok_bind] at h
    split at h
    · next hsplit =>
      obtain ⟨column, hcolumn, h⟩ := Outcome.bind_eq_ok_iff.mp h
      obtain rfl := Except.ok.inj h
      have hfound := requireColumn_eq_ok_iff.mp hcolumn
      obtain rfl := Entity.name_of_column? hfound
      exact ⟨rfl, splitPath_eq_none_iff.mp hsplit,
        Entity.hasColumn_iff.mp (Entity.hasColumn_of_column? hfound)⟩
    · next before after hsplit =>
      obtain ⟨hpath, hafter⟩ := splitPath_eq_some_iff.mp hsplit
      obtain ⟨relation, hrelation, h⟩ := Outcome.bind_eq_ok_iff.mp h
      obtain ⟨target, htarget, h⟩ := Outcome.bind_eq_ok_iff.mp h
      obtain ⟨column, hcolumn, h⟩ := Outcome.bind_eq_ok_iff.mp h
      obtain rfl := Except.ok.inj h
      have hfirst := relation?_eq_some_iff.mp (requireRelation_eq_ok_iff.mp hrelation)
      have hfound := requireColumn_eq_ok_iff.mp hcolumn
      have hname : relation.name = String.ofList before := hfirst.choose_spec.choose_spec.2.1.2
      have hcolumnName : column.name = String.ofList after := Entity.name_of_column? hfound
      refine ⟨?_, ?_, hname ▸ hfirst, target, ?_⟩
      · rw [Field.path, hname, hcolumnName]
        exact toList_eq_append_iff.mp hpath
      · rwa [hcolumnName, String.toList_ofList]
      · obtain ⟨hmem, htargetName⟩ := entity?_eq_some_iff.mp (requireEntity_eq_ok_iff.mp htarget)
        exact ⟨hmem, htargetName, Entity.hasColumn_iff.mp (Entity.hasColumn_of_column? hfound)⟩
  · rintro ⟨rfl, hreachable⟩
    cases field with
    | own column =>
      obtain ⟨hpoint, hcolumn⟩ := hreachable
      exact resolve_own hbase (Entity.hasColumn_iff.mpr hcolumn) hpoint
    | related relation column =>
      obtain ⟨hpoint, hfirst, target, htarget, hname, hcolumn⟩ := hreachable
      exact resolve_related hbase (relation?_eq_some_iff.mpr hfirst)
        (entity?_eq_some_iff.mpr ⟨htarget, hname⟩) (Entity.hasColumn_iff.mpr hcolumn) hpoint

/-- A path that resolves names one field, the one that it resolves to. -/
theorem exists_field_iff (hentity : entity ∈ schema.entities)
    (h : schema.resolve entity.name path = .ok field) {property : Field → Prop} :
    (∃ field : Field, path = field.path ∧ field.IsReachable schema entity ∧ property field) ↔
      property field := by
  simp only [← and_assoc, ← resolve_eq_ok_iff hentity, h, Except.ok.injEq, exists_eq_left']

/-- **Resolution is exact.** A path resolves to a local field exactly when it has no point and is
the name of a column of the base entity. It resolves to a related field exactly when it is the name
of a relation, a point, and a name without points, the relation is the first one with its name from
the base entity, and its target exists and has a column of this name. Every other path fails: at the
column when it has no point, and else at the relation that is named by all that stands before the
last point, at the target of this relation, or at the column of the target, whichever is missing
first. Two paths never resolve to the same field. -/
theorem resolve_exact (hentity : entity ∈ schema.entities) (path : String) :
    (∀ column, schema.resolve entity.name path = .ok (.own column) ↔
      '.' ∉ path.toList ∧ path = column ∧ entity.Has column) ∧
    (∀ relation column, schema.resolve entity.name path = .ok (.related relation column) ↔
      path = relation.name ++ "." ++ column ∧ '.' ∉ column.toList ∧
        schema.IsFirstRelation entity.name relation.name relation ∧
          ∃ target ∈ schema.entities, target.name = relation.target ∧ target.Has column) ∧
    ('.' ∉ path.toList → ¬entity.Has path →
      schema.resolve entity.name path = .error (.unknownColumn entity.name path)) ∧
    (∀ before after, path = before ++ "." ++ after → '.' ∉ after.toList →
      ((∀ relation ∈ schema.relations,
          ¬(relation.source = entity.name ∧ relation.name = before)) →
        schema.resolve entity.name path = .error (.unknownRelation entity.name before)) ∧
      ∀ relation, schema.IsFirstRelation entity.name before relation →
        ((∀ target ∈ schema.entities, target.name ≠ relation.target) →
          schema.resolve entity.name path = .error (.unknownEntity relation.target)) ∧
        ∀ target ∈ schema.entities, target.name = relation.target → ¬target.Has after →
          schema.resolve entity.name path = .error (.unknownColumn target.name after)) ∧
    ∀ other field, schema.resolve entity.name path = .ok field →
      schema.resolve entity.name other = .ok field → path = other := by
  have hbase : schema.entity? entity.name = some entity := entity?_name hentity
  refine ⟨fun column => ?_, fun relation column => resolve_eq_ok_iff hentity, ?_, ?_, ?_⟩
  · rw [resolve_eq_ok_iff hentity, Field.path, Field.IsReachable]
    constructor
    · rintro ⟨rfl, hpoint, hcolumn⟩
      exact ⟨hpoint, rfl, hcolumn⟩
    · rintro ⟨hpoint, rfl, hcolumn⟩
      exact ⟨rfl, hpoint, hcolumn⟩
  · intro hpoint hcolumn
    rw [resolve_eq_error_iff hbase]
    exact .column hpoint (Entity.column?_eq_none_iff.mpr hcolumn)
  · rintro before after hpath hpoint
    obtain ⟨before, rfl⟩ : ∃ cs, before = String.ofList cs := ⟨_, before.ofList_toList.symm⟩
    obtain ⟨after, rfl⟩ : ∃ cs, after = String.ofList cs := ⟨_, after.ofList_toList.symm⟩
    rw [← toList_eq_append_iff] at hpath
    rw [String.toList_ofList] at hpoint
    simp only [resolve_eq_error_iff hbase]
    refine ⟨fun hnone => ?_, fun relation hfirst => ⟨fun hmissing => ?_,
      fun target htarget hname hcolumn => ?_⟩⟩
    · exact .relation hpath hpoint (relation?_eq_none_iff.mpr hnone)
    · exact .target hpath hpoint (relation?_eq_some_iff.mpr hfirst)
        (entity?_eq_none_iff.mpr hmissing)
    · exact .targetColumn hpath hpoint (relation?_eq_some_iff.mpr hfirst)
        (entity?_eq_some_iff.mpr ⟨htarget, hname⟩) (Entity.column?_eq_none_iff.mpr hcolumn)
  · intro other field h h'
    rw [resolve_eq_ok_iff hentity] at h h'
    rw [h.1, h'.1]

end Schema

/-- The relation from songs to the albums on which they first appeared. -/
def firstRelease : Relation :=
  .belongsTo "first.release" "songs" "album_id" "albums" "id"

/-- The media library with a relation that has a point in its name, between a relation of albums
and a later relation of songs that have the same name. -/
def releases : Schema :=
  [.belongsTo "first.release" "albums" "id" "albums" "id", firstRelease,
    .hasMany "first.release" "songs" "id" "interactions" "song_id"].foldl Schema.withRelation
    library

namespace Schema

/-- The last point of a path divides it, the relation of songs is found that was declared first, and
only its target is asked for the column. -/
theorem resolve_exact_pointed_relation :
    songs ∈ releases.entities ∧
      releases.resolve "songs" "first.release.name" = .ok (.related firstRelease "name") ∧
      releases.resolve "songs" "first.release.liked" =
        .error (.unknownColumn "albums" "liked") := by
  have hsongs : songs ∈ releases.entities := by decide
  have hfirst : releases.IsFirstRelation "songs" "first.release" firstRelease :=
    ⟨libraryRelations ++ [.belongsTo "first.release" "albums" "id" "albums" "id"],
      [.hasMany "first.release" "songs" "id" "interactions" "song_id"], rfl, ⟨rfl, rfl⟩, by decide⟩
  have halbums : albums ∈ releases.entities := by decide
  refine ⟨hsongs, ?_, ?_⟩
  · obtain ⟨-, hrelated, -⟩ := resolve_exact hsongs "first.release.name"
    exact (hrelated firstRelease "name").mpr
      ⟨rfl, by decide, hfirst, albums, halbums, rfl, .required "name" .text, by decide, rfl⟩
  · obtain ⟨-, -, -, hpointed, -⟩ := resolve_exact hsongs "first.release.liked"
    obtain ⟨-, hmissing⟩ := hpointed "first.release" "liked" rfl (by decide)
    exact (hmissing firstRelease hfirst).2 albums halbums rfl
      (Entity.hasColumn_iff.not.mp (by decide))

end Schema

end PlaylistRules.Catalog
