import PlaylistRules.Catalog.Library
import PlaylistRules.Proofs.Catalog.Paths
import PlaylistRules.Proofs.Store.Execution

/-!
# Queries on the media library

The schema of the media library is valid, its names are separate, and no relation leads from an
entity to itself, so that compiling keeps the meaning of every tree on every base entity.

## Main results

* `RuleTree.execute_compile_library` : executing a compiled tree gives the rows for which it is
  true.
-/

namespace PlaylistRules

open Store

namespace Catalog

theorem validate_library : library.validate = .ok () :=
  rfl

theorem hasSeparateNames_library : library.HasSeparateNames :=
  ⟨by decide +kernel, by decide +kernel⟩

/-- No relation of the library leads from an entity to itself. -/
theorem target_ne_source_library {entity : Entity} :
    ∀ relation ∈ library.relations, relation.source = entity.name →
      relation.target ≠ entity.name := by
  have hne : ∀ relation ∈ library.relations, relation.target ≠ relation.source := by decide
  intro relation hrelation hsource
  exact hsource ▸ hne relation hrelation

/-- No column of the library has a point in its name, so that its name is its path. -/
theorem resolve_own_library {entity : Entity} (hentity : entity ∈ library.entities)
    {column : String} (hcolumn : entity.hasColumn column) :
    library.resolve entity.name column = .ok (.own column) := by
  have hpoints : ∀ entity ∈ library.entities, ∀ column ∈ entity.columns,
      '.' ∉ column.name.toList := by decide +kernel
  obtain ⟨found, hfound⟩ := Option.isSome_iff_exists.mp hcolumn
  refine Schema.resolve_own (Schema.entity?_name hentity) hcolumn ?_
  have hname := hpoints entity hentity found (List.mem_of_find?_eq_some hfound)
  rwa [Entity.name_of_column? hfound] at hname

end Catalog

namespace RuleTree

/-- **Compiling keeps the meaning of a tree on the media library.** On every database of the
library, the query of a tree within the limits of statements and patterns gives the rows of the base
table for which all rules of some group of the tree are true, each once. A tree without groups gives
no rows. -/
theorem execute_compile_library {database : Database} (hdatabase : database.IsOf Catalog.library)
    {entity : Catalog.Entity} (hentity : entity ∈ Catalog.library.entities)
    {now : Calendar.Instant} {tree : RuleTree} {query : Query}
    (hcompile : tree.compile Catalog.library entity.name now = .ok query)
    (hlimits : query.IsWithinLimits) :
    ∃ result, execute database query = .ok result ∧
      result.columns = entity.columns.map Catalog.Column.name ∧
      result.rows.Perm (((database.rows entity.name).filter fun row =>
        tree.HoldsOn Catalog.library database entity now row).map fun row =>
          row.values.map Value.toScalar) ∧
      (tree.groups = [] → result.rows = []) := by
  obtain ⟨result, hexecute, hcolumns, hrows⟩ := execute_compile Catalog.validate_library
    Catalog.hasSeparateNames_library hdatabase hentity Catalog.target_ne_source_library hcompile
    hlimits
  refine ⟨result, hexecute, hcolumns, hrows, fun hgroups => ?_⟩
  have hnone : ∀ row, ¬tree.HoldsOn Catalog.library database entity now row := by
    rintro row ⟨group, hgroup, -⟩
    rw [hgroups] at hgroup
    exact List.not_mem_nil hgroup
  simp only [hnone, decide_false, List.filter_false, List.map_nil, List.perm_nil] at hrows
  exact hrows

/-- Of two albums, the one whose artist has the name, with a boolean and two numbers as bounds. -/
theorem execute_compile_library_artist_name :
    let database := (((Database.ofSchema Catalog.library).insert "artists"
        [.int 1, .text "Ann", .null, .text "2018-07-15", .text "2018-07-15"]).insert "albums"
        [.int 1, .int 1, .text "A", .null, .int 0, .text "2018-07-15", .text "2018-07-15"]).insert
        "albums"
        [.int 2, .int 9, .text "B", .null, .int 0, .text "2018-07-15", .text "2018-07-15"]
    ∃ result, execute database ⟨"albums", "(exists (select * from \"artists\" where " ++
        "\"albums\".\"artist_id\" = \"artists\".\"id\" and \"name\" = ?) and " ++
        "\"is_compilation\" <> ? and \"id\" between ? and ?)",
        [.text "Ann", .bool true, .float (Binary64.ofInt 1), .int 5]⟩ = .ok result ∧
      result.rows.Perm
        [[.int 1, .int 1, .text "A", .null, .int 0, .text "2018-07-15", .text "2018-07-15"]] := by
  intro database
  have hartists : Catalog.artists ∈ Catalog.library.entities := by decide
  have halbums : Catalog.albums ∈ Catalog.library.entities := by decide
  have hdatabase : database.IsOf Catalog.library :=
    (((Database.isOf_ofSchema _).insert Catalog.hasSeparateNames_library hartists rfl).insert
      Catalog.hasSeparateNames_library halbums rfl).insert Catalog.hasSeparateNames_library
        halbums rfl
  have hcompile : (RuleTree.ofGroups [.ofRules [.has "artist.name" (.text "Ann"),
      ⟨"is_compilation", .isNot, [.bool true], rfl⟩,
      ⟨"id", .isBetween, [.float (Binary64.ofInt 1), .int 5], rfl⟩]]).compile
      Catalog.library Catalog.albums.name
        (.midnight ⟨2018, 7, 15, by decide, by decide, by decide⟩) = .ok _ := rfl
  have hproper : (Query.Predicate.anyOf [[.related "artists" ⟨"albums", "artist_id"⟩
      ⟨"artists", "id"⟩ ⟨"name", .equal⟩, .own ⟨"is_compilation", .unequal⟩,
      .own ⟨"id", .between⟩]]).IsProper :=
    ⟨by decide, by decide⟩
  have hlimits : (Query.ofPredicate "albums" _
      [.text "Ann", .bool true, .float (Binary64.ofInt 1), .int 5]).IsWithinLimits :=
    (Query.isWithinLimits_ofPredicate_iff hproper).mpr (by decide)
  obtain ⟨result, hexecute, -, hrows, -⟩ :=
    execute_compile_library hdatabase halbums hcompile hlimits
  exact ⟨result, hexecute, hrows⟩

end RuleTree

end PlaylistRules
