import PlaylistRules.Proofs.Catalog.Validity

/-!
# Paths of fields

A path is divided at its last point, and a path that does not resolve has a fault: the name of a
column, of a relation or of a related entity is missing.

## Main definitions

* `Catalog.Schema.Unresolved` : the fault of a path that does not resolve.

## Main results

* `Catalog.splitPath_eq_none_iff`, `Catalog.splitPath_eq_some_iff` : the two parts of a path.
* `Catalog.Schema.resolve_own`, `Catalog.Schema.resolve_related` : the paths of columns.
* `Catalog.Schema.resolve_eq_error_iff` : the paths that do not resolve, with their faults.
-/

namespace PlaylistRules.Catalog

/-! ### Division -/

/-- A path without a point is not divided. -/
theorem splitPath_eq_none_iff {cs : List Char} : splitPath cs = none ↔ '.' ∉ cs := by
  induction cs with
  | nil => exact ⟨fun _ => List.not_mem_nil, fun _ => rfl⟩
  | cons c cs ih =>
    rw [splitPath, List.mem_cons, not_or, ← ih]
    cases splitPath cs with
    | some parts => exact ⟨nofun, fun h => nomatch h.2⟩
    | none =>
      by_cases hc : c = '.'
      · simp only [hc, if_true, reduceCtorEq, not_true, false_and]
      · simp only [hc, if_false, Ne.symm hc, not_false_iff, and_self]

/-- A path is divided at a point after which there is none. -/
theorem splitPath_append {before after : List Char} (h : '.' ∉ after) :
    splitPath (before ++ '.' :: after) = some (before, after) := by
  induction before with
  | nil =>
    rw [List.nil_append, splitPath, splitPath_eq_none_iff.mpr h]
    rfl
  | cons c before ih => rw [List.cons_append, splitPath, ih]

/-- A path is divided at its last point. -/
theorem splitPath_eq_some_iff {cs before after : List Char} :
    splitPath cs = some (before, after) ↔ cs = before ++ '.' :: after ∧ '.' ∉ after := by
  refine ⟨fun h => ?_, fun ⟨hcs, hafter⟩ => hcs ▸ splitPath_append hafter⟩
  induction cs generalizing before with
  | nil => cases h
  | cons c cs ih =>
    rw [splitPath] at h
    cases hsplit : splitPath cs with
    | some parts =>
      rw [hsplit, Option.some.injEq, Prod.mk.injEq] at h
      obtain ⟨rfl, rfl⟩ := h
      obtain ⟨hcs, hafter⟩ := ih hsplit
      exact ⟨by rw [hcs, List.cons_append], hafter⟩
    | none =>
      rw [hsplit, Option.ite_none_right_eq_some, Option.some.injEq, Prod.mk.injEq] at h
      obtain ⟨rfl, rfl, rfl⟩ := h
      exact ⟨rfl, splitPath_eq_none_iff.mp hsplit⟩

namespace Schema

variable {schema : Schema} {base name path : String} {entity : Entity} {fault : Fault}

/-! ### Columns -/

/-- The path of a column of the base entity without a point leads to it. -/
theorem resolve_own (hbase : schema.entity? base = some entity) {column : String}
    (hcolumn : entity.hasColumn column) (hpoint : '.' ∉ column.toList) :
    schema.resolve base column = .ok (.own column) := by
  obtain ⟨found, hfound⟩ := Option.isSome_iff_exists.mp hcolumn
  rw [resolve, requireEntity_eq_ok_iff.mpr hbase, Outcome.ok_bind, splitPath_eq_none_iff.mpr hpoint]
  simp only [requireColumn_eq_ok_iff.mpr hfound, Outcome.ok_bind, Entity.name_of_column? hfound]

/-- The path of a relation and a column without a point leads to the column of the related
entity. -/
theorem resolve_related (hbase : schema.entity? base = some entity) {relation : Relation}
    (hrelation : schema.relation? entity.name relation.name = some relation) {target : Entity}
    (htarget : schema.entity? relation.target = some target) {column : String}
    (hcolumn : target.hasColumn column) (hpoint : '.' ∉ column.toList) :
    schema.resolve base (relation.name ++ "." ++ column) = .ok (.related relation column) := by
  obtain ⟨found, hfound⟩ := Option.isSome_iff_exists.mp hcolumn
  have hpath : (relation.name ++ "." ++ column).toList =
      relation.name.toList ++ '.' :: column.toList := by
    rw [String.toList_append, String.toList_append, List.append_assoc]
    rfl
  rw [resolve, requireEntity_eq_ok_iff.mpr hbase, Outcome.ok_bind, hpath, splitPath_append hpoint]
  simp only [String.ofList_toList, requireRelation_eq_ok_iff.mpr hrelation, Outcome.ok_bind,
    requireEntity_eq_ok_iff.mpr htarget, requireColumn_eq_ok_iff.mpr hfound,
    Entity.name_of_column? hfound]

/-! ### Faults -/

theorem requireEntity_eq_error_iff :
    schema.requireEntity name = .error fault ↔
      schema.entity? name = none ∧ fault = .unknownEntity name := by
  unfold requireEntity
  cases schema.entity? name with
  | none => exact ⟨fun h => ⟨rfl, (Except.error.inj h).symm⟩, fun h => congrArg _ h.2.symm⟩
  | some other => exact ⟨nofun, nofun⟩

theorem requireColumn_eq_error_iff :
    requireColumn entity name = .error fault ↔
      entity.column? name = none ∧ fault = .unknownColumn entity.name name := by
  unfold requireColumn
  cases entity.column? name with
  | none => exact ⟨fun h => ⟨rfl, (Except.error.inj h).symm⟩, fun h => congrArg _ h.2.symm⟩
  | some other => exact ⟨nofun, nofun⟩

theorem requireRelation_eq_error_iff :
    schema.requireRelation entity name = .error fault ↔
      schema.relation? entity.name name = none ∧ fault = .unknownRelation entity.name name := by
  unfold requireRelation
  cases schema.relation? entity.name name with
  | none => exact ⟨fun h => ⟨rfl, (Except.error.inj h).symm⟩, fun h => congrArg _ h.2.symm⟩
  | some other => exact ⟨nofun, nofun⟩

/-- The fault of a path that does not resolve. A path without a point names no column of the base
entity. Of a path with a point, what stands before the last point names no relation, or the relation
leads to no entity, or that entity has no column of the name after the point. -/
inductive Unresolved (schema : Schema) (entity : Entity) (path : String) : Fault → Prop
  | column : '.' ∉ path.toList → entity.column? path = none →
    Unresolved schema entity path (.unknownColumn entity.name path)
  | relation {before after : List Char} : path.toList = before ++ '.' :: after → '.' ∉ after →
    schema.relation? entity.name (String.ofList before) = none →
      Unresolved schema entity path (.unknownRelation entity.name (String.ofList before))
  | target {before after : List Char} {relation : Relation} :
    path.toList = before ++ '.' :: after → '.' ∉ after →
    schema.relation? entity.name (String.ofList before) = some relation →
    schema.entity? relation.target = none →
      Unresolved schema entity path (.unknownEntity relation.target)
  | targetColumn {before after : List Char} {relation : Relation} {target : Entity} :
    path.toList = before ++ '.' :: after → '.' ∉ after →
    schema.relation? entity.name (String.ofList before) = some relation →
    schema.entity? relation.target = some target →
    target.column? (String.ofList after) = none →
      Unresolved schema entity path (.unknownColumn target.name (String.ofList after))

/-- **A path that does not resolve has a fault**, the first one on the way to its column. -/
theorem resolve_eq_error_iff (hbase : schema.entity? base = some entity) :
    schema.resolve base path = .error fault ↔ schema.Unresolved entity path fault := by
  have hentity := requireEntity_eq_ok_iff.mpr hbase
  rw [resolve, hentity, Outcome.ok_bind]
  constructor
  · intro h
    split at h
    · next hsplit =>
      obtain ⟨hcolumn, rfl⟩ :=
        requireColumn_eq_error_iff.mp (Outcome.bind_pure_eq_error_iff.mp h)
      exact .column (splitPath_eq_none_iff.mp hsplit) hcolumn
    · next before after hsplit =>
      obtain ⟨hpath, hafter⟩ := splitPath_eq_some_iff.mp hsplit
      obtain h | ⟨relation, hrelation, h⟩ := Outcome.bind_eq_error_iff.mp h
      · obtain ⟨hrelation, rfl⟩ := requireRelation_eq_error_iff.mp h
        exact .relation hpath hafter hrelation
      rw [requireRelation_eq_ok_iff] at hrelation
      obtain h | ⟨target, htarget, h⟩ := Outcome.bind_eq_error_iff.mp h
      · obtain ⟨htarget, rfl⟩ := requireEntity_eq_error_iff.mp h
        exact .target hpath hafter hrelation htarget
      rw [requireEntity_eq_ok_iff] at htarget
      obtain ⟨hcolumn, rfl⟩ :=
        requireColumn_eq_error_iff.mp (Outcome.bind_pure_eq_error_iff.mp h)
      exact .targetColumn hpath hafter hrelation htarget hcolumn
  · intro h
    cases h with
    | column hpath hcolumn =>
      rw [splitPath_eq_none_iff.mpr hpath]
      exact Outcome.bind_pure_eq_error_iff.mpr (requireColumn_eq_error_iff.mpr ⟨hcolumn, rfl⟩)
    | relation hpath hafter hrelation =>
      rw [splitPath_eq_some_iff.mpr ⟨hpath, hafter⟩]
      exact Outcome.bind_eq_error_iff.mpr
        (.inl (requireRelation_eq_error_iff.mpr ⟨hrelation, rfl⟩))
    | target hpath hafter hrelation htarget =>
      rw [splitPath_eq_some_iff.mpr ⟨hpath, hafter⟩]
      refine Outcome.bind_eq_error_iff.mpr
        (.inr ⟨_, requireRelation_eq_ok_iff.mpr hrelation, ?_⟩)
      exact Outcome.bind_eq_error_iff.mpr (.inl (requireEntity_eq_error_iff.mpr ⟨htarget, rfl⟩))
    | targetColumn hpath hafter hrelation htarget hcolumn =>
      rw [splitPath_eq_some_iff.mpr ⟨hpath, hafter⟩]
      refine Outcome.bind_eq_error_iff.mpr
        (.inr ⟨_, requireRelation_eq_ok_iff.mpr hrelation, ?_⟩)
      refine Outcome.bind_eq_error_iff.mpr (.inr ⟨_, requireEntity_eq_ok_iff.mpr htarget, ?_⟩)
      exact Outcome.bind_pure_eq_error_iff.mpr (requireColumn_eq_error_iff.mpr ⟨hcolumn, rfl⟩)

end Schema

end PlaylistRules.Catalog
