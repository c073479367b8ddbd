import PlaylistRules.Catalog.Library
import PlaylistRules.Proofs.Record.Locations
import PlaylistRules.Proofs.Rule.Defects

/-!
# The first defect of a stored tree

A stored tree is checked and compiled in two passes: all rules are taken first, and only then are
they compiled, without the groups that are empty. Each pass stops at its first defect. The error
that is reported has the location of the defect in the tree as it was written, where empty groups
count.

## Main definitions

* `Query.ofRecord` : the query of a stored tree, scoped to a user if one is given.
* `RuleRecord.Uncompiled` : the reasons for which a stored rule that is valid is not compiled.

## Main results

* `Query.ofText_eq_ofRecord` : the query of a text is the one of the tree that is stored in it.
* `RuleTree.ofRecord_eq_error_iff`, `RuleTree.compile_eq_error_iff` : the errors of the passes.
* `Query.first_defect_reported` : the first defect is reported where it is.
-/

namespace PlaylistRules

open Catalog (Schema Entity)
open TreeRecord (located scanGroup)

/-- The query of a stored tree, scoped to a user if one is given. -/
def Query.ofRecord (schema : Schema) (base : String) (now : Calendar.Instant) (user : Option Int64)
    (record : TreeRecord) : Except Rule.Error Query := do
  let tree ← RuleTree.ofRecord record
  (tree.forUser user).compile schema base now

/-- A stored rule that is valid cannot be compiled on a base entity. -/
def RuleRecord.Uncompiled (schema : Schema) (entity : Entity) (now : Calendar.Instant)
    (record : RuleRecord) (reason : Rule.Reason) : Prop :=
  ∃ rule, Rule.ofRecord record = .ok rule ∧ rule.Uncompiled schema entity now reason

/-- A stored rule is invalid, or it cannot be compiled on a base entity. -/
def RuleRecord.Defective (schema : Schema) (entity : Entity) (now : Calendar.Instant)
    (record : RuleRecord) (reason : Rule.Reason) : Prop :=
  record.Invalid reason ∨ record.Uncompiled schema entity now reason

variable {schema : Schema} {base : String} {entity : Entity} {now : Calendar.Instant}
  {error : Rule.Error}

/-- The query of a text is the one of the tree that is stored in it. -/
theorem Query.ofText_eq_ofRecord {user : Option Int64} {text : String} {record : TreeRecord}
    (h : TreeRecord.parse text = .ok record) :
    Query.ofText schema base now user text = Query.ofRecord schema base now user record := by
  rw [Query.ofText, RuleTree.parse_eq_ofRecord h, Query.ofRecord]

/-! ### The first pass -/

theorem RuleGroup.rulesOfRecords_eq_each {group index : Nat} {records : List RuleRecord} :
    rulesOfRecords group index records =
      Outcome.each (fun rule record => located group rule (Rule.ofRecord record)) index
        records := by
  induction records generalizing index with
  | nil => rfl
  | cons record records ih =>
    rw [rulesOfRecords, Outcome.each, ih]
    cases Rule.ofRecord record <;> rfl

/-- The group of a record has its rules and its index. -/
theorem RuleGroup.ofRecord_eq_map {index : Nat} {record : GroupRecord} :
    RuleGroup.ofRecord index record =
      (scanGroup Rule.ofRecord index record).map fun rules => ⟨rules, some index⟩ := by
  rw [RuleGroup.ofRecord, rulesOfRecords_eq_each, scanGroup]
  rfl

theorem RuleTree.groupsOfRecords_eq_each {index : Nat} {records : List GroupRecord} :
    groupsOfRecords index records = Outcome.each RuleGroup.ofRecord index records := by
  induction records generalizing index with
  | nil => rfl
  | cons record records ih => rw [groupsOfRecords, Outcome.each, ih]

/-- The group of a record has the index of the record and as many rules. -/
theorem RuleGroup.index_and_length_of_ofRecord {index : Nat} {record : GroupRecord}
    {group : RuleGroup} (h : RuleGroup.ofRecord index record = .ok group) :
    group.sourceIndex = some index ∧ group.rules.length = record.rules.length := by
  rw [ofRecord_eq_map, Outcome.map_eq_ok_iff] at h
  obtain ⟨rules, hrules, rfl⟩ := h
  exact ⟨rfl, Outcome.length_of_each hrules⟩

/-- The tree of a record is made of the groups of its records. -/
theorem RuleTree.ofRecord_eq_ok_iff {record : TreeRecord} {tree : RuleTree} :
    RuleTree.ofRecord record = .ok tree ↔
      ∃ groups, Outcome.each RuleGroup.ofRecord 0 record.groups = .ok groups ∧
        ofGroups groups = tree := by
  rw [RuleTree.ofRecord, groupsOfRecords_eq_each, Outcome.bind_eq_ok_iff]
  exact exists_congr fun groups => and_congr_right fun _ => ⟨Except.ok.inj, congrArg Except.ok⟩

/-- A stored tree is not taken when the first pass finds a defect. -/
theorem RuleTree.ofRecord_eq_error_iff {record : TreeRecord} :
    RuleTree.ofRecord record = .error error ↔ record.scan Rule.ofRecord = .error error := by
  rw [RuleTree.ofRecord, Outcome.bind_pure_eq_error_iff, groupsOfRecords_eq_each,
    TreeRecord.scan, Outcome.each_eq_error_iff, Outcome.each_eq_error_iff]
  simp only [RuleGroup.ofRecord_eq_map, ne_eq, Outcome.map_eq_error_iff]

/-! ### The second pass -/

/-- A stored rule as it is compiled, after it was taken. -/
def RuleRecord.compile (schema : Schema) (base : String) (now : Calendar.Instant)
    (record : RuleRecord) : Except Rule.Error (Query.Condition × List Scalar) := do
  (← Rule.ofRecord record).compile schema base now

/-- The rules of a group are compiled at the locations of their records. -/
theorem RuleGroup.compileRules_eq_each {group index : Nat} {records : List RuleRecord}
    {rules : List Rule} (h : rulesOfRecords group index records = .ok rules) :
    compileRules schema base now group index rules =
      Outcome.each (fun rule record => located group rule (record.compile schema base now)) index
        records := by
  induction records generalizing index rules with
  | nil =>
    obtain rfl := Except.ok.inj h
    rfl
  | cons record records ih =>
    rw [rulesOfRecords] at h
    cases hrule : Rule.ofRecord record with
    | error e =>
      rw [hrule] at h
      cases h
    | ok rule =>
      rw [hrule] at h
      obtain ⟨others, hothers, h⟩ := Outcome.bind_eq_ok_iff.mp h
      obtain rfl := Except.ok.inj h
      have hcompile : record.compile schema base now = rule.compile schema base now := by
        rw [RuleRecord.compile, hrule]
        rfl
      rw [compileRules, Outcome.each, hcompile, ih hothers]
      cases rule.compile schema base now <;> rfl

/-- The groups of a tree are compiled as their records are. Empty groups have no defects, so that
it does not matter that they are left out, and the others carry their indices with them. -/
theorem RuleTree.compileGroups_eq_error_iff {place index : Nat} {records : List GroupRecord}
    {groups : List RuleGroup} (h : groupsOfRecords index records = .ok groups) :
    compileGroups schema base now place (groups.filter fun group => !group.isEmpty) =
        .error error ↔
      Outcome.each (scanGroup (RuleRecord.compile schema base now)) index records =
        .error error := by
  induction records generalizing place index groups with
  | nil =>
    obtain rfl := Except.ok.inj h
    exact iff_of_false Outcome.ok_ne_error Outcome.ok_ne_error
  | cons record records ih =>
    obtain ⟨group, hgroup, h⟩ := Outcome.bind_eq_ok_iff.mp h
    obtain ⟨others, hothers, h⟩ := Outcome.bind_eq_ok_iff.mp h
    obtain rfl := Except.ok.inj h
    obtain ⟨rules, hrules, h⟩ := Outcome.bind_eq_ok_iff.mp hgroup
    obtain rfl := Except.ok.inj h
    have hcompile : ∀ place, RuleGroup.compile schema base now place ⟨rules, some index⟩ =
        scanGroup (RuleRecord.compile schema base now) index record := fun _ =>
      RuleGroup.compileRules_eq_each hrules
    rw [Outcome.each_cons_eq_error_iff, ← hcompile place]
    cases rules with
    | nil =>
      -- The group is left out. It has nothing to compile, so that it has no error either.
      have hnone : RuleGroup.compile schema base now place ⟨[], some index⟩ = .ok [] := rfl
      rw [hnone, or_iff_right Outcome.ok_ne_error, and_iff_right ⟨_, rfl⟩]
      show compileGroups schema base now place (others.filter fun group => !group.isEmpty) = _ ↔ _
      exact ih hothers
    | cons rule rules =>
      show compileGroups schema base now place
        (⟨rule :: rules, some index⟩ :: others.filter fun group => !group.isEmpty) = _ ↔ _
      rw [compileGroups, Outcome.bind_eq_error_iff, ← exists_and_right]
      refine or_congr_right (exists_congr fun compiled => and_congr_right fun _ => ?_)
      rw [Outcome.bind_pure_eq_error_iff, ih hothers]

/-- A tree that was taken is not compiled when the second pass finds a defect. -/
theorem RuleTree.compile_eq_error_iff (hbase : schema.entity? base = some entity)
    {record : TreeRecord} {tree : RuleTree} (h : RuleTree.ofRecord record = .ok tree) :
    tree.compile schema base now = .error error ↔
      record.scan (RuleRecord.compile schema base now) = .error error := by
  obtain ⟨groups, hgroups, htree⟩ := Outcome.bind_eq_ok_iff.mp h
  obtain rfl := Except.ok.inj htree
  unfold RuleTree.compile
  rw [Schema.requireEntity_eq_ok_iff.mpr hbase]
  dsimp only
  rw [Schema.name_of_entity? hbase, Outcome.bind_pure_eq_error_iff]
  exact compileGroups_eq_error_iff hgroups

/-! ### Both passes -/

/-- A stored rule is not compiled when it is defective. -/
theorem RuleRecord.compile_eq_error_iff (hbase : schema.entity? base = some entity)
    {record : RuleRecord} :
    record.compile schema base now = .error error ↔
      ∃ reason, error = .of reason ∧ record.Defective schema entity now reason := by
  rw [RuleRecord.compile, Outcome.bind_eq_error_iff]
  simp only [Rule.ofRecord_eq_error_iff, Rule.compile_eq_error_iff hbase, RuleRecord.Defective,
    RuleRecord.Uncompiled]
  constructor
  · rintro (⟨reason, rfl, hinvalid⟩ | ⟨rule, hrule, reason, rfl, huncompiled⟩)
    · exact ⟨reason, rfl, .inl hinvalid⟩
    · exact ⟨reason, rfl, .inr ⟨rule, hrule, huncompiled⟩⟩
  · rintro ⟨reason, rfl, hinvalid | ⟨rule, hrule, huncompiled⟩⟩
    · exact .inl ⟨reason, rfl, hinvalid⟩
    · exact .inr ⟨rule, hrule, reason, rfl, huncompiled⟩

namespace Query

/-- The errors of a stored tree are those of the first pass, and then those of the second one. -/
theorem ofRecord_eq_error_iff (hbase : schema.entity? base = some entity) {record : TreeRecord} :
    Query.ofRecord schema base now none record = .error error ↔
      record.scan Rule.ofRecord = .error error ∨
        (∀ error, record.scan Rule.ofRecord ≠ .error error) ∧
          record.scan (RuleRecord.compile schema base now) = .error error := by
  have hpass : (∃ tree, RuleTree.ofRecord record = .ok tree) ↔
      ∀ error, record.scan Rule.ofRecord ≠ .error error := by
    rw [Outcome.exists_ok_iff]
    exact forall_congr' fun error => not_congr RuleTree.ofRecord_eq_error_iff
  rw [Query.ofRecord, Outcome.bind_eq_error_iff, RuleTree.ofRecord_eq_error_iff, ← hpass,
    ← exists_and_right]
  refine or_congr_right (exists_congr fun tree => and_congr_right fun htree => ?_)
  exact RuleTree.compile_eq_error_iff hbase htree

theorem kind_of_invalid {rule : RuleRecord} {reason : Rule.Reason} (h : rule.Invalid reason) :
    reason.kind ∈ [Rule.ErrorKind.unknownOperator, .invalidValue, .invalidArity] := by
  cases h <;> simp [Rule.Reason.kind]

theorem kind_of_uncompiled {rule : RuleRecord} {reason : Rule.Reason}
    (h : rule.Uncompiled schema entity now reason) :
    reason.kind ∈ [Rule.ErrorKind.unknownRelation, .unknownColumn, .unknownEntity,
      .invalidValue] := by
  obtain ⟨rule, -, huncompiled⟩ := h
  exact huncompiled.kind_mem

/-- **The first defect is reported where it is.** Checking and compiling a stored tree on a base
entity that exists fails exactly when some rule is defective. The error is the one of the first
rule that is invalid. Only if there is none, it is the one of the first rule that cannot be
compiled. Its location is the one in the stored tree, where empty groups count. -/
theorem first_defect_reported (hbase : schema.entity? base = some entity) (now : Calendar.Instant)
    (record : TreeRecord) :
    ((∃ error, Query.ofRecord schema base now none record = .error error) ↔
      ∃ location, ∃ rule ∈ record.rule? location, ∃ reason,
        rule.Defective schema entity now reason) ∧
    (∀ error, Query.ofRecord schema base now none record = .error error ↔
      ∃ location reason, error = ⟨reason, some location⟩ ∧
        (record.IsFirst RuleRecord.Invalid location reason ∨
          (∀ other, ∀ rule ∈ record.rule? other, ∀ reason, ¬rule.Invalid reason) ∧
            record.IsFirst (RuleRecord.Uncompiled schema entity now) location reason)) ∧
    (∀ (rule : RuleRecord) reason, rule.Invalid reason →
      reason.kind ∈ [Rule.ErrorKind.unknownOperator, .invalidValue, .invalidArity]) ∧
    (∀ (rule : RuleRecord) reason, rule.Uncompiled schema entity now reason →
      reason.kind ∈ [Rule.ErrorKind.unknownRelation, .unknownColumn, .unknownEntity,
        .invalidValue]) ∧
    ∀ text, TreeRecord.parse text = .ok record →
      Query.ofText schema base now none text = Query.ofRecord schema base now none record := by
  have htake : ∀ rule error, Rule.ofRecord rule = .error error ↔
      ∃ reason, error = .of reason ∧ rule.Invalid reason := fun _ _ => Rule.ofRecord_eq_error_iff
  have hcompile : ∀ rule error, RuleRecord.compile schema base now rule = .error error ↔
      ∃ reason, error = .of reason ∧ rule.Defective schema entity now reason :=
    fun _ _ => RuleRecord.compile_eq_error_iff hbase
  refine ⟨?_, fun error => ?_, fun _ _ => kind_of_invalid, fun _ _ => kind_of_uncompiled,
    fun _ => ofText_eq_ofRecord⟩
  · constructor
    · rintro ⟨error, herror⟩
      obtain htaken | ⟨-, hcompiled⟩ := (ofRecord_eq_error_iff hbase).mp herror
      · obtain ⟨location, rule, hrule, reason, hinvalid⟩ :=
          (TreeRecord.exists_scan_eq_error_iff htake).mp ⟨error, htaken⟩
        exact ⟨location, rule, hrule, reason, .inl hinvalid⟩
      · exact (TreeRecord.exists_scan_eq_error_iff hcompile).mp ⟨error, hcompiled⟩
    · intro hdefective
      obtain ⟨error, hcompiled⟩ := (TreeRecord.exists_scan_eq_error_iff hcompile).mpr hdefective
      by_cases hvalid : ∀ error, record.scan Rule.ofRecord ≠ .error error
      · exact ⟨error, (ofRecord_eq_error_iff hbase).mpr (.inr ⟨hvalid, hcompiled⟩)⟩
      · obtain ⟨error, htaken⟩ := not_forall_not.mp hvalid
        exact ⟨error, (ofRecord_eq_error_iff hbase).mpr (.inl htaken)⟩
  · rw [ofRecord_eq_error_iff hbase, TreeRecord.scan_eq_error_iff htake,
      TreeRecord.scan_ne_error_iff htake, TreeRecord.scan_eq_error_iff hcompile]
    -- When all rules are valid, a rule is defective only if it cannot be compiled.
    have hsecond : (∀ location, ∀ rule ∈ record.rule? location, ∀ reason, ¬rule.Invalid reason) →
        ∀ location, ∀ rule ∈ record.rule? location, ∀ reason,
          (rule.Defective schema entity now reason ↔ rule.Uncompiled schema entity now reason) :=
      fun hvalid location rule hrule reason => or_iff_right (hvalid location rule hrule reason)
    constructor
    · rintro (⟨location, reason, rfl, hfirst⟩ | ⟨hvalid, location, reason, rfl, hfirst⟩)
      · exact ⟨location, reason, rfl, .inl hfirst⟩
      · exact ⟨location, reason, rfl, .inr ⟨hvalid, hfirst.congr (hsecond hvalid)⟩⟩
    · rintro ⟨location, reason, rfl, hfirst | ⟨hvalid, hfirst⟩⟩
      · exact .inl ⟨location, reason, rfl, hfirst⟩
      · exact .inr ⟨hvalid, location, reason, rfl, hfirst.congr fun location rule hrule reason =>
          (hsecond hvalid location rule hrule reason).symm⟩

/-- A rule on a column that does not exist, after an empty group and a rule that is compiled. -/
theorem first_defect_reported_unknown_column :
    let now : Calendar.Instant := .midnight ⟨2018, 7, 15, by decide, by decide, by decide⟩
    let record : TreeRecord := ⟨[⟨[]⟩, ⟨[.ofValues "title" "is" [.string "Foo"],
      .ofValues "rating" "is" [.string "5"]]⟩]⟩
    Query.ofRecord Catalog.library "songs" now none record =
        .error ⟨.unresolved (.unknownColumn "songs" "rating"), some ⟨1, 1⟩⟩ ∧
      record.IsFirst (RuleRecord.Uncompiled Catalog.library Catalog.songs now) ⟨1, 1⟩
        (.unresolved (.unknownColumn "songs" "rating")) := by
  intro now record
  have hbase : Catalog.library.entity? "songs" = some Catalog.songs := rfl
  have herror : Query.ofRecord Catalog.library "songs" now none record =
      .error ⟨.unresolved (.unknownColumn "songs" "rating"), some ⟨1, 1⟩⟩ := rfl
  refine ⟨herror, ?_⟩
  obtain ⟨-, hreported, hkinds, -⟩ := first_defect_reported hbase now record
  obtain ⟨location, reason, heq, hfirst | ⟨-, hfirst⟩⟩ := (hreported _).mp herror
  · obtain ⟨rule, -, hinvalid⟩ := hfirst.found
    cases heq
    exact absurd (hkinds rule _ hinvalid) (by decide)
  · cases heq
    exact hfirst

end Query

end PlaylistRules
