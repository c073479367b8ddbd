import PlaylistRules.Proofs.Catalog.Validity
import PlaylistRules.Proofs.Query.Compiled

/-!
# Question marks of predicates

The placeholders of a predicate are counted by the question marks in its text. A quoted name keeps
its own question marks, so that they are counted as well: the count is the number of bound values
and, beyond that, the number of question marks in the names that the query quotes. These are the
names of the columns, relations and tables that the paths of its rules lead to, and for a schema
without question marks in its names the count is right for every tree.

## Main definitions

* `Query.questionMarks` : the number of question marks in names.
* `Query.Condition.names`, `Query.Predicate.names` : the names in a text, in order.
* `RuleTree.names` : the names that the paths of a tree lead to.
* `Catalog.Schema.IsUnmarked` : no name of a schema has a question mark.

## Main results

* `Query.count_condition`, `Query.count_predicate` : the question marks of a text.
* `RuleTree.placeholderCount_of_compile` : the count for a compiled tree.
-/

namespace PlaylistRules

open Catalog (Schema Entity Field)

/-! ### Names in a text -/

namespace Query

/-- The number of question marks in names. -/
def questionMarks (names : List String) : Nat :=
  (names.flatMap String.toList).count '?'

/-- The names that a condition quotes, in the order of its text. -/
def Condition.names : Condition → List String
  | own test => [test.column]
  | related table outer inner test =>
    [table, outer.table, outer.column, inner.table, inner.column, test.column]

/-- The names that a predicate quotes, in the order of its text. -/
def Predicate.names : Predicate → List String
  | never => []
  | anyOf groups => groups.flatMap fun group => group.flatMap Condition.names

variable {names names' : List String}

@[simp] theorem questionMarks_nil : questionMarks [] = 0 :=
  rfl

@[simp] theorem questionMarks_cons (name : String) :
    questionMarks (name :: names) = name.toList.count '?' + questionMarks names := by
  rw [questionMarks, List.flatMap_cons, List.count_append, questionMarks]

theorem questionMarks_append :
    questionMarks (names ++ names') = questionMarks names + questionMarks names' := by
  rw [questionMarks, List.flatMap_append, List.count_append, questionMarks, questionMarks]

/-- There is no question mark in names when none of them has one. -/
theorem questionMarks_eq_zero_iff :
    questionMarks names = 0 ↔ ∀ name ∈ names, '?' ∉ name.toList := by
  rw [questionMarks, List.count_eq_zero, List.mem_flatMap]
  exact ⟨fun h name hname hmark => h ⟨name, hname, hmark⟩,
    fun h ⟨name, hname, hmark⟩ => h name hname hmark⟩

/-! ### Counting in a text -/

/-- Only quotation marks are doubled. -/
theorem count_doubled {mark c : Char} (h : c ≠ mark) (cs : List Char) :
    (Text.doubled mark cs).count c = cs.count c := by
  induction cs with
  | nil => rfl
  | cons d cs ih =>
    by_cases hd : d = mark
    · simp [Text.doubled, hd, h.symm, ih]
    · simp [Text.doubled, hd, List.count_cons, ih]

/-- A quoted name keeps its question marks. -/
theorem count_quoteName (name : String) :
    (Text.quoteName name).toList.count '?' = name.toList.count '?' := by
  rw [toList_quoteName, Text.quoted, List.count_cons_of_ne (by decide), List.count_append,
    count_doubled (by decide)]
  simp

/-- A separator without question marks adds none. -/
theorem count_intercalate {separator : List Char} (h : '?' ∉ separator)
    (parts : List (List Char)) :
    (separator.intercalate parts).count '?' = parts.flatten.count '?' := by
  induction parts with
  | nil => rfl
  | cons part parts ih =>
    cases parts with
    | nil => simp
    | cons next parts =>
      rw [List.intercalate_cons_cons, List.count_append, List.count_append, ih,
        List.count_eq_zero.mpr h, Nat.add_zero, ← List.count_append, ← List.flatten_cons]

theorem count_comparisonWords (comparison : Rule.Comparison) :
    (comparisonWords comparison).toList.count '?' = comparison.arity := by
  cases comparison <;> decide

theorem count_test (test : Test) :
    test.text.toList.count '?' = test.comparison.arity + test.column.toList.count '?' := by
  rw [test.toList_text, List.count_append, count_quoteName, count_comparisonWords, Nat.add_comm]

theorem count_columnRef (ref : ColumnRef) :
    ref.text.toList.count '?' = ref.table.toList.count '?' + ref.column.toList.count '?' := by
  have hpoint : ".".toList.count '?' = 0 := by decide
  rw [ColumnRef.text, String.toList_append, String.toList_append, List.count_append,
    List.count_append, count_quoteName, count_quoteName, hpoint, Nat.add_zero]

/-- **The question marks of a condition** are its placeholders and those of its names. -/
theorem count_condition (condition : Condition) :
    condition.text.toList.count '?' = condition.arity + questionMarks condition.names := by
  cases condition with
  | own test =>
    have htext : (Condition.own test).text = test.text := rfl
    have harity : (Condition.own test).arity = test.comparison.arity := rfl
    rw [htext, count_test, harity, Condition.names, questionMarks_cons, questionMarks_nil,
      Nat.add_zero]
  | related table outer inner test =>
    have hwords : "exists (select * from ".toList.count '?' = 0 ∧ " where ".toList.count '?' = 0 ∧
        " = ".toList.count '?' = 0 ∧ " and ".toList.count '?' = 0 ∧ ")".toList.count '?' = 0 := by
      decide
    have harity : (Condition.related table outer inner test).arity = test.comparison.arity := rfl
    unfold Condition.text
    simp only [Condition.names, String.toList_append, List.count_append,
      count_quoteName, count_columnRef, count_test, questionMarks_cons, questionMarks_nil, hwords,
      harity]
    omega

theorem count_conditions (group : List Condition) :
    (group.flatMap fun condition => condition.text.toList).count '?' =
      groupArity group + questionMarks (group.flatMap Condition.names) := by
  induction group with
  | nil => rfl
  | cons condition group ih =>
    have harity : groupArity (condition :: group) = condition.arity + groupArity group := rfl
    rw [List.flatMap_cons, List.count_append, ih, count_condition, harity, List.flatMap_cons,
      questionMarks_append]
    omega

theorem count_groupText (group : List Condition) :
    (groupText group).toList.count '?' =
      groupArity group + questionMarks (group.flatMap Condition.names) := by
  rw [toList_groupText, List.count_cons_of_ne (by decide), List.count_append,
    count_intercalate (by decide), ← List.flatMap_def, count_conditions]
  rfl

/-- **The question marks of a predicate** are its placeholders and those of its names. -/
theorem count_predicate (predicate : Predicate) :
    predicate.text.toList.count '?' = predicate.arity + questionMarks predicate.names := by
  cases predicate with
  | never => decide
  | anyOf groups =>
    rw [Predicate.toList_text_anyOf, count_intercalate (by decide), ← List.flatMap_def]
    induction groups with
    | nil => rfl
    | cons group groups ih =>
      have harity : (Predicate.anyOf (group :: groups)).arity =
          groupArity group + (Predicate.anyOf groups).arity := rfl
      have hnames : (Predicate.anyOf (group :: groups)).names =
          group.flatMap Condition.names ++ (Predicate.anyOf groups).names := rfl
      rw [List.flatMap_cons, List.count_append, ih, count_groupText, harity, hnames,
        questionMarks_append]
      omega

end Query

/-! ### Names of fields -/

namespace Catalog

/-- The names that the condition of a field quotes. -/
def Field.names (base : String) : Field → List String
  | own column => [column]
  | related relation column =>
    [relation.target, base, relation.sourceColumn, relation.target, relation.targetColumn, column]

theorem Field.names_condition (base : String) (comparison : Rule.Comparison) (field : Field) :
    (field.condition base comparison).names = field.names base := by
  cases field <;> rfl

/-- No name of a schema has a question mark. -/
structure Schema.IsUnmarked (schema : Schema) : Prop where
  entity : ∀ entity ∈ schema.entities, '?' ∉ entity.name.toList
  column : ∀ entity ∈ schema.entities, ∀ column ∈ entity.columns, '?' ∉ column.name.toList
  relation : ∀ relation ∈ schema.relations,
    '?' ∉ relation.sourceColumn.toList ∧ '?' ∉ relation.targetColumn.toList

variable {schema : Schema} {entity : Entity}

theorem Schema.IsUnmarked.notMem_of_hasColumn (h : schema.IsUnmarked)
    (hentity : entity ∈ schema.entities) {name : String} (hname : entity.hasColumn name) :
    '?' ∉ name.toList := by
  obtain ⟨column, hcolumn, rfl⟩ := Entity.hasColumn_iff.mp hname
  exact h.column entity hentity column hcolumn

/-- The names of a field are names of the schema. -/
theorem Field.IsIn.notMem_names (hschema : schema.IsUnmarked) (hentity : entity ∈ schema.entities)
    {field : Field} (h : field.IsIn schema entity) :
    ∀ name ∈ field.names entity.name, '?' ∉ name.toList := by
  cases field with
  | own column =>
    simpa [Field.names] using hschema.notMem_of_hasColumn hentity h
  | related relation column =>
    obtain ⟨hrelation, -, target, htarget, hcolumn⟩ := h
    obtain ⟨hmem, hname⟩ := Schema.entity?_eq_some_iff.mp htarget
    have hjoin := hschema.relation relation hrelation
    have htable : '?' ∉ relation.target.toList := hname ▸ hschema.entity target hmem
    have hbase := hschema.entity entity hentity
    have hlast := hschema.notMem_of_hasColumn hmem hcolumn
    simp [Field.names, htable, hbase, hjoin, hlast]

end Catalog

/-! ### Compiled trees -/

open Query (Condition Predicate questionMarks)

variable {schema : Schema} {base : String} {now : Calendar.Instant}

/-- The names that the path of a rule leads to. -/
def Rule.names (schema : Schema) (base : String) (rule : Rule) : List String :=
  match schema.resolve base rule.field with
  | .ok field => field.names base
  | .error _ => []

theorem Rule.names_of_compile {rule : Rule} {c : Condition × List Scalar}
    (h : rule.compile schema base now = .ok c) : rule.names schema base = c.1.names := by
  obtain ⟨condition, values⟩ := c
  obtain ⟨field, hfield, -, rfl⟩ := Rule.compile_eq_ok_iff.mp h
  rw [Rule.names, hfield, Catalog.Field.names_condition]

namespace RuleTree

/-- The names that the paths of a tree lead to, rule by rule. -/
def names (schema : Schema) (base : String) (tree : RuleTree) : List String :=
  tree.groups.flatMap fun group => group.rules.flatMap (Rule.names schema base)

variable {tree : RuleTree} {query : Query}

theorem names_predicate (compiled : List (List (Condition × List Scalar))) :
    (predicate compiled).names =
      compiled.flatMap fun conditions => conditions.flatMap fun c => c.1.names := by
  unfold predicate
  split
  · next hempty => rw [List.isEmpty_iff.mp hempty]; rfl
  · simp only [Predicate.names, List.flatMap_map]

/-- **Question marks are counted also in names.** The count of placeholders of a compiled query is
the number of its bound values and of the question marks in the names that it quotes. It is the
number of bound values exactly when no path of the tree leads to a name with a question mark, and
always on a schema without such names. -/
theorem placeholderCount_of_compile (h : tree.compile schema base now = .ok query) :
    query.placeholderCount = query.bindings.length + questionMarks (tree.names schema base) ∧
      (query.placeholderCount = query.bindings.length ↔
        ∀ name ∈ tree.names schema base, '?' ∉ name.toList) ∧
      (schema.IsUnmarked → query.placeholderCount = query.bindings.length) := by
  obtain ⟨hbase, compiled, hcompiled, rfl⟩ := compile_eq_ok_iff.mp h
  have hnames : tree.names schema base = (predicate compiled).names := by
    rw [names_predicate]
    exact Related.flatMap_eq hcompiled fun _ _ hgroup =>
      Related.flatMap_eq hgroup fun _ _ hrule => Rule.names_of_compile hrule
  have hcount : (Query.ofPredicate base (predicate compiled) (bindings compiled)).placeholderCount =
      (bindings compiled).length + questionMarks (tree.names schema base) := by
    have hlength := arity_predicate fun conditions hconditions c hc =>
      length_of_mem_compiled hcompiled hconditions hc
    rw [hnames, ← hlength]
    exact Query.count_predicate _
  have hiff : questionMarks (tree.names schema base) = 0 ↔
      ∀ name ∈ tree.names schema base, '?' ∉ name.toList := Query.questionMarks_eq_zero_iff
  refine ⟨hcount, ?_, fun hschema => ?_⟩
  · rw [hcount, ← hiff]
    exact Nat.add_eq_left
  · rw [hcount]
    refine Nat.add_eq_left.mpr (hiff.mpr fun name hname => ?_)
    obtain ⟨entity, hentity⟩ := Option.isSome_iff_exists.mp hbase
    obtain ⟨hmem, rfl⟩ := Schema.entity?_eq_some_iff.mp hentity
    obtain ⟨group, -, hgroup⟩ := List.mem_flatMap.mp hname
    obtain ⟨rule, -, hrule⟩ := List.mem_flatMap.mp hgroup
    unfold Rule.names at hrule
    split at hrule
    · next field hfield =>
      exact (Schema.isIn_of_resolve hentity hfield).notMem_names hschema hmem name hrule
    · exact absurd hrule List.not_mem_nil

end RuleTree

/-- Songs and how they were received, with question marks in the names of a table and of columns. -/
def Catalog.receivedSongs : Schema :=
  (([⟨"songs", "id", [.required "id" .text, .required "loved?" .bool]⟩,
      ⟨"played?", "song?", [.required "song?" .text, .required "times" .int]⟩] :
    List Entity).foldl Schema.withEntity (.empty 1)).withRelation
      (.hasMany "plays" "songs" "id" "played?" "song?")

namespace RuleTree

/-- The table of a related row is named twice and its join column once. -/
theorem placeholderCount_of_compile_played :
    let now : Calendar.Instant := .midnight ⟨2018, 7, 15, by decide, by decide, by decide⟩
    let query : Query := ⟨"songs", "(exists (select * from \"played?\" where \"songs\".\"id\" = " ++
      "\"played?\".\"song?\" and \"times\" > ?))", [.int 5]⟩
    (ofGroups [.ofRules [⟨"plays.times", .isGreaterThan, [.int 5], rfl⟩]]).compile
        Catalog.receivedSongs "songs" now = .ok query ∧
      query.placeholderCount = query.bindings.length + 3 := by
  intro now query
  have h : (ofGroups [.ofRules [⟨"plays.times", .isGreaterThan, [.int 5], rfl⟩]]).compile
      Catalog.receivedSongs "songs" now = .ok query := rfl
  exact ⟨h, (placeholderCount_of_compile h).1⟩

/-- **The count is too large for a name with a question mark.** One value is bound, and two
placeholders are counted. -/
theorem placeholderCount_ne_of_loved :
    let now : Calendar.Instant := .midnight ⟨2018, 7, 15, by decide, by decide, by decide⟩
    ∃ query, (ofGroups [.ofRules [.has "loved?" (.bool true)]]).compile
        Catalog.receivedSongs "songs" now = .ok query ∧
      query.bindings.length = 1 ∧ query.placeholderCount = 2 :=
  ⟨⟨"songs", "(\"loved?\" = ?)", [.bool true]⟩, rfl, rfl, by decide⟩

end RuleTree

end PlaylistRules
