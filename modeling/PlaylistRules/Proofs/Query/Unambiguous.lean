import PlaylistRules.Proofs.Query.Compiled

/-!
# Texts of compiled trees

The text of a compiled tree says what its rules ask, and nothing else. Names of tables and columns
may contain any characters, also quotation marks, question marks and the words of a predicate. Two
trees that are compiled on the same base entity have the same predicate exactly when their rules
stand one for one, with the same column, the same related table and join columns if there are any,
and the same comparison. The statement of a query determines its base table and its predicate.

## Main definitions

* `Rule.SameShape` : rules that ask for the same comparison of the same column.
* `RuleTree.SameShape` : trees whose rules stand one for one, with the same shape.

## Main results

* `Query.sql_eq_iff` : the statement determines the base table and the predicate.
* `Query.texts_unambiguous` : predicates and statements are unambiguous.
-/

namespace PlaylistRules

open Query (Condition Predicate)

variable {schema : Catalog.Schema} {base : String} {now now' : Calendar.Instant}

/-! ### Shapes -/

/-- The related table of a field with the join columns of the base table and of that table. -/
def Catalog.Field.target? : Catalog.Field → Option (String × String × String)
  | own _ => none
  | related relation _ => some (relation.target, relation.sourceColumn, relation.targetColumn)

/-- Two rules resolve to the same column, of the base table or of the same table related by the
same join columns, and make the same comparison. -/
def Rule.SameShape (schema : Catalog.Schema) (base : String) (rule rule' : Rule) : Prop :=
  ∃ field field', schema.resolve base rule.field = .ok field ∧
    schema.resolve base rule'.field = .ok field' ∧ field.column = field'.column ∧
    field.target? = field'.target? ∧ rule.operator.comparison = rule'.operator.comparison

/-- Two trees have as many groups, and groups in the same place have as many rules, of the same
shape. -/
def RuleTree.SameShape (schema : Catalog.Schema) (base : String) (tree tree' : RuleTree) : Prop :=
  List.Forall₂ (fun group group' =>
    List.Forall₂ (Rule.SameShape schema base) group.rules group'.rules) tree.groups tree'.groups

/-- The condition of a field determines the column, the target and the comparison. -/
theorem Catalog.Field.condition_eq_iff {field field' : Catalog.Field}
    {comparison comparison' : Rule.Comparison} :
    field.condition base comparison = field'.condition base comparison' ↔
      field.column = field'.column ∧ field.target? = field'.target? ∧
        comparison = comparison' := by
  cases field <;> cases field' <;>
    simp only [condition, column, target?, Condition.own.injEq, Condition.related.injEq,
      Query.Test.mk.injEq, Query.ColumnRef.mk.injEq, Option.some.injEq, Prod.mk.injEq,
      reduceCtorEq, false_and, and_false, true_and]
  tauto

/-- Rules that are compiled have the same shape when their conditions are equal. -/
theorem Rule.fst_eq_iff_sameShape {rule rule' : Rule} {compiled compiled' : Condition × List Scalar}
    (h : rule.compile schema base now = .ok compiled)
    (h' : rule'.compile schema base now' = .ok compiled') :
    compiled.1 = compiled'.1 ↔ rule.SameShape schema base rule' := by
  obtain ⟨field, hfield, -, hcondition⟩ := Rule.compile_eq_ok_iff.mp h
  obtain ⟨field', hfield', -, hcondition'⟩ := Rule.compile_eq_ok_iff.mp h'
  rw [hcondition, hcondition', Catalog.Field.condition_eq_iff]
  constructor
  · exact fun hsame => ⟨field, field', hfield, hfield', hsame⟩
  · rintro ⟨other, other', hother, hother', hsame⟩
    obtain rfl : field = other := Except.ok.inj (hfield.symm.trans hother)
    obtain rfl : field' = other' := Except.ok.inj (hfield'.symm.trans hother')
    exact hsame

/-- Lists that stand one for one to other lists have equal images exactly when the other lists
stand one for one. -/
private theorem map_eq_map_iff_forall₂ {α α' β β' γ : Type} {R : α → β → Prop}
    {R' : α' → β' → Prop} {S : α → α' → Prop} {f : β → γ} {f' : β' → γ}
    (hS : ∀ {a a' b b'}, R a b → R' a' b' → (f b = f' b' ↔ S a a')) {as : List α} {bs : List β}
    {as' : List α'} {bs' : List β'} (h : List.Forall₂ R as bs) (h' : List.Forall₂ R' as' bs') :
    bs.map f = bs'.map f' ↔ List.Forall₂ S as as' := by
  induction h generalizing as' bs' with
  | nil => cases h' <;> simp
  | cons hab _ ih =>
    cases h' with
    | nil => simp
    | cons hab' h' =>
      rw [List.map_cons, List.map_cons, List.cons.injEq, List.forall₂_cons, hS hab hab', ih h']

namespace RuleTree

private theorem predicate_eq_iff {compiled compiled' : List (List (Condition × List Scalar))} :
    predicate compiled = predicate compiled' ↔
      (compiled.map fun group => group.map Prod.fst) =
        compiled'.map fun group => group.map Prod.fst := by
  cases compiled <;> cases compiled' <;> simp [predicate]

private theorem map_fst_eq_iff {rules rules' : List Rule}
    {compiled compiled' : List (Condition × List Scalar)}
    (h : RuleGroup.Compiled schema base now rules compiled)
    (h' : RuleGroup.Compiled schema base now' rules' compiled') :
    compiled.map Prod.fst = compiled'.map Prod.fst ↔
      List.Forall₂ (Rule.SameShape schema base) rules rules' := by
  unfold RuleGroup.Compiled at h h'
  refine map_eq_map_iff_forall₂ ?_ h h'
  intro rule rule' first first' hrule hrule'
  exact Rule.fst_eq_iff_sameShape hrule hrule'

/-- Trees that are compiled have the same predicate exactly when they have the same shape. -/
theorem predicate_eq_iff_sameShape {tree tree' : RuleTree} {query query' : Query}
    (h : tree.compile schema base now = .ok query)
    (h' : tree'.compile schema base now' = .ok query') :
    query.predicate = query'.predicate ↔ tree.SameShape schema base tree' := by
  obtain ⟨-, compiled, hcompiled, rfl⟩ := compile_eq_ok_iff.mp h
  obtain ⟨-, compiled', hcompiled', rfl⟩ := compile_eq_ok_iff.mp h'
  have htext : (predicate compiled).text = (predicate compiled').text ↔
      predicate compiled = predicate compiled' :=
    ⟨Predicate.text_inj (isProper_predicate hcompiled) (isProper_predicate hcompiled'),
      congrArg Predicate.text⟩
  show (predicate compiled).text = (predicate compiled').text ↔ _
  rw [htext, predicate_eq_iff]
  unfold Compiled at hcompiled hcompiled'
  refine map_eq_map_iff_forall₂ ?_ hcompiled hcompiled'
  intro group group' conditions conditions' hgroup hgroup'
  exact map_fst_eq_iff hgroup hgroup'

end RuleTree

/-! ### Statements -/

namespace Query

/-- A statement determines its base table and its predicate. -/
theorem sql_eq_iff {query query' : Query} :
    query.sql = query'.sql ↔
      query.baseTable = query'.baseTable ∧ query.predicate = query'.predicate := by
  constructor
  · intro h
    have heq := (readTable?_sql query).symm.trans (h ▸ readTable?_sql query')
    rw [Option.some.injEq, Prod.mk.injEq, String.toList_inj] at heq
    exact heq
  · rintro ⟨hbase, hpredicate⟩
    unfold sql
    exact congrArg₂ (fun name text => "select * from " ++ Text.quoteName name ++ " where " ++ text)
      hbase hpredicate

/-- **Texts are unambiguous.** Trees that are compiled on a base entity have the same predicate
exactly when their rules have the same shapes, and queries have the same statement exactly when they
have the same base table and the same predicate. -/
theorem texts_unambiguous (schema : Catalog.Schema) (base : String) :
    (∀ (now now' : Calendar.Instant) (tree tree' : RuleTree) (query query' : Query),
      tree.compile schema base now = .ok query → tree'.compile schema base now' = .ok query' →
        (query.predicate = query'.predicate ↔ tree.SameShape schema base tree')) ∧
    ∀ query query' : Query, query.sql = query'.sql ↔
      query.baseTable = query'.baseTable ∧ query.predicate = query'.predicate :=
  ⟨fun _ _ _ _ _ _ => RuleTree.predicate_eq_iff_sameShape, fun _ _ => sql_eq_iff⟩

/-- Rules on a column whose name ends a comparison and begins another one. -/
theorem texts_unambiguous_awkward_names :
    (RuleTree.ofGroups [.ofRules [⟨"c\" = ? or \"d", .contains, [.text "x"], rfl⟩]]).SameShape
      ((Catalog.Schema.empty 1).withEntity
        ⟨"a\" or \"b", "?", [.required "?" .text, .required "c\" = ? or \"d" .int]⟩)
      "a\" or \"b"
      (RuleTree.ofGroups [.ofRules [⟨"c\" = ? or \"d", .endsWith, [.bool true], rfl⟩]]) :=
  ((texts_unambiguous _ _).1 (.midnight ⟨2018, 7, 15, by decide, by decide, by decide⟩)
    (.midnight ⟨1969, 2, 28, by decide, by decide, by decide⟩) _ _
    ⟨"a\" or \"b", "(\"c\"\" = ? or \"\"d\" LIKE ?)", [.text "%x%"]⟩
    ⟨"a\" or \"b", "(\"c\"\" = ? or \"\"d\" LIKE ?)", [.text "%true"]⟩ rfl rfl).mp rfl

end Query

end PlaylistRules
