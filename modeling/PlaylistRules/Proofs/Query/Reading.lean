import Mathlib.Data.List.Basic
import PlaylistRules.Query.Basic
import PlaylistRules.Query.Statement

/-!
# Statements read back

The text of a predicate determines the predicate, and the text of a statement its table and its
predicate. Every part of the text is read back from the front of a longer text, whatever the names
in it contain: a quoted name ends at the first mark that is not doubled, and no words of a
comparison begin other ones. Parts with a text between them are read back one after the other as
long as the text that follows does not begin with that separator.

## Main definitions

* `Query.Predicate.IsProper` : a choice between at least one group, each of at least one condition.

## Main results

* `Query.readCondition?_text`, `Query.readGroup?_groupText` : the parts read back.
* `Query.Predicate.read?_text` : a proper predicate reads back from its text.
* `Query.Predicate.text_inj` : proper predicates of the same text are equal.
* `Query.Statement.read?_sql` : the statement of a query is the one that is read from its text.
-/

namespace PlaylistRules.Query

open Rule (Comparison)

/-! ### Beginnings of a text -/

theorem dropText?_append (ts cs : List Char) : dropText? ts (ts ++ cs) = some cs := by
  induction ts with
  | nil => rfl
  | cons t ts ih => rw [List.cons_append, dropText?, if_pos rfl, ih]

/-- A text with another first character does not begin in the same way. -/
theorem dropText?_eq_none {ts cs : List Char} {t c : Char} (hts : ts.head? = some t)
    (hcs : cs.head? = some c) (h : t ≠ c) : dropText? ts cs = none := by
  obtain ⟨ts, rfl⟩ := List.head?_eq_some_iff.mp hts
  obtain ⟨cs, rfl⟩ := List.head?_eq_some_iff.mp hcs
  exact if_neg h

theorem head?_append_ne {ts : List Char} {c : Char} (hts : ts ≠ [])
    (h : ts.head? ≠ some c) (cs : List Char) : (ts ++ cs).head? ≠ some c := by
  rwa [List.head?_append_of_ne_nil _ hts]

theorem toList_quoteName (name : String) :
    (Text.quoteName name).toList = Text.quoted '"' name.toList :=
  String.toList_ofList

theorem readName?_quoteName (name : String) {cs : List Char} (h : cs.head? ≠ some '"') :
    readName? ((Text.quoteName name).toList ++ cs) = some (name, cs) := by
  rw [readName?, toList_quoteName, Text.readQuoted?_quoted name.toList h, Option.map_some]
  exact congrArg (fun shown => some (shown, cs)) String.ofList_toList

/-! ### Conditions -/

/-- **The text of a comparison** is its column with the words that mean the comparison. -/
theorem Test.toList_text (test : Test) : test.text.toList =
    (Text.quoteName test.column).toList ++ (comparisonWords test.comparison).toList := by
  obtain ⟨column, comparison⟩ := test
  cases comparison <;>
    simp only [text, writeComparison, comparisonWords, String.toList_append, List.append_assoc,
      String.reduceToList, List.nil_append, List.cons_append]

/-- No words of a comparison begin other ones. -/
theorem readComparison?_comparisonWords (comparison : Comparison) (cs : List Char) :
    readComparison? ((comparisonWords comparison).toList ++ cs) = some (comparison, cs) := by
  cases comparison <;> rfl

theorem head?_comparisonWords (comparison : Comparison) (cs : List Char) :
    ((comparisonWords comparison).toList ++ cs).head? = some ' ' := by
  cases comparison <;> rfl

theorem readTest?_text (test : Test) (cs : List Char) :
    readTest? (test.text.toList ++ cs) = some (test, cs) := by
  have hspace : ((comparisonWords test.comparison).toList ++ cs).head? ≠ some '"' := by
    rw [head?_comparisonWords]
    decide
  rw [readTest?, test.toList_text, List.append_assoc, readName?_quoteName test.column hspace]
  simp only [Option.bind_eq_bind, Option.bind_some, readComparison?_comparisonWords,
    Option.pure_def]

theorem readColumnRef?_text (ref : ColumnRef) {cs : List Char} (h : cs.head? ≠ some '"') :
    readColumnRef? (ref.text.toList ++ cs) = some (ref, cs) := by
  have hpoint : (".".toList ++ ((Text.quoteName ref.column).toList ++ cs)).head? ≠ some '"' :=
    head?_append_ne (by decide) (by decide) _
  have hdrop := dropText?_append ".".toList ((Text.quoteName ref.column).toList ++ cs)
  rw [readColumnRef?, ColumnRef.text, String.toList_append, String.toList_append,
    List.append_assoc, List.append_assoc, readName?_quoteName ref.table hpoint]
  simp only [Option.bind_eq_bind, Option.bind_some]
  rw [show ['.'] = ".".toList from rfl, hdrop]
  simp only [Option.bind_some, readName?_quoteName ref.column h, Option.pure_def]

/-- The text of a condition on a related row after its first words. -/
private def relatedEnd (table : String) (outer inner : ColumnRef) (test : Test) : List Char :=
  (Text.quoteName table).toList ++ (" where ".toList ++ (outer.text.toList ++ (" = ".toList ++
    (inner.text.toList ++ (" and ".toList ++ (test.text.toList ++ ")".toList))))))

private theorem toList_text_related (table : String) (outer inner : ColumnRef) (test : Test) :
    (Condition.related table outer inner test).text.toList =
      "exists (select * from ".toList ++ relatedEnd table outer inner test := by
  unfold Condition.text relatedEnd
  simp only [String.toList_append, List.append_assoc]

private theorem readRelated?_relatedEnd (table : String) (outer inner : ColumnRef) (test : Test)
    (cs : List Char) :
    readRelated? (relatedEnd table outer inner test ++ cs) =
      some (.related table outer inner test, cs) := by
  simp only [relatedEnd, List.append_assoc]
  rw [readRelated?, readName?_quoteName table (head?_append_ne (by decide) (by decide) _)]
  simp only [Option.bind_eq_bind, Option.bind_some, dropText?_append]
  rw [readColumnRef?_text outer (head?_append_ne (by decide) (by decide) _)]
  simp only [Option.bind_some, dropText?_append]
  rw [readColumnRef?_text inner (head?_append_ne (by decide) (by decide) _)]
  simp only [Option.bind_some, dropText?_append, readTest?_text]
  rw [show [')'] = ")".toList from rfl, dropText?_append]
  rfl

private theorem dropText?_words_test (test : Test) (cs : List Char) :
    dropText? "exists (select * from ".toList (test.text.toList ++ cs) = none := by
  refine dropText?_eq_none (t := 'e') (c := '"') (by decide) ?_ (by decide)
  rw [test.toList_text, toList_quoteName]
  rfl

/-- A condition reads back from the front of any text that it begins. -/
theorem readCondition?_text (condition : Condition) (cs : List Char) :
    readCondition? (condition.text.toList ++ cs) = some (condition, cs) := by
  unfold readCondition?
  cases condition with
  | own test =>
    have htext : (Condition.own test).text = test.text := rfl
    rw [htext, dropText?_words_test]
    exact congrArg (Option.map _) (readTest?_text test cs)
  | related table outer inner test =>
    rw [toList_text_related, List.append_assoc, dropText?_append]
    exact readRelated?_relatedEnd table outer inner test cs

theorem text_toList_ne_nil (condition : Condition) : condition.text.toList ≠ [] := by
  intro h
  have hread := readCondition?_text condition []
  rw [h] at hread
  exact absurd hread (by simp [readCondition?, dropText?, readTest?, readName?, Text.readQuoted?])

/-! ### Parts with a separator -/

section Separated

variable {α : Type} {separator : List Char} {part : List Char → Option (α × List Char)}
  {text : α → List Char}

/-- Parts with a text between them read back when each part does and the text that follows does
not begin with the separator. -/
theorem readSeparated?_intercalate {cs : List Char} (hcs : dropText? separator cs = none) :
    ∀ (xs : List α) (fuel : Nat), xs ≠ [] → xs.length ≤ fuel →
      (∀ x ∈ xs, ∀ cs, part (text x ++ cs) = some (x, cs)) →
      readSeparated? separator part fuel (separator.intercalate (xs.map text) ++ cs) =
        some (xs, cs)
  | [], _, hne, _, _ => absurd rfl hne
  | [x], fuel + 1, _, _, hpart => by
    rw [List.map_singleton, List.intercalate_singleton, readSeparated?,
      hpart x List.mem_cons_self]
    simp only [Option.bind_eq_bind, Option.bind_some, hcs, Option.pure_def]
  | x :: y :: xs, fuel + 1, _, hfuel, hpart => by
    have ih := readSeparated?_intercalate hcs (y :: xs) fuel (by simp)
      (Nat.le_of_succ_le_succ hfuel) fun z hz => hpart z (List.mem_cons_of_mem _ hz)
    rw [List.map_cons, List.map_cons, List.intercalate_cons_cons, ← List.map_cons,
      List.append_assoc, List.append_assoc, readSeparated?, hpart x List.mem_cons_self]
    simp only [Option.bind_eq_bind, Option.bind_some, dropText?_append, ih, Option.pure_def]

/-- There are no more parts than characters when no part is empty. -/
theorem length_le_length_intercalate (htext : ∀ x, text x ≠ []) (xs : List α) :
    xs.length ≤ (separator.intercalate (xs.map text)).length := by
  have hpos : ∀ x, 0 < (text x).length := fun x => List.length_pos_iff.mpr (htext x)
  induction xs with
  | nil => exact Nat.zero_le _
  | cons x xs ih =>
    cases xs with
    | nil =>
      rw [List.map_singleton, List.intercalate_singleton, List.length_singleton]
      exact hpos x
    | cons y xs =>
      have hx := hpos x
      rw [List.map_cons, List.map_cons, List.intercalate_cons_cons, ← List.map_cons,
        List.length_append, List.length_append, List.length_cons]
      omega

end Separated

/-! ### Groups -/

theorem toList_groupText (group : List Condition) :
    (groupText group).toList =
      '(' :: (" and ".toList.intercalate (group.map fun condition => condition.text.toList) ++
        [')']) := by
  rw [groupText, String.toList_append, String.toList_append, String.toList_intercalate,
    List.map_map]
  rfl

/-- A group of at least one condition reads back from the front of any text that it begins. -/
theorem readGroup?_groupText {group : List Condition} (hne : group ≠ []) (cs : List Char) :
    readGroup? ((groupText group).toList ++ cs) = some (group, cs) := by
  have hfuel : group.length ≤ (" and ".toList.intercalate
      (group.map fun condition => condition.text.toList) ++ ')' :: cs).length := by
    rw [List.length_append]
    exact Nat.le_add_right_of_le (length_le_length_intercalate text_toList_ne_nil group)
  have hend : dropText? " and ".toList (')' :: cs) = none :=
    dropText?_eq_none (t := ' ') (c := ')') (by decide) rfl (by decide)
  have hread := readSeparated?_intercalate hend group _ hne hfuel
    fun condition _ => readCondition?_text condition
  rw [toList_groupText, List.cons_append, List.append_assoc, List.singleton_append, readGroup?]
  simp only [dropText?, if_true, Option.bind_eq_bind, Option.bind_some, hread, Option.pure_def]

/-! ### Predicates -/

namespace Predicate

/-- A predicate is proper when it offers at least one group and no group is empty. -/
def IsProper : Predicate → Prop
  | never => True
  | anyOf groups => groups ≠ [] ∧ ∀ group ∈ groups, group ≠ []

theorem toList_text_anyOf (groups : List (List Condition)) :
    (anyOf groups).text.toList =
      " or ".toList.intercalate (groups.map fun group => (groupText group).toList) := by
  rw [text, String.toList_intercalate, List.map_map]
  rfl

/-- A choice begins with a parenthesis, unlike the words that no row satisfies. -/
private theorem text_anyOf_ne {groups : List (List Condition)} (hne : groups ≠ []) :
    (anyOf groups).text ≠ "0 = 1" := by
  obtain ⟨group, groups, rfl⟩ := List.exists_cons_of_ne_nil hne
  have hhead : (anyOf (group :: groups)).text.toList.head? = some '(' := by
    rw [toList_text_anyOf]
    cases groups with
    | nil => rw [List.map_singleton, List.intercalate_singleton, toList_groupText]; rfl
    | cons other groups =>
      rw [List.map_cons, List.map_cons, List.intercalate_cons_cons, toList_groupText]
      rfl
  intro h
  rw [h] at hhead
  exact absurd hhead (by decide)

/-- **A predicate reads back from its text**, whatever the names in it contain. -/
theorem read?_text {predicate : Predicate} (h : predicate.IsProper) :
    read? predicate.text = some predicate := by
  cases predicate with
  | never => rfl
  | anyOf groups =>
    obtain ⟨hne, hgroups⟩ := h
    have hfuel : groups.length ≤ (" or ".toList.intercalate
        (groups.map fun group => (groupText group).toList)).length :=
      length_le_length_intercalate (fun group => by rw [toList_groupText]; simp) groups
    have hend : dropText? " or ".toList [] = none := rfl
    have hread := readSeparated?_intercalate hend groups _ hne hfuel fun group hgroup =>
      readGroup?_groupText (hgroups group hgroup)
    rw [List.append_nil, ← toList_text_anyOf] at hread
    rw [read?, if_neg (text_anyOf_ne hne), hread]

/-- Proper predicates of the same text are equal. -/
theorem text_inj {p q : Predicate} (hp : p.IsProper) (hq : q.IsProper) (h : p.text = q.text) :
    p = q := by
  have hread := read?_text hp
  rw [h, read?_text hq] at hread
  exact (Option.some.inj hread).symm

end Predicate

/-! ### Statements -/

/-- The name of the table ends at the first mark that is not doubled. -/
theorem readTable?_sql (query : Query) :
    readTable? query.sql.toList = some (query.baseTable, query.predicate.toList) := by
  have hname : readName? ((Text.quoteName query.baseTable).toList ++
      (" where ".toList ++ query.predicate.toList)) =
        some (query.baseTable, " where ".toList ++ query.predicate.toList) :=
    readName?_quoteName query.baseTable (head?_append_ne (by decide) (by decide) _)
  unfold readTable? sql
  simp only [String.toList_append, List.append_assoc, dropText?_append, hname,
    Option.bind_eq_bind, Option.bind_some, Option.pure_def]

/-- **The statement of a query is read back**: its table and the predicate of its text. -/
theorem Statement.read?_sql (query : Query) : Statement.read? query.sql =
    (Predicate.read? query.predicate).map fun predicate => ⟨query.baseTable, predicate⟩ := by
  rw [read?, readTable?_sql]
  simp only [Option.bind_eq_bind, Option.bind_some, String.ofList_toList, Option.pure_def]
  exact (Option.map_eq_bind ..).symm

end PlaylistRules.Query
