import PlaylistRules.Output.Format
import PlaylistRules.Proofs.Calendar.Shown
import PlaylistRules.Proofs.Output.Lines
import PlaylistRules.Proofs.Query.Locations
import PlaylistRules.Proofs.Query.Names
import PlaylistRules.Proofs.Store.Library

/-!
# Statements with comments

The statement of a query on the media library is one line, since no name of the library has a line
feed, and a comment with the bound values follows it. Numbers and instants are written without line
feeds, but the literal of a text keeps the line feeds of the text. Each line feed ends the comment,
so that what follows it in the text is a comment only when it begins as one.

## Main definitions

* `Catalog.Schema.IsOneLine` : no name of a schema has a line feed.

## Main results

* `Query.lineFeed_notMem_sql` : the statement of a query is one line.
* `Output.isCommented_literal_iff` : the lines of a literal after its first one.
* `Output.lines_after_statement` : the lines that follow the statement of a query.
-/

namespace PlaylistRules

open Catalog (Schema Entity)
open Query (Test ColumnRef Condition Predicate)
open Output (IsComment IsCommented)

/-! ### Names and statements -/

/-- No name of a schema has a line feed. -/
structure Catalog.Schema.IsOneLine (schema : Schema) : Prop where
  entity : ∀ entity ∈ schema.entities, '\n' ∉ entity.name.toList
  column : ∀ entity ∈ schema.entities, ∀ column ∈ entity.columns, '\n' ∉ column.name.toList

theorem Catalog.isOneLine_library : library.IsOneLine :=
  ⟨by decide, by decide⟩

theorem Catalog.Schema.IsOneLine.lineFeed_notMem_of_has {schema : Schema} (h : schema.IsOneLine)
    {entity : Entity} (hentity : entity ∈ schema.entities) {name : String}
    (hname : entity.Has name) : '\n' ∉ name.toList := by
  obtain ⟨column, hcolumn, rfl⟩ := hname
  exact h.column entity hentity column hcolumn

namespace Query

theorem lineFeed_notMem_quoteName {name : String} (h : '\n' ∉ name.toList) :
    '\n' ∉ (Text.quoteName name).toList := by
  rw [toList_quoteName]
  exact Output.notMem_quoted (by decide) h

theorem Test.lineFeed_notMem_text {test : Test} (h : '\n' ∉ test.column.toList) :
    '\n' ∉ test.text.toList := by
  have hcomparison : '\n' ∉ (comparisonWords test.comparison).toList := by
    cases test.comparison <;> decide
  rw [test.toList_text, List.mem_append, not_or]
  exact ⟨lineFeed_notMem_quoteName h, hcomparison⟩

theorem ColumnRef.lineFeed_notMem_text {ref : ColumnRef} (htable : '\n' ∉ ref.table.toList)
    (hcolumn : '\n' ∉ ref.column.toList) : '\n' ∉ ref.text.toList := by
  simp only [text, String.toList_append, List.mem_append, not_or]
  exact ⟨⟨lineFeed_notMem_quoteName htable, by decide⟩, lineFeed_notMem_quoteName hcolumn⟩

variable {schema : Schema} {entity : Entity}

theorem Condition.lineFeed_notMem_text (hschema : schema.IsOneLine)
    (hentity : entity ∈ schema.entities) {condition : Condition}
    (h : condition.NamesIn schema entity) : '\n' ∉ condition.text.toList := by
  cases condition with
  | own test => exact Test.lineFeed_notMem_text (hschema.lineFeed_notMem_of_has hentity h)
  | related table outer inner test =>
    obtain ⟨hbase, hcolumn, target, htarget, rfl, hjoined, hjoinColumn, htested⟩ := h
    have htable := hschema.entity target htarget
    have houter : '\n' ∉ outer.text.toList :=
      ColumnRef.lineFeed_notMem_text (by rw [hbase]; exact hschema.entity entity hentity)
        (hschema.lineFeed_notMem_of_has hentity hcolumn)
    have hinner : '\n' ∉ inner.text.toList :=
      ColumnRef.lineFeed_notMem_text (by rw [hjoined]; exact htable)
        (hschema.lineFeed_notMem_of_has htarget hjoinColumn)
    have htest := Test.lineFeed_notMem_text (hschema.lineFeed_notMem_of_has htarget htested)
    unfold Condition.text
    simp only [String.toList_append, List.mem_append, not_or]
    exact ⟨⟨⟨⟨⟨⟨⟨⟨by decide, lineFeed_notMem_quoteName htable⟩, by decide⟩, houter⟩, by decide⟩,
      hinner⟩, by decide⟩, htest⟩, by decide⟩

theorem Predicate.lineFeed_notMem_text (hschema : schema.IsOneLine)
    (hentity : entity ∈ schema.entities) {predicate : Predicate}
    (h : ∀ condition ∈ predicate.conditions, condition.NamesIn schema entity) :
    '\n' ∉ predicate.text.toList := by
  cases predicate with
  | never => decide
  | anyOf groups =>
    have hgroup : ∀ group ∈ groups, '\n' ∉ (groupText group).toList := by
      intro group hgroup
      simp only [toList_groupText, List.mem_cons, List.mem_append, List.not_mem_nil, or_false,
        not_or]
      refine ⟨by decide, Output.notMem_intercalate (by decide) fun text htext => ?_, by decide⟩
      obtain ⟨condition, hcondition, rfl⟩ := List.mem_map.mp htext
      exact Condition.lineFeed_notMem_text hschema hentity
        (h condition (List.mem_flatten.mpr ⟨group, hgroup, hcondition⟩))
    rw [toList_text_anyOf]
    refine Output.notMem_intercalate (by decide) fun text htext => ?_
    obtain ⟨group, hmem, rfl⟩ := List.mem_map.mp htext
    exact hgroup group hmem

/-- **The statement of a query is one line** on a valid schema whose names are. -/
theorem lineFeed_notMem_sql (hvalid : schema.validate = .ok ()) (hschema : schema.IsOneLine)
    {base : String} {now : Calendar.Instant} {tree : RuleTree} {query : Query}
    (h : tree.compile schema base now = .ok query) : '\n' ∉ query.sql.toList := by
  obtain ⟨entity, hbase⟩ := Option.isSome_iff_exists.mp (RuleTree.compile_eq_ok_iff.mp h).1
  obtain ⟨htable, predicate, -, htext, hnames⟩ := RuleTree.namesIn_of_compile hvalid hbase h
  obtain ⟨hentity, -⟩ := Schema.entity?_eq_some_iff.mp hbase
  unfold sql
  simp only [String.toList_append, List.mem_append, not_or]
  refine ⟨⟨⟨by decide, lineFeed_notMem_quoteName ?_⟩, by decide⟩, ?_⟩
  · rw [htable]
    exact hschema.entity entity hentity
  · rw [htext]
    exact Predicate.lineFeed_notMem_text hschema hentity hnames

end Query

/-! ### Literals -/

theorem Number.lineFeed_notMem_digits (n : Nat) : '\n' ∉ digits n := fun h =>
  absurd (Nat.isDigit_of_mem_toDigits (by decide) (by decide) h) (by decide)

theorem Number.lineFeed_notMem_signed (i : Int) : '\n' ∉ signed i := by
  unfold signed
  split <;> simp [lineFeed_notMem_digits]

theorem Layout.lineFeed_notMem_writePositional (layout : Layout) (d : Decimal) :
    '\n' ∉ layout.writePositional d := by
  have hdigits : '\n' ∉ d.digits := Number.lineFeed_notMem_digits d.significand
  have hpadded : ∀ count, '\n' ∉ d.digits ++ List.replicate count '0' := fun count => by
    simp [hdigits]
  have hpoint : '\n' ∉ if layout.wholePoint then ['.', '0'] else [] := by split <;> decide
  unfold writePositional
  dsimp only
  split
  · simp [hdigits]
  · -- The digits, with zeros behind them, are divided at the point.
    generalize d.leading.toNat + 1 = whole
    by_cases hrest : ((d.digits ++ List.replicate (whole - d.digits.length) '0').drop
        whole).isEmpty
    · rw [if_pos hrest, List.mem_append, not_or]
      exact ⟨hpadded _, hpoint⟩
    · rw [if_neg hrest, List.mem_append, List.mem_cons, not_or, not_or]
      exact ⟨mt List.mem_of_mem_take (hpadded _), by decide, mt List.mem_of_mem_drop (hpadded _)⟩

/-- A number is shown without line feeds. -/
theorem Layout.lineFeed_notMem_display (f : Binary64) : '\n' ∉ (display.write f).toList := by
  have hsigned : ∀ (signed : Bool) (body : List Char), '\n' ∉ body →
      '\n' ∉ if signed then '-' :: body else body := by
    intro signed body hbody
    split
    · exact List.not_mem_cons_of_ne_of_not_mem (by decide) hbody
    · exact hbody
  rw [write, String.toList_ofList]
  refine hsigned _ _ ?_
  split
  · decide
  · split
    · decide
    · split <;> exact lineFeed_notMem_writePositional display _

theorem Calendar.Instant.lineFeed_notMem_display (instant : Instant) :
    '\n' ∉ instant.display.toList := by
  have hdate := instant.date.notMem_write (c := '\n') (by decide) (by decide) (by decide)
  have htime := instant.notMem_writeTime (c := '\n') (by decide) (by decide)
  rw [display, String.toList_ofList]
  simp [hdate, htime]

namespace Output

/-- **The lines of a literal after its first one** are comments exactly when those of its text
are. The literals of other values have no line feeds. -/
theorem isCommented_literal_iff {value : Scalar} :
    IsCommented (literal value).toList ↔
      ∀ text, value = .text text → IsCommented text.toList := by
  have hone : '\n' ∉ (literal value).toList → (∀ text, value ≠ .text text) →
      (IsCommented (literal value).toList ↔
        ∀ text, value = .text text → IsCommented text.toList) := fun hfeed hne =>
    iff_of_true (isCommented_of_notMem hfeed) fun text h => absurd h (hne text)
  cases value with
  | null => exact hone (by decide) nofun
  | bool value => cases value <;> exact hone (by decide) nofun
  | int value =>
    refine hone ?_ nofun
    rw [literal, Scalar.display, String.toList_ofList]
    exact Number.lineFeed_notMem_signed _
  | float value => exact hone (Layout.lineFeed_notMem_display value) nofun
  | instant value =>
    refine hone ?_ nofun
    rw [literal, Text.quoteLiteral, String.toList_ofList]
    exact Output.notMem_quoted (by decide) value.lineFeed_notMem_display
  | text value =>
    rw [literal, Text.quoteLiteral, String.toList_ofList,
      isCommented_quoted_iff (by decide) (by decide)]
    exact ⟨fun h text htext => Scalar.text.inj htext ▸ h, fun h => h value rfl⟩

/-! ### Comments -/

/-- The comment with the bound values of a query. -/
def bindingsComment (query : Query) : List Char :=
  "-- bindings: [".toList ++
    ([',', ' '].intercalate (query.bindings.map fun value => (literal value).toList) ++ [']'])

/-- The comment follows the statement on a line of its own. -/
theorem toList_queryStatement (query : Query) :
    (queryStatement query).toList = (query.sql ++ ";").toList ++ '\n' :: bindingsComment query := by
  have hcomma : ", ".toList = [',', ' '] := by decide
  have hend : "]".toList = [']'] := by decide
  have hbetween : ";\n-- bindings: [".toList = ";".toList ++ '\n' :: "-- bindings: [".toList := by
    decide
  unfold queryStatement bindingsComment
  simp only [String.toList_append, String.toList_intercalate, List.map_map, hcomma, hend, hbetween,
    List.append_assoc, List.cons_append]
  rfl

theorem isComment_bindingsComment (query : Query) : IsComment (bindingsComment query) :=
  List.prefix_append_of_prefix (by decide)

/-- Two hyphens follow each line feed of the comment when they do in all texts that are bound. -/
theorem isCommented_bindingsComment_iff {query : Query} :
    IsCommented (bindingsComment query) ↔
      ∀ value, Scalar.text value ∈ query.bindings → IsCommented value.toList := by
  have hopen : '\n' ∉ "-- bindings: [".toList := by decide
  have hclose : IsCommented [']'] := isCommented_of_notMem (by decide)
  unfold bindingsComment
  rw [isCommented_append_of_notMem hopen,
    isCommented_intercalate_append_iff (by decide), List.forall_mem_map]
  simp only [isCommented_literal_iff, hclose, and_true]
  exact ⟨fun h value hvalue => h _ hvalue value rfl,
    fun h value hvalue text htext => h text (htext ▸ hvalue)⟩

/-- **What follows the statement of a query is a comment, up to line feeds in bound texts.** The
query of a stored text on the media library is shown as a line with its statement, then a line with
a comment, then other lines. These are comments exactly when, in all texts that the query binds,
the lines after the first one begin as comments. -/
theorem lines_after_statement {base : String} {now : Calendar.Instant} {user : Option Int64}
    {text : String} {query : Query}
    (h : Query.ofText Catalog.library base now user text = .ok query) :
    ∃ comment others,
      lines (formatQuery query .sql).toList = (query.sql ++ ";").toList :: comment :: others ∧
      IsComment comment ∧
      ((∀ line ∈ others, IsComment line) ↔
        ∀ value, Scalar.text value ∈ query.bindings →
          ∀ line ∈ (lines value.toList).tail, IsComment line) := by
  obtain ⟨tree, -, h⟩ := Outcome.bind_eq_ok_iff.mp h
  have hsql := Query.lineFeed_notMem_sql Catalog.validate_library Catalog.isOneLine_library h
  have hstatement : '\n' ∉ (query.sql ++ ";").toList := by
    rw [String.toList_append]
    exact List.not_mem_append hsql (by decide)
  obtain ⟨comment, others, hlines⟩ := exists_lines (bindingsComment query)
  refine ⟨comment, others, ?_, ?_, ?_⟩
  · rw [formatQuery, toList_queryStatement, lines_append_cons hstatement, hlines]
  · exact (isPrefix_iff_of_lines (by decide) hlines).mpr (isComment_bindingsComment query)
  · have hothers : (∀ line ∈ others, IsComment line) ↔ IsCommented (bindingsComment query) := by
      rw [← forall_isComment_tail_lines_iff, hlines, List.tail_cons]
    rw [hothers, isCommented_bindingsComment_iff]
    simp only [forall_isComment_tail_lines_iff]

/-- A stored text with a rule on the title of songs, for a title as it is spelled. -/
def titled (title : String) : String :=
  "[[[[\"title\",\"is\",[\"" ++ title ++ "\"]]]]]"

/-- A title whose second line begins as a comment. -/
theorem lines_after_statement_hyphens :
    ∃ query comment others,
      Query.ofText Catalog.library "songs" Query.july none (titled "a\\n--b") = .ok query ∧
      lines (formatQuery query .sql).toList = (query.sql ++ ";").toList :: comment :: others ∧
      ∀ line ∈ comment :: others, IsComment line := by
  have hquery : Query.ofText Catalog.library "songs" Query.july none (titled "a\\n--b") =
      .ok ⟨"songs", "(\"title\" = ?)", [.text "a\n--b"]⟩ := by decide +kernel
  obtain ⟨comment, others, hlines, hcomment, hothers⟩ := lines_after_statement hquery
  refine ⟨_, comment, others, hquery, hlines, List.forall_mem_cons.mpr ⟨hcomment, ?_⟩⟩
  refine hothers.mpr fun value hvalue => ?_
  obtain rfl := Scalar.text.inj (List.mem_singleton.mp hvalue)
  decide +kernel

/-- **A line of a bound text stands outside of the comment.** -/
theorem line_outside_comment :
    ∃ query, Query.ofText Catalog.library "songs" Query.july none (titled "a\\nb") = .ok query ∧
      ∃ line ∈ (lines (formatQuery query .sql).toList).tail, ¬IsComment line := by
  have hquery : Query.ofText Catalog.library "songs" Query.july none (titled "a\\nb") =
      .ok ⟨"songs", "(\"title\" = ?)", [.text "a\nb"]⟩ := by decide +kernel
  exact ⟨_, hquery, by decide +kernel⟩

end Output

end PlaylistRules
