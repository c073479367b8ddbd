import Mathlib.Data.List.Forall2
import PlaylistRules.Catalog.Entity
import PlaylistRules.Proofs.Text.Tokens

/-!
# Statements that create tables

The statement that creates the table of an entity is read in one way: as the name of a table and its
columns in order, each with a name, a type and a constraint. Names are arbitrary; a comma, a
parenthesis or a keyword inside of a name is no part of the statement.

## Main definitions

* `Catalog.Constraint`, `Catalog.DeclaredColumn`, `Catalog.DeclaredTable` : what a statement
  declares.
* `Catalog.Declares` : a text is a statement that creates a table.
* `Catalog.Entity.declared` : the table of an entity.

## Main results

* `Catalog.Declares.unique` : a statement declares one table at most.
* `Catalog.Entity.declares_createTable` : the statement of an entity.
* `Catalog.Entity.createTable_describes` : what two entities with one statement have in common.
-/

namespace PlaylistRules.Catalog

open Text (Token SpellsTokens SpellsSeparated Delimited EndsWord endsWord_cons endsWord_blank)

/-! ### Declarations -/

/-- What is declared about a column besides its type. -/
inductive Constraint where
  | primaryKey
  | notNull
  | none
deriving DecidableEq

/-- A column as it is declared. -/
structure DeclaredColumn where
  name : String
  type : ColumnType
  constraint : Constraint
deriving DecidableEq

/-- A table as it is declared. -/
structure DeclaredTable where
  name : String
  columns : List DeclaredColumn
deriving DecidableEq

namespace Constraint

/-- The words of a constraint. -/
def tokens : Constraint → List Token
  | primaryKey => [.word "PRIMARY".toList, .word "KEY".toList]
  | notNull => [.word "NOT".toList, .word "NULL".toList]
  | none => []

end Constraint

namespace DeclaredColumn

/-- The tokens of a column: its name, its type and its constraint. -/
def tokens (column : DeclaredColumn) : List Token :=
  .name column.name :: .word column.type.sqlName.toList :: column.constraint.tokens

end DeclaredColumn

namespace DeclaredTable

/-- The tokens of a table: its name, and its columns in parentheses with commas between them. -/
def tokens (table : DeclaredTable) : List Token :=
  .word "CREATE".toList :: .word "TABLE".toList :: .name table.name :: .mark '(' ::
    ([.mark ','].intercalate (table.columns.map DeclaredColumn.tokens) ++ [.mark ')'])

end DeclaredTable

/-- A text is a statement that creates a table. -/
def Declares (text : String) (table : DeclaredTable) : Prop :=
  SpellsTokens text.toList table.tokens

/-! ### One table -/

theorem ColumnType.sqlName_injective : Function.Injective ColumnType.sqlName := by
  intro type type' h
  cases type <;> cases type' <;> first | rfl | exact absurd h (by decide)

/-- A token is a word. -/
def IsWord (token : Token) : Prop :=
  ∃ letters, token = .word letters

/-- The tokens of a column. -/
def SpellsColumn (tokens : List Token) (column : DeclaredColumn) : Prop :=
  tokens = column.tokens

theorem isWord_of_mem_tokens {constraint : Constraint} :
    ∀ token ∈ constraint.tokens, IsWord token := by
  cases constraint <;> simp [Constraint.tokens, IsWord]

theorem Constraint.tokens_injective : Function.Injective Constraint.tokens := by
  intro constraint constraint' h
  cases constraint <;> cases constraint' <;> first | rfl | exact absurd h (by decide)

/-- **Columns end** where no word follows. -/
theorem delimited_columnTokens :
    Delimited (fun rest => ∀ token, rest.head? = some token → ¬IsWord token) SpellsColumn := by
  rintro _ _ rest rest' ⟨name, type, constraint⟩ ⟨name', type', constraint'⟩ rfl rfl hrest hrest' h
  obtain ⟨hname, htype, hwords⟩ : name = name' ∧ type.sqlName.toList = type'.sqlName.toList ∧
      constraint.tokens ++ rest = constraint'.tokens ++ rest' := by
    simpa [DeclaredColumn.tokens] using h
  obtain rfl := ColumnType.sqlName_injective (String.toList_injective htype)
  obtain ⟨hconstraint, htail⟩ :=
    Text.append_inj_of_span isWord_of_mem_tokens isWord_of_mem_tokens hrest hrest' hwords
  rw [hname, Constraint.tokens_injective hconstraint]
  exact ⟨rfl, htail⟩

/-- The columns of a table end at the parenthesis. -/
theorem delimited_columns :
    Delimited (fun rest => rest.head? = some (.mark ')'))
      (SpellsSeparated [.mark ','] SpellsColumn) := by
  have hmark : ∀ {c : Char} {rest : List Token}, rest.head? = some (.mark c) →
      ∀ token, rest.head? = some token → ¬IsWord token := by
    rintro c rest hc token htoken ⟨letters, rfl⟩
    exact nomatch hc.symm.trans htoken
  refine delimited_columnTokens.separated ?_ ?_ ?_ ?_
  · exact fun rest => hmark rfl
  · exact fun rest => hmark
  · exact fun rest h => absurd (Option.some.inj h) (by decide)
  · rintro _ column rest rfl h
    exact nomatch h

theorem DeclaredTable.tokens_injective : Function.Injective DeclaredTable.tokens := by
  rintro ⟨name, columns⟩ ⟨name', columns'⟩ h
  have hspells (columns : List DeclaredColumn) : SpellsSeparated [.mark ','] SpellsColumn
      ([.mark ','].intercalate (columns.map DeclaredColumn.tokens)) (columns.map id) :=
    Text.spellsSeparated_intercalate fun _ _ => rfl
  obtain ⟨hname, hcolumns⟩ : name = name' ∧
      [Token.mark ','].intercalate (columns.map DeclaredColumn.tokens) ++ [Token.mark ')'] =
        [Token.mark ','].intercalate (columns'.map DeclaredColumn.tokens) ++ [Token.mark ')'] := by
    simpa [DeclaredTable.tokens] using h
  obtain ⟨heq, -⟩ := delimited_columns (hspells columns) (hspells columns') rfl rfl hcolumns
  rw [hname, ← List.map_id columns, heq, List.map_id]

/-- **A statement declares one table at most.** -/
theorem Declares.unique {text : String} {table table' : DeclaredTable} (h : Declares text table)
    (h' : Declares text table') : table = table' :=
  DeclaredTable.tokens_injective (SpellsTokens.unique h h')

/-! ### The table of an entity -/

/-- A column of an entity as it is declared. -/
def Column.declared (identity : String) (column : Column) : DeclaredColumn where
  name := column.name
  type := column.type
  constraint :=
    if column.name = identity then .primaryKey else if column.nullable then .none else .notNull

/-- The table of an entity. -/
def Entity.declared (entity : Entity) : DeclaredTable where
  name := entity.name
  columns := entity.columns.map (Column.declared entity.identity)

/-- The text of a constraint after the type. -/
def Constraint.text : Constraint → List Char
  | primaryKey => ' ' :: ("PRIMARY".toList ++ ' ' :: "KEY".toList)
  | notNull => ' ' :: ("NOT".toList ++ ' ' :: "NULL".toList)
  | none => []

theorem Column.toList_definition (identity : String) (column : Column) :
    (column.definition identity).toList = (Text.quoteName column.name).toList ++
      ' ' :: (column.type.sqlName.toList ++ (column.declared identity).constraint.text) := by
  have hblank : " ".toList = [' '] := by decide
  rw [definition, declared]
  simp only [String.toList_append, List.append_assoc, hblank, List.cons_append, List.nil_append]
  congr 3
  split
  · decide
  · split <;> decide

variable {rest : List Char} {tokens : List Token}

/-- The text of a constraint, before a text that does not go on with a letter. -/
theorem Constraint.spellsTokens_text (constraint : Constraint) (hrest : EndsWord rest)
    (h : SpellsTokens rest tokens) :
    EndsWord (constraint.text ++ rest) ∧
      SpellsTokens (constraint.text ++ rest) (constraint.tokens ++ tokens) := by
  -- Two words, each after a blank.
  have hwords (first second : List Char) (hfirst : Text.IsKeyword first)
      (hsecond : Text.IsKeyword second) :
      SpellsTokens (' ' :: (first ++ ' ' :: second) ++ rest)
        (.word first :: .word second :: tokens) := by
    rw [List.cons_append, List.append_assoc, List.cons_append]
    exact .blank (.keyword hfirst (endsWord_blank _) (.blank (.keyword hsecond hrest h)))
  cases constraint with
  | primaryKey => exact ⟨endsWord_blank _, hwords _ _ (by decide) (by decide)⟩
  | notNull => exact ⟨endsWord_blank _, hwords _ _ (by decide) (by decide)⟩
  | none => exact ⟨hrest, h⟩

/-- The definition of a column, before a text that does not go on with a letter. -/
theorem Column.spellsTokens_definition (identity : String) (column : Column)
    (hrest : EndsWord rest) (h : SpellsTokens rest tokens) :
    SpellsTokens ((column.definition identity).toList ++ rest)
      ((column.declared identity).tokens ++ tokens) := by
  have htype : ∀ type : ColumnType, Text.IsKeyword type.sqlName.toList := by
    intro type
    cases type <;> decide
  obtain ⟨hends, hconstraint⟩ :=
    (column.declared identity).constraint.spellsTokens_text hrest h
  rw [toList_definition, List.append_assoc, List.cons_append, List.append_assoc]
  exact .quoteName column.name (by simp) (.blank (.keyword (htype _) hends hconstraint))

/-- The definitions of columns up to the parenthesis. -/
theorem spellsTokens_definitions (identity : String) (columns : List Column) :
    SpellsTokens
      ([',', ' '].intercalate (columns.map fun column => (column.definition identity).toList) ++
        [')'])
      ([Token.mark ','].intercalate ((columns.map (Column.declared identity)).map
        DeclaredColumn.tokens) ++ [Token.mark ')']) := by
  have hcomma : Text.classOf ',' = .mark := by decide
  have hparenthesis : Text.classOf ')' = .mark := by decide
  have hends {c : Char} {rest : List Char} (hc : Text.classOf c = .mark) : EndsWord (c :: rest) :=
    endsWord_cons (by rw [hc]; exact nofun) rest
  have hclose : SpellsTokens [')'] [.mark ')'] := .mark hparenthesis (.nil (by simp))
  induction columns with
  | nil => exact hclose
  | cons column columns ih =>
    cases columns with
    | nil =>
      have hlast := column.spellsTokens_definition identity (hends hparenthesis) hclose
      simpa only [List.map_cons, List.map_nil, List.intercalate_singleton] using hlast
    | cons other columns =>
      have hothers := column.spellsTokens_definition identity (hends hcomma) (.mark hcomma ih.blank)
      simpa only [List.map_cons, List.intercalate_cons_cons, List.append_assoc, List.cons_append,
        List.nil_append] using hothers

/-- **The statement of an entity declares its table.** -/
theorem Entity.declares_createTable (entity : Entity) :
    Declares entity.createTable entity.declared := by
  have hcreate : "CREATE TABLE ".toList = "CREATE".toList ++ ' ' :: ("TABLE".toList ++ [' ']) := by
    decide
  have hopen : " (".toList = [' ', '('] := by decide
  have hcomma : ", ".toList = [',', ' '] := by decide
  have hclose : ")".toList = [')'] := by decide
  have hmark : Text.classOf '(' = .mark := by decide
  have hwords : Text.IsKeyword "CREATE".toList ∧ Text.IsKeyword "TABLE".toList := by decide
  unfold Declares createTable
  simp only [String.toList_append, String.toList_intercalate, List.map_map, hcreate, hopen, hcomma,
    hclose, List.append_assoc, List.cons_append, List.nil_append]
  have hcolumns := spellsTokens_definitions entity.identity entity.columns
  exact .keyword hwords.1 (endsWord_blank _) (.blank (.keyword hwords.2 (endsWord_blank _)
    (.blank (.quoteName entity.name (by simp) (.blank (.mark hmark hcolumns))))))

/-! ### Entities with one statement -/

/-- What is declared about a column of an entity: the column with the name of the identity is the
primary key, and another one is not null when it holds a value in every record. -/
structure Column.IsDeclared (identity : String) (column : Column) (declared : DeclaredColumn) :
    Prop where
  name : declared.name = column.name
  type : declared.type = column.type
  primaryKey : declared.constraint = .primaryKey ↔ column.name = identity
  notNull : column.name ≠ identity → (declared.constraint = .notNull ↔ column.nullable = false)

theorem Column.isDeclared_declared (identity : String) (column : Column) :
    column.IsDeclared identity (column.declared identity) := by
  refine ⟨rfl, rfl, ?_, fun hne => ?_⟩
  · rw [declared]
    split
    · next hidentity => exact iff_of_true rfl hidentity
    · next hidentity => split <;> exact iff_of_false nofun hidentity
  · have hconstraint : (column.declared identity).constraint =
        if column.nullable then .none else .notNull := if_neg hne
    rw [hconstraint]
    cases column.nullable <;> decide

/-- Two columns of entities with identities that are declared in the same way. Whether the identity
may hold null is not declared. -/
structure Column.Agree (identity identity' : String) (column column' : Column) : Prop where
  name : column.name = column'.name
  type : column.type = column'.type
  isIdentity : column.name = identity ↔ column'.name = identity'
  nullable : column.name ≠ identity → column.nullable = column'.nullable

/-- Columns with one declaration agree. -/
theorem Column.IsDeclared.agree {identity identity' : String} {column column' : Column}
    {declared : DeclaredColumn} (h : column.IsDeclared identity declared)
    (h' : column'.IsDeclared identity' declared) : column.Agree identity identity' column' where
  name := h.name.symm.trans h'.name
  type := h.type.symm.trans h'.type
  isIdentity := h.primaryKey.symm.trans h'.primaryKey
  nullable hne := by
    have hne' : column'.name ≠ identity' := mt (h.primaryKey.symm.trans h'.primaryKey).mpr hne
    have hnullable : column.nullable = false ↔ column'.nullable = false :=
      (h.notNull hne).symm.trans (h'.notNull hne')
    rwa [← Bool.not_eq_true, ← Bool.not_eq_true, not_iff_not, ← Bool.eq_iff_iff] at hnullable

/-- **The statement of an entity describes it.** It is read in exactly one way, as a table with the
name of the entity and its columns in order. Entities with the same statement have the same name and
columns that agree. -/
theorem Entity.createTable_describes (entity : Entity) :
    (∃! table, Declares entity.createTable table) ∧
    (∀ table, Declares entity.createTable table →
      table.name = entity.name ∧
      List.Forall₂ (Column.IsDeclared entity.identity) entity.columns table.columns) ∧
    ∀ entity' : Entity, entity.createTable = entity'.createTable →
      entity.name = entity'.name ∧
      List.Forall₂ (Column.Agree entity.identity entity'.identity) entity.columns
        entity'.columns := by
  have hdeclares := entity.declares_createTable
  refine ⟨⟨entity.declared, hdeclares, fun table h => h.unique hdeclares⟩, ?_, ?_⟩
  · intro table h
    have hcolumns : List.Forall₂ (Column.IsDeclared entity.identity) entity.columns
        (entity.columns.map (Column.declared entity.identity)) := by
      rw [List.forall₂_map_right_iff, List.forall₂_same]
      exact fun column _ => column.isDeclared_declared entity.identity
    rw [h.unique hdeclares]
    exact ⟨rfl, hcolumns⟩
  · intro entity' h
    have hdeclares' := entity'.declares_createTable
    rw [← h] at hdeclares'
    have htables : entity.declared = entity'.declared := hdeclares.unique hdeclares'
    refine ⟨congrArg DeclaredTable.name htables, ?_⟩
    have hcolumns : List.Forall₂ Eq (entity.columns.map (Column.declared entity.identity))
        (entity'.columns.map (Column.declared entity'.identity)) :=
      List.forall₂_eq_eq_eq ▸ congrArg DeclaredTable.columns htables
    rw [List.forall₂_map_left_iff, List.forall₂_map_right_iff] at hcolumns
    exact hcolumns.imp fun column column' heq =>
      (column.isDeclared_declared entity.identity).agree
        (heq ▸ column'.isDeclared_declared entity'.identity)

/-- An entity with a column whose name looks like a part of a statement. -/
def quotedColumns (identity : Column) : Entity :=
  ⟨"(t)", "id", [identity, .required "a\" TEXT NOT NULL, \"b" .text]⟩

/-- The statement does not tell whether the identity may hold null. -/
theorem Entity.createTable_describes_identity :
    (quotedColumns (.optional "id" .int)).createTable =
        (quotedColumns (.required "id" .int)).createTable ∧
      (quotedColumns (.optional "id" .int)).name = (quotedColumns (.required "id" .int)).name ∧
      List.Forall₂ (Column.Agree "id" "id") (quotedColumns (.optional "id" .int)).columns
        (quotedColumns (.required "id" .int)).columns := by
  have h : (quotedColumns (.optional "id" .int)).createTable =
      (quotedColumns (.required "id" .int)).createTable := by
    decide +kernel
  exact ⟨h, (quotedColumns (.optional "id" .int)).createTable_describes.2.2 _ h⟩

end PlaylistRules.Catalog
