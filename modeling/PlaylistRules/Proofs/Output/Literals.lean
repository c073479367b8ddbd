import PlaylistRules.Proofs.Json.Printing
import PlaylistRules.Proofs.Number.Integers
import PlaylistRules.Proofs.Output.Statement
import PlaylistRules.Proofs.Text.Separated

/-!
# Literals of bound values

The statement of a query is shown with the literals of its bound values. The literals, with commas
between them, are read in one way only, and they are read as the values that are bound when the
query is executed.

## Main definitions

* `Output.SpellsLiteral` : which texts are literals of which values.

## Main results

* `Output.delimited_spellsLiteral` : the end of a literal before a comma.
* `Output.spellsLiteral_literal` : what is shown for a value.
* `Output.literals_are_bound_values` : the literals of a query.
-/

namespace PlaylistRules

open Number (SpellsInteger readInt64?_eq_some_iff digits signed)

/-- **What is written for an integer spells it.** -/
theorem Number.spellsInteger_signed (i : Int) : SpellsInteger (signed i) i := by
  have hvalue : (digitsFrom 0 (digits i.natAbs) : Int) = i.natAbs :=
    congrArg Nat.cast (Json.digitsFrom_digits i.natAbs)
  unfold signed
  split
  · next hneg =>
    have hminus := SpellsInteger.minus (Json.isDigits_digits i.natAbs)
    rwa [hvalue, Int.ofNat_natAbs_of_nonpos (Int.le_of_lt hneg), Int.neg_neg] at hminus
  · next hpos =>
    have hplain := SpellsInteger.plain (Json.isDigits_digits i.natAbs)
    rwa [hvalue, Int.natAbs_of_nonneg (Int.not_lt.mp hpos)] at hplain

namespace Output

open Store (Value)
open Text (Delimited SpellsQuoted SpellsSeparated)

/-! ### Reading literals -/

/-- A literal without quotation marks: null, or an integer of sixty-four bits. -/
inductive SpellsBare : List Char → Value → Prop
  | null : SpellsBare "NULL".toList .null
  | int {text : List Char} {value : Int64} :
    SpellsInteger text value.toInt → SpellsBare text (.int value)

/-- A literal: a bare one, or a text between single quotation marks. -/
inductive SpellsLiteral : List Char → Value → Prop
  | bare {text : List Char} {value : Value} : SpellsBare text value → SpellsLiteral text value
  | quoted {text cs : List Char} :
    SpellsQuoted '\x27' text cs → SpellsLiteral text (.text (String.ofList cs))

/-- Literals with a comma and a blank between each two. -/
def SpellsLiterals : List Char → List Value → Prop :=
  SpellsSeparated [',', ' '] SpellsLiteral

/-- A character of a bare literal. -/
def IsBareChar (c : Char) : Prop :=
  c ≠ ',' ∧ c ≠ '\x27'

instance (c : Char) : Decidable (IsBareChar c) :=
  inferInstanceAs (Decidable (_ ∧ _))

theorem SpellsBare.isBareChar {text : List Char} {value : Value} (h : SpellsBare text value) :
    ∀ c ∈ text, IsBareChar c := by
  cases h with
  | null => simp [IsBareChar]
  | int hinteger =>
    intro c hc
    rcases hinteger.isDigit_or_isSign c hc with hdigit | rfl | rfl
    · constructor <;> rintro rfl <;> exact absurd hdigit (by decide)
    · decide
    · decide

theorem SpellsBare.ne_nil {text : List Char} {value : Value} (h : SpellsBare text value) :
    text ≠ [] := by
  cases h with
  | null => decide
  | int hinteger => exact hinteger.ne_nil

theorem SpellsBare.unique {text : List Char} {value value' : Value} (h : SpellsBare text value)
    (h' : SpellsBare text value') : value = value' := by
  have hnull : ∀ {i : Int64}, ¬SpellsInteger "NULL".toList i.toInt := fun hinteger => by
    have hread : Number.readInt64? "NULL".toList = none := by decide
    rw [← readInt64?_eq_some_iff, hread] at hinteger
    exact nomatch hinteger
  cases h with
  | null =>
    cases h' with
    | null => rfl
    | int hinteger => exact absurd hinteger hnull
  | int hinteger =>
    cases h' with
    | null => exact absurd hinteger hnull
    | int hinteger' =>
      have hread := readInt64?_eq_some_iff.mpr hinteger
      rw [readInt64?_eq_some_iff.mpr hinteger'] at hread
      exact congrArg _ (Option.some.inj hread).symm

/-- A bare literal does not start like a quoted one. -/
theorem SpellsBare.append_ne_quoted {text text' rest rest' cs : List Char} {value : Value}
    (h : SpellsBare text value) (h' : SpellsQuoted '\x27' text' cs) :
    text ++ rest ≠ text' ++ rest' := by
  obtain ⟨c, more, rfl⟩ := List.exists_cons_of_ne_nil h.ne_nil
  obtain ⟨body, -, rfl⟩ := h'
  intro heq
  exact (h.isBareChar c List.mem_cons_self).2 (List.cons.inj heq).1

/-- **Literals end at a comma** or with the text. -/
theorem delimited_spellsLiteral :
    Delimited (fun rest => ∀ c, rest.head? = some c → c = ',') SpellsLiteral := by
  have hbare : Delimited (fun rest => ∀ c, rest.head? = some c → ¬IsBareChar c) SpellsBare :=
    Text.delimited_of_span (fun _ _ h => h.isBareChar) fun _ _ _ => SpellsBare.unique
  intro text text' rest rest' value value' hleft hright hrest hrest' heq
  cases hleft with
  | bare h =>
    cases hright with
    | bare h' =>
      exact hbare h h' (fun c hc hb => hb.1 (hrest c hc)) (fun c hc hb => hb.1 (hrest' c hc)) heq
    | quoted h' => exact absurd heq (h.append_ne_quoted h')
  | quoted h =>
    cases hright with
    | bare h' => exact absurd heq.symm (h'.append_ne_quoted h)
    | quoted h' =>
      obtain ⟨rfl, htail⟩ := Text.delimited_spellsQuoted '\x27' h h'
        (fun hc => absurd (hrest _ hc) (by decide)) (fun hc => absurd (hrest' _ hc) (by decide)) heq
      exact ⟨rfl, htail⟩

/-- **A list of literals is read in one way.** -/
theorem SpellsLiterals.unique {text : List Char} {values values' : List Value}
    (h : SpellsLiterals text values) (h' : SpellsLiterals text values') : values = values' := by
  refine Delimited.unique (delimited_spellsLiteral.separated ?_ ?_ ?_ ?_) h h'
  · exact fun rest c hc => (Option.some.inj hc).symm
  · rintro _ rfl c hc
    exact nomatch hc
  · exact fun rest => List.cons_ne_nil _ _
  · intro text value rest hvalue hnil
    obtain ⟨rfl, -⟩ := List.append_eq_nil_iff.mp hnil
    cases hvalue with
    | bare h => exact h.ne_nil rfl
    | quoted h =>
      obtain ⟨body, -, hbody⟩ := h
      exact List.cons_ne_nil _ _ hbody.symm

/-! ### Literals that are shown -/

theorem spellsLiteral_quoteLiteral (text : String) :
    SpellsLiteral (Text.quoteLiteral text).toList (.text text) := by
  have hquoted : SpellsQuoted '\x27' (Text.quoteLiteral text).toList text.toList :=
    Text.spellsQuoted_iff.mpr String.toList_ofList
  have hliteral := SpellsLiteral.quoted hquoted
  rwa [String.ofList_toList] at hliteral

/-- **The literal of a value spells what is bound for it.** -/
theorem spellsLiteral_literal {value : Scalar} (h : ∀ f, value ≠ .float f) :
    SpellsLiteral (literal value).toList (.ofScalar value) := by
  have hdigit : ∀ c : Char, c.isDigit = true → Json.IsDigits [c] := fun c hc =>
    ⟨List.cons_ne_nil _ _, fun d hd => List.mem_singleton.mp hd ▸ hc⟩
  cases value with
  | null => exact .bare .null
  | bool value =>
    cases value with
    | false => exact .bare (.int (.plain (hdigit '0' rfl)))
    | true => exact .bare (.int (.plain (hdigit '1' rfl)))
  | int value =>
    rw [literal, Scalar.display, String.toList_ofList]
    exact .bare (.int (Number.spellsInteger_signed value.toInt))
  | float f => exact absurd rfl (h f)
  | text value => exact spellsLiteral_quoteLiteral value
  | instant value => exact spellsLiteral_quoteLiteral value.display

/-- **The literals that are shown are the values that are bound.** In the comment after the
statement of a query without binary numbers, the text between the brackets is read as a list of
literals in one way, and this list is what the execution of the query binds. -/
theorem literals_are_bound_values {query : Query} (h : ∀ f, Scalar.float f ∉ query.bindings) :
    ∃ inner, (formatQuery query .sql).toList =
        (query.sql ++ ";").toList ++ '\n' :: ("-- bindings: [".toList ++ (inner ++ [']'])) ∧
      ∀ values, SpellsLiterals inner values ↔ values = query.bindings.map Value.ofScalar := by
  have hwritten : SpellsLiterals
      ([',', ' '].intercalate (query.bindings.map fun value => (literal value).toList))
      (query.bindings.map Value.ofScalar) :=
    Text.spellsSeparated_intercalate fun value hvalue =>
      spellsLiteral_literal fun f hf => h f (hf ▸ hvalue)
  refine ⟨_, toList_queryStatement query, fun values => ⟨fun hread => hread.unique hwritten, ?_⟩⟩
  rintro rfl
  exact hwritten

/-- Commas, brackets, quotation marks, hyphens and line feeds in bound texts. -/
theorem literals_are_bound_values_separators :
    ∃ inner, (formatQuery ⟨"songs", "(\"title\" = ?)",
        [.text "\x27, NULL]\n-- \x27", .bool true, .text "", .int (-5), .null]⟩ .sql).toList =
        ("select * from \"songs\" where (\"title\" = ?)" ++ ";").toList ++
          '\n' :: ("-- bindings: [".toList ++ (inner ++ [']'])) ∧
      ∀ values, SpellsLiterals inner values ↔
        values = [.text "\x27, NULL]\n-- \x27", .int 1, .text "", .int (-5), .null] := by
  have hsql : "select * from \"songs\" where (\"title\" = ?)" =
      Query.sql ⟨"songs", "(\"title\" = ?)",
        [.text "\x27, NULL]\n-- \x27", .bool true, .text "", .int (-5), .null]⟩ := by
    decide +kernel
  rw [hsql]
  exact literals_are_bound_values (by simp)

end Output

end PlaylistRules
