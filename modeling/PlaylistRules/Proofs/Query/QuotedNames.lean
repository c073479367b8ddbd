import PlaylistRules.Proofs.Query.Reading
import PlaylistRules.Proofs.Text.Separated

/-!
# Quoted names

A quoted name can be told from whatever stands after it. It is read from the front of a text exactly
when the text begins with its quoted form, and what follows does not continue that form with another
mark. So no two names have the same quoted form, and a column with its table determines both.

## Main results

* `Text.readQuoted?_eq_some_iff` : the quoted texts that are read.
* `Query.readName?_eq_some_iff` : the quoted names that are read.
* `Query.quoted_names_exact` : quoted names, alone and with the name of a table.
-/

namespace PlaylistRules

namespace Text

variable {mark : Char} {text body rest : List Char}

/-- What is read up to the closing mark stands at the front of the text, with its marks doubled. -/
private theorem eq_of_readDoubled? (h : readDoubled? mark text = some (body, rest)) :
    text = doubled mark body ++ mark :: rest ∧ rest.head? ≠ some mark := by
  -- The cases are those of the reader: the end of the text after a mark, two marks in a row, a mark
  -- before another character, and any other character.
  fun_induction readDoubled? mark text generalizing body with
  | case1 => cases h
  | case2 =>
    cases h
    exact ⟨rfl, nofun⟩
  | case3 => cases h
  | case4 cs ih =>
    obtain ⟨⟨inner, rest'⟩, hinner, hpair⟩ := Option.map_eq_some_iff.mp h
    cases hpair
    obtain ⟨rfl, hrest⟩ := ih hinner
    rw [doubled, if_pos rfl]
    exact ⟨rfl, hrest⟩
  | case5 d cs hd =>
    cases h
    exact ⟨rfl, fun hhead => hd (Option.some.inj hhead)⟩
  | case6 c d cs hc ih =>
    obtain ⟨⟨inner, rest'⟩, hinner, hpair⟩ := Option.map_eq_some_iff.mp h
    cases hpair
    obtain ⟨htext, hrest⟩ := ih hinner
    rw [htext, doubled, if_neg hc]
    exact ⟨rfl, hrest⟩

/-- **A quoted text is read exactly when the text begins with it**, and what follows does not begin
with another mark. -/
theorem readQuoted?_eq_some_iff : readQuoted? mark text = some (body, rest) ↔
    text = quoted mark body ++ rest ∧ rest.head? ≠ some mark := by
  constructor
  · intro h
    unfold readQuoted? at h
    split at h
    · cases h
    · split at h
      · next hmark =>
        obtain ⟨rfl, hrest⟩ := eq_of_readDoubled? h
        rw [hmark, quoted, List.cons_append, List.append_assoc]
        exact ⟨rfl, hrest⟩
      · cases h
  · rintro ⟨rfl, hrest⟩
    exact readQuoted?_quoted body hrest

end Text

namespace Query

/-- A quoted name is read exactly when the text begins with its quoted form, and what follows does
not begin with another mark. -/
theorem readName?_eq_some_iff {name : String} {text rest : List Char} :
    readName? text = some (name, rest) ↔
      text = (Text.quoteName name).toList ++ rest ∧ rest.head? ≠ some '"' := by
  rw [readName?, toList_quoteName, ← Text.readQuoted?_eq_some_iff, Option.map_eq_some_iff]
  constructor
  · rintro ⟨⟨body, rest'⟩, hread, hpair⟩
    cases hpair
    rwa [String.toList_ofList]
  · exact fun hread => ⟨_, hread, congrArg (·, rest) String.ofList_toList⟩

/-- What a reader finds again at the end of a text is written in different ways. -/
theorem injective_of_read {α : Type} {write : α → String}
    {read : List Char → Option (α × List Char)}
    (h : ∀ a, read ((write a).toList ++ []) = some (a, [])) : Function.Injective write := by
  intro a a' heq
  have hread := h a
  rw [heq, h a', Option.some.injEq, Prod.mk.injEq] at hread
  exact hread.1.symm

/-- **A quoted name is exact.** What is written for a name is its one spelling between marks, where
two marks stand for one. A reader of quoted names finds a name and what follows it exactly when the
text is the quoted form of this name with what follows, and that does not begin with another mark.
Different names have different quoted forms, and the text of a column with its table is that of no
other column or table. -/
theorem quoted_names_exact :
    (∀ (name : String) (text : List Char),
      Text.SpellsQuoted '"' text name.toList ↔ text = (Text.quoteName name).toList) ∧
    (∀ (name : String) (text rest : List Char), readName? text = some (name, rest) ↔
      text = (Text.quoteName name).toList ++ rest ∧ rest.head? ≠ some '"') ∧
    Function.Injective Text.quoteName ∧ Function.Injective ColumnRef.text := by
  refine ⟨fun name text => ?_, fun _ _ _ => readName?_eq_some_iff, ?_, ?_⟩
  · rw [Text.spellsQuoted_iff, toList_quoteName]
  · exact injective_of_read fun name => readName?_quoteName name nofun
  · exact injective_of_read fun ref => readColumnRef?_text ref nofun

/-- A name that ends with a mark, before a point. -/
example : readName? "\"we\"\"ird\"\"\".\"x\"".toList = some ("we\"ird\"", ".\"x\"".toList) := by
  decide

end Query

end PlaylistRules
