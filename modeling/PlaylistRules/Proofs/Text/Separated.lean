import Mathlib.Data.List.Infix
import PlaylistRules.Text.Quoted

/-!
# Values with separators between them

How values are spelled one after the other, with a separator between each two. A spelling is
delimited when the end of a value is plain from what follows it. Values with separators between them
can then be told apart, whatever stands inside of them: a quoted text may contain the separator.

## Main definitions

* `Text.Delimited` : spellings of which the end is plain.
* `Text.SpellsQuoted` : texts between quotation marks.
* `Text.SpellsSeparated` : values with separators between them.

## Main results

* `Text.delimited_of_span` : spellings with symbols of one class.
* `Text.delimited_spellsQuoted` : quoted texts.
* `Text.Delimited.separated` : values with separators between them.
* `Text.spellsSeparated_intercalate` : what is written with separators.
-/

namespace PlaylistRules.Text

variable {σ α : Type} {follows follows' : List σ → Prop} {spells : List σ → α → Prop}

/-- The end of a value is plain from what follows it: a text is not divided in two ways into a value
and what may follow it. -/
def Delimited (follows : List σ → Prop) (spells : List σ → α → Prop) : Prop :=
  ∀ ⦃text text' rest rest' a a'⦄, spells text a → spells text' a' → follows rest →
    follows rest' → text ++ rest = text' ++ rest' → a = a' ∧ rest = rest'

/-- A whole text is spelled by one value. -/
theorem Delimited.unique (h : Delimited (· = []) spells) {text : List σ} {a a' : α}
    (hleft : spells text a) (hright : spells text a') : a = a' :=
  (h hleft hright rfl rfl rfl).1

/-! ### Symbols of one class -/

/-- Symbols of a class end where another symbol stands. -/
theorem append_inj_of_span {p : σ → Prop} {span span' rest rest' : List σ}
    (hspan : ∀ s ∈ span, p s) (hspan' : ∀ s ∈ span', p s) (hrest : ∀ s, rest.head? = some s → ¬p s)
    (hrest' : ∀ s, rest'.head? = some s → ¬p s) (h : span ++ rest = span' ++ rest') :
    span = span' ∧ rest = rest' := by
  induction span generalizing span' with
  | nil =>
    cases span' with
    | nil => exact ⟨rfl, h⟩
    | cons s span' =>
      have hhead : rest.head? = some s := congrArg List.head? h
      exact absurd (hspan' s List.mem_cons_self) (hrest s hhead)
  | cons s span ih =>
    rw [List.forall_mem_cons] at hspan
    cases span' with
    | nil =>
      have hhead : rest'.head? = some s := congrArg List.head? h.symm
      exact absurd hspan.1 (hrest' s hhead)
    | cons s' span' =>
      obtain ⟨rfl, htail⟩ := List.cons.inj h
      exact (ih hspan.2 (List.forall_mem_cons.mp hspan').2 htail).imp_left (congrArg _)

/-- Values that are spelled with symbols of a class are delimited by other symbols. -/
theorem delimited_of_span {p : σ → Prop} (hspan : ∀ text a, spells text a → ∀ s ∈ text, p s)
    (hunique : ∀ text a a', spells text a → spells text a' → a = a') :
    Delimited (fun rest => ∀ s, rest.head? = some s → ¬p s) spells := by
  intro text text' rest rest' a a' hleft hright hrest hrest' heq
  obtain ⟨rfl, htail⟩ :=
    append_inj_of_span (hspan text a hleft) (hspan text' a' hright) hrest hrest' heq
  exact ⟨hunique text a a' hleft hright, htail⟩

/-! ### Quoted texts -/

/-- A text inside of quotation marks: two marks stand for one. -/
inductive SpellsDoubled (mark : Char) : List Char → List Char → Prop
  | nil : SpellsDoubled mark [] []
  | mark {text cs : List Char} :
    SpellsDoubled mark text cs → SpellsDoubled mark (mark :: mark :: text) (mark :: cs)
  | plain {c : Char} {text cs : List Char} :
    c ≠ mark → SpellsDoubled mark text cs → SpellsDoubled mark (c :: text) (c :: cs)

/-- A text between quotation marks. -/
def SpellsQuoted (mark : Char) (text cs : List Char) : Prop :=
  ∃ body, SpellsDoubled mark body cs ∧ text = mark :: (body ++ [mark])

variable {mark : Char} {text cs : List Char}

theorem spellsDoubled_iff : SpellsDoubled mark text cs ↔ text = doubled mark cs := by
  constructor
  · intro h
    induction h with
    | nil => rfl
    | mark _ ih => rw [doubled, if_pos rfl, ih]
    | plain hc _ ih => rw [doubled, if_neg hc, ih]
  · rintro rfl
    induction cs with
    | nil => exact .nil
    | cons c cs ih =>
      rw [doubled]
      split
      · next hc =>
        obtain rfl := hc
        exact .mark ih
      · next hc => exact .plain hc ih

/-- **A text is quoted in one way.** -/
theorem spellsQuoted_iff : SpellsQuoted mark text cs ↔ text = quoted mark cs := by
  simp only [SpellsQuoted, spellsDoubled_iff, exists_eq_left, quoted]

/-- **Quoted texts are delimited** by what does not continue them with another mark. -/
theorem delimited_spellsQuoted (mark : Char) :
    Delimited (fun rest => rest.head? ≠ some mark) (SpellsQuoted mark) := by
  intro text text' rest rest' cs cs' hleft hright hrest hrest' heq
  rw [spellsQuoted_iff.mp hleft, spellsQuoted_iff.mp hright] at heq
  have hread := readQuoted?_quoted cs hrest
  rw [heq, readQuoted?_quoted cs' hrest'] at hread
  exact ⟨(Prod.mk.inj (Option.some.inj hread)).1.symm, (Prod.mk.inj (Option.some.inj hread)).2.symm⟩

/-! ### Separators -/

/-- Any number of values with a separator between each two. -/
inductive SpellsSeparated (separator : List σ) (spells : List σ → α → Prop) :
    List σ → List α → Prop
  | nil : SpellsSeparated separator spells [] []
  | singleton {text : List σ} {a : α} :
    spells text a → SpellsSeparated separator spells text [a]
  | cons {text texts : List σ} {a b : α} {as : List α} : spells text a →
    SpellsSeparated separator spells texts (b :: as) →
      SpellsSeparated separator spells (text ++ (separator ++ texts)) (a :: b :: as)

variable {separator texts : List σ}

/-- The first value stands at the start. -/
theorem SpellsSeparated.exists_start {a : α} {as : List α}
    (h : SpellsSeparated separator spells texts (a :: as)) :
    ∃ text rest, spells text a ∧ texts = text ++ rest := by
  cases h with
  | singleton h => exact ⟨_, [], h, (List.append_nil _).symm⟩
  | cons h => exact ⟨_, _, h, rfl⟩

/-- **Values with separators between them are told apart** if they are delimited by separators and
by what follows the last one, and what follows neither begins with a separator nor with a value. -/
theorem Delimited.separated (h : Delimited follows spells)
    (hseparator : ∀ rest, follows (separator ++ rest)) (hend : ∀ rest, follows' rest → follows rest)
    (hmore : ∀ rest, ¬follows' (separator ++ rest))
    (hvalue : ∀ text a rest, spells text a → ¬follows' (text ++ rest)) :
    Delimited follows' (SpellsSeparated separator spells) := by
  intro texts texts' rest rest' as as' hleft hright hrest hrest' heq
  induction hleft generalizing texts' as' with
  | nil =>
    cases as' with
    | nil =>
      cases hright with
      | nil => exact ⟨rfl, heq⟩
    | cons a' as' =>
      obtain ⟨text', more, ha', rfl⟩ := hright.exists_start
      rw [List.nil_append, List.append_assoc] at heq
      exact absurd (heq ▸ hrest) (hvalue text' a' _ ha')
  | singleton ha =>
    cases hright with
    | nil => exact absurd (heq ▸ hrest') (hvalue _ _ rest ha)
    | singleton ha' =>
      obtain ⟨rfl, htail⟩ := h ha ha' (hend _ hrest) (hend _ hrest') heq
      exact ⟨rfl, htail⟩
    | cons ha' _ =>
      simp only [List.append_assoc] at heq
      obtain ⟨-, htail⟩ := h ha ha' (hend _ hrest) (hseparator _) heq
      exact absurd (htail ▸ hrest) (hmore _)
  | cons ha _ ih =>
    simp only [List.append_assoc] at heq
    cases hright with
    | nil =>
      rw [List.nil_append] at heq
      exact absurd (heq ▸ hrest') (hvalue _ _ _ ha)
    | singleton ha' =>
      obtain ⟨-, htail⟩ := h ha ha' (hseparator _) (hend _ hrest') heq
      exact absurd (htail ▸ hrest') (hmore _)
    | cons ha' hothers' =>
      simp only [List.append_assoc] at heq
      obtain ⟨rfl, htail⟩ := h ha ha' (hseparator _) (hseparator _) heq
      exact (ih hothers' (List.append_cancel_left htail)).imp_left (congrArg _)

/-- What is written for values with separators between them spells what is made of them. -/
theorem spellsSeparated_intercalate {β : Type} {write : β → List σ} {f : β → α} {bs : List β}
    (h : ∀ b ∈ bs, spells (write b) (f b)) :
    SpellsSeparated separator spells (separator.intercalate (bs.map write)) (bs.map f) := by
  induction bs with
  | nil => exact .nil
  | cons b bs ih =>
    rw [List.forall_mem_cons] at h
    cases bs with
    | nil =>
      rw [List.map_singleton, List.intercalate_singleton]
      exact .singleton h.1
    | cons b' bs =>
      rw [List.map_cons, List.map_cons, List.intercalate_cons_cons, List.append_assoc]
      exact .cons h.1 (ih h.2)

end PlaylistRules.Text
