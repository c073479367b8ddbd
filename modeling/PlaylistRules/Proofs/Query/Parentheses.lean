import Mathlib.Algebra.Ring.Parity
import PlaylistRules.Proofs.Query.Placeholders

/-!
# Parentheses of predicates

A predicate puts each of its groups in parentheses. No group is empty, so that no parenthesis is
closed right after it is opened. Quoted names may contain any characters, those of an empty pair
too; but quotation marks inside of a name are doubled, so that an odd number of marks stands before
each character inside of a name other than a mark.

## Main definitions

* `Query.HasNoEmptyPair` : a text without an empty pair of parentheses outside of quoted names.
* `Query.Filled` : parts of such a text that can be put after each other.

## Main results

* `Query.filled_quoteName` : a quoted name is filled, whatever it contains.
* `Query.filled_predicate` : the text of a proper predicate is filled.
-/

namespace PlaylistRules.Query

/-- No parenthesis of a text is closed right after it is opened, except inside of a quoted name,
where an odd number of quotation marks stands before it. -/
def HasNoEmptyPair (text : List Char) : Prop :=
  ∀ before after, text = before ++ '(' :: ')' :: after → Odd (before.count '"')

/-- A text has no empty pair of parentheses outside of quoted names, and what follows it is neither
inside of a name nor right after an opening parenthesis. -/
structure Filled (text : List Char) : Prop where
  even_marks : Even (text.count '"')
  last_ne : text.getLast? ≠ some '('
  hasNoEmptyPair : HasNoEmptyPair text

variable {text text' : List Char}

/-! ### Parts of a text -/

theorem filled_nil : Filled [] where
  even_marks := Even.zero
  last_ne := nofun
  hasNoEmptyPair before after h := by
    cases before <;> cases h

/-- Parts that are put after each other make no new pair of parentheses. -/
theorem Filled.append (h : Filled text) (h' : Filled text') : Filled (text ++ text') where
  even_marks := by
    rw [List.count_append]
    exact h.even_marks.add h'.even_marks
  last_ne := by
    rw [List.getLast?_append]
    cases hlast : text'.getLast? with
    | none => exact h.last_ne
    | some c =>
      rw [Option.some_or, ← hlast]
      exact h'.last_ne
  hasNoEmptyPair before after heq := by
    obtain ⟨middle, rfl, hsecond⟩ | ⟨middle, hfirst, hrest⟩ := List.append_eq_append_iff.mp heq
    · -- The pair is in the second part.
      rw [List.count_append]
      exact h.even_marks.add_odd (h'.hasNoEmptyPair middle after hsecond)
    · match middle with
      | [] =>
        -- The second part begins with the pair, but no mark of it stands before.
        exact absurd (h'.hasNoEmptyPair [] after hrest.symm) (by simp)
      | [c] =>
        -- The parts meet between the parentheses.
        obtain ⟨rfl, -⟩ := List.cons_eq_cons.mp hrest
        exact absurd (hfirst ▸ List.getLast?_concat) h.last_ne
      | c :: d :: middle =>
        -- The pair is in the first part.
        obtain ⟨rfl, htail⟩ := List.cons_eq_cons.mp hrest
        obtain ⟨rfl, -⟩ := List.cons_eq_cons.mp htail
        exact h.hasNoEmptyPair before middle hfirst

/-- Words without quotation marks are filled when they do not have both parentheses and are not open
at the end. -/
theorem filled_words {words : List Char} (hmarks : '"' ∉ words)
    (hlast : words.getLast? ≠ some '(') (hpair : ¬('(' ∈ words ∧ ')' ∈ words)) :
    Filled words where
  even_marks := by
    rw [List.count_eq_zero.mpr hmarks]
    exact Even.zero
  last_ne := hlast
  hasNoEmptyPair before after h := by
    rw [h] at hpair
    exact absurd ⟨by simp, by simp⟩ hpair

/-- A parenthesis is opened before a text that does not close it at once. -/
theorem Filled.opened (h : Filled text) (hne : text ≠ []) (hhead : text.head? ≠ some ')') :
    Filled ('(' :: text) where
  even_marks := by
    rw [List.count_cons_of_ne (by decide)]
    exact h.even_marks
  last_ne := by
    rw [List.getLast?_cons_of_ne_nil hne]
    exact h.last_ne
  hasNoEmptyPair before after heq := by
    cases before with
    | nil => exact absurd (congrArg List.head? (List.cons_eq_cons.mp heq).2) hhead
    | cons c before =>
      obtain ⟨rfl, htail⟩ := List.cons_eq_cons.mp heq
      rw [List.count_cons_of_ne (by decide)]
      exact h.hasNoEmptyPair before after htail

/-! ### Quoted names -/

/-- An even number of marks stands before a character of a doubled text that is no mark. -/
theorem even_count_of_doubled {cs before rest : List Char} {c : Char} (hc : c ≠ '"')
    (h : Text.doubled '"' cs ++ ['"'] = before ++ c :: rest) : Even (before.count '"') := by
  induction cs generalizing before with
  | nil =>
    cases before with
    | nil => exact Even.zero
    | cons x before => cases before <;> cases h
  | cons d cs ih =>
    rw [Text.doubled] at h
    split at h
    · cases before with
      | nil => exact Even.zero
      | cons x before =>
        obtain ⟨rfl, htail⟩ := List.cons_eq_cons.mp h
        cases before with
        | nil => exact absurd (List.cons_eq_cons.mp htail).1.symm hc
        | cons y before =>
          obtain ⟨rfl, htail'⟩ := List.cons_eq_cons.mp htail
          rw [List.count_cons_self, List.count_cons_self, Nat.add_assoc]
          exact (ih htail').add even_two
    · next hd =>
      cases before with
      | nil => exact Even.zero
      | cons x before =>
        obtain ⟨rfl, htail⟩ := List.cons_eq_cons.mp h
        rw [List.count_cons_of_ne hd]
        exact ih htail

theorem even_count_doubled (cs : List Char) : Even ((Text.doubled '"' cs).count '"') := by
  induction cs with
  | nil => exact Even.zero
  | cons c cs ih =>
    rw [Text.doubled]
    split
    · rw [List.count_cons_self, List.count_cons_self, Nat.add_assoc]
      exact ih.add even_two
    · next hc =>
      rw [List.count_cons_of_ne hc]
      exact ih

/-- A quoted name is filled, whatever it contains. -/
theorem filled_quoteName (name : String) : Filled (Text.quoteName name).toList := by
  rw [toList_quoteName, Text.quoted]
  refine ⟨?_, ?_, fun before after h => ?_⟩
  · rw [List.count_cons_self, List.count_append, List.count_singleton_self, Nat.add_assoc]
    exact (even_count_doubled _).add even_two
  · rw [List.getLast?_cons_of_ne_nil (List.append_ne_nil_of_right_ne_nil _ (by decide)),
      List.getLast?_concat]
    decide
  · cases before with
    | nil => cases h
    | cons c before =>
      obtain ⟨rfl, htail⟩ := List.cons_eq_cons.mp h
      have heven : Even (before.count '"') := even_count_of_doubled (by decide) htail
      rw [List.count_cons_self]
      exact heven.add_one

/-! ### Conditions and groups -/

theorem filled_test (test : Test) : Filled test.text.toList := by
  have hcomparison : Filled (comparisonWords test.comparison).toList := by
    cases test.comparison <;> exact filled_words (by decide) (by decide) (by decide)
  rw [test.toList_text]
  exact (filled_quoteName test.column).append hcomparison

theorem filled_columnRef (ref : ColumnRef) : Filled ref.text.toList := by
  have hpoint : Filled ".".toList := filled_words (by decide) (by decide) (by decide)
  rw [ColumnRef.text, String.toList_append, String.toList_append]
  exact ((filled_quoteName ref.table).append hpoint).append (filled_quoteName ref.column)

theorem filled_condition (condition : Condition) : Filled condition.text.toList := by
  cases condition with
  | own test => exact filled_test test
  | related table outer inner test =>
    have hexists : Filled "exists (select * from ".toList :=
      filled_words (by decide) (by decide) (by decide)
    have hwhere : Filled " where ".toList := filled_words (by decide) (by decide) (by decide)
    have hequal : Filled " = ".toList := filled_words (by decide) (by decide) (by decide)
    have hand : Filled " and ".toList := filled_words (by decide) (by decide) (by decide)
    have hclose : Filled ")".toList := filled_words (by decide) (by decide) (by decide)
    unfold Condition.text
    simp only [String.toList_append]
    exact (((((((hexists.append (filled_quoteName table)).append hwhere).append
      (filled_columnRef outer)).append hequal).append (filled_columnRef inner)).append
        hand).append (filled_test test)).append hclose

/-- A condition begins with a quoted name or with a word. -/
theorem head?_condition_ne (condition : Condition) (cs : List Char) :
    (condition.text.toList ++ cs).head? ≠ some ')' := by
  cases condition with
  | own test =>
    have htext : (Condition.own test).text = test.text := rfl
    rw [htext, test.toList_text, toList_quoteName, Text.quoted]
    show some '"' ≠ some ')'
    decide
  | related table outer inner test =>
    unfold Condition.text
    simp only [String.toList_append, List.append_assoc]
    exact head?_append_ne (by decide) (by decide) _

theorem filled_intercalate {α : Type} {f : α → List Char} {xs : List α} {separator : List Char}
    (hseparator : Filled separator) (h : ∀ x ∈ xs, Filled (f x)) :
    Filled (separator.intercalate (xs.map f)) := by
  have hflatMap : ∀ ys : List α, (∀ y ∈ ys, Filled (f y)) →
      Filled (ys.flatMap fun y => separator ++ f y) := by
    intro ys hys
    induction ys with
    | nil => exact filled_nil
    | cons y ys ih =>
      rw [List.forall_mem_cons] at hys
      exact (hseparator.append hys.1).append (ih hys.2)
  cases xs with
  | nil => exact filled_nil
  | cons x xs =>
    rw [List.forall_mem_cons] at h
    rw [← List.nil_append (x :: xs), intercalate_append_cons]
    exact h.1.append (hflatMap xs h.2)

/-- A group that is not empty is filled. -/
theorem filled_group {group : List Condition} (hne : group ≠ []) :
    Filled (groupText group).toList := by
  have hand : Filled " and ".toList := filled_words (by decide) (by decide) (by decide)
  have hclose : Filled [')'] := filled_words (by decide) (by decide) (by decide)
  have hconditions := filled_intercalate hand fun condition (_ : condition ∈ group) =>
    filled_condition condition
  rw [toList_groupText]
  refine (hconditions.append hclose).opened (List.append_ne_nil_of_right_ne_nil _ (by decide)) ?_
  obtain ⟨condition, others, rfl⟩ := List.exists_cons_of_ne_nil hne
  rw [← List.nil_append (condition :: others), intercalate_append_cons, List.flatMap_nil,
    List.nil_append, List.append_assoc]
  exact head?_condition_ne condition _

/-- **The text of a proper predicate is filled**, whatever the names in it contain. -/
theorem filled_predicate {predicate : Predicate} (h : predicate.IsProper) :
    Filled predicate.text.toList := by
  cases predicate with
  | never => exact filled_words (by decide) (by decide) (by decide)
  | anyOf groups =>
    have hor : Filled " or ".toList := filled_words (by decide) (by decide) (by decide)
    rw [Predicate.toList_text_anyOf]
    exact filled_intercalate hor fun group hgroup => filled_group (h.2 group hgroup)

end PlaylistRules.Query
