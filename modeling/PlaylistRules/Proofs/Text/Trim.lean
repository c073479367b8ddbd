import Mathlib.Data.List.TakeWhile
import PlaylistRules.Text.Blank

/-!
# Trimmed texts

Trimming divides a text into blank characters, the trimmed text and blank characters again. The
trimmed text neither begins nor ends with a blank character, and no other division has this.

## Main definitions

* `Text.AllBlank` : a text of blank characters.
* `Text.HasInkedEnds` : a text that neither begins nor ends with a blank character.

## Main results

* `Text.trim_eq_iff` : the text that is left by trimming.
-/

namespace PlaylistRules.Text

variable {cs body before after : List Char}

/-- All characters of a text are blank. -/
def AllBlank (cs : List Char) : Prop :=
  ∀ c ∈ cs, isBlank c = true

instance (cs : List Char) : Decidable (AllBlank cs) :=
  decidable_of_iff (cs.all isBlank = true) List.all_eq_true

/-- A text neither begins nor ends with a blank character. -/
def HasInkedEnds (cs : List Char) : Prop :=
  (∀ c ∈ cs.head?, isBlank c = false) ∧ ∀ c ∈ cs.getLast?, isBlank c = false

theorem dropBlanks_append (h : AllBlank before) : dropBlanks (before ++ cs) = dropBlanks cs :=
  List.dropWhile_append_of_pos h

/-- Nothing is dropped from a text whose first character stays. -/
theorem dropWhile_of_head? {p : Char → Bool} (h : ∀ c ∈ cs.head?, p c = false) :
    cs.dropWhile p = cs := by
  cases cs with
  | nil => rfl
  | cons c cs => rw [List.dropWhile_cons, h c rfl, if_neg Bool.false_ne_true]

/-- The blank characters in front of a text and the rest of it. -/
theorem exists_dropBlanks (cs : List Char) :
    ∃ before, AllBlank before ∧ cs = before ++ dropBlanks cs ∧
      ∀ c ∈ (dropBlanks cs).head?, isBlank c = false := by
  refine ⟨cs.takeWhile isBlank, fun c hc => List.mem_takeWhile_imp hc,
    List.takeWhile_append_dropWhile.symm, fun c hc => ?_⟩
  have hhead := List.head?_dropWhile_not isBlank cs
  rw [← dropBlanks, Option.mem_def.mp hc] at hhead
  exact hhead

/-- Blank characters around a text are dropped. -/
theorem trim_append (hbefore : AllBlank before) (hafter : AllBlank after)
    (hbody : HasInkedEnds body) : trim (before ++ body ++ after) = body := by
  have hfront : dropBlanks (before ++ body ++ after) = dropBlanks (body ++ after) := by
    rw [List.append_assoc, dropBlanks_append hbefore]
  cases body with
  | nil =>
    have hnone : dropBlanks after = [] := List.dropWhile_eq_nil_iff.mpr hafter
    rw [trim, hfront, List.nil_append, hnone]
    rfl
  | cons c body =>
    have hkept : dropBlanks (c :: body ++ after) = c :: body ++ after :=
      dropBlanks_cons_of_not_isBlank (hbody.1 c rfl)
    have hback : dropBlanks (c :: body ++ after).reverse = (c :: body).reverse := by
      rw [List.reverse_append, dropBlanks_append fun d hd => hafter d (List.mem_reverse.mp hd),
        dropBlanks, dropWhile_of_head? (by rw [List.head?_reverse]; exact hbody.2)]
    rw [trim, hfront, hkept, hback, List.reverse_reverse]

/-- **A text is left by trimming** when it is inside of blank characters and has none at its own
ends. -/
theorem trim_eq_iff :
    trim cs = body ↔ HasInkedEnds body ∧
      ∃ before after, AllBlank before ∧ AllBlank after ∧ cs = before ++ body ++ after := by
  constructor
  · rintro rfl
    obtain ⟨before, hbefore, hcs, hhead⟩ := exists_dropBlanks cs
    obtain ⟨after, hafter, hrest, hlast⟩ := exists_dropBlanks (dropBlanks cs).reverse
    have hdivided : dropBlanks cs = trim cs ++ after.reverse := by
      have hreversed := congrArg List.reverse hrest
      rwa [List.reverse_reverse, List.reverse_append] at hreversed
    refine ⟨⟨fun c hc => hhead c ?_, fun c hc => hlast c ?_⟩, before, after.reverse, hbefore,
      fun c hc => hafter c (List.mem_reverse.mp hc), ?_⟩
    · rw [hdivided, List.head?_append, Option.mem_def.mp hc]
      rfl
    · rwa [trim, List.getLast?_reverse] at hc
    · rw [List.append_assoc, ← hdivided]
      exact hcs
  · rintro ⟨hbody, before, after, hbefore, hafter, rfl⟩
    exact trim_append hbefore hafter hbody

end PlaylistRules.Text
