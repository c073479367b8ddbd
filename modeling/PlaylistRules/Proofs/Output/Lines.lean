import Mathlib.Data.List.Infix
import PlaylistRules.Output.Table
import PlaylistRules.Text.Quoted

/-!
# Comments on the lines of a text

A line that begins with two hyphens is a comment. The lines of a text after its first one are
comments when two hyphens follow each line feed. Quoting a text does not change this, and a text
after another one does so only if it goes on with a hyphen.

## Main definitions

* `Output.IsComment` : the lines that are comments.
* `Output.IsCommented` : two hyphens follow each line feed of a text.

## Main results

* `Output.forall_isComment_tail_lines_iff` : texts whose lines after the first one are comments.
* `Output.isCommented_append_iff`, `Output.isCommented_intercalate_append_iff` : parts of texts.
* `Output.isCommented_quoted_iff` : quoted texts.
-/

namespace PlaylistRules.Output

open Text (doubled quoted)

/-- A line is a comment when it begins with two hyphens. -/
def IsComment (line : List Char) : Prop :=
  ['-', '-'] <+: line

instance (line : List Char) : Decidable (IsComment line) :=
  inferInstanceAs (Decidable (_ <+: _))

/-- Two hyphens follow each line feed of a text. -/
def IsCommented : List Char → Prop
  | [] => True
  | c :: cs => (c = '\n' → IsComment cs) ∧ IsCommented cs

variable {cs cs' start line : List Char} {others : List (List Char)} {c mark : Char}

/-! ### Lines -/

theorem lines_feed_cons (cs : List Char) : lines ('\n' :: cs) = [] :: lines cs :=
  if_pos rfl

theorem lines_cons_of_ne (hc : c ≠ '\n') (h : lines cs = line :: others) :
    lines (c :: cs) = (c :: line) :: others := by
  rw [lines, if_neg hc, h]

theorem exists_lines (cs : List Char) : ∃ line others, lines cs = line :: others := by
  induction cs with
  | nil => exact ⟨[], [], rfl⟩
  | cons c cs ih =>
    obtain ⟨line, others, hcs⟩ := ih
    by_cases hc : c = '\n'
    · exact ⟨[], lines cs, hc ▸ lines_feed_cons cs⟩
    · exact ⟨c :: line, others, lines_cons_of_ne hc hcs⟩

/-- A text up to its first line feed is its first line. -/
theorem lines_append_cons (h : '\n' ∉ cs) : lines (cs ++ '\n' :: cs') = cs :: lines cs' := by
  induction cs with
  | nil => exact lines_feed_cons cs'
  | cons c cs ih =>
    rw [List.mem_cons, not_or] at h
    exact lines_cons_of_ne (Ne.symm h.1) (ih h.2)

/-! ### Texts of one line -/

theorem notMem_doubled (hmark : c ≠ mark) (h : c ∉ cs) : c ∉ doubled mark cs := by
  induction cs with
  | nil => exact h
  | cons d cs ih =>
    rw [List.mem_cons, not_or] at h
    rw [doubled]
    split
    · simp only [List.mem_cons, not_or]
      exact ⟨hmark, hmark, ih h.2⟩
    · exact List.not_mem_cons_of_ne_of_not_mem h.1 (ih h.2)

theorem notMem_quoted (hmark : c ≠ mark) (h : c ∉ cs) : c ∉ quoted mark cs := by
  simp only [quoted, List.mem_cons, List.mem_append, List.not_mem_nil, or_false, not_or]
  exact ⟨hmark, notMem_doubled hmark h, hmark⟩

theorem notMem_intercalate {separator : List Char} {texts : List (List Char)}
    (hseparator : c ∉ separator) (h : ∀ text ∈ texts, c ∉ text) :
    c ∉ separator.intercalate texts := by
  induction texts with
  | nil => exact List.not_mem_nil
  | cons text texts ih =>
    rw [List.forall_mem_cons] at h
    cases texts with
    | nil => rw [List.intercalate_singleton]; exact h.1
    | cons other texts =>
      simp only [List.intercalate_cons_cons, List.mem_append, not_or]
      exact ⟨⟨h.1, hseparator⟩, ih h.2⟩

/-! ### Beginnings of texts -/

/-- A text begins like its first line. -/
theorem isPrefix_iff_of_lines (hstart : '\n' ∉ start) (h : lines cs = line :: others) :
    start <+: line ↔ start <+: cs := by
  induction start generalizing cs line others with
  | nil => simp only [List.nil_prefix]
  | cons s start ih =>
    rw [List.mem_cons, not_or] at hstart
    cases cs with
    | nil =>
      obtain ⟨rfl, -⟩ := List.cons.inj h
      exact Iff.rfl
    | cons c cs =>
      by_cases hc : c = '\n'
      · subst hc
        rw [lines_feed_cons] at h
        obtain ⟨rfl, -⟩ := List.cons.inj h
        rw [List.cons_prefix_cons, List.prefix_nil]
        exact ⟨nofun, fun hprefix => absurd hprefix.1.symm hstart.1⟩
      · obtain ⟨first, rest, hcs⟩ := exists_lines cs
        rw [lines_cons_of_ne hc hcs] at h
        obtain ⟨rfl, -⟩ := List.cons.inj h
        rw [List.cons_prefix_cons, List.cons_prefix_cons, ih hstart.2 hcs]

/-- A text begins like one that it continues, unless it continues the beginning. -/
theorem isPrefix_append_iff (h : ∀ c ∈ start, cs'.head? ≠ some c) :
    start <+: cs ++ cs' ↔ start <+: cs := by
  induction start generalizing cs with
  | nil => simp only [List.nil_prefix]
  | cons s start ih =>
    rw [List.forall_mem_cons] at h
    cases cs with
    | nil =>
      refine ⟨fun hprefix => ?_, nofun⟩
      obtain ⟨rest, rfl⟩ := hprefix
      exact absurd rfl h.1
    | cons c cs => rw [List.cons_append, List.cons_prefix_cons, List.cons_prefix_cons, ih h.2]

/-- A text begins like the one with every mark written twice, up to the first mark. -/
theorem isPrefix_doubled_iff (h : mark ∉ start) : start <+: doubled mark cs ↔ start <+: cs := by
  induction start generalizing cs with
  | nil => simp only [List.nil_prefix]
  | cons s start ih =>
    rw [List.mem_cons, not_or] at h
    cases cs with
    | nil => exact Iff.rfl
    | cons c cs =>
      rw [doubled]
      split
      · next hc =>
        have hs : s ≠ c := fun hs => h.1 (hs ▸ hc.symm)
        rw [List.cons_prefix_cons, List.cons_prefix_cons, ← hc]
        simp only [hs, false_and]
      · rw [List.cons_prefix_cons, List.cons_prefix_cons, ih h.2]

/-! ### Comments after the first line -/

/-- **The lines after the first one are comments** when two hyphens follow each line feed. -/
theorem forall_isComment_tail_lines_iff :
    (∀ line ∈ (lines cs).tail, IsComment line) ↔ IsCommented cs := by
  induction cs with
  | nil => simp [lines, IsCommented]
  | cons c cs ih =>
    obtain ⟨line, others, hcs⟩ := exists_lines cs
    rw [hcs, List.tail_cons] at ih
    rw [IsCommented, ← ih]
    by_cases hc : c = '\n'
    · have hline : IsComment line ↔ IsComment cs := isPrefix_iff_of_lines (by decide) hcs
      rw [hc, lines_feed_cons, hcs, List.tail_cons, List.forall_mem_cons, hline]
      simp only [forall_const]
    · rw [lines_cons_of_ne hc hcs, List.tail_cons]
      exact (and_iff_right fun h => absurd h hc).symm

/-! ### Parts of texts -/

theorem isCommented_append_of_notMem (h : '\n' ∉ cs) :
    IsCommented (cs ++ cs') ↔ IsCommented cs' := by
  induction cs with
  | nil => rfl
  | cons c cs ih =>
    rw [List.mem_cons, not_or] at h
    rw [List.cons_append, IsCommented, ih h.2]
    exact and_iff_right fun hc => absurd hc.symm h.1

theorem isCommented_of_notMem (h : '\n' ∉ cs) : IsCommented cs := by
  rw [← List.append_nil cs, isCommented_append_of_notMem h]
  trivial

/-- A text after another one that does not go on with a hyphen. -/
theorem isCommented_append_iff (h : cs'.head? ≠ some '-') :
    IsCommented (cs ++ cs') ↔ IsCommented cs ∧ IsCommented cs' := by
  have hstart : ∀ c ∈ ['-', '-'], cs'.head? ≠ some c := by simp [h]
  induction cs with
  | nil => simp only [List.nil_append, IsCommented, true_and]
  | cons c cs ih =>
    have hcomment : IsComment (cs ++ cs') ↔ IsComment cs := isPrefix_append_iff hstart
    simp only [List.cons_append, IsCommented, ih, hcomment, and_assoc]

/-- Texts with commas between them, before a text that does not go on with a hyphen. -/
theorem isCommented_intercalate_append_iff {texts : List (List Char)} (h : cs.head? ≠ some '-') :
    IsCommented ([',', ' '].intercalate texts ++ cs) ↔
      (∀ text ∈ texts, IsCommented text) ∧ IsCommented cs := by
  induction texts with
  | nil => simp
  | cons text texts ih =>
    rw [List.forall_mem_cons, and_assoc]
    cases texts with
    | nil =>
      rw [List.intercalate_singleton, isCommented_append_iff h]
      simp
    | cons other texts =>
      have hcomma : '\n' ∉ [',', ' '] := by decide
      rw [List.intercalate_cons_cons, List.append_assoc, List.append_assoc,
        isCommented_append_iff (by simp), isCommented_append_of_notMem hcomma, ih]

/-! ### Quoted texts -/

theorem isCommented_doubled_iff (hfeed : mark ≠ '\n') (hhyphen : mark ≠ '-') :
    IsCommented (doubled mark cs) ↔ IsCommented cs := by
  induction cs with
  | nil => rfl
  | cons c cs ih =>
    rw [doubled, IsCommented]
    split
    · next hc =>
      rw [IsCommented, IsCommented, ih, hc]
      simp only [hfeed, false_imp_iff, true_and]
    · have hcomment : IsComment (doubled mark cs) ↔ IsComment cs :=
        isPrefix_doubled_iff (by simpa using hhyphen)
      rw [IsCommented, ih, hcomment]

/-- **Quoting a text keeps its comments**, and makes no others. -/
theorem isCommented_quoted_iff (hfeed : mark ≠ '\n') (hhyphen : mark ≠ '-') :
    IsCommented (quoted mark cs) ↔ IsCommented cs := by
  have hend : IsCommented [mark] := isCommented_of_notMem (by simpa using hfeed.symm)
  rw [quoted, IsCommented, isCommented_append_iff (by simpa using hhyphen),
    isCommented_doubled_iff hfeed hhyphen]
  simp only [hfeed, false_imp_iff, true_and, hend, and_true]

end PlaylistRules.Output
