import PlaylistRules.Number.Integer
import PlaylistRules.Proofs.Json.Grammar
import PlaylistRules.Proofs.Text.Trim

/-!
# Reading integers

An integer is read from a text exactly when the text consists of ASCII digits after an optional
sign. Within sixty-four bits the word with its value is read.

## Main definitions

* `Number.SpellsInteger` : the texts of an integer.

## Main results

* `Number.readSigned?_eq_some_iff`, `Number.readInt64?_eq_some_iff` : the integers that are read.
-/

namespace PlaylistRules.Number

open Json (IsDigits)

variable {cs ds : List Char} {i : Int} {n : Nat} {w : Int64}

/-- Digits with or without a sign in front of them stand for an integer. -/
inductive SpellsInteger : List Char → Int → Prop
  | plain {ds : List Char} : IsDigits ds → SpellsInteger ds (digitsFrom 0 ds)
  | plus {ds : List Char} : IsDigits ds → SpellsInteger ('+' :: ds) (digitsFrom 0 ds)
  | minus {ds : List Char} : IsDigits ds → SpellsInteger ('-' :: ds) (-(digitsFrom 0 ds : Int))

/-- A character of an integer is a digit or a sign. -/
theorem SpellsInteger.isDigit_or_isSign (h : SpellsInteger cs i) :
    ∀ c ∈ cs, c.isDigit = true ∨ c = '+' ∨ c = '-' := by
  cases h with
  | plain hdigits => exact fun c hc => .inl (hdigits.2 c hc)
  | plus hdigits =>
    exact List.forall_mem_cons.mpr ⟨.inr (.inl rfl), fun c hc => .inl (hdigits.2 c hc)⟩
  | minus hdigits =>
    exact List.forall_mem_cons.mpr ⟨.inr (.inr rfl), fun c hc => .inl (hdigits.2 c hc)⟩

theorem SpellsInteger.ne_nil (h : SpellsInteger cs i) : cs ≠ [] := by
  cases h with
  | plain hdigits => exact hdigits.1
  | plus => exact List.cons_ne_nil _ _
  | minus => exact List.cons_ne_nil _ _

theorem readDigits?_eq_some_iff : readDigits? ds = some n ↔ IsDigits ds ∧ digitsFrom 0 ds = n := by
  unfold readDigits?
  split
  · next hempty => exact ⟨nofun, fun h => absurd (List.isEmpty_iff.mp hempty) h.1.1⟩
  · next hempty =>
    have hne : ds ≠ [] := mt List.isEmpty_iff.mpr hempty
    split
    · next hall =>
      rw [Option.some.injEq]
      exact ⟨fun h => ⟨⟨hne, List.all_eq_true.mp hall⟩, h⟩, And.right⟩
    · next hall => exact ⟨nofun, fun h => absurd (List.all_eq_true.mpr h.1.2) hall⟩

/-- Digits do not start with a sign. -/
theorem not_isDigits_cons {c : Char} (hc : c.isDigit = false) : ¬IsDigits (c :: cs) := fun h =>
  absurd (h.2 c List.mem_cons_self) (by rw [hc]; exact Bool.false_ne_true)

theorem readSigned?_minus :
    readSigned? ('-' :: ds) = (readDigits? ds).map fun n : Nat => -(n : Int) := by
  rw [readSigned?]
  cases readDigits? ds <;> rfl

/-- **The integers that are read** are those that a text spells. -/
theorem readSigned?_eq_some_iff : readSigned? cs = some i ↔ SpellsInteger cs i := by
  constructor
  · intro h
    unfold readSigned? at h
    split at h
    · obtain ⟨n, hn, rfl⟩ := Option.map_eq_some_iff.mp h
      obtain ⟨hdigits, rfl⟩ := readDigits?_eq_some_iff.mp hn
      exact .plus hdigits
    · obtain ⟨n, hn, rfl⟩ := Option.map_eq_some_iff.mp (readSigned?_minus.symm.trans h)
      obtain ⟨hdigits, rfl⟩ := readDigits?_eq_some_iff.mp hn
      exact .minus hdigits
    · obtain ⟨n, hn, rfl⟩ := Option.map_eq_some_iff.mp h
      obtain ⟨hdigits, rfl⟩ := readDigits?_eq_some_iff.mp hn
      exact .plain hdigits
  · intro h
    cases h with
    | plain hdigits =>
      unfold readSigned?
      split
      · exact absurd hdigits (not_isDigits_cons rfl)
      · exact absurd hdigits (not_isDigits_cons rfl)
      · rw [readDigits?_eq_some_iff.mpr ⟨hdigits, rfl⟩]
        rfl
    | plus hdigits => rw [readSigned?, readDigits?_eq_some_iff.mpr ⟨hdigits, rfl⟩]; rfl
    | minus hdigits => rw [readSigned?_minus, readDigits?_eq_some_iff.mpr ⟨hdigits, rfl⟩]; rfl

theorem toInt64?_eq_some_iff : toInt64? i = some w ↔ w.toInt = i :=
  ⟨toInt_of_toInt64?, fun h => h ▸ toInt64?_toInt w⟩

/-- The values of words of sixty-four bits. -/
theorem exists_toInt_eq_iff : (∃ w : Int64, w.toInt = i) ↔ minInt64 ≤ i ∧ i ≤ maxInt64 := by
  simp only [← toInt64?_eq_some_iff, toInt64?]
  split
  · next h => exact iff_of_true ⟨_, rfl⟩ h
  · next h => exact iff_of_false (by simp) h

/-- **The words that are read** are those whose value a text spells. -/
theorem readInt64?_eq_some_iff : readInt64? cs = some w ↔ SpellsInteger cs w.toInt := by
  simp only [readInt64?, Option.bind_eq_some_iff, readSigned?_eq_some_iff, toInt64?_eq_some_iff]
  exact ⟨fun ⟨_, h, hw⟩ => hw ▸ h, fun h => ⟨_, h, rfl⟩⟩

/-! ### Blank characters -/

/-- The ASCII digits. -/
theorem isDigit_iff {c : Char} : c.isDigit = true ↔ 48 ≤ c.toNat ∧ c.toNat ≤ 57 := by
  simp only [Char.isDigit, Bool.and_eq_true, decide_eq_true_eq, UInt32.le_iff_toNat_le]
  rfl

theorem isBlank_of_isDigit {c : Char} (h : c.isDigit = true) : Text.isBlank c = false := by
  rw [isDigit_iff] at h
  simp only [Text.isBlank, Bool.or_eq_false_iff, Bool.and_eq_false_iff, decide_eq_false_iff_not,
    beq_eq_false_iff_ne]
  omega

/-- The text of an integer has no blank characters at its ends. -/
theorem SpellsInteger.hasInkedEnds (h : SpellsInteger cs i) : Text.HasInkedEnds cs := by
  have hdigits : ∀ {ds}, IsDigits ds → Text.HasInkedEnds ds := fun hds =>
    ⟨fun c hc => isBlank_of_isDigit (hds.2 c (List.mem_of_head? hc)),
      fun c hc => isBlank_of_isDigit (hds.2 c (List.mem_of_getLast? hc))⟩
  have hsigned : ∀ {c ds}, Text.isBlank c = false → IsDigits ds → Text.HasInkedEnds (c :: ds) :=
    fun hc hds => ⟨fun d hd => Option.some.inj hd ▸ hc, fun d hd => by
      rw [List.getLast?_cons_of_ne_nil hds.1] at hd
      exact (hdigits hds).2 d hd⟩
  cases h with
  | plain hds => exact hdigits hds
  | plus hds => exact hsigned (by decide) hds
  | minus hds => exact hsigned (by decide) hds

end PlaylistRules.Number
