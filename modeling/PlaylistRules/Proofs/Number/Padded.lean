import Mathlib.Algebra.Ring.Nat
import Mathlib.Data.List.TakeWhile
import PlaylistRules.Proofs.Json.Printing
import PlaylistRules.Proofs.Number.Integers

/-!
# Fields of digits

Numbers that are written with the same count of digits, zeros in front, are in the order of their
texts: the first digit that differs decides.

## Main results

* `Number.append_lt_append_iff` : texts that begin with fields of the same length.
* `Number.digitsFrom_lt_iff` : the order of texts of digits of the same length.
* `Number.padded_lt_padded_iff`, `Number.padded_append_lt_iff` : the order of padded numbers.
-/

namespace PlaylistRules.Number

open Json (IsDigits isDigits_digits digitsFrom_digits)

variable {cs ds cs' ds' : List Char} {k m n : Nat}

/-! ### Texts of the same length -/

/-- The first of two fields of the same length decides, and the rest does if they are equal. -/
theorem append_lt_append_iff (h : cs.length = ds.length) :
    cs ++ cs' < ds ++ ds' ↔ cs < ds ∨ cs = ds ∧ cs' < ds' := by
  induction cs generalizing ds with
  | nil =>
    obtain rfl := List.length_eq_zero_iff.mp h.symm
    simp
  | cons c cs ih =>
    obtain ⟨d, ds, rfl⟩ := List.exists_cons_of_length_eq_add_one h.symm
    simp only [List.cons_append, List.cons_lt_cons_iff, ih (Nat.succ.inj h), List.cons.injEq]
    tauto

theorem digitValue_lt_ten {c : Char} (h : c.isDigit = true) : digitValue c < 10 := by
  rw [isDigit_iff] at h
  show c.toNat - 48 < 10
  omega

/-- Digits are in the order of their values. -/
theorem digit_order {c d : Char} (hc : c.isDigit = true) (hd : d.isDigit = true) :
    (c < d ↔ digitValue c < digitValue d) ∧ (c = d ↔ digitValue c = digitValue d) := by
  rw [isDigit_iff] at hc hd
  rw [Char.lt_def, UInt32.lt_iff_toNat_lt, ← Char.toNat_inj]
  show (c.toNat < d.toNat ↔ c.toNat - 48 < d.toNat - 48) ∧
    (c.toNat = d.toNat ↔ c.toNat - 48 = d.toNat - 48)
  omega

/-- **Texts of digits of the same length are in the order of their numbers.** -/
theorem digitsFrom_lt_iff (h : cs.length = ds.length) (hcs : ∀ c ∈ cs, c.isDigit = true)
    (hds : ∀ d ∈ ds, d.isDigit = true) :
    digitsFrom m cs < digitsFrom n ds ↔ m < n ∨ m = n ∧ cs < ds := by
  induction cs generalizing ds m n with
  | nil =>
    obtain rfl := List.length_eq_zero_iff.mp h.symm
    simp [digitsFrom]
  | cons c cs ih =>
    obtain ⟨d, ds, rfl⟩ := List.exists_cons_of_length_eq_add_one h.symm
    rw [List.forall_mem_cons] at hcs hds
    have hc := digitValue_lt_ten hcs.1
    have hd := digitValue_lt_ten hds.1
    obtain ⟨hlt, heq⟩ := digit_order hcs.1 hds.1
    show digitsFrom (10 * m + digitValue c) cs < digitsFrom (10 * n + digitValue d) ds ↔ _
    rw [ih (Nat.succ.inj h) hcs.2 hds.2, List.cons_lt_cons_iff, hlt, heq]
    by_cases hrest : cs < ds
    · simp only [hrest, and_true]
      omega
    · simp only [hrest, and_false, or_false]
      omega

/-! ### Padded numbers -/

theorem isDigit_of_mem_padded {c : Char} (h : c ∈ padded k n) : c.isDigit = true := by
  rcases List.mem_append.mp h with hzero | hdigit
  · exact (List.mem_replicate.mp hzero).2 ▸ rfl
  · exact (isDigits_digits n).2 c hdigit

theorem isDigits_padded (k n : Nat) : IsDigits (padded k n) :=
  ⟨List.append_ne_nil_of_right_ne_nil _ (isDigits_digits n).1, fun _ => isDigit_of_mem_padded⟩

/-- There are only digits in a padded number. -/
theorem notMem_padded {c : Char} (hc : c.isDigit = false) (k n : Nat) : c ∉ padded k n := fun h =>
  Bool.false_ne_true (hc.symm.trans (isDigit_of_mem_padded h))

/-- A number that has room is written with exactly so many digits. -/
theorem length_padded (hk : 0 < k) (h : n < 10 ^ k) : (padded k n).length = k := by
  have hlength : (digits n).length ≤ k := (Nat.length_toDigits_le_iff (by decide) hk).mpr h
  rw [padded, List.length_append, List.length_replicate, Nat.sub_add_cancel hlength]

theorem digitsFrom_padded (k n : Nat) : digitsFrom 0 (padded k n) = n := by
  have hzeros : ∀ count, digitsFrom 0 (List.replicate count '0') = 0 := fun count => by
    induction count with
    | zero => rfl
    | succ count ih => exact ih
  have happend : digitsFrom 0 (padded k n) =
      digitsFrom (digitsFrom 0 (List.replicate (k - (digits n).length) '0')) (digits n) :=
    List.foldl_append
  rw [happend, hzeros, digitsFrom_digits]

theorem padded_inj : padded k m = padded k n ↔ m = n := by
  refine ⟨fun h => ?_, congrArg _⟩
  rw [← digitsFrom_padded k m, h, digitsFrom_padded]

/-- **Padded numbers are in the order of their texts.** -/
theorem padded_lt_padded_iff (hk : 0 < k) (hm : m < 10 ^ k) (hn : n < 10 ^ k) :
    padded k m < padded k n ↔ m < n := by
  have horder := digitsFrom_lt_iff (m := 0) (n := 0)
    ((length_padded hk hm).trans (length_padded hk hn).symm)
    (fun _ => isDigit_of_mem_padded) (fun _ => isDigit_of_mem_padded)
  rw [digitsFrom_padded, digitsFrom_padded] at horder
  simpa using horder.symm

/-- Of two texts that begin with padded numbers, the smaller number comes first. -/
theorem padded_append_lt_iff (hk : 0 < k) (hm : m < 10 ^ k) (hn : n < 10 ^ k) :
    padded k m ++ cs < padded k n ++ ds ↔ m < n ∨ m = n ∧ cs < ds := by
  have hlength := (length_padded hk hm).trans (length_padded hk hn).symm
  rw [append_lt_append_iff hlength, padded_lt_padded_iff hk hm hn, padded_inj]

end PlaylistRules.Number
