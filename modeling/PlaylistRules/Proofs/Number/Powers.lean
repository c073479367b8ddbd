import Mathlib.Algebra.Order.Field.Power
import Mathlib.Tactic.FieldSimp
import Mathlib.Tactic.Positivity
import Mathlib.Tactic.Ring

/-!
# Quotients between powers

The power of a base at the first digit of a quotient is found from the digits of its two parts: it
is the difference of theirs or one less, and a comparison of products tells which.

## Main results

* `pow_toNat_div` : powers that are divided between the parts of a quotient.
* `mul_pow_toNat_le_iff` : a quotient compared with a power by products.
* `div_between_zpow` : a quotient of numbers with known powers.
* `zpow_guess` : the power of a quotient that is known up to one.
-/

namespace PlaylistRules

variable {b q : ℚ} {m n guess : Int}

/-- Powers with a positive or a negative exponent, as they are divided between the two parts of a
quotient. -/
theorem pow_toNat_div (hb : b ≠ 0) (i : Int) : b ^ i.toNat / b ^ (-i).toNat = b ^ i := by
  rw [← zpow_natCast, ← zpow_natCast, ← zpow_sub₀ hb]
  congr 1
  omega

/-- A quotient is compared with a power by products of natural numbers. -/
theorem mul_pow_toNat_le_iff {base den : Nat} (hbase : 0 < base) (num : Nat) (hden : 0 < den)
    (i : Int) :
    den * base ^ i.toNat ≤ num * base ^ (-i).toNat ↔ (base : ℚ) ^ i ≤ num / den := by
  have hb : (0 : ℚ) < base := by exact_mod_cast hbase
  have hd : (0 : ℚ) < den := by exact_mod_cast hden
  rw [← pow_toNat_div hb.ne' i, le_div_iff₀ hd, div_mul_eq_mul_div, div_le_iff₀ (by positivity),
    mul_comm ((base : ℚ) ^ i.toNat)]
  exact_mod_cast Iff.rfl

/-- The power of a quotient is the difference of the powers of its parts or one less. -/
theorem div_between_zpow {num den : ℚ} (hb : 0 < b) (hnum : b ^ m ≤ num ∧ num < b ^ (m + 1))
    (hden : b ^ n ≤ den ∧ den < b ^ (n + 1)) :
    b ^ (m - n - 1) ≤ num / den ∧ num / den < b ^ (m - n + 1) := by
  have hpos : 0 < den := (zpow_pos hb n).trans_le hden.1
  constructor
  · rw [le_div_iff₀ hpos]
    calc b ^ (m - n - 1) * den ≤ b ^ (m - n - 1) * b ^ (n + 1) := by gcongr; exact hden.2.le
      _ = b ^ m := by rw [← zpow_add₀ hb.ne']; congr 1; ring
      _ ≤ num := hnum.1
  · rw [div_lt_iff₀ hpos]
    calc num < b ^ (m + 1) := hnum.2
      _ = b ^ (m - n + 1) * b ^ n := by rw [← zpow_add₀ hb.ne']; congr 1; ring
      _ ≤ b ^ (m - n + 1) * den := by gcongr; exact hden.1

/-- **A power that is known up to one is found by one comparison.** -/
theorem zpow_guess [Decidable (b ^ guess ≤ q)] (h : b ^ (guess - 1) ≤ q ∧ q < b ^ (guess + 1)) :
    b ^ (if b ^ guess ≤ q then guess else guess - 1) ≤ q ∧
      q < b ^ ((if b ^ guess ≤ q then guess else guess - 1) + 1) := by
  split
  · next hle => exact ⟨hle, h.2⟩
  · next hlt =>
    rw [Int.sub_add_cancel]
    exact ⟨h.1, not_le.mp hlt⟩

end PlaylistRules
