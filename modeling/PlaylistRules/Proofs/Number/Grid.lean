import Mathlib.Order.Monotone.Basic
import Mathlib.Tactic.Linarith
import PlaylistRules.Proofs.Number.Magnitude
import PlaylistRules.Proofs.Number.Powers

/-!
# The grid of binary numbers

The finite numbers of the format `binary64` of one sign, in their order, are the magnitudes below
that of infinity. Every value is a whole multiple of the smallest positive number, and the distance
of neighbours is at most doubled from one to the next. The points half way between neighbours bound
the values that are rounded to a number.

## Main definitions

* `Binary64.units` : the value of a magnitude, as a multiple of the smallest positive number.
* `Binary64.halfway` : the point half way to the magnitude below.
* `Binary64.value` : the absolute value of a finite number.

## Main results

* `Binary64.units_place` : the value of a significand at a place.
* `Binary64.halfway_gap` : the distance of points half way, relative to their size.
* `Binary64.value_eq` : the value of a number by its magnitude.
-/

namespace PlaylistRules

namespace Binary64

variable {k s μ j : Nat}

/-- The number of binary places by which the last digit of a magnitude stands above the smallest
positive number. -/
def scale (μ : Nat) : Nat :=
  μ / 0x10000000000000 - 1

/-- The value of a magnitude, as a multiple of the smallest positive number. The magnitude of
infinity has the value that would follow the largest finite one. -/
def units (μ : Nat) : Nat :=
  (μ - scale μ * 0x10000000000000) * 2 ^ scale μ

/-- The point half way between a magnitude and the one below, as a multiple of half of the smallest
positive number. There is none below zero, which is taken as its own point. -/
def halfway : Nat → Nat
  | 0 => 0
  | μ + 1 => units μ + units (μ + 1)

/-! ### Significands and places -/

/-- **The value of a significand at a place.** The significand has fifty-three binary digits, fewer
only at the lowest place, and may be the one that follows. -/
theorem units_place (hs : s ≤ 0x20000000000000) (hk : 0x10000000000000 ≤ s ∨ k = 0) :
    units (k * 0x10000000000000 + s) = s * 2 ^ k := by
  obtain hlt | rfl := Nat.lt_or_eq_of_le hs
  · have hscale : scale (k * 0x10000000000000 + s) = k := by
      unfold scale
      omega
    rw [units, hscale, Nat.add_sub_cancel_left]
  · -- The digits are full, so that the magnitude stands one place above with the smallest of them.
    have hscale : scale (k * 0x10000000000000 + 0x20000000000000) = k + 1 := by
      unfold scale
      omega
    have hrest : k * 0x10000000000000 + 0x20000000000000 - (k + 1) * 0x10000000000000 =
        0x10000000000000 := by omega
    rw [units, hscale, hrest, Nat.pow_succ]
    ring

theorem units_place_succ (hs : s < 0x20000000000000) (hk : 0x10000000000000 ≤ s ∨ k = 0) :
    units (k * 0x10000000000000 + s + 1) = (s + 1) * 2 ^ k := by
  rw [Nat.add_assoc]
  exact units_place (Nat.succ_le_of_lt hs) (hk.imp_left Nat.le_succ_of_le)

/-- Every magnitude is a significand at a place. -/
theorem exists_place (μ : Nat) : ∃ k s, μ = k * 0x10000000000000 + s ∧ s < 0x20000000000000 ∧
    (0x10000000000000 ≤ s ∨ k = 0) := by
  refine ⟨scale μ, μ - scale μ * 0x10000000000000, ?_, ?_, ?_⟩ <;> unfold scale <;> omega

/-- Below fifty-three binary digits a magnitude is its own value. -/
theorem units_eq_self (h : μ ≤ 0x20000000000000) : units μ = μ := by
  have hplace := units_place (k := 0) h (.inr rfl)
  rwa [Nat.zero_mul, Nat.zero_add, Nat.pow_zero, Nat.mul_one] at hplace

/-- A multiple of a power of two is a value, if its digits fit and the power is high enough to fill
them. -/
theorem exists_units_eq {m t : Nat} (hm : m ≤ 0x20000000000000) (ht : 52 ≤ t) :
    ∃ μ, units μ = m * 2 ^ t := by
  by_cases hzero : m = 0
  · exact ⟨0, by rw [hzero, Nat.zero_mul]; rfl⟩
  by_cases hfull : m = 0x20000000000000
  · exact ⟨_, hfull ▸ units_place (k := t) (Nat.le_refl _) (.inl (by omega))⟩
  -- The digits are filled with zeros, as many as are missing.
  have hlog : m.log2 < 53 := (Nat.log2_lt hzero).mpr (by omega)
  have hlow : 2 ^ m.log2 ≤ m := Nat.log2_self_le hzero
  have hhigh : m < 2 ^ (m.log2 + 1) := Nat.lt_log2_self
  have hfill : 2 ^ m.log2 * 2 ^ (52 - m.log2) = 0x10000000000000 := by
    rw [← Nat.pow_add, Nat.add_sub_cancel' (by omega)]
  have hfill' : 2 ^ (m.log2 + 1) * 2 ^ (52 - m.log2) = 0x20000000000000 := by
    rw [Nat.pow_succ, Nat.mul_right_comm, hfill]
  refine ⟨_, (units_place (k := t - (52 - m.log2)) (s := m * 2 ^ (52 - m.log2)) ?_ (.inl ?_)).trans
    ?_⟩
  · exact hfill' ▸ Nat.mul_le_mul_right _ hhigh.le
  · exact hfill ▸ Nat.mul_le_mul_right _ hlow
  · rw [Nat.mul_assoc, ← Nat.pow_add, Nat.add_sub_cancel' (by omega)]

/-! ### Distances -/

theorem units_lt_succ (μ : Nat) : units μ < units (μ + 1) := by
  obtain ⟨k, s, rfl, hs, hk⟩ := exists_place μ
  rw [units_place hs.le hk, units_place_succ hs hk]
  exact Nat.mul_lt_mul_of_pos_right (Nat.lt_succ_self s) (Nat.two_pow_pos k)

theorem units_strictMono : StrictMono units :=
  strictMono_nat_of_lt_succ units_lt_succ

/-- A value is at most `2 ^ 53` times as large as its distance to the value below. -/
theorem units_succ_le (μ : Nat) :
    units (μ + 1) ≤ 0x20000000000000 * (units (μ + 1) - units μ) := by
  obtain ⟨k, s, rfl, hs, hk⟩ := exists_place μ
  rw [units_place hs.le hk, units_place_succ hs hk, ← Nat.sub_mul, Nat.add_sub_cancel_left,
    Nat.one_mul]
  exact Nat.mul_le_mul_right _ hs

/-- A value with more than `j` binary digits is at least `2 ^ j` times as large as its distance to
the next value. -/
theorem spacing_le (hj : j ≤ 52) (h : 2 ^ j ≤ μ) :
    2 ^ j * (units (μ + 1) - units μ) ≤ units μ := by
  obtain ⟨k, s, rfl, hs, hk⟩ := exists_place μ
  have hdigits : 2 ^ j ≤ s := by
    obtain hs | rfl := hk
    · exact (Nat.pow_le_pow_right Nat.two_pos hj).trans hs
    · rwa [Nat.zero_mul, Nat.zero_add] at h
  rw [units_place hs.le hk, units_place_succ hs hk, ← Nat.sub_mul, Nat.add_sub_cancel_left,
    Nat.one_mul]
  exact Nat.mul_le_mul_right _ hdigits

theorem halfway_lt_succ (μ : Nat) : halfway μ < halfway (μ + 1) := by
  cases μ with
  | zero => decide
  | succ μ =>
    have h := units_lt_succ μ
    have h' := units_lt_succ (μ + 1)
    simp only [halfway]
    omega

theorem halfway_strictMono : StrictMono halfway :=
  strictMono_nat_of_lt_succ halfway_lt_succ

/-- A value lies between the points half way to its neighbours. -/
theorem halfway_le_units (μ : Nat) : halfway μ ≤ 2 * units μ ∧ 2 * units μ < halfway (μ + 1) := by
  have hnext := units_lt_succ μ
  refine ⟨?_, by simp only [halfway]; omega⟩
  cases μ with
  | zero => exact Nat.zero_le _
  | succ μ =>
    have h := units_lt_succ μ
    simp only [halfway]
    omega

theorem halfway_lt_units (h : 0 < μ) : halfway μ < 2 * units μ := by
  cases μ with
  | zero => exact absurd h (Nat.lt_irrefl 0)
  | succ μ =>
    have hlt := units_lt_succ μ
    simp only [halfway]
    omega

/-- The point half way between the significands at a place. -/
theorem halfway_place (hs : s < 0x20000000000000) (hk : 0x10000000000000 ≤ s ∨ k = 0) :
    halfway (k * 0x10000000000000 + s + 1) = (2 * s + 1) * 2 ^ k := by
  rw [halfway, units_place hs.le hk, units_place_succ hs hk]
  ring

/-- **Points half way keep their distance.** A point is at most `2 ^ 53` times as large as its
distance to the point below, and at most `2 ^ p` times below a magnitude of `p` binary digits. -/
theorem halfway_gap {p : Nat} (h : p = 53 ∨ p ≤ 53 ∧ μ < 2 ^ p) :
    halfway (μ + 1) ≤ 2 ^ p * (halfway (μ + 1) - halfway μ) := by
  cases μ with
  | zero =>
    have hone : halfway (0 + 1) - halfway 0 = 1 := by decide
    rw [hone]
    exact Nat.mul_pos (Nat.two_pow_pos p) Nat.one_pos
  | succ μ =>
    obtain rfl | ⟨hp, hμ⟩ := h
    · have h := units_succ_le μ
      have h' := units_succ_le (μ + 1)
      have hlt := units_lt_succ μ
      have hlt' := units_lt_succ (μ + 1)
      simp only [halfway]
      omega
    · have hdigits : 2 ^ p ≤ 2 ^ 53 := Nat.pow_le_pow_right Nat.two_pos hp
      simp only [halfway]
      rw [units_eq_self (μ := μ) (by omega), units_eq_self (μ := μ + 1) (by omega),
        units_eq_self (μ := μ + 1 + 1) (by omega),
        show μ + 1 + (μ + 1 + 1) - (μ + (μ + 1)) = 2 by omega]
      omega

/-! ### Values of numbers -/

/-- The absolute value of a finite number. -/
def value (f : Binary64) : ℚ :=
  f.numerator / f.denominator

theorem value_nonneg (f : Binary64) : 0 ≤ f.value :=
  div_nonneg (Nat.cast_nonneg _) (Nat.cast_nonneg _)

/-- The magnitude of a number gives its significand and its place. -/
theorem significand_eq (f : Binary64) :
    f.significand = f.magnitude - scale f.magnitude * 0x10000000000000 ∧
      f.exponent = (scale f.magnitude : Int) - 1074 := by
  have hbiased : f.biasedExponent = f.magnitude / 0x10000000000000 := by
    simp only [biasedExponent, magnitude, Nat.shiftRight_eq_div_pow]
    omega
  have hfraction : f.fraction = f.magnitude % 0x10000000000000 := by
    simp only [fraction, magnitude]
    omega
  rw [significand, exponent, hbiased, hfraction, scale]
  split <;> omega

theorem scale_magnitude (f : Binary64) : scale f.magnitude = f.biasedExponent - 1 := by
  simp only [scale, biasedExponent, magnitude, Nat.shiftRight_eq_div_pow]
  omega

/-- A number stands at the place of its magnitude. -/
theorem magnitude_eq (f : Binary64) :
    f.magnitude = scale f.magnitude * 0x10000000000000 + f.significand ∧
      f.significand < 0x20000000000000 ∧
      (0x10000000000000 ≤ f.significand ∨ scale f.magnitude = 0) := by
  rw [f.significand_eq.1, scale]
  omega

/-- **The value of a number by its magnitude.** -/
theorem value_eq (f : Binary64) : f.value = units f.magnitude / 2 ^ 1074 := by
  obtain ⟨hsignificand, hexponent⟩ := f.significand_eq
  have hpower := pow_toNat_div (b := 2) (by norm_num) f.exponent
  rw [value, numerator, denominator, units, Nat.shiftLeft_eq, Nat.one_shiftLeft, hsignificand]
  push_cast
  rw [mul_div_assoc, hpower, hexponent, zpow_sub₀ (by norm_num), zpow_natCast, mul_div_assoc]
  norm_cast

end Binary64

end PlaylistRules
