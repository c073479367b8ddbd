import PlaylistRules.Proofs.Number.Errors

/-!
# Operations on binary numbers

Naturals, products and quotients are rounded once. The result is the magnitude nearest to the exact
value, as long as it is finite. Naturals of up to fifty-three binary digits and the first powers of
ten are numbers themselves.

## Main results

* `Binary64.exists_mul`, `Binary64.exists_div` : products and quotients are rounded to nearest.
* `Binary64.exists_ofNat` : naturals are rounded to nearest.
* `Binary64.value_ofNat`, `Binary64.within_ofNat` : naturals that are kept and those that are not.
-/

namespace PlaylistRules.Binary64

variable {μ n m t k : Nat} {q : ℚ} {f g : Binary64} {negative : Bool}

/-! ### Rounded results -/

theorem value_ofMagnitude (h : μ < infinityMagnitude) :
    (ofMagnitude negative μ).value = units μ / 2 ^ 1074 := by
  rw [value_eq, magnitude_ofMagnitude (h.trans (by decide))]

theorem denominator_pos (f : Binary64) : 0 < f.denominator := by
  rw [denominator, Nat.one_shiftLeft]
  exact Nat.two_pow_pos _

/-- The magnitude nearest to a value is finite when the value is below the largest number. -/
theorem IsNearest.lt_infinity (h : IsNearest μ q) (hq : q ≤ 10 ^ 308) : μ < infinityMagnitude := by
  have hlargest : 10 ^ 308 * 2 ^ 1075 < halfway (infinityMagnitude - 1 + 1) := by decide +kernel
  have hbelow : inHalves q < halfway (infinityMagnitude - 1 + 1) :=
    calc inHalves q ≤ 10 ^ 308 * 2 ^ 1075 := mul_le_mul_of_nonneg_right hq (by positivity)
      _ < halfway (infinityMagnitude - 1 + 1) := by exact_mod_cast hlargest
  exact (h.le_of_lt hbelow).trans_lt (by decide)

/-- **A product is rounded to nearest.** -/
theorem exists_mul (f g : Binary64) : ∃ μ, IsNearest μ (f.value * g.value) ∧
    f.mul g = ofMagnitude (f.isNegative != g.isNegative) (min infinityMagnitude μ) := by
  have hden : 0 < f.denominator * g.denominator := Nat.mul_pos f.denominator_pos g.denominator_pos
  obtain ⟨μ, hμ, hmul⟩ := exists_isNearest_ofRatio (f.isNegative != g.isNegative)
    (f.numerator * g.numerator) hden
  refine ⟨μ, ?_, hmul⟩
  rwa [Nat.cast_mul, Nat.cast_mul, mul_div_mul_comm] at hμ

/-- **A quotient is rounded to nearest.** -/
theorem exists_div (f : Binary64) (hg : 0 < g.value) : ∃ μ, IsNearest μ (f.value / g.value) ∧
    f.div g = ofMagnitude (f.isNegative != g.isNegative) (min infinityMagnitude μ) := by
  have hnum : 0 < g.numerator := Nat.pos_of_ne_zero fun hzero => by
    rw [value, hzero, Nat.cast_zero, zero_div] at hg
    exact lt_irrefl 0 hg
  obtain ⟨μ, hμ, hdiv⟩ := exists_isNearest_ofRatio (f.isNegative != g.isNegative)
    (f.numerator * g.denominator) (Nat.mul_pos f.denominator_pos hnum)
  refine ⟨μ, ?_, hdiv⟩
  rwa [Nat.cast_mul, Nat.cast_mul, ← div_div_div_eq] at hμ

/-! ### Naturals -/

/-- A natural that is not zero is a normal number. -/
theorem lt_magnitude_ofNat (hpos : 0 < n) (h : IsNearest μ n) : 2 ^ 52 < μ := by
  have hone : halfway (2 ^ 52 + 1) < 2 ^ 1075 := by decide +kernel
  refine h.le_of_gt (ν := 2 ^ 52 + 1) ?_
  calc (halfway (2 ^ 52 + 1) : ℚ) < 2 ^ 1075 := by exact_mod_cast hone
    _ = (1 : Nat) * 2 ^ 1075 := by rw [Nat.cast_one, one_mul]
    _ ≤ inHalves n := by
      rw [inHalves]
      gcongr
      exact hpos

section OfNat

variable (hle : n ≤ 10 ^ k) (hk : k ≤ 308)

include hle hk

/-- **A natural is rounded to nearest.** It is finite up to `10 ^ 308`. -/
theorem exists_ofNat :
    ∃ μ, IsNearest μ n ∧ μ < infinityMagnitude ∧ ofNat n = ofMagnitude false μ := by
  obtain ⟨μ, hμ, hofNat⟩ := exists_isNearest_ofRatio false n Nat.one_pos
  rw [Nat.cast_one, div_one] at hμ
  have hfinite : μ < infinityMagnitude := hμ.lt_infinity <|
    calc (n : ℚ) ≤ 10 ^ k := by exact_mod_cast hle
      _ ≤ 10 ^ 308 := pow_le_pow_right₀ (by norm_num) hk
  exact ⟨μ, hμ, hfinite, Nat.min_eq_right hfinite.le ▸ hofNat⟩

theorem isNegative_ofNat : (ofNat n).isNegative = false := by
  obtain ⟨μ, -, hfinite, hofNat⟩ := exists_ofNat hle hk
  rw [hofNat, isNegative_ofMagnitude (hfinite.trans (by decide))]

/-- A natural of up to fifty-three binary digits before zeros is kept. -/
theorem value_ofNat (hm : m ≤ 2 ^ 53) (hn : n = m * 2 ^ t) : (ofNat n).value = n := by
  obtain ⟨μ, hμ, hfinite, hofNat⟩ := exists_ofNat hle hk
  obtain ⟨ν, hν⟩ := exists_units_eq (t := t + 1074) hm (by omega)
  have hexact : (units ν / 2 ^ 1074 : ℚ) = n := by
    have hcancel : ∀ i : Nat, ((m * 2 ^ (t + i) : Nat) / 2 ^ i : ℚ) = n := by
      intro i
      rw [Nat.pow_add, ← Nat.mul_assoc, ← hn, Nat.cast_mul, Nat.cast_pow, Nat.cast_two,
        mul_div_cancel_right₀ _ (by positivity)]
    rw [hν, hcancel]
  obtain rfl : ν = μ := (hexact ▸ isNearest_units ν).unique hμ
  rw [hofNat, value_ofMagnitude hfinite, hexact]

/-- A natural differs from its number by the factor of one rounding at most. -/
theorem within_ofNat (hpos : 0 < n) :
    Within (1 + 1 / 2 ^ 53) n (ofNat n).value := by
  obtain ⟨μ, hμ, hfinite, hofNat⟩ := exists_ofNat hle hk
  rw [hofNat, value_ofMagnitude hfinite]
  exact hμ.within (j := 52) le_rfl (lt_magnitude_ofNat hpos hμ)

end OfNat

/-- The number nearest to an integer of sixty-four bits is finite. -/
theorem isFinite_ofInt {i : Int} (h : i.natAbs < 0x10000000000000000) :
    (ofInt i).isFinite = true := by
  obtain ⟨μ, hμ, hofInt⟩ := exists_isNearest_ofRatio (decide (i < 0)) i.natAbs Nat.one_pos
  have hle : i.natAbs ≤ 10 ^ 20 := by omega
  have hfinite : μ < infinityMagnitude := hμ.lt_infinity <|
    calc ((i.natAbs / (1 : Nat) : ℚ)) ≤ 10 ^ 20 := by
          rw [Nat.cast_one, div_one]
          exact_mod_cast hle
      _ ≤ 10 ^ 308 := pow_le_pow_right₀ (by norm_num) (by decide)
  rw [ofInt, hofInt, Nat.min_eq_right hfinite.le]
  exact isFinite_ofMagnitude hfinite

end PlaylistRules.Binary64
