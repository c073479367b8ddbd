import PlaylistRules.Proofs.Number.Nearest

/-!
# Rounding errors

A value that is rounded differs from the result by a factor close to one. When a value goes through
several rounded steps before the last one, the last result is as many magnitudes away from the one
that is nearest to the value, at most.

## Main definitions

* `Binary64.Within` : values that differ by a factor at most.

## Main results

* `Binary64.IsNearest.within` : the factor of one rounding.
* `Binary64.Within.mul`, `Binary64.Within.div` : the factors of products and quotients.
* `Binary64.IsNearest.drift` : how far rounding errors move the nearest magnitude.
-/

namespace PlaylistRules.Binary64

variable {μ ν : Nat} {c d q r q' r' t : ℚ}

/-- Two values differ by a factor at most. -/
def Within (c q r : ℚ) : Prop :=
  q ≤ c * r ∧ r ≤ c * q

theorem within_one_iff : Within 1 q r ↔ q = r := by
  rw [Within, one_mul, one_mul]
  exact ⟨fun h => le_antisymm h.1 h.2, fun h => ⟨h.le, h.ge⟩⟩

theorem Within.mono (h : Within c q r) (hcd : c ≤ d) (hq : 0 ≤ q) (hr : 0 ≤ r) :
    Within d q r :=
  ⟨h.1.trans (by gcongr), h.2.trans (by gcongr)⟩

theorem Within.trans (h : Within c q r) (h' : Within d r t) (hc : 0 ≤ c) (hd : 0 ≤ d) :
    Within (c * d) q t := by
  refine ⟨h.1.trans ?_, h'.2.trans ?_⟩
  · rw [mul_assoc]
    exact mul_le_mul_of_nonneg_left h'.1 hc
  · rw [mul_comm c d, mul_assoc]
    exact mul_le_mul_of_nonneg_left h.2 hd

theorem Within.mul (h : Within c q r) (h' : Within d q' r') (hq : 0 ≤ q)
    (hr : 0 ≤ r) (hq' : 0 ≤ q') (hr' : 0 ≤ r') : Within (c * d) (q * q') (r * r') := by
  refine ⟨?_, ?_⟩
  · calc q * q' ≤ (c * r) * (d * r') := mul_le_mul h.1 h'.1 hq' (hq.trans h.1)
      _ = c * d * (r * r') := by ring
  · calc r * r' ≤ (c * q) * (d * q') := mul_le_mul h.2 h'.2 hr' (hr.trans h.2)
      _ = c * d * (q * q') := by ring

theorem Within.div (h : Within c q r) (h' : Within d q' r') (hq : 0 ≤ q)
    (hr : 0 ≤ r) (hq' : 0 < q') (hr' : 0 < r') : Within (c * d) (q / q') (r / r') := by
  refine ⟨?_, ?_⟩
  · rw [div_le_iff₀ hq', mul_div_assoc', div_mul_eq_mul_div, le_div_iff₀ hr']
    calc q * r' ≤ (c * r) * (d * q') := mul_le_mul h.1 h'.2 hr'.le (hq.trans h.1)
      _ = c * d * r * q' := by ring
  · rw [div_le_iff₀ hr', mul_div_assoc', div_mul_eq_mul_div, le_div_iff₀ hq']
    calc r * q' ≤ (c * q) * (d * r') := mul_le_mul h.2 h'.1 hq'.le (hr.trans h.2)
      _ = c * d * q * r' := by ring

theorem within_iff :
    Within c q r ↔ inHalves q ≤ c * inHalves r ∧ inHalves r ≤ c * inHalves q := by
  rw [← inHalves_mul, ← inHalves_mul, inHalves_le_inHalves, inHalves_le_inHalves, Within]

/-- **A rounded value differs by a small factor** from the value, if it has enough digits. -/
theorem IsNearest.within {j : Nat} (hj : j ≤ 52) (hμ : 2 ^ j < μ) (h : IsNearest μ q) :
    Within (1 + 1 / 2 ^ (j + 1)) q (units μ / 2 ^ 1074) := by
  obtain ⟨m, rfl⟩ := Nat.exists_eq_succ_of_ne_zero (Nat.ne_zero_of_lt hμ)
  have hpower : (0 : ℚ) < 2 ^ j := by positivity
  have habove : (2 ^ j * (units (m + 1 + 1) - units (m + 1)) : ℚ) ≤ units (m + 1) := by
    rw [← Nat.cast_sub (units_lt_succ _).le]
    exact_mod_cast spacing_le hj hμ.le
  have hbelow : (2 ^ j * (units (m + 1) - units m) : ℚ) ≤ units m := by
    rw [← Nat.cast_sub (units_lt_succ _).le]
    exact_mod_cast spacing_le hj (Nat.lt_succ_iff.mp hμ)
  have hlower : (units m + units (m + 1) : ℚ) ≤ inHalves q := by exact_mod_cast h.lower
  have hupper : inHalves q ≤ (units (m + 1) + units (m + 1 + 1) : ℚ) := by exact_mod_cast h.upper
  have hspace : (units m : ℚ) < units (m + 1) := by exact_mod_cast units_lt_succ m
  rw [within_iff, inHalves_units, one_add_div (by positivity), div_mul_eq_mul_div,
    div_mul_eq_mul_div, le_div_iff₀ (by positivity), le_div_iff₀ (by positivity), pow_succ]
  push_cast
  constructor <;> nlinarith

/-! ### Errors and magnitudes -/

/-- Points half way that are some magnitudes apart. -/
theorem halfway_le_pow {p : Nat} (i : Nat) (h : p = 53 ∨ p ≤ 53 ∧ μ + i ≤ 2 ^ p) :
    (halfway μ : ℚ) ≤ (1 - 1 / 2 ^ p) ^ i * halfway (μ + i) := by
  induction i with
  | zero => rw [pow_zero, one_mul, Nat.add_zero]
  | succ i ih =>
    have hpower : (1 : ℚ) ≤ 2 ^ p := one_le_pow₀ (by norm_num)
    have hfactor : (0 : ℚ) ≤ 1 - 1 / 2 ^ p := by
      rw [sub_nonneg, div_le_one (by positivity)]
      exact hpower
    have hgap : (halfway (μ + i + 1) : ℚ) ≤ 2 ^ p * (halfway (μ + i + 1) - halfway (μ + i)) := by
      rw [← Nat.cast_sub (halfway_lt_succ _).le]
      exact_mod_cast halfway_gap h
    have hstep : (halfway (μ + i) : ℚ) ≤ (1 - 1 / 2 ^ p) * halfway (μ + i + 1) := by
      rw [one_sub_div (by positivity), div_mul_eq_mul_div, le_div_iff₀ (by positivity)]
      linarith
    calc (halfway μ : ℚ) ≤ (1 - 1 / 2 ^ p) ^ i * halfway (μ + i) :=
          ih (h.imp_right fun h => ⟨h.1, by omega⟩)
      _ ≤ (1 - 1 / 2 ^ p) ^ i * ((1 - 1 / 2 ^ p) * halfway (μ + i + 1)) := by gcongr
      _ = (1 - 1 / 2 ^ p) ^ (i + 1) * halfway (μ + (i + 1)) := by rw [pow_succ, Nat.add_assoc]; ring

/-- The magnitude nearest to a value that is larger by few rounding errors. -/
private theorem IsNearest.le_add {p j : Nat} (h : IsNearest μ q) (h' : IsNearest ν r)
    (hj : 0 < j) (hp : p = 53 ∨ p ≤ 53 ∧ ν + 1 + j ≤ 2 ^ p)
    (hqr : q ≤ (1 + 1 / 2 ^ p) ^ j * r) : μ ≤ ν + j := by
  by_contra hlt
  have hunit : (0 : ℚ) < 1 / 2 ^ p := by positivity
  have hunit' : (1 / 2 ^ p : ℚ) ≤ 1 := (div_le_one (by positivity)).mpr (one_le_pow₀ (by norm_num))
  have hpoints : (halfway (ν + 1) : ℚ) ≤
      ((1 - 1 / 2 ^ p) * (1 + 1 / 2 ^ p)) ^ j * halfway (ν + 1) := by
    have hmono : (halfway (ν + 1 + j) : ℚ) ≤ halfway μ := by
      exact_mod_cast halfway_strictMono.monotone (by omega)
    have hvalues : inHalves q ≤ (1 + 1 / 2 ^ p) ^ j * inHalves r := by
      rw [← inHalves_mul]
      exact mul_le_mul_of_nonneg_right hqr (by positivity)
    have hfactor : (0 : ℚ) ≤ (1 - 1 / 2 ^ p) ^ j := pow_nonneg (by linarith) j
    calc (halfway (ν + 1) : ℚ) ≤ (1 - 1 / 2 ^ p) ^ j * halfway (ν + 1 + j) := halfway_le_pow j hp
      _ ≤ (1 - 1 / 2 ^ p) ^ j * ((1 + 1 / 2 ^ p) ^ j * inHalves r) := by
        exact mul_le_mul_of_nonneg_left ((hmono.trans h.lower).trans hvalues) hfactor
      _ ≤ (1 - 1 / 2 ^ p) ^ j * ((1 + 1 / 2 ^ p) ^ j * halfway (ν + 1)) := by
        gcongr
        exact h'.upper
      _ = ((1 - 1 / 2 ^ p) * (1 + 1 / 2 ^ p)) ^ j * halfway (ν + 1) := by rw [mul_pow]; ring
  have hpos : (0 : ℚ) < halfway (ν + 1) := by
    exact_mod_cast (Nat.zero_le _).trans_lt (halfway_lt_succ ν)
  have hless : ((1 - 1 / 2 ^ p : ℚ) * (1 + 1 / 2 ^ p)) ^ j < 1 :=
    pow_lt_one₀ (by nlinarith) (by nlinarith) hj.ne'
  nlinarith

/-- **A value that differs by few rounding errors is rounded nearby.** As many errors as there are
move the nearest magnitude by as many places at most. -/
theorem IsNearest.drift {p j : Nat} (h : IsNearest μ q) (h' : IsNearest ν r)
    (hp : p = 53 ∨ p ≤ 53 ∧ μ + j < 2 ^ p) (hqr : Within ((1 + 1 / 2 ^ p) ^ j) q r) :
    μ ≤ ν + j ∧ ν ≤ μ + j := by
  obtain rfl | hj := Nat.eq_zero_or_pos j
  · rw [pow_zero, within_one_iff] at hqr
    rw [h.unique (hqr ▸ h'), Nat.add_zero]
    exact ⟨le_rfl, le_rfl⟩
  refine ⟨?_, h'.le_add h hj (hp.imp_right fun h => ⟨h.1, by omega⟩) hqr.2⟩
  by_contra hlt
  exact hlt (h.le_add h' hj (hp.imp_right fun h => ⟨h.1, by omega⟩) hqr.1)

end PlaylistRules.Binary64
