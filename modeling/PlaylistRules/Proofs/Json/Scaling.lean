import PlaylistRules.Proofs.Json.Decimals
import PlaylistRules.Proofs.Number.Operations

/-!
# Scaling by powers of ten

The digits of a numeral are multiplied or divided by a power of ten, and each of the parts is a
rounded number. The last step rounds a value that differs from that of the decimal by the factors of
the roundings before. So the number that is read is as many magnitudes away from the nearest one as
there were roundings.

## Main definitions

* `Decimal.roundings` : the roundings before the last step.
* `Decimal.lastStep` : the value that is rounded last.
* `Binary64.reread` : the number that is read from the text of a finite number.

## Main results

* `Json.Numeral.exists_scale` : the last step is rounded to nearest.
* `Decimal.near_lastStep` : the roundings before the last step and the nearest magnitude.
* `Binary64.reread_spec` : a number that is written and read again stays near.
* `Binary64.reread_eq_iff` : the numbers that are kept.
-/

namespace PlaylistRules

open Binary64 (IsNearest Within halfway inHalves infinityMagnitude ofMagnitude ofNat)
open Json.Numeral (powerOfTen scale scaled?)

variable {d : Decimal} {n k μ ν : Nat}

/-! ### The parts of a decimal -/

namespace Decimal

/-- The roundings of digits: none if they fit fifty-three binary digits. -/
def digitRoundings (n : Nat) : Nat :=
  if n ≤ 2 ^ 53 then 0 else 1

/-- The roundings of a power of ten: none for the powers that fit fifty-three binary digits before
zeros. -/
def powerRoundings (k : Nat) : Nat :=
  if k ≤ 22 then 0 else 1

theorem digitRoundings_le (n : Nat) : digitRoundings n ≤ 1 := by
  rw [digitRoundings]
  split <;> decide

theorem powerRoundings_le (k : Nat) : powerRoundings k ≤ 1 := by
  rw [powerRoundings]
  split <;> decide

/-- The roundings before the last step, when a decimal is read: those of the digits and the power of
ten. A power below `-308` is divided in two steps, and the power of the first one and its quotient
are rounded. -/
def roundings (d : Decimal) : Nat :=
  digitRoundings d.significand +
    if -308 ≤ d.exponent then powerRoundings d.exponent.natAbs else 2

/-- The value that is rounded last, when a decimal is read. -/
def lastStep (d : Decimal) : ℚ :=
  if 0 ≤ d.exponent then (ofNat d.significand).value * (powerOfTen d.exponent.natAbs).value
  else if -308 ≤ d.exponent then
    (ofNat d.significand).value / (powerOfTen d.exponent.natAbs).value
  else
    ((ofNat d.significand).div (powerOfTen 308)).value /
      (powerOfTen (d.exponent + 308).natAbs).value

/-- Digits differ from their number by the factors of their roundings. -/
theorem within_digits (hn : n ≤ 10 ^ 17) :
    Within ((1 + 1 / 2 ^ 53) ^ digitRoundings n) n (ofNat n).value := by
  rw [digitRoundings]
  split
  · next hexact =>
    rw [pow_zero, Binary64.within_one_iff,
      Binary64.value_ofNat (t := 0) hn (by decide) hexact (by rw [Nat.pow_zero, Nat.mul_one])]
  · next hlarge =>
    rw [pow_one]
    exact Binary64.within_ofNat hn (by decide) (by omega)

/-- A power of ten differs from its number by the factors of its roundings. -/
theorem within_power (hk : k ≤ 308) :
    Within ((1 + 1 / 2 ^ 53) ^ powerRoundings k) (10 ^ k) (powerOfTen k).value := by
  have hcast : (10 ^ k : ℚ) = (10 ^ k : Nat) := by rw [Nat.cast_pow, Nat.cast_ofNat]
  rw [powerRoundings, powerOfTen, Nat.pow_eq, hcast]
  split
  · next hexact =>
    have hfive : 5 ^ k ≤ 2 ^ 53 := (Nat.pow_le_pow_right (by decide) hexact).trans (by decide)
    rw [pow_zero, Binary64.within_one_iff,
      Binary64.value_ofNat (t := k) le_rfl hk hfive (by rw [← Nat.mul_pow])]
  · rw [pow_one]
    exact Binary64.within_ofNat le_rfl hk (Nat.pow_pos (by decide))

private theorem factor_le_two {j : Nat} (hj : j ≤ 1) : (1 + 1 / 2 ^ 53 : ℚ) ^ j ≤ 2 :=
  (pow_le_pow_right₀ (by norm_num) hj).trans (by norm_num)

theorem value_ofNat_le (hn : n ≤ 10 ^ 17) : (ofNat n).value ≤ 2 * 10 ^ 17 := by
  obtain ⟨-, hle⟩ := within_digits hn
  have hcast : (n : ℚ) ≤ 10 ^ 17 := by exact_mod_cast hn
  exact hle.trans (mul_le_mul (factor_le_two (digitRoundings_le n)) hcast (Nat.cast_nonneg n)
    (by norm_num))

/-- A power of ten is not below one half. -/
theorem le_value_powerOfTen (hk : k ≤ 308) : 10 ^ k ≤ 2 * (powerOfTen k).value := by
  obtain ⟨hle, -⟩ := within_power hk
  exact hle.trans (mul_le_mul_of_nonneg_right (factor_le_two (powerRoundings_le k))
    (Binary64.value_nonneg _))

theorem value_powerOfTen_pos (hk : k ≤ 308) : 0 < (powerOfTen k).value := by
  have hle := le_value_powerOfTen hk
  have hten : (0 : ℚ) < 10 ^ k := by positivity
  linarith

end Decimal

/-! ### The steps -/

namespace Json.Numeral

theorem isNegative_powerOfTen (hk : k ≤ 308) : (powerOfTen k).isNegative = false :=
  Binary64.isNegative_ofNat (Nat.le_refl (10 ^ k)) hk

/-- A quotient of a number of up to seventeen digits and a power of ten is rounded to nearest, and
it is no larger. -/
theorem exists_quotient {f : Binary64} (hf : f.isNegative = false) (hsmall : f.value ≤ 2 * 10 ^ 17)
    (hk : k ≤ 308) : ∃ μ, IsNearest μ (f.value / (powerOfTen k).value) ∧ μ < infinityMagnitude ∧
      f.div (powerOfTen k) = ofMagnitude false μ := by
  have hpos := Decimal.value_powerOfTen_pos hk
  have hpower := Decimal.le_value_powerOfTen hk
  have hten : (1 : ℚ) ≤ 10 ^ k := one_le_pow₀ (by norm_num)
  obtain ⟨μ, hμ, hdiv⟩ := Binary64.exists_div f hpos
  have hfinite : μ < infinityMagnitude := by
    refine hμ.lt_infinity (le_trans ?_ (pow_le_pow_right₀ (by norm_num) (show 18 ≤ 308 by decide)))
    rw [div_le_iff₀ hpos]
    linarith
  rw [hf, isNegative_powerOfTen hk, bne_self_eq_false, Nat.min_eq_right hfinite.le] at hdiv
  exact ⟨μ, hμ, hfinite, hdiv⟩

/-- The first of two quotients is positive and has the bound of its number. -/
theorem value_quotient_le {f : Binary64} (hf : f.isNegative = false)
    (hsmall : f.value ≤ 2 * 10 ^ 17) : (f.div (powerOfTen 308)).isNegative = false ∧
      (f.div (powerOfTen 308)).value ≤ 2 * 10 ^ 17 := by
  obtain ⟨μ, hμ, hfinite, hdiv⟩ := exists_quotient hf hsmall le_rfl
  have hpower : (10 : ℚ) ^ 1 ≤ 2 * (powerOfTen 308).value :=
    (pow_le_pow_right₀ (by norm_num) (by decide)).trans (Decimal.le_value_powerOfTen le_rfl)
  have hquotient : f.value / (powerOfTen 308).value ≤ 10 ^ 17 := by
    rw [div_le_iff₀ (Decimal.value_powerOfTen_pos le_rfl)]
    linarith
  rw [hdiv, Binary64.isNegative_ofMagnitude (hfinite.trans (by decide)),
    Binary64.value_ofMagnitude hfinite]
  exact ⟨rfl, hμ.units_le.trans (mul_le_mul_of_nonneg_left hquotient (by norm_num))⟩

/-- **The last step is rounded to nearest.** There is no result when a product is not finite. -/
theorem exists_scale (h : d.InRange) : ∃ μ, IsNearest μ d.lastStep ∧
    (d.exponent < 0 → μ < infinityMagnitude) ∧
    scale 3 (ofNat d.significand) d.exponent =
      if μ < infinityMagnitude then some (ofMagnitude false μ) else none := by
  obtain ⟨hdigits, hlow, hhigh, hpos⟩ := h
  have hnegative := Binary64.isNegative_ofNat hdigits (show 17 ≤ 308 by decide)
  have hsmall := Decimal.value_ofNat_le hdigits
  by_cases hproduct : 0 ≤ d.exponent
  · have hk : d.exponent.natAbs ≤ 308 := by omega
    obtain ⟨μ, hμ, hmul⟩ := (ofNat d.significand).exists_mul (powerOfTen d.exponent.natAbs)
    rw [hnegative, isNegative_powerOfTen hk, bne_self_eq_false] at hmul
    refine ⟨μ, by rwa [Decimal.lastStep, if_pos hproduct], fun hneg => by omega, ?_⟩
    rw [scale, if_pos hk, if_pos hproduct, hmul]
    dsimp only
    by_cases hfinite : μ < infinityMagnitude
    · rw [Nat.min_eq_right hfinite.le, if_pos hfinite,
        if_pos (Binary64.isFinite_ofMagnitude hfinite)]
    · have hinfinite : (ofMagnitude false infinityMagnitude).isFinite = false := by decide
      rw [Nat.min_eq_left (not_lt.mp hfinite), if_neg hfinite, hinfinite,
        if_neg Bool.false_ne_true]
  by_cases hquotient : -308 ≤ d.exponent
  · have hk : d.exponent.natAbs ≤ 308 := by omega
    obtain ⟨μ, hμ, hfinite, hdiv⟩ := exists_quotient hnegative hsmall hk
    refine ⟨μ, by rwa [Decimal.lastStep, if_neg hproduct, if_pos hquotient], fun _ => hfinite, ?_⟩
    rw [scale, if_pos hk, if_neg hproduct, hdiv, if_pos hfinite]
  · -- The digits are not zero, so that a second quotient follows the first one.
    have hk : (d.exponent + 308).natAbs ≤ 308 := by omega
    have hnonzero : (ofNat d.significand).isZero = false := by
      obtain ⟨ν, hν, hfinite, hofNat⟩ := Binary64.exists_ofNat hdigits (show 17 ≤ 308 by decide)
      have hnormal := Binary64.lt_magnitude_ofNat (hpos (by omega)) hν
      rw [hofNat, Binary64.isZero, Binary64.magnitude_ofMagnitude (hfinite.trans (by decide))]
      exact beq_false_of_ne (by omega)
    obtain ⟨hnegative', hsmall'⟩ := value_quotient_le hnegative hsmall
    obtain ⟨μ, hμ, hfinite, hdiv⟩ := exists_quotient hnegative' hsmall' hk
    refine ⟨μ, by rwa [Decimal.lastStep, if_neg hproduct, if_neg hquotient], fun _ => hfinite, ?_⟩
    rw [scale, if_neg (by omega), hnonzero, if_neg Bool.false_ne_true, if_neg hproduct, scale,
      if_pos hk, if_neg (by omega), hdiv, if_pos hfinite]

end Json.Numeral

/-! ### The roundings before the last step -/

namespace Decimal

theorem value_eq_mul {k : Nat} (h : d.exponent = k) : d.value = d.significand * 10 ^ k := by
  rw [value, h, zpow_natCast]

theorem value_eq_div {k : Nat} (h : d.exponent = -k) : d.value = d.significand / 10 ^ k := by
  rw [value, h, zpow_neg, zpow_natCast, div_eq_mul_inv]

/-- A product or a quotient differs by the roundings of its two parts. -/
theorem within_oneStep (h : d.InRange) (hlow : -308 ≤ d.exponent) :
    Within ((1 + 1 / 2 ^ 53) ^ d.roundings) d.value d.lastStep := by
  have hhigh := h.exponent_le
  have hk : d.exponent.natAbs ≤ 308 := by omega
  have hdigits := within_digits h.significand_le
  have hpower := within_power hk
  have hten : (0 : ℚ) < 10 ^ d.exponent.natAbs := by positivity
  rw [roundings, if_pos hlow, pow_add, lastStep]
  split
  · next hproduct =>
    rw [value_eq_mul (k := d.exponent.natAbs) (by omega)]
    exact hdigits.mul hpower (Nat.cast_nonneg _) (Binary64.value_nonneg _) hten.le
      (Binary64.value_nonneg _)
  · next hquotient =>
    rw [value_eq_div (k := d.exponent.natAbs) (by omega)]
    exact hdigits.div hpower (Nat.cast_nonneg _) (Binary64.value_nonneg _) hten
      (value_powerOfTen_pos hk)

/-- Two quotients differ by the roundings of their parts and of the first one, by the factors of the
digits that the first one has. -/
theorem within_twoSteps {j : Nat} (hj : j ≤ 52) (h : d.InRange) (hlow : d.exponent < -308)
    (hlarge : (halfway (2 ^ j + 1) : ℚ) <
      inHalves ((ofNat d.significand).value / (powerOfTen 308).value)) :
    Within ((1 + 1 / 2 ^ (j + 1)) ^ d.roundings) d.value d.lastStep := by
  obtain ⟨hdigits, hbottom, -, -⟩ := h
  have hten : ∀ k : Nat, (0 : ℚ) < 10 ^ k := fun k => by positivity
  have hfactor : (1 + 1 / 2 ^ 53 : ℚ) ≤ 1 + 1 / 2 ^ (j + 1) := by
    gcongr
    · norm_num
    · omega
  obtain ⟨μ, hμ, hfinite, hdiv⟩ := Json.Numeral.exists_quotient
    (Binary64.isNegative_ofNat hdigits (show 17 ≤ 308 by decide)) (value_ofNat_le hdigits)
    (le_refl 308)
  have hfirst : Within ((1 + 1 / 2 ^ (j + 1)) ^ (digitRoundings d.significand + 1))
      (d.significand / 10 ^ 308) ((ofNat d.significand).value / (powerOfTen 308).value) := by
    have hquotient := (within_digits hdigits).div (within_power (le_refl 308)) (Nat.cast_nonneg _)
      (Binary64.value_nonneg _) (hten 308) (value_powerOfTen_pos le_rfl)
    rw [show powerRoundings 308 = 1 from rfl, ← pow_add] at hquotient
    refine hquotient.mono (pow_le_pow_left₀ (by positivity) hfactor _) ?_ ?_
    · exact div_nonneg (Nat.cast_nonneg _) (hten 308).le
    · exact div_nonneg (Binary64.value_nonneg _) (Binary64.value_nonneg _)
  have hrounded : Within (1 + 1 / 2 ^ (j + 1))
      ((ofNat d.significand).value / (powerOfTen 308).value)
      ((ofNat d.significand).div (powerOfTen 308)).value := by
    rw [hdiv, Binary64.value_ofMagnitude hfinite]
    exact hμ.within hj (Nat.lt_of_succ_le (hμ.le_of_gt hlarge))
  -- The power that is left is exact.
  have hrest : (d.exponent + 308).natAbs ≤ 22 := by omega
  have hexact : Within 1 (10 ^ (d.exponent + 308).natAbs)
      (powerOfTen (d.exponent + 308).natAbs).value := by
    have hpower := within_power (hrest.trans (by decide))
    rwa [powerRoundings, if_pos hrest, pow_zero] at hpower
  have hvalue : d.value = d.significand / 10 ^ 308 / 10 ^ (d.exponent + 308).natAbs := by
    rw [div_div, ← pow_add, value_eq_div]
    omega
  rw [roundings, if_neg (by omega), lastStep, if_neg (by omega), if_neg (by omega), hvalue]
  have hresult := (hfirst.trans hrounded (by positivity) (by positivity)).div hexact
    (div_nonneg (Nat.cast_nonneg _) (hten 308).le) (Binary64.value_nonneg _) (hten _)
    (value_powerOfTen_pos (hrest.trans (by decide)))
  rwa [mul_one, ← pow_succ] at hresult

/-- Digits are not rounded below a number that is kept. -/
theorem le_value_ofNat {c : Nat} (hc : c ≤ n) (hkept : c ≤ 2 ^ 52) (hn : n ≤ 10 ^ 17) :
    (c : ℚ) ≤ (ofNat n).value := by
  obtain ⟨hle, -⟩ := within_digits hn
  rw [digitRoundings] at hle
  split at hle
  · rw [pow_zero, one_mul] at hle
    exact (Nat.cast_le.mpr hc).trans hle
  · next hlarge =>
    have hc : (c : ℚ) ≤ 2 ^ 52 := by exact_mod_cast hkept
    have hn : (2 ^ 53 : ℚ) ≤ n := by exact_mod_cast (not_le.mp hlarge).le
    rw [pow_one] at hle
    linarith

/-- A lower bound of the first of two quotients. -/
theorem lt_inHalves_quotient {f : Binary64} {c m : Nat} (hc : c ≤ f.value)
    (hm : m * (2 ^ 53 + 1) * 10 ^ 308 < c * 2 ^ 1075 * 2 ^ 53) :
    (m : ℚ) < inHalves (f.value / (powerOfTen 308).value) := by
  have hpower := (within_power (le_refl 308)).2
  rw [show powerRoundings 308 = 1 from rfl, pow_one] at hpower
  have hcast : (m * (2 ^ 53 + 1) * 10 ^ 308 : ℚ) < c * 2 ^ 1075 * 2 ^ 53 := by exact_mod_cast hm
  have hten : (0 : ℚ) < 10 ^ 308 := by positivity
  have htwo : (0 : ℚ) < 2 ^ 1075 := by positivity
  rw [inHalves, div_mul_eq_mul_div, lt_div_iff₀ (value_powerOfTen_pos le_rfl)]
  generalize (10 : ℚ) ^ 308 = ten at *
  generalize (2 : ℚ) ^ 1075 = two at *
  have hmp : (m : ℚ) * (powerOfTen 308).value ≤ m * ((1 + 1 / 2 ^ 53) * ten) :=
    mul_le_mul_of_nonneg_left hpower (Nat.cast_nonneg m)
  have hcf : (c : ℚ) * two ≤ f.value * two := mul_le_mul_of_nonneg_right hc htwo.le
  linarith

/-- Digits below three at a power below `-308` are far below the normal numbers. -/
theorem magnitude_lt_of_small (hlow : d.exponent < -308) (hsmall : d.significand < 3)
    (hμ : IsNearest μ d.value) : μ ≤ 2 ^ 50 := by
  have hclosed : 2 * 2 ^ 1075 < halfway (2 ^ 50 + 1) * 10 ^ 309 := by decide +kernel
  refine hμ.le_of_lt (ν := 2 ^ 50) ?_
  have hk : 309 ≤ d.exponent.natAbs := by omega
  have hten : (10 : ℚ) ^ 309 ≤ 10 ^ d.exponent.natAbs := pow_le_pow_right₀ (by norm_num) hk
  have htwo : (d.significand : ℚ) ≤ 2 := by exact_mod_cast Nat.lt_succ_iff.mp hsmall
  rw [value_eq_div (k := d.exponent.natAbs) (by omega), inHalves, div_mul_eq_mul_div,
    div_lt_iff₀ (by positivity)]
  calc (d.significand : ℚ) * 2 ^ 1075 ≤ 2 * 2 ^ 1075 := by gcongr
    _ < (halfway (2 ^ 50 + 1) * 10 ^ 309 : ℚ) := by exact_mod_cast hclosed
    _ ≤ (halfway (2 ^ 50 + 1) * 10 ^ d.exponent.natAbs : ℚ) := by gcongr

/-- **The number that is read is near**: as many magnitudes away as there are roundings before the
last step, at most. -/
theorem near_lastStep (h : d.InRange) (hμ : IsNearest μ d.value) (hν : IsNearest ν d.lastStep) :
    μ ≤ ν + d.roundings ∧ ν ≤ μ + d.roundings := by
  by_cases hlow : -308 ≤ d.exponent
  · exact hμ.drift hν (.inl rfl) (within_oneStep h hlow)
  rw [not_le] at hlow
  by_cases hdigits : 3 ≤ d.significand
  · -- The first quotient is a normal number.
    have hlarge := lt_inHalves_quotient (m := halfway (2 ^ 52 + 1))
      (le_value_ofNat hdigits (by decide) h.significand_le) (by decide +kernel)
    exact hμ.drift hν (.inl rfl) (within_twoSteps le_rfl h hlow hlarge)
  · -- The first quotient has fewer digits, and so have the numbers near by.
    have hlarge := lt_inHalves_quotient (m := halfway (2 ^ 50 + 1))
      (le_value_ofNat (h.significand_pos hlow) (by decide) h.significand_le) (by decide +kernel)
    have hsmall := magnitude_lt_of_small hlow (not_le.mp hdigits) hμ
    have hroundings : d.roundings = 2 := by
      rw [roundings, digitRoundings, if_pos (by omega), if_neg (not_le.mpr hlow)]
    refine hμ.drift hν (.inr ⟨by decide, ?_⟩) (within_twoSteps (by decide) h hlow hlarge)
    rw [hroundings]
    omega

end Decimal

/-! ### Numbers that are read again -/

namespace Binary64

variable {f : Binary64}

/-- The number that is read from the text of a finite number. -/
def reread (f : Binary64) : Binary64 :=
  (scaled? f.isNegative f.written.significand f.written.exponent).getD f

/-- The two largest magnitudes are read as finite ones. -/
private theorem isSome_scale_largest (negative : Bool) :
    ∀ μ ∈ [infinityMagnitude - 2, infinityMagnitude - 1],
      (Json.Numeral.scale 3 (ofNat (ofMagnitude negative μ).written.significand)
        (ofMagnitude negative μ).written.exponent).isSome = true := by
  cases negative <;> decide +kernel

/-- **A finite number is read again as a finite one**, with its sign. -/
theorem exists_reread (hfinite : f.isFinite = true) : ∃ μ, IsNearest μ f.written.lastStep ∧
    μ < infinityMagnitude ∧
    scaled? f.isNegative f.written.significand f.written.exponent =
      some (ofMagnitude f.isNegative μ) := by
  have hrange := inRange_written hfinite
  obtain ⟨μ, hμ, hquotient, hscale⟩ := Json.Numeral.exists_scale hrange
  have hμfinite : μ < infinityMagnitude := by
    obtain hlow | hhigh := lt_or_ge f.written.exponent 0
    · exact hquotient hlow
    by_contra hinfinite
    -- At most two roundings lead from the number to infinity, but the largest ones stay finite.
    have hnear := (Decimal.near_lastStep hrange f.isNearest_written hμ).2
    have hroundings : f.written.roundings ≤ 2 := by
      rw [Decimal.roundings, if_pos (show -308 ≤ f.written.exponent by omega)]
      exact Nat.add_le_add (Decimal.digitRoundings_le _) (Decimal.powerRoundings_le _)
    have hless := isFinite_iff.mp hfinite
    have hlargest := isSome_scale_largest f.isNegative f.magnitude (by
      simp only [List.mem_cons, List.not_mem_nil, or_false]
      omega)
    rw [ofMagnitude_magnitude, hscale, if_neg hinfinite] at hlargest
    exact Bool.false_ne_true hlargest
  refine ⟨μ, hμ, hμfinite, ?_⟩
  rw [scaled?, hscale, if_pos hμfinite, Option.map_some]
  cases f.isNegative with
  | false => rfl
  | true => exact congrArg some (neg_ofMagnitude hμfinite)

theorem scaled?_written (hfinite : f.isFinite = true) :
    scaled? f.isNegative f.written.significand f.written.exponent = some f.reread := by
  obtain ⟨μ, -, -, hscaled⟩ := exists_reread hfinite
  rw [reread, hscaled, Option.getD_some]

/-- A number that is read again: it is finite with the same sign, it is the one nearest to the last
step, and it is as many magnitudes away as there were roundings before, at most. -/
theorem reread_spec (hfinite : f.isFinite = true) : f.reread.isFinite = true ∧
    f.reread.isNegative = f.isNegative ∧ IsNearest f.reread.magnitude f.written.lastStep ∧
    f.reread.magnitude ≤ f.magnitude + f.written.roundings ∧
    f.magnitude ≤ f.reread.magnitude + f.written.roundings := by
  obtain ⟨μ, hμ, hμfinite, hscaled⟩ := exists_reread hfinite
  have hbound : μ < 0x8000000000000000 := hμfinite.trans (by decide)
  have hnear := Decimal.near_lastStep (inRange_written hfinite) f.isNearest_written hμ
  rw [reread, hscaled, Option.getD_some, magnitude_ofMagnitude hbound,
    isNegative_ofMagnitude hbound]
  exact ⟨isFinite_ofMagnitude hμfinite, rfl, hμ, hnear.2, hnear.1⟩

/-- Numbers of one sign and one magnitude are the same. -/
theorem eq_iff {g : Binary64} (h : g.isNegative = f.isNegative) :
    g = f ↔ g.magnitude = f.magnitude := by
  refine ⟨congrArg _, fun hmagnitude => ?_⟩
  rw [← ofMagnitude_magnitude g, h, hmagnitude, ofMagnitude_magnitude]

/-- **A number is kept exactly when it is nearest to the last step.** -/
theorem reread_eq_iff (hfinite : f.isFinite = true) :
    f.reread = f ↔ IsNearest f.magnitude f.written.lastStep := by
  obtain ⟨-, hsign, hnearest, -, -⟩ := reread_spec hfinite
  rw [eq_iff hsign]
  exact ⟨fun h => h ▸ hnearest, fun h => hnearest.unique h⟩

/-- A number is kept when only the last step is rounded. -/
theorem reread_eq_self (hfinite : f.isFinite = true) (h : f.written.roundings = 0) :
    f.reread = f := by
  obtain ⟨-, hsign, -, habove, hbelow⟩ := reread_spec hfinite
  rw [h] at habove hbelow
  exact (eq_iff hsign).mpr (Nat.le_antisymm habove hbelow)

end Binary64

end PlaylistRules
