import PlaylistRules.Proofs.Number.Grid

/-!
# Rounding to nearest

A quotient is rounded to the magnitude whose value is nearest, and to the even one of two that are
equally near. The nearest magnitude is described by the points half way to its neighbours, so that
there is only one.

## Main definitions

* `Binary64.inHalves` : a value as a multiple of half of the smallest positive number.
* `Binary64.IsNearest` : the magnitude that is nearest to a value.

## Main results

* `Number.roundQuotient_near`, `Number.lastPlace_spec` : a rounded quotient and its place.
* `Binary64.IsNearest.unique` : only one magnitude is nearest.
* `Binary64.exists_isNearest_ofRatio` : a quotient is rounded to the nearest magnitude.
-/

namespace PlaylistRules

namespace Number

variable {num den : Nat}

private theorem roundQuotient_spec (num : Nat) (h : 0 < den) :
    2 * roundQuotient num den * den ≤ 2 * num + den ∧
      2 * num ≤ (2 * roundQuotient num den + 1) * den ∧
      (2 * roundQuotient num den * den = 2 * num + den ∨
        2 * num = (2 * roundQuotient num den + 1) * den → roundQuotient num den % 2 = 0) := by
  have hdivision : den * (num / den) + num % den = num := Nat.div_add_mod num den
  have hremainder : num % den < den := Nat.mod_lt num h
  have hdown : 2 * (num / den) * den = 2 * (den * (num / den)) := by ring
  have hdown' : (2 * (num / den) + 1) * den = 2 * (den * (num / den)) + den := by ring
  have hup : 2 * (num / den + 1) * den = 2 * (den * (num / den)) + 2 * den := by ring
  have hup' : (2 * (num / den + 1) + 1) * den = 2 * (den * (num / den)) + 3 * den := by ring
  have hcases : roundQuotient num den = num / den ∧
      (2 * (num % den) < den ∨ 2 * (num % den) = den ∧ num / den % 2 = 0) ∨
      roundQuotient num den = num / den + 1 ∧
      (den < 2 * (num % den) ∨ 2 * (num % den) = den ∧ num / den % 2 = 1) := by
    simp only [roundQuotient]
    split
    · omega
    · split <;> omega
  obtain ⟨hround, hcase⟩ | ⟨hround, hcase⟩ := hcases
  · rw [hround, hdown, hdown']
    omega
  · rw [hround, hup, hup']
    omega

/-- **A rounded quotient** is half a unit away at most, and it is even if it is just that. -/
theorem roundQuotient_near (num : Nat) (h : 0 < den) :
    (2 * roundQuotient num den : ℚ) ≤ 2 * (num / den) + 1 ∧
      (2 * (num / den) : ℚ) ≤ 2 * roundQuotient num den + 1 ∧
      ((2 * roundQuotient num den : ℚ) = 2 * (num / den) + 1 ∨
        (2 * (num / den) : ℚ) = 2 * roundQuotient num den + 1 → roundQuotient num den % 2 = 0) := by
  obtain ⟨hlower, hupper, heven⟩ := roundQuotient_spec num h
  generalize roundQuotient num den = r at *
  have hden : (0 : ℚ) < den := by exact_mod_cast h
  have hdouble : (2 * (num / den) : ℚ) = (2 * num) / den := by ring
  have hsum : (2 * (num / den) + 1 : ℚ) = (2 * num + den) / den := by field_simp
  rw [hsum, hdouble, le_div_iff₀ hden, div_le_iff₀ hden, eq_div_iff hden.ne', div_eq_iff hden.ne']
  exact ⟨by exact_mod_cast hlower, by exact_mod_cast hupper,
    fun htie => heven (by exact_mod_cast htie)⟩

/-- The first binary digit of a positive number. -/
private theorem between_log2 {n : Nat} (h : 0 < n) :
    (2 : ℚ) ^ (n.log2 : Int) ≤ n ∧ (n : ℚ) < 2 ^ (n.log2 + 1 : Int) := by
  rw [← Nat.cast_succ, zpow_natCast, zpow_natCast]
  exact ⟨by exact_mod_cast Nat.log2_self_le h.ne', by exact_mod_cast Nat.lt_log2_self⟩

/-- **The last place of a quotient** leaves it with just the digits that are asked for. -/
theorem lastPlace_spec (bits : Nat) (hnum : 0 < num) (hden : 0 < den) :
    (2 : ℚ) ^ (bits + lastPlace bits num den) ≤ num / den ∧
      (num / den : ℚ) < 2 ^ (bits + lastPlace bits num den + 1) := by
  have htwo : (0 : ℚ) < 2 ^ bits := by positivity
  -- Without the digits that are asked for, the place is that of the first digit.
  have hfirst : (lastPlace bits num den : Int) =
      if (2 : ℚ) ^ ((num.log2 : Int) - den.log2 - bits) ≤ num / (den * 2 ^ bits : Nat) then
        (num.log2 : Int) - den.log2 - bits else (num.log2 : Int) - den.log2 - bits - 1 := by
    have htest := mul_pow_toNat_le_iff Nat.two_pos num
      (Nat.mul_pos hden (Nat.two_pow_pos bits)) ((num.log2 : Int) - den.log2 - bits)
    simp only [lastPlace, Nat.shiftLeft_eq, htest, Nat.cast_ofNat]
  have hquotient : (num / (den * 2 ^ bits : Nat) : ℚ) = num / den / 2 ^ bits := by
    push_cast
    rw [div_div]
  rw [hquotient] at hfirst
  have hbetween := div_between_zpow (by norm_num) (between_log2 hnum) (between_log2 hden)
  have hdown : (num.log2 : Int) - den.log2 - bits - 1 + bits = num.log2 - den.log2 - 1 := by ring
  have hup : (num.log2 : Int) - den.log2 - bits + 1 + bits = num.log2 - den.log2 + 1 := by ring
  have hguess : (2 : ℚ) ^ ((num.log2 : Int) - den.log2 - bits - 1) ≤ num / den / 2 ^ bits ∧
      (num / den / 2 ^ bits : ℚ) < 2 ^ ((num.log2 : Int) - den.log2 - bits + 1) := by
    rwa [le_div_iff₀ htwo, div_lt_iff₀ htwo, ← zpow_natCast, ← zpow_add₀ (by norm_num),
      ← zpow_add₀ (by norm_num), hdown, hup]
  have hplace := zpow_guess hguess
  rwa [← hfirst, le_div_iff₀ htwo, div_lt_iff₀ htwo, ← zpow_natCast, ← zpow_add₀ (by norm_num),
    ← zpow_add₀ (by norm_num), Int.add_comm _ (bits : Int), Int.add_right_comm,
    Int.add_comm _ (bits : Int)] at hplace

end Number

namespace Binary64

variable {μ ν k s : Nat} {q r : ℚ}

/-- A value as a multiple of half of the smallest positive number. -/
def inHalves (q : ℚ) : ℚ :=
  q * 2 ^ 1075

theorem inHalves_units (μ : Nat) : inHalves (units μ / 2 ^ 1074) = (2 * units μ : Nat) := by
  rw [inHalves, pow_succ]
  push_cast
  field_simp

theorem inHalves_mul (q r : ℚ) : inHalves (q * r) = q * inHalves r :=
  mul_assoc ..

theorem inHalves_le_inHalves : inHalves q ≤ inHalves r ↔ q ≤ r := by
  have hpower : (0 : ℚ) < 2 ^ 1075 := by positivity
  exact mul_le_mul_iff_left₀ hpower

theorem inHalves_inj : inHalves q = inHalves r ↔ q = r := by
  rw [le_antisymm_iff, inHalves_le_inHalves, inHalves_le_inHalves, ← le_antisymm_iff]

theorem inHalves_value (f : Binary64) : inHalves f.value = (2 * units f.magnitude : Nat) := by
  rw [value_eq, inHalves_units]

/-- A magnitude is nearest to a value when the value lies between the points half way to its
neighbours. A point half way belongs to the even magnitude. -/
structure IsNearest (μ : Nat) (q : ℚ) : Prop where
  lower : halfway μ ≤ inHalves q
  upper : inHalves q ≤ halfway (μ + 1)
  even : inHalves q = halfway μ ∨ inHalves q = halfway (μ + 1) → μ % 2 = 0

/-- A magnitude is nearest to its value. -/
theorem isNearest_units (μ : Nat) : IsNearest μ (units μ / 2 ^ 1074) := by
  obtain ⟨hlower, hupper⟩ := halfway_le_units μ
  refine ⟨?_, ?_, ?_⟩ <;> rw [inHalves_units]
  · exact_mod_cast hlower
  · exact_mod_cast hupper.le
  · rintro (heq | heq)
    · obtain rfl : μ = 0 := by
        by_contra hne
        exact (halfway_lt_units (Nat.pos_of_ne_zero hne)).ne' (by exact_mod_cast heq)
      rfl
    · exact absurd (by exact_mod_cast heq) hupper.ne

theorem isNearest_zero : IsNearest 0 0 := by
  have hunits := isNearest_units 0
  rwa [show units 0 = 0 by decide, Nat.cast_zero, zero_div] at hunits

/-- A value that is closer to a magnitude than half of the distances to the neighbours. -/
theorem isNearest_of_abs_lt (hbelow : |inHalves q - 2 * units (μ + 1)| < units (μ + 1) - units μ)
    (habove : |inHalves q - 2 * units (μ + 1)| < units (μ + 1 + 1) - units (μ + 1)) :
    IsNearest (μ + 1) q := by
  have hlower : (halfway (μ + 1) : ℚ) < inHalves q := by
    rw [halfway, Nat.cast_add]
    linarith [(abs_lt.mp hbelow).1]
  have hupper : inHalves q < halfway (μ + 1 + 1) := by
    rw [halfway, Nat.cast_add]
    linarith [(abs_lt.mp habove).2]
  exact ⟨hlower.le, hupper.le, fun h => absurd h (not_or.mpr ⟨hlower.ne', hupper.ne⟩)⟩

/-- **Only one magnitude is nearest to a value.** -/
theorem IsNearest.unique (h : IsNearest μ q) (h' : IsNearest ν q) : μ = ν := by
  have hle : ∀ {μ ν}, IsNearest μ q → IsNearest ν q → μ ≤ ν := by
    intro μ ν h h'
    by_contra hlt
    rw [not_le] at hlt
    have hcast : halfway μ ≤ halfway (ν + 1) := by exact_mod_cast h.lower.trans h'.upper
    have hnext : μ = ν + 1 :=
      Nat.le_antisymm (halfway_strictMono.le_iff_le.mp hcast) hlt
    -- The value is the point between the two, which cannot both be even.
    have hpoint : inHalves q = halfway μ := le_antisymm (hnext ▸ h'.upper) h.lower
    have heven := h.even (.inl hpoint)
    have heven' := h'.even (.inr (hnext ▸ hpoint))
    omega
  exact Nat.le_antisymm (hle h h') (hle h' h)

/-- A magnitude nearest to a value is not above another one if the value is below the point half way
to the next. -/
theorem IsNearest.le_of_lt (h : IsNearest μ q) (hq : inHalves q < halfway (ν + 1)) : μ ≤ ν := by
  have hlt : halfway μ < halfway (ν + 1) := by exact_mod_cast h.lower.trans_lt hq
  exact Nat.le_of_lt_succ (halfway_strictMono.lt_iff_lt.mp hlt)

theorem IsNearest.le_of_gt (h : IsNearest μ q) (hq : halfway ν < inHalves q) : ν ≤ μ := by
  have hlt : halfway ν < halfway (μ + 1) := by exact_mod_cast hq.trans_le h.upper
  exact Nat.le_of_lt_succ (halfway_strictMono.lt_iff_lt.mp hlt)

/-- A value is positive when its nearest magnitude is not zero. -/
theorem IsNearest.pos (h : IsNearest μ q) (hμ : 0 < μ) : 0 < q := by
  have hpoint : (0 : ℚ) < halfway μ := by exact_mod_cast halfway_strictMono hμ
  by_contra hle
  rw [not_lt, ← inHalves_le_inHalves, inHalves, inHalves, zero_mul] at hle
  exact absurd (hpoint.trans_le h.lower) (not_lt.mpr hle)

/-- A rounded value is twice the value at most. -/
theorem IsNearest.units_le (h : IsNearest μ q) : units μ / 2 ^ 1074 ≤ 2 * q := by
  have hpoint : units μ ≤ halfway μ := by
    cases μ with
    | zero => exact le_rfl
    | succ μ => exact Nat.le_add_left _ _
  have hcast : (units μ : ℚ) ≤ inHalves q := le_trans (by exact_mod_cast hpoint) h.lower
  rw [div_le_iff₀ (by positivity)]
  calc (units μ : ℚ) ≤ inHalves q := hcast
    _ = 2 * q * 2 ^ 1074 := by rw [inHalves, pow_succ', ← mul_assoc, mul_comm q]

/-- A value with a finite nearest magnitude is below the power of ten that follows the largest
number. -/
theorem IsNearest.lt_ten_pow (h : IsNearest μ q) (hμ : μ < infinityMagnitude) :
    q < 10 ^ 309 := by
  have hlargest : halfway infinityMagnitude < 10 ^ 309 * 2 ^ 1075 := by decide +kernel
  have hpoint : halfway (μ + 1) ≤ halfway infinityMagnitude := halfway_strictMono.monotone hμ
  by_contra hle
  rw [not_lt, ← inHalves_le_inHalves] at hle
  have hvalue : (10 : ℚ) ^ 309 * 2 ^ 1075 ≤ halfway infinityMagnitude :=
    (hle.trans h.upper).trans (by exact_mod_cast hpoint)
  exact absurd (by exact_mod_cast hvalue) (not_le.mpr hlargest)

/-! ### Rounding -/

/-- A value that is rounded up to a significand at a place is not above the next point half way. -/
private theorem le_halfway_place {y : ℚ} (hs : s ≤ 0x20000000000000)
    (hfull : 0x10000000000000 ≤ s ∨ k = 0) (hupper : 2 * y ≤ 2 * s + 1)
    (hlt : y < 0x20000000000000) :
    2 * y * 2 ^ k ≤ halfway (k * 0x10000000000000 + s + 1) ∧
      (2 * y * 2 ^ k = halfway (k * 0x10000000000000 + s + 1) → 2 * y = 2 * s + 1) := by
  have hpower : (0 : ℚ) < 2 ^ k := by positivity
  obtain hlt' | rfl := Nat.lt_or_eq_of_le hs
  · rw [halfway_place hlt' hfull]
    push_cast
    exact ⟨by gcongr, mul_right_cancel₀ hpower.ne'⟩
  · -- The value is below the magnitude itself.
    have hbelow : 2 * y * 2 ^ k < (2 * units (k * 0x10000000000000 + 0x20000000000000) : Nat) := by
      rw [units_place hs hfull]
      push_cast
      nlinarith
    have hpoint := hbelow.trans (Nat.cast_lt.mpr (halfway_le_units _).2)
    exact ⟨hpoint.le, fun htie => absurd htie hpoint.ne⟩

/-- A value that is rounded down to a significand at a place is not below the point half way. -/
private theorem halfway_place_le {y : ℚ} (hs : s ≤ 0x20000000000000)
    (hfull : 0x10000000000000 ≤ s ∨ k = 0) (hpos : 0 < s) (hlower : (2 * s : ℚ) ≤ 2 * y + 1)
    (hk : 0x10000000000000 ≤ y ∨ k = 0) :
    halfway (k * 0x10000000000000 + s) ≤ 2 * y * 2 ^ k ∧
      (2 * y * 2 ^ k = halfway (k * 0x10000000000000 + s) → (2 * s : ℚ) = 2 * y + 1) := by
  have hpower : (0 : ℚ) < 2 ^ k := by positivity
  by_cases hplace : 0x10000000000000 ≤ s - 1 ∨ k = 0
  · have hpoint : (halfway (k * 0x10000000000000 + s) : ℚ) = (2 * s - 1) * 2 ^ k := by
      obtain ⟨s, rfl⟩ := Nat.exists_eq_succ_of_ne_zero hpos.ne'
      rw [Nat.succ_eq_add_one, Nat.add_sub_cancel] at hplace
      rw [Nat.succ_eq_add_one, ← Nat.add_assoc, halfway_place (by omega) hplace]
      push_cast
      ring
    rw [hpoint]
    refine ⟨by gcongr; linarith, fun htie => ?_⟩
    linarith [mul_right_cancel₀ hpower.ne' htie]
  · -- The magnitude is a power of two, and the value is not below it.
    obtain rfl : s = 0x10000000000000 := by omega
    have hdigits : (0x10000000000000 : ℚ) ≤ y := hk.resolve_right fun h => hplace (.inr h)
    have hpoint : (halfway (k * 0x10000000000000 + 0x10000000000000) : ℚ) < 2 * y * 2 ^ k := by
      refine (Nat.cast_lt.mpr (halfway_lt_units (by omega))).trans_le ?_
      rw [units_place hs hfull]
      push_cast
      nlinarith
    exact ⟨hpoint.le, fun htie => absurd htie hpoint.ne'⟩

/-- A significand that was rounded at a place is the nearest magnitude, if the place is the one of
the digits or the lowest. -/
theorem isNearest_place {y : ℚ} (hy : 0 ≤ y) (hlower : (2 * s : ℚ) ≤ 2 * y + 1)
    (hupper : 2 * y ≤ 2 * s + 1) (heven : (2 * s : ℚ) = 2 * y + 1 ∨ 2 * y = 2 * s + 1 → s % 2 = 0)
    (hlt : y < 0x20000000000000) (hk : 0x10000000000000 ≤ y ∨ k = 0)
    (hq : inHalves q = 2 * y * 2 ^ k) : IsNearest (k * 0x10000000000000 + s) q := by
  have hs : s ≤ 0x20000000000000 := by
    have hcast : (2 * s : ℚ) < (2 * 0x20000000000000 + 1 : Nat) := by push_cast; linarith
    have : 2 * s < 2 * 0x20000000000000 + 1 := by exact_mod_cast hcast
    omega
  have hfull : 0x10000000000000 ≤ s ∨ k = 0 := hk.imp_left fun hdigits => by
    have hcast : ((2 * 0x10000000000000 : Nat) : ℚ) ≤ (2 * s + 1 : Nat) := by push_cast; linarith
    have : 2 * 0x10000000000000 ≤ 2 * s + 1 := by exact_mod_cast hcast
    omega
  have hparity : s % 2 = 0 → (k * 0x10000000000000 + s) % 2 = 0 := by omega
  obtain ⟨habove, htie⟩ := le_halfway_place hs hfull hupper hlt
  rw [← hq] at habove htie
  obtain rfl | hpos := Nat.eq_zero_or_pos s
  · obtain rfl : k = 0 := hfull.resolve_left (by omega)
    have hnonneg : (halfway (0 * 0x10000000000000 + 0) : ℚ) ≤ inHalves q := by
      rw [hq, halfway, Nat.cast_zero]
      positivity
    exact ⟨hnonneg, habove, fun _ => rfl⟩
  · obtain ⟨hbelow, htie'⟩ := halfway_place_le hs hfull hpos hlower hk
    rw [← hq] at hbelow htie'
    exact ⟨hbelow, habove, fun h => hparity (heven (h.imp htie' htie))⟩

/-- **A quotient is rounded to the nearest magnitude**, or to infinity if that is above the finite
ones. -/
theorem exists_isNearest_ofRatio (negative : Bool) (num : Nat) {den : Nat} (hden : 0 < den) :
    ∃ μ, IsNearest μ (num / den) ∧
      ofRatio negative num den = ofMagnitude negative (min infinityMagnitude μ) := by
  obtain rfl | hnum := Nat.eq_zero_or_pos num
  · refine ⟨0, ?_, by rw [ofRatio, if_pos rfl, Nat.min_eq_right (Nat.zero_le _)]⟩
    rw [Nat.cast_zero, zero_div]
    exact isNearest_zero
  obtain ⟨hlow, hhigh⟩ := Number.lastPlace_spec 52 hnum hden
  have htwo : (2 : ℚ) ≠ 0 := by norm_num
  generalize hplace : placeExponent num den = place
  have hlast : Number.lastPlace 52 num den ≤ place ∧ -1074 ≤ place ∧
      (place = Number.lastPlace 52 num den ∨ place = -1074) := by
    unfold placeExponent at hplace
    omega
  generalize Number.lastPlace 52 num den = last at hlow hhigh hlast
  obtain ⟨hle, hbottom, hcase⟩ := hlast
  have hpower : (0 : ℚ) < 2 ^ place := by positivity
  have hshift : ((num <<< (-place).toNat : Nat) : ℚ) / (den <<< place.toNat : Nat) =
      num / den / 2 ^ place := by
    rw [← pow_toNat_div htwo place, Nat.shiftLeft_eq, Nat.shiftLeft_eq]
    push_cast
    field_simp
  have hpos : 0 < den <<< place.toNat := by
    rw [Nat.shiftLeft_eq]
    positivity
  obtain ⟨hdown, hup, heven⟩ := Number.roundQuotient_near (num <<< (-place).toNat) hpos
  rw [hshift] at hdown hup heven
  refine ⟨_, isNearest_place (k := (place + 1074).toNat) (by positivity) hdown hup heven ?_ ?_ ?_,
    ?_⟩
  · rw [div_lt_iff₀ hpower]
    calc (num / den : ℚ) < 2 ^ ((52 : Nat) + last + 1 : Int) := hhigh
      _ ≤ 2 ^ (53 + place : Int) := zpow_le_zpow_right₀ (by norm_num) (by omega)
      _ = 0x20000000000000 * 2 ^ place := by rw [zpow_add₀ htwo]; norm_num
  · refine hcase.imp (fun hsame => ?_) (fun hlowest => by omega)
    rw [le_div_iff₀ hpower]
    calc (0x10000000000000 : ℚ) * 2 ^ place = 2 ^ ((52 : Nat) + last : Int) := by
          rw [hsame, zpow_add₀ htwo]; norm_num
      _ ≤ num / den := hlow
  · have hfull : (2 : ℚ) ^ (1075 : Nat) = 2 * 2 ^ (place + 1074).toNat / 2 ^ place := by
      rw [← zpow_natCast, ← zpow_natCast, Int.toNat_of_nonneg (by omega), mul_div_assoc,
        ← zpow_sub₀ htwo, ← zpow_one_add₀ htwo]
      congr 1
      omega
    rw [inHalves, hfull]
    field_simp
  · rw [ofRatio, if_neg hnum.ne']
    simp only [hplace, Nat.shiftLeft_eq]

end Binary64

end PlaylistRules
