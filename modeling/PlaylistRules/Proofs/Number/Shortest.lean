import PlaylistRules.Number.Shortest
import PlaylistRules.Proofs.Number.Nearest

/-!
# The shortest decimal

The decimal that is written for a finite number has at most seventeen digits, and the number is the
nearest one to it. On the grid of seventeen digits the nearer neighbour of the value is always close
enough, and so it is on the grid of the power `-324`, which is finer than the smallest positive
number; the search ends there or before.

## Main definitions

* `Decimal.value` : the value of a decimal.

## Main results

* `Decimal.leadingExponent_spec` : the power of ten of the first digit of a quotient.
* `RoundingInterval.contains_of_iff` : the decimals in the interval of a number.
* `RoundingInterval.search_spec` : the decimal that is found.
* `Binary64.isNearest_shortest` : a number is nearest to its shortest decimal.
* `Binary64.shortest_bounds` : the digits and the power of the shortest decimal.
-/

namespace PlaylistRules

open Binary64 (IsNearest halfway halfway_place inHalves inHalves_inj inHalves_le_inHalves units
  units_place scale)

namespace Decimal

variable {num den n fuel : Nat} {d : Decimal}

/-- The value of a decimal. -/
def value (d : Decimal) : ℚ :=
  d.significand * 10 ^ d.exponent

/-! ### Digits and powers -/

/-- The power of ten of the first digit of a natural number. -/
theorem between_toDigits (h : 0 < n) :
    (10 : ℚ) ^ ((Nat.toDigits 10 n).length - 1 : Int) ≤ n ∧
      (n : ℚ) < 10 ^ ((Nat.toDigits 10 n).length - 1 + 1 : Int) := by
  obtain ⟨k, hk⟩ := Nat.exists_eq_succ_of_ne_zero
    (List.length_pos_of_ne_nil (Nat.toDigits_ne_nil (b := 10) (n := n))).ne'
  have hupper : n < 10 ^ (k + 1) :=
    (Nat.length_toDigits_le_iff (by decide) k.succ_pos).mp hk.le
  have hlower : 10 ^ k ≤ n := by
    obtain rfl | hpos := Nat.eq_zero_or_pos k
    · exact h
    · exact not_lt.mp fun hlt =>
        absurd ((Nat.length_toDigits_le_iff (by decide) hpos).mpr hlt) (by omega)
  rw [hk, Nat.succ_eq_add_one, Nat.cast_add_one, add_sub_cancel_right, ← Nat.cast_add_one,
    zpow_natCast, zpow_natCast]
  exact ⟨by exact_mod_cast hlower, by exact_mod_cast hupper⟩

/-- **The power of ten of the first digit** of a quotient. -/
theorem leadingExponent_spec (hnum : 0 < num) (hden : 0 < den) :
    (10 : ℚ) ^ leadingExponent num den ≤ num / den ∧
      (num / den : ℚ) < 10 ^ (leadingExponent num den + 1) := by
  have hguess := div_between_zpow (by norm_num) (between_toDigits hnum) (between_toDigits hden)
  rw [sub_sub_sub_cancel_right] at hguess
  have hfirst : leadingExponent num den =
      if (10 : ℚ) ^ ((Nat.toDigits 10 num).length - (Nat.toDigits 10 den).length : Int) ≤ num / den
      then ((Nat.toDigits 10 num).length - (Nat.toDigits 10 den).length : Int)
      else ((Nat.toDigits 10 num).length - (Nat.toDigits 10 den).length : Int) - 1 := by
    have htest := mul_pow_toNat_le_iff (show 0 < 10 by decide) num hden
      ((Nat.toDigits 10 num).length - (Nat.toDigits 10 den).length)
    simp only [leadingExponent, Nat.pow_eq, htest, Nat.cast_ofNat]
  rw [hfirst]
  exact zpow_guess hguess

/-- Zeros are taken from the significand to the power. -/
theorem stripZeros_spec (fuel : Nat) (d : Decimal) :
    (d.stripZeros fuel).value = d.value ∧ (d.stripZeros fuel).significand ≤ d.significand ∧
      d.exponent ≤ (d.stripZeros fuel).exponent := by
  induction fuel generalizing d with
  | zero => exact ⟨rfl, le_rfl, le_rfl⟩
  | succ fuel ih =>
    rw [stripZeros]
    split
    · next hzero =>
      obtain ⟨hvalue, hsignificand, hexponent⟩ := ih ⟨d.significand / 10, d.exponent + 1⟩
      rw [Bool.and_eq_true, decide_eq_true_eq] at hzero
      have htens : d.significand = 10 * (d.significand / 10) := by omega
      refine ⟨?_, hsignificand.trans (Nat.div_le_self _ _), by
        exact (Int.le_add_one le_rfl).trans hexponent⟩
      rw [hvalue, value, value, zpow_add_one₀ (by norm_num)]
      conv_rhs => rw [htens]
      push_cast
      ring
    · exact ⟨rfl, le_rfl, le_rfl⟩

end Decimal

namespace RoundingInterval

variable {interval : RoundingInterval} {tie : Tie} {d : Decimal} {e first : Int} {fuel n : Nat}

/-! ### Comparisons -/

private theorem value_eq_div (d : Decimal) :
    d.value = (d.significand * 10 ^ d.exponent.toNat) / 10 ^ (-d.exponent).toNat := by
  rw [Decimal.value, mul_div_assoc, pow_toNat_div (by norm_num)]

/-- A quotient is compared with a decimal by products. -/
theorem le_value_iff (hden : 0 < interval.denominator) :
    n * Nat.pow 10 (-d.exponent).toNat ≤
      d.significand * Nat.pow 10 d.exponent.toNat * interval.denominator ↔
    (n / interval.denominator : ℚ) ≤ d.value := by
  have hcast : (0 : ℚ) < interval.denominator := by exact_mod_cast hden
  rw [value_eq_div, div_le_div_iff₀ hcast (by positivity)]
  exact_mod_cast Iff.rfl

theorem value_le_iff (hden : 0 < interval.denominator) :
    d.significand * Nat.pow 10 d.exponent.toNat * interval.denominator ≤
      n * Nat.pow 10 (-d.exponent).toNat ↔
    d.value ≤ (n / interval.denominator : ℚ) := by
  have hcast : (0 : ℚ) < interval.denominator := by exact_mod_cast hden
  rw [value_eq_div, div_le_div_iff₀ (by positivity) hcast]
  exact_mod_cast Iff.rfl

/-- A decimal lies in an interval when it lies between the ends. -/
theorem contains_iff (hden : 0 < interval.denominator) : interval.contains d = true ↔
    (interval.lower / interval.denominator : ℚ) ≤ d.value ∧
      d.value ≤ interval.upper / interval.denominator ∧
      (d.value = interval.lower / interval.denominator ∨
        d.value = interval.upper / interval.denominator → interval.closed = true) := by
  rw [contains]
  cases hclosed : interval.closed with
  | true =>
    simp only [if_true, Bool.and_eq_true, decide_eq_true_eq, le_value_iff hden, value_le_iff hden,
      implies_true, and_true]
  | false =>
    simp only [Bool.false_eq_true, if_false, Bool.and_eq_true, decide_eq_true_eq,
      ← not_le (a := _ * Nat.pow 10 _ * _), ← not_le (b := _ * Nat.pow 10 _ * _), le_value_iff hden,
      value_le_iff hden, not_le]
    constructor
    · rintro ⟨hlower, hupper⟩
      exact ⟨hlower.le, hupper.le, fun h => h.elim hlower.ne' hupper.ne⟩
    · rintro ⟨hlower, hupper, hne⟩
      exact ⟨lt_of_le_of_ne hlower fun h => hne (.inl h.symm),
        lt_of_le_of_ne hupper fun h => hne (.inr h)⟩

/-! ### The nearer neighbour -/

/-- The decimal below a value on a grid, and the one above. -/
theorem floorOn_spec (hden : 0 < interval.denominator) (e : Int) :
    (interval.floorOn e).value ≤ interval.middle / interval.denominator ∧
      (interval.middle / interval.denominator : ℚ) <
        Decimal.value ⟨(interval.floorOn e).significand + 1, e⟩ := by
  have hscaled : 0 < interval.denominator * Nat.pow 10 e.toNat :=
    Nat.mul_pos hden (Nat.pow_pos (by decide))
  rw [← value_le_iff hden, ← not_le, ← value_le_iff hden, not_le]
  simp only [floorOn]
  rw [Nat.mul_assoc, Nat.mul_assoc, Nat.mul_comm (Nat.pow 10 e.toNat)]
  exact ⟨Nat.div_mul_le_self _ _, Nat.lt_mul_of_div_lt (Nat.lt_succ_self _) hscaled⟩

/-- On a grid sixteen places below the first digit of a value, or on a coarser one, the decimal
below the value has seventeen digits at most. -/
theorem significand_floorOn_lt (hden : 0 < interval.denominator)
    (hnext : (interval.middle / interval.denominator : ℚ) < 10 ^ (first + 1))
    (he : first - 16 ≤ e) : (interval.floorOn e).significand < 10 ^ 17 := by
  have hfloor : ((interval.floorOn e).significand * 10 ^ e : ℚ) ≤
      interval.middle / interval.denominator := (floorOn_spec hden e).1
  have hdigits : ((interval.floorOn e).significand * 10 ^ e : ℚ) < 10 ^ 17 * 10 ^ e :=
    calc _ ≤ (interval.middle / interval.denominator : ℚ) := hfloor
      _ < 10 ^ (first + 1) := hnext
      _ ≤ 10 ^ (17 + e) := zpow_le_zpow_right₀ (by norm_num) (by omega)
      _ = 10 ^ 17 * 10 ^ e := by rw [zpow_add₀ (by norm_num), zpow_ofNat]
  exact_mod_cast lt_of_mul_lt_mul_right hdigits (by positivity)

/-- The value half way between two neighbours on a grid. -/
private theorem double_lt_iff (hden : 0 < interval.denominator) (below : Decimal) :
    (2 * interval.middle * Nat.pow 10 (-below.exponent).toNat <
        (2 * below.significand + 1) * Nat.pow 10 below.exponent.toNat * interval.denominator ↔
      (interval.middle / interval.denominator : ℚ) < below.value + 10 ^ below.exponent / 2) ∧
    ((2 * below.significand + 1) * Nat.pow 10 below.exponent.toNat * interval.denominator <
        2 * interval.middle * Nat.pow 10 (-below.exponent).toNat ↔
      below.value + 10 ^ below.exponent / 2 < (interval.middle / interval.denominator : ℚ)) := by
  have htwice : (2 * interval.middle : Nat) / (interval.denominator : ℚ) =
      2 * (interval.middle / interval.denominator) := by
    rw [Nat.cast_mul, Nat.cast_two, mul_div_assoc]
  have hpoint : Decimal.value ⟨2 * below.significand + 1, below.exponent⟩ =
      2 * (below.value + 10 ^ below.exponent / 2) := by
    simp only [Decimal.value]
    push_cast
    ring
  have hle := value_le_iff (d := ⟨2 * below.significand + 1, below.exponent⟩)
    (n := 2 * interval.middle) hden
  have hge := le_value_iff (d := ⟨2 * below.significand + 1, below.exponent⟩)
    (n := 2 * interval.middle) hden
  rw [htwice, hpoint] at hle hge
  simp only [mul_le_mul_iff_right₀ (two_pos : (0 : ℚ) < 2)] at hle hge
  exact ⟨not_le.symm.trans (hle.not.trans not_le), not_le.symm.trans (hge.not.trans not_le)⟩

/-- The lower neighbour is taken when the value is not above the point half way, and the upper one
when it is not below. -/
private theorem nearer_cases (hden : 0 < interval.denominator) (tie : Tie) (below : Decimal) :
    (interval.nearer tie below = below ∧
        (interval.middle / interval.denominator : ℚ) ≤ below.value + 10 ^ below.exponent / 2) ∨
      (interval.nearer tie below = ⟨below.significand + 1, below.exponent⟩ ∧
        below.value + 10 ^ below.exponent / 2 ≤ (interval.middle / interval.denominator : ℚ)) := by
  obtain ⟨hdown, hup⟩ := double_lt_iff hden below
  simp only [nearer, hdown, hup]
  split
  · next hlt => exact .inl ⟨rfl, hlt.le⟩
  · next hge =>
    split
    · next hlt => exact .inr ⟨rfl, hlt.le⟩
    · next hle =>
      cases tie with
      | up => exact .inr ⟨rfl, not_lt.mp hge⟩
      | toEven =>
        dsimp only
        split
        · exact .inl ⟨rfl, not_lt.mp hle⟩
        · exact .inr ⟨rfl, not_lt.mp hge⟩

private theorem nearer_neighbour (hden : 0 < interval.denominator) (tie : Tie) (below : Decimal) :
    (interval.nearer tie below).exponent = below.exponent ∧
      (interval.nearer tie below).significand ≤ below.significand + 1 := by
  obtain ⟨hnearer, -⟩ | ⟨hnearer, -⟩ := nearer_cases hden tie below
  · rw [hnearer]
    exact ⟨rfl, Nat.le_succ _⟩
  · rw [hnearer]
    exact ⟨rfl, le_rfl⟩

private theorem value_succ (below : Decimal) :
    Decimal.value ⟨below.significand + 1, below.exponent⟩ = below.value + 10 ^ below.exponent := by
  simp only [Decimal.value]
  push_cast
  ring

/-- **The nearer neighbour** is half a step away at most. -/
theorem nearer_spec (hden : 0 < interval.denominator) (tie : Tie) (e : Int) :
    |(interval.nearer tie (interval.floorOn e)).value - interval.middle / interval.denominator| ≤
      10 ^ e / 2 := by
  obtain ⟨hfloor, hnext⟩ := floorOn_spec hden e
  have habove : Decimal.value ⟨(interval.floorOn e).significand + 1, e⟩ =
      (interval.floorOn e).value + 10 ^ e := value_succ (interval.floorOn e)
  have hcases := nearer_cases hden tie (interval.floorOn e)
  rw [show (interval.floorOn e).exponent = e from rfl] at hcases
  rw [habove] at hnext
  rw [abs_le]
  obtain ⟨hnearer, hhalf⟩ | ⟨hnearer, hhalf⟩ := hcases
  · rw [hnearer]
    constructor <;> linarith
  · rw [hnearer, habove]
    constructor <;> linarith

/-! ### The search -/

/-- What is found on a grid lies in the interval and is a neighbour of the value. -/
theorem onGrid?_eq_some (hden : 0 < interval.denominator) (h : interval.onGrid? tie e = some d) :
    interval.contains d = true ∧ d.exponent = e ∧
      d.significand ≤ (interval.floorOn e).significand + 1 := by
  simp only [onGrid?] at h
  split at h
  · next hbelow habove =>
    cases h
    refine ⟨?_, nearer_neighbour hden tie (interval.floorOn e)⟩
    obtain ⟨hnearer, -⟩ | ⟨hnearer, -⟩ := nearer_cases hden tie (interval.floorOn e)
    · rw [hnearer, hbelow]
    · rw [hnearer]
      exact habove
  · next hbelow _ =>
    cases h
    exact ⟨hbelow, rfl, Nat.le_succ _⟩
  · next _ habove =>
    cases h
    exact ⟨habove, rfl, le_rfl⟩
  · cases h

/-- A grid whose nearer neighbour lies in the interval has a decimal. -/
theorem onGrid?_ne_none (hden : 0 < interval.denominator)
    (h : interval.contains (interval.nearer tie (interval.floorOn e)) = true) :
    interval.onGrid? tie e ≠ none := by
  intro hnone
  simp only [onGrid?] at hnone
  split at hnone
  · cases hnone
  · cases hnone
  · cases hnone
  · next hbelow habove =>
    obtain ⟨hnearer, -⟩ | ⟨hnearer, -⟩ := nearer_cases hden tie (interval.floorOn e)
    · rw [hnearer, hbelow] at h
      cases h
    · rw [hnearer] at h
      exact Bool.noConfusion (habove.symm.trans h)

/-- **The decimal that is found** lies in the interval, if the nearer neighbour does on one of the
grids. It is on that grid or on a coarser one, and a neighbour of the value there. -/
theorem search_spec (hden : 0 < interval.denominator)
    (h : interval.contains (interval.nearer tie (interval.floorOn e)) = true) (hle : e ≤ first)
    (hfuel : first ≤ e + fuel) :
    interval.contains (interval.search tie fuel first) = true ∧
      e ≤ (interval.search tie fuel first).exponent ∧
      (interval.search tie fuel first).significand ≤
        (interval.floorOn (interval.search tie fuel first).exponent).significand + 1 := by
  induction fuel generalizing first with
  | zero =>
    obtain rfl : first = e := by omega
    obtain ⟨hexponent, hsignificand⟩ := nearer_neighbour hden tie (interval.floorOn first)
    rw [search, hexponent]
    exact ⟨h, le_rfl, hsignificand⟩
  | succ fuel ih =>
    rw [search]
    split
    · next d hd =>
      obtain ⟨hcontains, hexponent, hsignificand⟩ := onGrid?_eq_some hden hd
      rw [hexponent]
      exact ⟨hcontains, hle, hsignificand⟩
    · next hnone =>
      have hne : e ≠ first := fun heq => onGrid?_ne_none hden h (heq ▸ hnone)
      exact ih (by omega) (by omega)

/-! ### The interval of a number -/

theorem denominator_of_pos (f : Binary64) : 0 < (of f).denominator := by
  simp only [of, Nat.one_shiftLeft]
  exact Nat.two_pow_pos _

/-- A quarter of the last place of a number. -/
private theorem inHalves_quarters (f : Binary64) (n : Nat) :
    inHalves ((n * (1 <<< (f.exponent - 2).toNat) : Nat) / (of f).denominator) =
      n * 2 ^ scale f.magnitude / 2 := by
  have htwo : (2 : ℚ) ≠ 0 := by norm_num
  have hplace : (2 : ℚ) ^ (f.exponent - 2) * 2 ^ 1075 = 2 ^ scale f.magnitude / 2 := by
    rw [f.significand_eq.2, ← zpow_natCast, ← zpow_natCast, ← zpow_add₀ htwo, eq_div_iff htwo,
      ← zpow_add_one₀ htwo]
    congr 1
    omega
  simp only [inHalves, of, Nat.one_shiftLeft]
  push_cast
  rw [mul_div_assoc, pow_toNat_div htwo, mul_assoc, hplace, mul_div_assoc]

theorem middle_of (f : Binary64) : ((of f).middle / (of f).denominator : ℚ) = f.value := by
  obtain ⟨hmagnitude, hs, hk⟩ := f.magnitude_eq
  have hquarters := inHalves_quarters f (4 * f.significand)
  rw [← inHalves_inj, Binary64.inHalves_value, hmagnitude, units_place hs.le hk]
  refine hquarters.trans ?_
  push_cast
  ring

theorem upper_of (f : Binary64) :
    inHalves ((of f).upper / (of f).denominator) = halfway (f.magnitude + 1) := by
  obtain ⟨hmagnitude, hs, hk⟩ := f.magnitude_eq
  have hquarters := inHalves_quarters f (4 * f.significand + 2)
  rw [hmagnitude, halfway_place hs hk]
  refine hquarters.trans ?_
  push_cast
  ring

private theorem lower_eq (f : Binary64) : (of f).lower = (4 * f.significand -
    if f.significand = 0x10000000000000 ∧ 1 < f.biasedExponent then 1 else 2) *
      (1 <<< (f.exponent - 2).toNat) :=
  rfl

theorem lower_of (f : Binary64) (h : 0 < f.magnitude) :
    inHalves ((of f).lower / (of f).denominator) = halfway f.magnitude := by
  obtain ⟨hmagnitude, hs, hk⟩ := f.magnitude_eq
  have hplace := f.scale_magnitude
  have hpos : 0 < f.significand := by omega
  by_cases hpower : f.significand = 0x10000000000000 ∧ 1 < f.biasedExponent
  · -- Below a power of two the distance is that of the place below.
    have hquarters := inHalves_quarters f (4 * f.significand - 1)
    obtain ⟨k, hscale⟩ := Nat.exists_eq_add_one.mpr (show 0 < scale f.magnitude by omega)
    have hbelow : f.magnitude = k * 0x10000000000000 + 0x1fffffffffffff + 1 :=
      hmagnitude.trans (by rw [hpower.1, hscale]; omega)
    have hpoint := halfway_place (k := k) (s := 0x1fffffffffffff) (by norm_num)
      (.inl (by norm_num))
    rw [lower_eq, if_pos hpower, hquarters, hscale, hpower.1, hbelow, hpoint, pow_succ]
    push_cast
    ring
  · have hquarters := inHalves_quarters f (4 * f.significand - 2)
    obtain ⟨s, hsignificand⟩ := Nat.exists_eq_add_one.mpr hpos
    have hbelow : f.magnitude = scale f.magnitude * 0x10000000000000 + s + 1 :=
      hmagnitude.trans (by rw [hsignificand, Nat.add_assoc])
    have hpoint := halfway_place (k := scale f.magnitude) (s := s) (by omega) (by omega)
    rw [← hbelow] at hpoint
    rw [lower_eq, if_neg hpower, hquarters, hsignificand, hpoint,
      show 4 * (s + 1) - 2 = 2 * (2 * s + 1) by omega]
    push_cast
    ring

theorem closed_of (f : Binary64) : (of f).closed = true ↔ f.magnitude % 2 = 0 := by
  obtain ⟨hmagnitude, -, -⟩ := f.magnitude_eq
  rw [hmagnitude, of, beq_iff_eq]
  omega

/-- **The decimals in the interval of a number** are those it is nearest to. -/
theorem contains_of_iff {f : Binary64} (h : 0 < f.magnitude) :
    (of f).contains d = true ↔ IsNearest f.magnitude d.value := by
  rw [contains_iff (denominator_of_pos f), ← inHalves_le_inHalves,
    ← inHalves_le_inHalves (q := d.value), ← inHalves_inj (q := d.value),
    ← inHalves_inj (r := (of f).upper / (of f).denominator), lower_of f h, upper_of, closed_of]
  exact ⟨fun ⟨hlower, hupper, heven⟩ => ⟨hlower, hupper, heven⟩,
    fun h => ⟨h.lower, h.upper, h.even⟩⟩

end RoundingInterval

namespace Binary64

variable {f : Binary64} {tie : Tie} {q : ℚ} {e : Int}

/-! ### The shortest decimal -/

theorem value_pos (h : 0 < f.magnitude) : 0 < f.value := by
  have hunits : 0 < units f.magnitude := (Nat.zero_le _).trans_lt (units_strictMono h)
  rw [value_eq]
  positivity

/-- The smallest positive number is above the power of ten `-324`. -/
theorem ten_zpow_mul_lt (h : e ≤ -324) : (10 : ℚ) ^ e * 2 ^ 1074 < 1 := by
  have hsmallest : 2 ^ 1074 < 10 ^ 324 := by decide +kernel
  have hcast : (2 ^ 1074 : ℚ) < 10 ^ (324 : Int) := by
    rw [zpow_ofNat]
    exact_mod_cast hsmallest
  calc (10 : ℚ) ^ e * 2 ^ 1074 < 10 ^ e * 10 ^ (324 : Int) := by gcongr
    _ = 10 ^ (e + 324) := (zpow_add₀ (by norm_num) _ _).symm
    _ ≤ 1 := zpow_le_one_of_nonpos₀ (by norm_num) (by omega)

theorem lt_value (h : 0 < f.magnitude) : (10 : ℚ) ^ (-324 : Int) < f.value := by
  have hunits : (1 : ℚ) ≤ units f.magnitude := by
    exact_mod_cast (Nat.zero_le _).trans_lt (units_strictMono h)
  rw [value_eq, lt_div_iff₀ (by positivity)]
  exact (ten_zpow_mul_lt le_rfl).trans_le hunits

/-- A value half a step away at most, on a grid of seventeen digits or on one that is finer than the
smallest positive number, is rounded to the number. -/
theorem isNearest_of_grid (h : 0 < f.magnitude) (he : (10 : ℚ) ^ (e + 16) ≤ f.value ∨ e ≤ -324)
    (hq : |q - f.value| ≤ 10 ^ e / 2) : IsNearest f.magnitude q := by
  have hhalves : |inHalves q - (2 * units f.magnitude : Nat)| ≤ 10 ^ e * 2 ^ 1074 := by
    have hpower : (0 : ℚ) < 2 ^ 1074 := by positivity
    rw [← inHalves_value, inHalves, inHalves, ← sub_mul, abs_mul, pow_succ]
    generalize (2 : ℚ) ^ 1074 = power at *
    rw [abs_of_pos (show 0 < power * 2 by positivity)]
    linarith [mul_le_mul_of_nonneg_right hq hpower.le]
  have hvalue := f.value_eq
  obtain ⟨μ, hμ⟩ := Nat.exists_eq_add_one.mpr h
  rw [hμ] at hhalves hvalue ⊢
  rw [Nat.cast_mul, Nat.cast_two] at hhalves
  -- Both distances to the neighbours are above the step.
  have hstep : ∀ gap : Nat, 0 < gap → units (μ + 1) ≤ 0x20000000000000 * gap →
      (10 : ℚ) ^ e * 2 ^ 1074 < gap := by
    intro gap hpos hgap
    have hunits : (units (μ + 1) : ℚ) ≤ 0x20000000000000 * gap := by exact_mod_cast hgap
    have hone : (1 : ℚ) ≤ gap := by exact_mod_cast hpos
    obtain he | he := he
    · have hdigits : (10 : ℚ) ^ e * 2 ^ 1074 * 10 ^ 16 ≤ units (μ + 1) := by
        rwa [hvalue, le_div_iff₀ (by positivity), zpow_add₀ (by norm_num), zpow_ofNat,
          mul_right_comm] at he
      generalize (10 : ℚ) ^ e * 2 ^ 1074 = step at *
      linarith
    · exact (ten_zpow_mul_lt he).trans_le hone
  have hlt := units_lt_succ μ
  have hlt' := units_lt_succ (μ + 1)
  have hbelow := hstep _ (Nat.sub_pos_of_lt hlt) (units_succ_le μ)
  have habove := hstep _ (Nat.sub_pos_of_lt hlt') (hlt'.le.trans (units_succ_le (μ + 1)))
  rw [Nat.cast_sub hlt.le] at hbelow
  rw [Nat.cast_sub hlt'.le] at habove
  exact isNearest_of_abs_lt (hhalves.trans_lt hbelow) (hhalves.trans_lt habove)

/-- **A number is nearest to its shortest decimal**, which has at most seventeen digits and no power
of ten below `-324`. -/
theorem isNearest_shortest (tie : Tie) (h : 0 < f.magnitude) :
    IsNearest f.magnitude (f.shortest tie).value ∧ (f.shortest tie).significand ≤ 10 ^ 17 ∧
      -324 ≤ (f.shortest tie).exponent := by
  have hden := RoundingInterval.denominator_of_pos f
  have hmiddle := RoundingInterval.middle_of f
  have hnum : 0 < (RoundingInterval.of f).middle := Nat.pos_of_ne_zero fun hzero => by
    rw [hzero, Nat.cast_zero, zero_div] at hmiddle
    exact (value_pos h).ne hmiddle
  obtain ⟨hfirst, hnext⟩ := Decimal.leadingExponent_spec hnum hden
  rw [hmiddle] at hfirst
  rw [shortest]
  generalize Decimal.leadingExponent (RoundingInterval.of f).middle
    (RoundingInterval.of f).denominator = first at *
  have hsmall : -324 ≤ first := by
    have hlt := (zpow_lt_zpow_iff_right₀ (by norm_num)).mp
      ((hmiddle ▸ lt_value h).trans hnext)
    omega
  -- The grid of seventeen digits, or the one below which there are no numbers.
  have hgrid : (10 : ℚ) ^ (max (first - 16) (-324) + 16) ≤ f.value ∨
      max (first - 16) (-324) ≤ -324 := by
    obtain hle | hle := le_total (first - 16) (-324)
    · exact .inr (max_eq_right hle).le
    · rw [max_eq_left hle, sub_add_cancel]
      exact .inl hfirst
  have hnearer := RoundingInterval.nearer_spec hden tie (max (first - 16) (-324))
  rw [hmiddle] at hnearer
  obtain ⟨hcontains, hexponent, hsignificand⟩ := RoundingInterval.search_spec hden
    ((RoundingInterval.contains_of_iff h).mpr (isNearest_of_grid h hgrid hnearer))
    (by omega : _ ≤ first) (by omega : first ≤ _ + (16 : Nat))
  obtain ⟨hvalue, hless, hmore⟩ :=
    Decimal.stripZeros_spec 17 ((RoundingInterval.of f).search tie 16 first)
  generalize (RoundingInterval.of f).search tie 16 first = d at *
  have hdigits := RoundingInterval.significand_floorOn_lt hden hnext
    (show first - 16 ≤ d.exponent by omega)
  exact ⟨hvalue ▸ (RoundingInterval.contains_of_iff h).mp hcontains,
    hless.trans (hsignificand.trans hdigits), by omega⟩

/-- The shortest decimal of a finite number is not zero, and its power of ten is not above `308`. -/
theorem shortest_bounds (tie : Tie) (h : 0 < f.magnitude) (hfinite : f.isFinite = true) :
    0 < (f.shortest tie).significand ∧ (f.shortest tie).exponent ≤ 308 := by
  obtain ⟨hnearest, -, -⟩ := isNearest_shortest tie h
  have hpos := hnearest.pos h
  have hlt := hnearest.lt_ten_pow (isFinite_iff.mp hfinite)
  generalize f.shortest tie = d at *
  have hsignificand : 0 < d.significand := Nat.pos_of_ne_zero fun hzero => by
    rw [Decimal.value, hzero, Nat.cast_zero, zero_mul] at hpos
    exact lt_irrefl 0 hpos
  have hone : (1 : ℚ) ≤ d.significand := by exact_mod_cast hsignificand
  have hpower : (10 : ℚ) ^ d.exponent < 10 ^ (309 : Int) :=
    calc (10 : ℚ) ^ d.exponent ≤ d.significand * 10 ^ d.exponent :=
          le_mul_of_one_le_left (by positivity) hone
      _ < 10 ^ (309 : Int) := by rw [zpow_ofNat]; exact hlt
  exact ⟨hsignificand, Int.le_of_lt_add_one ((zpow_lt_zpow_iff_right₀ (by norm_num)).mp hpower)⟩

end Binary64

end PlaylistRules
