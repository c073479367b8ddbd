import PlaylistRules.Number.Binary64

/-!
# Signs and magnitudes of binary numbers

A number of the format `binary64` is given by its sign and its bits below the sign. It is finite
when these are less than those of infinity.

## Main results

* `Binary64.ofMagnitude_magnitude` : a number by its sign and its magnitude.
* `Binary64.isFinite_iff` : the magnitudes of finite numbers.
-/

namespace PlaylistRules.Binary64

variable {μ : Nat} {f : Binary64} {negative : Bool}

theorem magnitude_ofMagnitude (h : μ < 0x8000000000000000) :
    (ofMagnitude negative μ).magnitude = μ := by
  have hsign : (if negative then 0x8000000000000000 else 0) = 0x8000000000000000 ∨
      (if negative then 0x8000000000000000 else 0) = 0 := by
    cases negative <;> simp
  simp only [magnitude, ofMagnitude, UInt64.toNat_ofNat']
  omega

theorem isNegative_ofMagnitude (h : μ < 0x8000000000000000) :
    (ofMagnitude negative μ).isNegative = negative := by
  simp only [isNegative, ofMagnitude, UInt64.toNat_ofNat']
  cases negative with
  | true =>
    rw [if_pos rfl, decide_eq_true_eq]
    omega
  | false =>
    rw [if_neg Bool.false_ne_true, decide_eq_false_iff_not]
    omega

/-- A number is given by its sign and its magnitude. -/
theorem ofMagnitude_magnitude (f : Binary64) : ofMagnitude f.isNegative f.magnitude = f := by
  have hlt := f.bits.toNat_lt
  have hbits : f.bits.toNat = f.magnitude +
      if f.isNegative then 0x8000000000000000 else 0 := by
    simp only [magnitude, isNegative, decide_eq_true_eq]
    split <;> omega
  rw [ofMagnitude, ← hbits, UInt64.ofNat_toNat]

theorem isZero_iff : f.isZero = true ↔ f.magnitude = 0 :=
  beq_iff_eq

/-- A number is finite when its magnitude is below that of infinity. -/
theorem isFinite_iff : f.isFinite = true ↔ f.magnitude < infinityMagnitude := by
  simp only [isFinite, biasedExponent, magnitude, infinityMagnitude, bne_iff_ne, ne_eq,
    Nat.shiftRight_eq_div_pow]
  omega

theorem isFinite_ofMagnitude (h : μ < infinityMagnitude) :
    (ofMagnitude negative μ).isFinite = true := by
  rw [isFinite_iff, magnitude_ofMagnitude (Nat.lt_trans h (by decide))]
  exact h

theorem neg_ofMagnitude (h : μ < infinityMagnitude) :
    (ofMagnitude false μ).neg = ofMagnitude true μ := by
  rw [neg, isNegative_ofMagnitude (Nat.lt_trans h (by decide)),
    magnitude_ofMagnitude (Nat.lt_trans h (by decide))]
  rfl

end PlaylistRules.Binary64
