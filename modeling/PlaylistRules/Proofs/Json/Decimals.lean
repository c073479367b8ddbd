import PlaylistRules.Proofs.Number.Padded
import PlaylistRules.Proofs.Number.Shortest

/-!
# Decimals in JSON

A finite number is written as a numeral, with a point or an exponent, so that it is not taken for an
integer. The digits of the numeral and its power of ten are those of the shortest decimal, but for a
whole number without an exponent, which has one zero after the point.

## Main definitions

* `Json.Numeral.decimal` : the digits and the power of ten of a numeral.
* `Decimal.pointed` : a decimal as it is written.
* `Binary64.written` : the decimal that is written for a finite number.

## Main results

* `Json.Numeral.float?_eq` : a numeral is scaled by its digits and its power.
* `Json.exists_numeral_write` : a finite number is written as a numeral of its decimal.
-/

namespace PlaylistRules

open PlaylistRules.Number (digits digitsFrom padded)

/-! ### Digits and powers -/

namespace Number

theorem digitsFrom_append (start : Nat) (cs ds : List Char) :
    digitsFrom start (cs ++ ds) = digitsFrom (digitsFrom start cs) ds :=
  List.foldl_append

/-- Zeros after the digits of a number multiply it. -/
theorem digitsFrom_zeros (start k : Nat) :
    digitsFrom start (List.replicate k '0') = start * 10 ^ k := by
  induction k generalizing start with
  | zero => exact (Nat.mul_one start).symm
  | succ k ih =>
    calc digitsFrom start (List.replicate (k + 1) '0')
      _ = digitsFrom (10 * start) (List.replicate k '0') := rfl
      _ = start * 10 ^ (k + 1) := by rw [ih, Nat.pow_succ]; ring

end Number

namespace Json.Numeral

/-- The power of ten of an exponent. -/
def power : Option (Bool × List Char) → Int
  | none => 0
  | some (negative, ds) => if negative then -(digitsFrom 0 ds : Int) else digitsFrom 0 ds

/-- The digits of a numeral without the point, and the power of ten of the last one. -/
def decimal (numeral : Numeral) : Decimal :=
  ⟨digitsFrom 0 (numeral.whole ++ numeral.fraction),
    power numeral.exponent - numeral.fraction.length⟩

variable {numeral : Numeral}

/-- **A numeral is scaled** by its digits and its power of ten, when its digits fit sixty-four
bits. -/
theorem float?_eq (hsize : numeral.decimal.significand < UInt64.size)
    (hpower : (power numeral.exponent).natAbs ≤ largestPower) :
    numeral.float? =
      scaled? numeral.negative numeral.decimal.significand numeral.decimal.exponent := by
  obtain ⟨negative, whole, fraction, exponent⟩ := numeral
  simp only [decimal] at hsize hpower ⊢
  rw [Number.digitsFrom_append] at hsize ⊢
  have hwhole : digitsFrom 0 whole < UInt64.size := (le_digitsFrom _ _).trans_lt hsize
  simp only [float?, absorb_eq hwhole, absorb_eq hsize, List.length_nil, Nat.cast_zero, sub_zero,
    zero_sub]
  cases exponent with
  | none => simp only [power, zero_sub]
  | some exponent =>
    obtain ⟨negativePower, ds⟩ := exponent
    have hless : ¬largestPower < digitsFrom 0 ds := by
      simp only [power] at hpower
      split at hpower <;> omega
    simp only [power, if_neg hless, Int.add_comm, sub_eq_add_neg]

/-- A numeral with a point or an exponent is no integer. -/
theorem integer?_eq_none (h : numeral.fraction ≠ [] ∨ numeral.exponent ≠ none) :
    numeral.integer? = none := by
  rw [integer?]
  exact if_neg fun hparts => h.elim (absurd hparts.1) (absurd hparts.2.1)

end Json.Numeral

/-! ### Written decimals -/

namespace Decimal

/-- A decimal as it is written. A whole number without an exponent has a zero after the point. -/
def pointed (d : Decimal) : Decimal :=
  if 0 ≤ d.exponent ∧ d.leading ≤ 15 then ⟨d.significand * 10 ^ (d.exponent.toNat + 1), -1⟩ else d

theorem digits_ne_nil (d : Decimal) : d.digits ≠ [] :=
  Nat.toDigits_ne_nil

theorem value_pointed (d : Decimal) : d.pointed.value = d.value := by
  rw [pointed]
  split
  · next h =>
    have hexponent : (10 : ℚ) ^ d.exponent = 10 ^ d.exponent.toNat := by
      rw [← zpow_natCast, Int.toNat_of_nonneg h.1]
    rw [value, value, hexponent, zpow_neg_one, pow_succ]
    push_cast
    ring
  · rfl

/-- The decimals of binary numbers: seventeen digits at most, and a power of ten that is not far
beyond those of the numbers. -/
structure InRange (d : Decimal) : Prop where
  significand_le : d.significand ≤ 10 ^ 17
  exponent_ge : -324 ≤ d.exponent
  exponent_le : d.exponent ≤ 308
  significand_pos : d.exponent < -308 → 0 < d.significand

/-- A zero after the point is within seventeen digits. -/
theorem InRange.pointed {d : Decimal} (hrange : d.InRange) : d.pointed.InRange := by
  rw [Decimal.pointed]
  split
  · next h =>
    have hlength := List.length_pos_of_ne_nil d.digits_ne_nil
    have hlt : d.significand < 10 ^ d.digits.length :=
      (Nat.length_toDigits_le_iff (by decide) hlength).mp le_rfl
    have hplaces : d.digits.length + (d.exponent.toNat + 1) ≤ 17 := by
      have hleading := h.2
      rw [leading] at hleading
      omega
    refine ⟨?_, show (-324 : Int) ≤ -1 by decide, show (-1 : Int) ≤ 308 by decide,
      fun hlow => absurd hlow (show ¬(-1 : Int) < -308 by decide)⟩
    calc d.significand * 10 ^ (d.exponent.toNat + 1)
      _ ≤ 10 ^ d.digits.length * 10 ^ (d.exponent.toNat + 1) := Nat.mul_le_mul_right _ hlt.le
      _ = 10 ^ (d.digits.length + (d.exponent.toNat + 1)) := (Nat.pow_add ..).symm
      _ ≤ 10 ^ 17 := Nat.pow_le_pow_right (by decide) hplaces
  · exact hrange

/-- The first digit of a decimal is seventeen places above its power at most. -/
theorem InRange.natAbs_leading_le {d : Decimal} (h : d.InRange) : d.leading.natAbs ≤ 325 := by
  have hlength := List.length_pos_of_ne_nil d.digits_ne_nil
  have hlow := h.exponent_ge
  have hhigh := h.exponent_le
  have hlt : d.significand < 10 ^ 18 := h.significand_le.trans_lt (by decide)
  have hdigits : d.digits.length ≤ 18 :=
    (Nat.length_toDigits_le_iff (by decide) (by decide)).mpr hlt
  rw [leading]
  omega

end Decimal

namespace Json

variable {d : Decimal} {whole fraction text : List Char} {exponent : Option (Bool × List Char)}

/-- A text has the digits and the power of a decimal, and a point or an exponent. -/
def SpellsDecimal : Spelling Decimal := fun text d =>
  ∀ negative, ∃ numeral : Numeral, numeral.negative = negative ∧ numeral.decimal = d ∧
    (numeral.fraction ≠ [] ∨ numeral.exponent ≠ none) ∧
    (Numeral.power numeral.exponent).natAbs ≤ Numeral.largestPower ∧
    SpellsNumeral ((if negative then ['-'] else []) ++ text) numeral

/-- Digits around a point. -/
theorem spellsDecimal_point (hwhole : IsDigits whole)
    (hzero : whole.head? = some '0' → whole = ['0']) (hfraction : IsDigits fraction) :
    SpellsDecimal (whole ++ '.' :: fraction)
      ⟨digitsFrom 0 (whole ++ fraction), -fraction.length⟩ := fun negative =>
  ⟨⟨negative, whole, fraction, none⟩, rfl, by rw [Numeral.decimal, Numeral.power, zero_sub],
    .inl hfraction.1, Nat.zero_le _, '.' :: fraction, [], hwhole, hzero, .some hfraction, .none, by
      simp only [List.append_nil, List.append_assoc]⟩

theorem isDigits_zero : IsDigits ['0'] :=
  isDigits_digits 0

/-- A number below one starts with a zero. -/
private theorem spellsDecimal_below (d : Decimal) (h : d.leading < 0) :
    SpellsDecimal
      ('0' :: '.' :: (List.replicate (-d.leading - 1).toNat '0' ++ d.digits)) d := by
  have hdigits := List.length_pos_of_ne_nil d.digits_ne_nil
  have hpadded : List.replicate (-d.leading - 1).toNat '0' ++ d.digits =
      padded ((-d.leading - 1).toNat + d.digits.length) d.significand := by
    rw [padded, digits, ← Decimal.digits, Nat.add_sub_cancel]
  have hlength : ((padded ((-d.leading - 1).toNat + d.digits.length) d.significand).length : Int) =
      -d.exponent := by
    rw [← hpadded, List.length_append, List.length_replicate]
    unfold Decimal.leading at h ⊢
    omega
  have hpoint := spellsDecimal_point isDigits_zero (fun _ => rfl)
    (Number.isDigits_padded ((-d.leading - 1).toNat + d.digits.length) d.significand)
  have hzero : digitsFrom 0 ['0'] = 0 := rfl
  rw [hlength, neg_neg, Number.digitsFrom_append, hzero, Number.digitsFrom_padded] at hpoint
  rw [hpadded]
  exact hpoint

/-- The digits of a decimal do not start with zero, unless it is zero. -/
private theorem significand_eq_zero (h : d.digits.head? = some '0') :
    d.digits = ['0'] ∧ d.significand = 0 := by
  have hdigits : d.digits = ['0'] := eq_of_head?_digits h
  have hvalue := digitsFrom_digits d.significand
  rw [digits, ← Decimal.digits, hdigits] at hvalue
  exact ⟨hdigits, hvalue.symm⟩

/-- A whole number ends in a zero after the point. -/
private theorem spellsDecimal_whole {k : Nat} (h : 0 < d.significand ∨ k = 0) :
    SpellsDecimal (d.digits ++ List.replicate k '0' ++ ['.', '0'])
      ⟨d.significand * 10 ^ (k + 1), -1⟩ := by
  have hwhole : IsDigits (d.digits ++ List.replicate k '0') := by
    refine ⟨List.append_ne_nil_of_left_ne_nil d.digits_ne_nil _, fun c hc => ?_⟩
    obtain hc | hc := List.mem_append.mp hc
    · exact (isDigits_digits d.significand).2 c hc
    · exact (List.mem_replicate.mp hc).2 ▸ rfl
  have hzero : (d.digits ++ List.replicate k '0').head? = some '0' →
      d.digits ++ List.replicate k '0' = ['0'] := by
    intro hhead
    rw [List.head?_append_of_ne_nil _ d.digits_ne_nil] at hhead
    obtain ⟨hdigits, hsignificand⟩ := significand_eq_zero hhead
    obtain rfl : k = 0 := h.resolve_left (by omega)
    exact (List.append_nil _).trans hdigits
  have hpoint := spellsDecimal_point hwhole hzero isDigits_zero
  have hvalue : digitsFrom 0 (d.digits ++ List.replicate k '0' ++ ['0']) =
      d.significand * 10 ^ (k + 1) := by
    rw [List.append_assoc, ← List.replicate_succ', Number.digitsFrom_append,
      Number.digitsFrom_zeros]
    exact congrArg (· * 10 ^ (k + 1)) (digitsFrom_digits d.significand)
  rwa [hvalue] at hpoint

/-- A number above one with places after the point. -/
private theorem spellsDecimal_mixed {k : Nat} (hpos : 0 < k) (hk : k < d.digits.length)
    (hexponent : d.exponent = k - d.digits.length) :
    SpellsDecimal (d.digits.take k ++ '.' :: d.digits.drop k) d := by
  have hwhole : IsDigits (d.digits.take k) :=
    ⟨List.ne_nil_of_length_pos (by rw [List.length_take]; omega),
      fun c hc => (isDigits_digits d.significand).2 c (List.mem_of_mem_take hc)⟩
  have hfraction : IsDigits (d.digits.drop k) :=
    ⟨fun hnil => absurd (List.drop_eq_nil_iff.mp hnil) (Nat.not_le.mpr hk),
      fun c hc => (isDigits_digits d.significand).2 c (List.mem_of_mem_drop hc)⟩
  have hzero : (d.digits.take k).head? = some '0' → d.digits.take k = ['0'] := by
    intro hhead
    rw [List.head?_take, if_neg hpos.ne'] at hhead
    rw [(significand_eq_zero hhead).1]
    exact List.take_of_length_le hpos
  have hpoint := spellsDecimal_point hwhole hzero hfraction
  have hvalue : digitsFrom 0 d.digits = d.significand := digitsFrom_digits d.significand
  have hplaces : -((d.digits.drop k).length : Int) = d.exponent := by
    rw [List.length_drop]
    omega
  rwa [List.take_append_drop, hvalue, hplaces] at hpoint

/-- The digits of a decimal with a point. -/
theorem spellsDecimal_writePositional (h : 0 < d.significand ∨ d.exponent = 0)
    (hleading : d.leading ≤ 15) : SpellsDecimal (Layout.json.writePositional d) d.pointed := by
  have hdigits := List.length_pos_of_ne_nil d.digits_ne_nil
  have hplaces : d.leading = d.exponent + d.digits.length - 1 := rfl
  rw [Layout.writePositional]
  dsimp only
  by_cases hbelow : d.leading < 0
  · have hpointed : d.pointed = d := if_neg (by omega)
    rw [if_pos hbelow, hpointed]
    exact spellsDecimal_below d hbelow
  rw [if_neg hbelow]
  by_cases hwhole : 0 ≤ d.exponent
  · have hpointed : d.pointed = ⟨d.significand * 10 ^ (d.exponent.toNat + 1), -1⟩ :=
      if_pos ⟨hwhole, hleading⟩
    have hzeros : d.leading.toNat + 1 - d.digits.length = d.exponent.toNat := by omega
    have hrest : (d.digits ++ List.replicate d.exponent.toNat '0').drop (d.leading.toNat + 1) =
        [] := by
      rw [List.drop_eq_nil_iff, List.length_append, List.length_replicate]
      omega
    rw [hzeros, hrest, hpointed]
    exact spellsDecimal_whole (by omega)
  · have hpointed : d.pointed = d := if_neg fun h => hwhole h.1
    have hzeros : d.leading.toNat + 1 - d.digits.length = 0 := by omega
    have hrest : (d.digits.drop (d.leading.toNat + 1)).isEmpty = false :=
      Bool.eq_false_iff.mpr fun hnil => by
        have hlength := List.drop_eq_nil_iff.mp (List.isEmpty_iff.mp hnil)
        omega
    rw [hzeros, List.replicate_zero, List.append_nil, hrest, hpointed]
    exact spellsDecimal_mixed (Nat.succ_pos _) (by omega) (by omega)

/-- Digits with a point after the first one, and a power of ten with its sign. -/
private theorem spellsDecimal_power {c : Char} {cs ds ftext : List Char} (negativePower : Bool)
    (hc : c.isDigit = true) (hcs : SpellsFraction ftext cs) (hds : IsDigits ds)
    (hpower : digitsFrom 0 ds ≤ Numeral.largestPower) :
    SpellsDecimal (c :: ftext ++ 'e' :: (if negativePower then '-' else '+') :: ds)
      ⟨digitsFrom 0 (c :: cs), Numeral.power (some (negativePower, ds)) - cs.length⟩ := by
  intro negative
  have hexponent : SpellsExponent ('e' :: (if negativePower then '-' else '+') :: ds)
      (some (negativePower, ds)) := by
    cases negativePower with
    | true => exact .some (.inl rfl) (.minus hds)
    | false => exact .some (.inl rfl) (.plus hds)
  have habs : (Numeral.power (some (negativePower, ds))).natAbs ≤ Numeral.largestPower := by
    simp only [Numeral.power]
    split <;> omega
  have hfirst : IsDigits [c] :=
    ⟨List.cons_ne_nil _ _, fun d hd => (List.mem_singleton.mp hd) ▸ hc⟩
  exact ⟨⟨negative, [c], cs, some (negativePower, ds)⟩, rfl, rfl, .inr (Option.some_ne_none _),
    habs, ftext, _, hfirst, fun hzero => congrArg (· :: []) (Option.some.inj hzero), hcs, hexponent,
    by simp only [List.append_assoc, List.cons_append, List.nil_append]⟩

/-- The digits of a decimal with a power of ten. -/
theorem spellsDecimal_writeScientific (h : ¬(0 ≤ d.exponent ∧ d.leading ≤ 15))
    (hpower : d.leading.natAbs ≤ Numeral.largestPower) :
    SpellsDecimal (Layout.json.writeScientific d) d.pointed := by
  have hpointed : d.pointed = d := if_neg h
  have hplaces : d.leading = d.exponent + d.digits.length - 1 := rfl
  have hvalue : digitsFrom 0 d.digits = d.significand := digitsFrom_digits d.significand
  have hdigits : IsDigits d.digits := isDigits_digits d.significand
  have hds : IsDigits (digits d.leading.natAbs) := isDigits_digits _
  have hexponent : digitsFrom 0 (digits d.leading.natAbs) = d.leading.natAbs := digitsFrom_digits _
  -- An exponent has one digit at least, so that no zeros are put in front.
  have hzeros : Layout.json.exponentDigits - (Nat.toDigits 10 d.leading.natAbs).length = 0 :=
    Nat.sub_eq_zero_of_le (List.length_pos_of_ne_nil hds.1)
  obtain ⟨c, cs, hcons⟩ := List.exists_cons_of_ne_nil d.digits_ne_nil
  rw [hcons] at hdigits hvalue hplaces
  have hresult : (⟨digitsFrom 0 (c :: cs), Numeral.power
      (some (decide (d.leading < 0), digits d.leading.natAbs)) - cs.length⟩ : Decimal) = d := by
    have hplace : Numeral.power (some (decide (d.leading < 0), digits d.leading.natAbs)) -
        cs.length = d.exponent := by
      simp only [Numeral.power, hexponent, decide_eq_true_eq]
      rw [List.length_cons] at hplaces
      split <;> omega
    rw [hvalue, hplace]
  have hspells : ∀ {ftext}, SpellsFraction ftext cs → SpellsDecimal (c :: ftext ++ 'e' ::
      (if d.leading < 0 then '-' else '+') :: digits d.leading.natAbs) d := by
    intro ftext hcs
    have hspells := spellsDecimal_power (decide (d.leading < 0))
      (hdigits.2 c List.mem_cons_self) hcs hds (by rwa [hexponent])
    rw [hresult] at hspells
    simpa only [decide_eq_true_eq] using hspells
  rw [hpointed, Layout.writeScientific, hcons, hzeros, List.replicate_zero, List.nil_append]
  cases cs with
  | nil => exact hspells .none
  | cons e cs => exact hspells (.some ⟨List.cons_ne_nil _ _, fun c hc =>
      hdigits.2 c (List.mem_cons_of_mem _ hc)⟩)

/-- A decimal is written with its digits and its power. -/
theorem spellsDecimal_writeDecimal (h : 0 < d.significand ∨ d.exponent = 0)
    (hpower : d.leading.natAbs ≤ Numeral.largestPower) :
    SpellsDecimal (Layout.json.writeDecimal d) d.pointed := by
  have hplaces : d.leading = d.exponent + d.digits.length - 1 := rfl
  have hdigits := List.length_pos_of_ne_nil d.digits_ne_nil
  rw [Layout.writeDecimal]
  simp only [Layout.json]
  split
  · next hbounds => exact spellsDecimal_writePositional h hbounds.2
  · next hbounds => exact spellsDecimal_writeScientific (by omega) hpower

end Json

/-! ### Written numbers -/

namespace Binary64

variable {f : Binary64}

/-- The digits of a finite number and their power of ten. -/
def decimal (f : Binary64) : Decimal :=
  if f.isZero then ⟨0, 0⟩ else f.shortest .toEven

/-- The decimal that is written for a finite number in JSON. -/
def written (f : Binary64) : Decimal :=
  f.decimal.pointed

/-- A number is nearest to its decimal. -/
theorem isNearest_decimal (f : Binary64) : IsNearest f.magnitude f.decimal.value := by
  rw [decimal]
  split
  · next hzero =>
    rw [isZero_iff.mp hzero, Decimal.value, Nat.cast_zero, zero_mul]
    exact isNearest_zero
  · next hzero => exact (isNearest_shortest _ (Nat.pos_of_ne_zero (mt isZero_iff.mpr hzero))).1

theorem inRange_decimal (hfinite : f.isFinite = true) :
    f.decimal.InRange ∧ (0 < f.decimal.significand ∨ f.decimal.exponent = 0) := by
  rw [decimal]
  split
  · exact ⟨⟨Nat.zero_le _, by decide, by decide, by decide⟩, .inr rfl⟩
  · next hzero =>
    have hmagnitude := Nat.pos_of_ne_zero (mt isZero_iff.mpr hzero)
    obtain ⟨-, hdigits, hlow⟩ := isNearest_shortest .toEven hmagnitude
    obtain ⟨hpos, hhigh⟩ := shortest_bounds .toEven hmagnitude hfinite
    exact ⟨⟨hdigits, hlow, hhigh, fun _ => hpos⟩, .inl hpos⟩

/-- **A number is nearest to the decimal that is written.** -/
theorem isNearest_written (f : Binary64) : IsNearest f.magnitude f.written.value := by
  rw [written, Decimal.value_pointed]
  exact f.isNearest_decimal

theorem inRange_written (hfinite : f.isFinite = true) : f.written.InRange :=
  (inRange_decimal hfinite).1.pointed

/-- The text of a finite number: its decimal after the sign. -/
theorem toList_write (hfinite : f.isFinite = true) : (Layout.json.write f).toList =
    (if f.isNegative then ['-'] else []) ++ Layout.json.writeDecimal f.decimal := by
  have hnan : f.isNaN = false := by
    rw [isFinite, bne_iff_ne] at hfinite
    rw [isNaN, beq_false_of_ne hfinite, Bool.false_and]
  have hbody : (if f.isZero then Layout.json.writePositional ⟨0, 0⟩
      else Layout.json.writeDecimal (f.shortest .toEven)) = Layout.json.writeDecimal f.decimal := by
    rw [decimal]
    split <;> rfl
  simp only [Layout.write, hnan, hfinite, Layout.json, Selection.decimal, Bool.not_true,
    Bool.false_eq_true, if_false, Bool.not_false, Bool.or_true, Bool.and_true,
    String.toList_ofList] at hbody ⊢
  rw [hbody]
  split <;> rfl

end Binary64

/-- **A finite number is written as a numeral of its decimal**, which is no integer. -/
theorem Json.exists_numeral_write {f : Binary64} (hfinite : f.isFinite = true) :
    ∃ numeral : Numeral, SpellsNumeral (Layout.json.write f).toList numeral ∧
      numeral.negative = f.isNegative ∧ numeral.decimal = f.written ∧ numeral.integer? = none ∧
      numeral.float? = Numeral.scaled? f.isNegative f.written.significand f.written.exponent := by
  obtain ⟨hrange, hzero⟩ := f.inRange_decimal hfinite
  have hpower := hrange.natAbs_leading_le.trans (show 325 ≤ Numeral.largestPower by decide)
  obtain ⟨numeral, hnegative, hdecimal, hmark, hexponent, hspells⟩ :=
    spellsDecimal_writeDecimal hzero hpower f.isNegative
  have hsize : numeral.decimal.significand < UInt64.size := by
    rw [hdecimal, ← Binary64.written]
    exact (Binary64.inRange_written hfinite).significand_le.trans_lt (by decide)
  refine ⟨numeral, Binary64.toList_write hfinite ▸ hspells, hnegative, hdecimal,
    Numeral.integer?_eq_none hmark, ?_⟩
  rw [Numeral.float?_eq hsize hexponent, hnegative, hdecimal, Binary64.written]

end PlaylistRules
