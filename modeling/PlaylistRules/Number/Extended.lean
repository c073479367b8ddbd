import PlaylistRules.Number.Shortest

/-!
# Extended precision

Positive numbers with significands of sixty-four binary digits and exponents without bounds.
Tables convert between texts and binary numbers in this precision: a number is multiplied by powers
of ten in steps of a hundred, ten and one places, and every step is rounded. The results may differ
from the correctly rounded ones in the last place.

## Main definitions

* `Extended` : a significand and a power of two.
* `Extended.scaled` : a number times a power of ten, in rounded steps.
* `Binary64.ofScaled` : the binary number of a significand and a power of ten.
* `Binary64.leadingDecimal` : the first decimal digits of a binary number.
-/

namespace PlaylistRules

/-- A number `significand * 2 ^ exponent`. -/
structure Extended where
  significand : Nat
  exponent : Int
deriving DecidableEq, Repr

namespace Extended

/-- The number nearest to a positive quotient. -/
def ofRatio (num den : Nat) : Extended :=
  let place := Number.lastPlace 63 num den
  ⟨Number.roundQuotient (num <<< (-place).toNat) (den <<< place.toNat), place⟩

/-- The number nearest to a power of ten. -/
def tenTo (exponent : Int) : Extended :=
  ofRatio (Nat.pow 10 exponent.toNat) (Nat.pow 10 (-exponent).toNat)

/-- The rounded product of two numbers. -/
def mul (a b : Extended) : Extended :=
  let product := a.significand * b.significand
  let excess := product.log2 - 63
  ⟨Number.roundQuotient product (1 <<< excess), a.exponent + b.exponent + excess⟩

/-- The order of the values. -/
def le (a b : Extended) : Bool :=
  a.significand <<< (a.exponent - b.exponent).toNat ≤
    b.significand <<< (b.exponent - a.exponent).toNat

/-- The integer part. -/
def floor (a : Extended) : Nat :=
  a.significand <<< a.exponent.toNat >>> (-a.exponent).toNat

/-! ### Powers of ten -/

/-- A number times a factor, a number of times. -/
def mulTimes (factor : Extended) : Nat → Extended → Extended
  | 0, a => a
  | count + 1, a => mulTimes factor count (a.mul factor)

/-- A number times a power of ten, in steps of a hundred, ten and one places. -/
def scaled (a : Extended) (exponent : Int) : Extended :=
  let places := exponent.natAbs
  let step (size : Nat) : Extended := tenTo (if exponent < 0 then -(size : Int) else size)
  mulTimes (step 1) (places % 10) <| mulTimes (step 10) (places % 100 / 10) <|
    mulTimes (step 100) (places / 100) a

/-- A number times a power of ten as often as a test holds, and the places by which it was moved.
The number of steps is at most `fuel`. -/
def moveWhile (test : Extended → Bool) (step : Int) : Nat → Extended → Int → Extended × Int
  | 0, a, moved => (a, moved)
  | fuel + 1, a, moved =>
    if test a then moveWhile test step fuel (a.mul (tenTo step)) (moved + step) else (a, moved)

/-- A number moved by powers of ten to eighteen or nineteen digits before the point, and the places
by which it was moved. No step is taken more than twelve times. -/
def normalized (a : Extended) : Extended × Int :=
  let atLeast (exponent : Int) (a : Extended) : Bool := (tenTo exponent).le a
  let below (exponent : Int) (a : Extended) : Bool := !atLeast exponent a
  let sequence (steps : List ((Extended → Bool) × Int)) : Extended × Int :=
    steps.foldl (fun (a, moved) (test, step) => moveWhile test step 12 a moved) (a, 0)
  if atLeast 19 a then sequence [(atLeast 119, -100), (atLeast 29, -10), (atLeast 19, -1)]
  else sequence [(below (-97), 100), (below 7, 10), (below 17, 1)]

end Extended

namespace Binary64

/-- The largest finite number. -/
def largest : Extended :=
  ⟨0x1fffffffffffff, 971⟩

/-- The number nearest to one of extended precision. A number above the largest finite one becomes
an infinity. -/
def ofExtended (negative : Bool) (a : Extended) : Binary64 :=
  if a.le largest then
    ofRatio negative (a.significand <<< a.exponent.toNat) (1 <<< (-a.exponent).toNat)
  else ofMagnitude negative infinityMagnitude

/-- The magnitude of a finite number in extended precision. -/
def toExtended (f : Binary64) : Extended :=
  ⟨f.significand, f.exponent⟩

/-- A significand and a power of ten with zeros moved from the power to the significand, as long as
there is room. -/
def appendZeros : Nat → Nat → Int → Nat × Int
  | 0, significand, exponent => (significand, exponent)
  | fuel + 1, significand, exponent =>
    if 0 < exponent ∧ significand < (UInt64.size - 1) / 10 then
      appendZeros fuel (10 * significand) (exponent - 1)
    else (significand, exponent)

/-- A significand and a power of ten with zeros moved from the significand to a negative power. -/
def removeZeros : Nat → Nat → Int → Nat × Int
  | 0, significand, exponent => (significand, exponent)
  | fuel + 1, significand, exponent =>
    if exponent < 0 ∧ significand % 10 = 0 then
      removeZeros fuel (significand / 10) (exponent + 1)
    else (significand, exponent)

/-- The number of a significand below `2 ^ 64` and a power of ten, in extended precision. -/
def ofScaled (negative : Bool) (significand : Nat) (exponent : Int) : Binary64 :=
  if significand = 0 then ofMagnitude negative 0
  else
    let (significand, exponent) := appendZeros 20 significand exponent
    let (significand, exponent) := removeZeros 20 significand exponent
    if exponent = 0 then ofRatio negative significand 1
    else ofExtended negative ((Extended.mk significand 0).scaled exponent)

/-- The first decimal digits of a finite number other than zero, the last one rounded half up by
the digit after it, without zeros at the end. There are fewer than eighteen of them. -/
def leadingDecimal (count : Nat) (f : Binary64) : Decimal :=
  let (a, moved) := f.toExtended.normalized
  let dropped := (Nat.toDigits 10 a.floor).length - count
  let kept := a.floor / Nat.pow 10 dropped
  let next := a.floor / Nat.pow 10 (dropped - 1) % 10
  Decimal.stripZeros (count + 1) ⟨if 5 ≤ next then kept + 1 else kept, dropped - moved⟩

end Binary64

end PlaylistRules
