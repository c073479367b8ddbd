import PlaylistRules.Number.Rounding

/-!
# Binary floating point

Numbers of the format `binary64` of IEEE 754, given by their sixty-four bits. A finite number is
`significand * 2 ^ exponent` with its sign; every operation here is exact arithmetic on that
form followed by one rounding to nearest, ties to even.

## Main definitions

* `Binary64` : a number by its bits.
* `Binary64.significand`, `Binary64.exponent` : the magnitude of a finite number.
* `Binary64.ofRatio` : the nearest number to a quotient of natural numbers.
* `Binary64.mul`, `Binary64.div` : rounded products and quotients of finite numbers.
* `Binary64.compare`, `Binary64.compareInt` : the order of the values.
-/

namespace PlaylistRules

/-- A number of the format `binary64`, by its bits. -/
structure Binary64 where
  bits : UInt64
deriving DecidableEq, Repr

namespace Binary64

/-! ### Parts -/

/-- The sign bit. -/
def isNegative (f : Binary64) : Bool :=
  decide (0x8000000000000000 ≤ f.bits.toNat)

/-- The eleven bits of the biased exponent. -/
def biasedExponent (f : Binary64) : Nat :=
  f.bits.toNat >>> 52 % 0x800

/-- The fifty-two bits of the fraction. -/
def fraction (f : Binary64) : Nat :=
  f.bits.toNat % 0x10000000000000

/-- The bits without the sign. -/
def magnitude (f : Binary64) : Nat :=
  f.bits.toNat % 0x8000000000000000

/-- A number is finite when its exponent bits are not all set. -/
def isFinite (f : Binary64) : Bool :=
  f.biasedExponent != 2047

/-- Not a number: all exponent bits set and a fraction that is not zero. -/
def isNaN (f : Binary64) : Bool :=
  f.biasedExponent == 2047 && f.fraction != 0

/-- One of the two zeros. -/
def isZero (f : Binary64) : Bool :=
  f.magnitude == 0

/-- The integer significand of a finite number, with the leading bit of a normal number. -/
def significand (f : Binary64) : Nat :=
  if f.biasedExponent = 0 then f.fraction else f.fraction + 0x10000000000000

/-- The exponent of the last place of a finite number. -/
def exponent (f : Binary64) : Int :=
  (max f.biasedExponent 1 : Nat) - 1075

/-- The numerator of the magnitude of a finite number. -/
def numerator (f : Binary64) : Nat :=
  f.significand <<< f.exponent.toNat

/-- The denominator of the magnitude of a finite number. -/
def denominator (f : Binary64) : Nat :=
  1 <<< (-f.exponent).toNat

/-! ### Rounding -/

/-- The bits of an infinity without the sign. -/
def infinityMagnitude : Nat := 0x7ff0000000000000

/-- The number with the given sign and the given bits below it. -/
def ofMagnitude (negative : Bool) (magnitude : Nat) : Binary64 :=
  ⟨UInt64.ofNat (magnitude + if negative then 0x8000000000000000 else 0)⟩

/-- The exponent of the last place of the numbers nearest to a positive quotient. -/
def placeExponent (num den : Nat) : Int :=
  max (Number.lastPlace 52 num den) (-1074)

/-- The number nearest to a quotient, a tie to the even significand. A quotient beyond the
largest finite number becomes an infinity. -/
def ofRatio (negative : Bool) (num den : Nat) : Binary64 :=
  if num = 0 then ofMagnitude negative 0
  else
    let place := placeExponent num den
    let rounded := Number.roundQuotient (num <<< (-place).toNat) (den <<< place.toNat)
    ofMagnitude negative (min infinityMagnitude ((place + 1074).toNat <<< 52 + rounded))

/-- The number nearest to a natural number. -/
def ofNat (n : Nat) : Binary64 :=
  ofRatio false n 1

/-- The number nearest to an integer. -/
def ofInt (i : Int) : Binary64 :=
  ofRatio (i < 0) i.natAbs 1

/-- The same magnitude with the other sign. -/
def neg (f : Binary64) : Binary64 :=
  ofMagnitude (!f.isNegative) f.magnitude

/-- The rounded product of two finite numbers. -/
def mul (f g : Binary64) : Binary64 :=
  ofRatio (f.isNegative != g.isNegative) (f.numerator * g.numerator)
    (f.denominator * g.denominator)

/-- The rounded quotient of two finite numbers, the second not zero. -/
def div (f g : Binary64) : Binary64 :=
  ofRatio (f.isNegative != g.isNegative) (f.numerator * g.denominator)
    (f.denominator * g.numerator)

/-! ### Order -/

/-- An integer in the order of the values: the magnitude bits with the sign. Both zeros have the
key zero. -/
def orderKey (f : Binary64) : Int :=
  if f.isNegative then -(f.magnitude : Int) else f.magnitude

/-- The order of two numbers that are not NaN. -/
def compare (f g : Binary64) : Ordering :=
  Ord.compare f.orderKey g.orderKey

/-- The order of a number that is not NaN and an integer, by exact value. -/
def compareInt (f : Binary64) (i : Int) : Ordering :=
  if f.isFinite then
    let value : Int := if f.isNegative then -(f.numerator : Int) else f.numerator
    Ord.compare value (i * f.denominator)
  else if f.isNegative then .lt else .gt

/-- The integer that equals a finite number, if there is one. -/
def toInt? (f : Binary64) : Option Int :=
  if f.isFinite && f.numerator % f.denominator == 0 then
    let whole : Int := (f.numerator / f.denominator : Nat)
    some (if f.isNegative then -whole else whole)
  else none

end Binary64

end PlaylistRules
