import PlaylistRules.Number.Binary64

/-!
# Decimals of a binary number

A finite number that is not zero is the value of every decimal in its rounding interval. The
shortest of these is found on the grids of one, two and more significant digits: on each grid
only the two neighbours of the value can be nearest, and the first grid with a neighbour inside
the interval gives the answer.

## Main definitions

* `Decimal` : a natural significand and a power of ten.
* `RoundingInterval` : the reals that round to a number, as fractions of one denominator.
* `Binary64.shortest` : the shortest decimal that reads back, the nearest of those.
-/

namespace PlaylistRules

/-- A decimal `significand * 10 ^ exponent`. -/
structure Decimal where
  significand : Nat
  exponent : Int
deriving DecidableEq, Repr

/-- How a value half way between two decimals is rounded. -/
inductive Tie where
  | up
  | toEven
deriving DecidableEq, Repr

namespace Decimal

/-- The digits of the significand. -/
def digits (d : Decimal) : List Char :=
  Nat.toDigits 10 d.significand

/-- The power of ten of the first digit. -/
def leading (d : Decimal) : Int :=
  d.exponent + d.digits.length - 1

/-- A decimal without zeros at the end of its significand, removing at most `fuel` of them. -/
def stripZeros : Nat → Decimal → Decimal
  | 0, d => d
  | fuel + 1, d =>
    if d.significand % 10 = 0 && d.significand != 0 then
      stripZeros fuel ⟨d.significand / 10, d.exponent + 1⟩
    else d

/-- The power of ten of the first digit of a positive quotient. -/
def leadingExponent (num den : Nat) : Int :=
  let guess : Int := ((Nat.toDigits 10 num).length : Int) - (Nat.toDigits 10 den).length
  if den * Nat.pow 10 guess.toNat ≤ num * Nat.pow 10 (-guess).toNat then guess else guess - 1

end Decimal

/-- The reals that round to a number, with the number itself, as fractions of one denominator.
The ends belong to the interval when it is closed. -/
structure RoundingInterval where
  lower : Nat
  middle : Nat
  upper : Nat
  denominator : Nat
  closed : Bool
deriving DecidableEq, Repr

namespace RoundingInterval

/-- The interval of a finite number that is not zero. The ends are half way to the neighbouring
numbers; below a power of two the neighbour is nearer. They belong to the interval when the
significand is even. -/
def of (f : Binary64) : RoundingInterval :=
  let place := f.exponent - 2
  let unit := 1 <<< place.toNat
  let below := if f.significand = 0x10000000000000 ∧ 1 < f.biasedExponent then 1 else 2
  { lower := (4 * f.significand - below) * unit
    middle := 4 * f.significand * unit
    upper := (4 * f.significand + 2) * unit
    denominator := 1 <<< (-place).toNat
    closed := f.significand % 2 == 0 }

/-- A decimal lies in the interval. -/
def contains (interval : RoundingInterval) (d : Decimal) : Bool :=
  let value := d.significand * Nat.pow 10 d.exponent.toNat * interval.denominator
  let scale := Nat.pow 10 (-d.exponent).toNat
  if interval.closed then
    interval.lower * scale ≤ value && value ≤ interval.upper * scale
  else interval.lower * scale < value && value < interval.upper * scale

/-- The decimal below the value on the grid of a power of ten. -/
def floorOn (interval : RoundingInterval) (exponent : Int) : Decimal :=
  ⟨interval.middle * Nat.pow 10 (-exponent).toNat /
    (interval.denominator * Nat.pow 10 exponent.toNat), exponent⟩

/-- The nearer of a decimal below the value and its successor on the same grid. -/
def nearer (interval : RoundingInterval) (tie : Tie) (below : Decimal) : Decimal :=
  let above : Decimal := ⟨below.significand + 1, below.exponent⟩
  let twice := 2 * interval.middle * Nat.pow 10 (-below.exponent).toNat
  let halfway :=
    (2 * below.significand + 1) * Nat.pow 10 below.exponent.toNat * interval.denominator
  if twice < halfway then below
  else if halfway < twice then above
  else match tie with
    | .up => above
    | .toEven => if below.significand % 2 = 0 then below else above

/-- The decimal on the grid of a power of ten that lies in the interval, the nearer of two. -/
def onGrid? (interval : RoundingInterval) (tie : Tie) (exponent : Int) : Option Decimal :=
  let below := interval.floorOn exponent
  let above : Decimal := ⟨below.significand + 1, exponent⟩
  match interval.contains below, interval.contains above with
  | true, true => some (interval.nearer tie below)
  | true, false => some below
  | false, true => some above
  | false, false => none

/-- The first grid with a decimal in the interval, from the coarse ones to the fine ones. -/
def search (interval : RoundingInterval) (tie : Tie) : Nat → Int → Decimal
  | 0, exponent => interval.nearer tie (interval.floorOn exponent)
  | fuel + 1, exponent =>
    match interval.onGrid? tie exponent with
    | some d => d
    | none => interval.search tie fuel (exponent - 1)

end RoundingInterval

namespace Binary64

/-- The shortest decimal that reads back to a finite number other than zero, and the nearest of
those. Seventeen digits are always enough. -/
def shortest (tie : Tie) (f : Binary64) : Decimal :=
  let interval := RoundingInterval.of f
  let first := Decimal.leadingExponent interval.middle interval.denominator
  (interval.search tie 16 first).stripZeros 17

end Binary64

end PlaylistRules
