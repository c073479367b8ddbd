/-!
# Rounding quotients

Quotients of natural numbers rounded to nearest, ties to even, and the place of the last of a
given number of binary digits.

## Main definitions

* `Number.roundQuotient` : a quotient rounded to an integer.
* `Number.lastPlace` : the exponent of the last place of the numbers nearest to a quotient.
-/

namespace PlaylistRules.Number

/-- A quotient rounded to the nearest integer, a tie to the even neighbour. -/
def roundQuotient (num den : Nat) : Nat :=
  let quotient := num / den
  let remainder := num % den
  if 2 * remainder < den then quotient
  else if 2 * remainder = den then quotient + quotient % 2
  else quotient + 1

/-- The exponent of the last place of the numbers nearest to a positive quotient, when they have
`bits + 1` binary digits. -/
def lastPlace (bits num den : Nat) : Int :=
  let guess : Int := (num.log2 : Int) - den.log2 - bits
  if den <<< bits <<< guess.toNat ≤ num <<< (-guess).toNat then guess else guess - 1

end PlaylistRules.Number
