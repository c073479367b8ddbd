import PlaylistRules.Json.Basic
import PlaylistRules.Number.Integer

/-!
# Numerals

The numbers of a JSON text: their grammar, and the value that a numeral stands for. An integer
within sixty-four bits keeps its value. Any other numeral becomes a binary number in a few rounded
steps: the leading digits that fit sixty-four bits are taken as a natural number, which is then
multiplied or divided by a power of ten.

## Main definitions

* `Json.Numeral` : the parts of a numeral.
* `Json.Numeral.read?` : a numeral from the front of a text.
* `Json.Numeral.value?` : the number of a numeral, unless it is too large.
-/

namespace PlaylistRules.Json

/-- The digits of a numeral: the whole part, the fraction (empty without a point) and the
exponent with its sign. -/
structure Numeral where
  negative : Bool
  whole : List Char
  fraction : List Char
  exponent : Option (Bool × List Char)
deriving DecidableEq, Repr

namespace Numeral

/-! ### Grammar -/

/-- One or more digits from the front of a text. -/
def readDigits? (cs : List Char) : Option (List Char × List Char) :=
  let digits := cs.takeWhile Char.isDigit
  if digits.isEmpty then none else some (digits, cs.dropWhile Char.isDigit)

/-- The whole part: a single zero, or digits that start with another digit. -/
def readWhole? (cs : List Char) : Option (List Char × List Char) :=
  match readDigits? cs with
  | some ('0' :: _ :: _, _) => none
  | result => result

/-- The fraction, if a point follows. -/
def readFraction? : List Char → Option (List Char × List Char)
  | '.' :: cs => readDigits? cs
  | cs => some ([], cs)

/-- The digits of an exponent after its sign. -/
def readPower? : List Char → Option ((Bool × List Char) × List Char)
  | '+' :: cs => (readDigits? cs).map fun (digits, rest) => ((false, digits), rest)
  | '-' :: cs => (readDigits? cs).map fun (digits, rest) => ((true, digits), rest)
  | cs => (readDigits? cs).map fun (digits, rest) => ((false, digits), rest)

/-- The exponent, if its letter follows. -/
def readExponent? : List Char → Option (Option (Bool × List Char) × List Char)
  | c :: cs =>
    if c = 'e' ∨ c = 'E' then (readPower? cs).map fun (power, rest) => (some power, rest)
    else some (none, c :: cs)
  | [] => some (none, [])

/-- A numeral without its sign. -/
def readUnsigned? (negative : Bool) (cs : List Char) : Option (Numeral × List Char) :=
  (readWhole? cs).bind fun (whole, cs) =>
    (readFraction? cs).bind fun (fraction, cs) =>
      (readExponent? cs).map fun (exponent, cs) => (⟨negative, whole, fraction, exponent⟩, cs)

/-- A numeral from the front of a text. -/
def read? : List Char → Option (Numeral × List Char)
  | '-' :: cs => readUnsigned? true cs
  | cs => readUnsigned? false cs

/-! ### Values -/

/-- A natural number with digits appended as long as it fits sixty-four bits, and the digits that
are left. -/
def absorb (start : Nat) : List Char → Nat × List Char
  | [] => (start, [])
  | c :: cs =>
    let next := 10 * start + PlaylistRules.Number.digitValue c
    if next < UInt64.size then absorb next cs else (start, c :: cs)

/-- The number nearest to a power of ten. -/
def powerOfTen (n : Nat) : Binary64 :=
  Binary64.ofNat (Nat.pow 10 n)

/-- A finite number times a power of ten, rounded after each step. The power is divided into
steps of at most three hundred and eight places. There is no result above the finite numbers;
`fuel` bounds the number of steps, and three are enough to reach zero. -/
def scale : Nat → Binary64 → Int → Option Binary64
  | 0, f, _ => some f
  | fuel + 1, f, exponent =>
    if exponent.natAbs ≤ 308 then
      if 0 ≤ exponent then
        let product := f.mul (powerOfTen exponent.natAbs)
        if product.isFinite then some product else none
      else some (f.div (powerOfTen exponent.natAbs))
    else if f.isZero then some f
    else if 0 ≤ exponent then none
    else scale fuel (f.div (powerOfTen 308)) (exponent + 308)

/-- The binary number of a sign, a natural number and a power of ten. -/
def scaled? (negative : Bool) (significand : Nat) (exponent : Int) : Option Binary64 :=
  (scale 3 (Binary64.ofNat significand) exponent).map fun f => if negative then f.neg else f

/-- The largest exponent that is counted. A larger one makes zero of a negative exponent and of
the significand zero, and is too large otherwise. -/
def largestPower : Nat := 2147483647

/-- The binary number of a numeral. The digits of the whole part that do not fit count as places;
digits of the fraction that do not fit are dropped. -/
def float? (numeral : Numeral) : Option Binary64 :=
  let (whole, dropped) := absorb 0 numeral.whole
  let (significand, unread) := absorb whole numeral.fraction
  let places : Int := dropped.length - (numeral.fraction.length - unread.length)
  match numeral.exponent with
  | none => scaled? numeral.negative significand places
  | some (negativePower, digits) =>
    let power := PlaylistRules.Number.digitsFrom 0 digits
    if largestPower < power then
      if significand = 0 ∨ negativePower = true then
        some (Binary64.ofMagnitude numeral.negative 0)
      else none
    else
      let shift : Int := if negativePower then -(power : Int) else power
      scaled? numeral.negative significand (places + shift)

/-- The integer of a numeral without fraction and exponent that fits sixty-four bits. Minus zero
is no integer. -/
def integer? (numeral : Numeral) : Option Number :=
  let (value, dropped) := absorb 0 numeral.whole
  if numeral.fraction = [] ∧ numeral.exponent = none ∧ dropped = [] then
    if numeral.negative then
      if h : 0 < value ∧ value ≤ 0x8000000000000000 then
        some (.integer (-value) (by omega) (by omega))
      else none
    else if h : value < 0x10000000000000000 then some (.integer value (by omega) (by omega))
    else none
  else none

/-- The number of a numeral, unless it is too large. -/
def value? (numeral : Numeral) : Option Number :=
  match numeral.integer? with
  | some value => some value
  | none => numeral.float?.bind fun f => if h : f.isFinite = true then some (.float f h) else none

end Numeral

end PlaylistRules.Json
