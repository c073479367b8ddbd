import PlaylistRules.Number.Extended
import PlaylistRules.Number.Integer

/-!
# Texts of numbers

The texts that tables take for decimal numbers, and their values in extended precision.

## Main definitions

* `Store.NumericText` : the parts of a number in a text.
* `Store.readNumericText?` : the number of a whole text.
* `Store.NumericText.binary` : the binary number of a number in a text.
-/

namespace PlaylistRules.Store

/-- The blank characters around a number. -/
def isNumericSpace (c : Char) : Bool :=
  c == ' ' || (9 ≤ c.toNat && c.toNat ≤ 13)

/-- The parts of a decimal number in a text: digits of the whole part and of the fraction, and
the exponent. -/
structure NumericText where
  negative : Bool
  whole : List Char
  fraction : List Char
  exponent : Int
  isInteger : Bool
deriving DecidableEq, Repr

/-- The largest exponent that is counted. -/
def exponentLimit : Nat := 10000

/-- The value of the digits of an exponent. No digit counts after the limit is reached. -/
def limitedExponent (cs : List Char) : Nat :=
  cs.foldl (fun n c => if n < exponentLimit then 10 * n + Number.digitValue c else exponentLimit) 0

/-- The digits of an exponent, at least one. -/
def readPlaces? (cs : List Char) : Option Nat :=
  (Number.readDigits? cs).map fun _ => limitedExponent cs

/-- The digits of an exponent after an optional sign. -/
def readPower? : List Char → Option Int
  | '+' :: cs => (readPlaces? cs).map Int.ofNat
  | '-' :: cs => (readPlaces? cs).map fun places => -(places : Int)
  | cs => (readPlaces? cs).map Int.ofNat

/-- The exponent of a number up to the end of a text. -/
def readExponent? : List Char → Option Int
  | [] => some 0
  | c :: cs => if c = 'e' ∨ c = 'E' then readPower? cs else none

/-- A number without its sign. One digit at least is needed, before or after the point. -/
def readUnsigned? (negative : Bool) (cs : List Char) : Option NumericText :=
  let whole := cs.takeWhile Char.isDigit
  let rest := cs.dropWhile Char.isDigit
  let (fraction, rest, point) := match rest with
    | '.' :: rest => (rest.takeWhile Char.isDigit, rest.dropWhile Char.isDigit, true)
    | rest => ([], rest, false)
  if whole.isEmpty && fraction.isEmpty then none
  else (readExponent? rest).map fun exponent =>
    ⟨negative, whole, fraction, exponent, !point && rest.isEmpty⟩

/-- The number of a whole text, with blanks around it. -/
def readNumericText? (cs : List Char) : Option NumericText :=
  match ((cs.dropWhile isNumericSpace).reverse.dropWhile isNumericSpace).reverse with
  | '-' :: cs => readUnsigned? true cs
  | '+' :: cs => readUnsigned? false cs
  | cs => readUnsigned? false cs

/-- A significand with digits appended as long as there is room for one more of any value, and the
digits that are left. -/
def absorbDigits (significand : Nat) : List Char → Nat × List Char
  | [] => (significand, [])
  | c :: cs =>
    if significand < (UInt64.size - 10) / 10 then
      absorbDigits (10 * significand + Number.digitValue c) cs
    else (significand, c :: cs)

/-- The binary number of a number in a text. The digits of the whole part that find no room count
as places, those of the fraction are dropped. -/
def NumericText.binary (number : NumericText) : Binary64 :=
  let (whole, left) := absorbDigits 0 number.whole
  let (significand, dropped) := absorbDigits whole number.fraction
  Binary64.ofScaled number.negative significand
    (number.exponent + left.length - (number.fraction.length - dropped.length : Nat))

end PlaylistRules.Store
