import PlaylistRules.Number.Extended

/-!
# Layouts of a number

The written forms of a binary number. A layout fixes how many digits are kept, which powers of
ten are written out in full, and how an exponent looks; three layouts are in use.

## Main definitions

* `Selection` : the choice of the digits.
* `Layout` : the decisions of a written form.
* `Layout.display`, `Layout.json`, `Layout.stored` : the three forms in use.
* `Layout.write` : the text of a number in a layout.
-/

namespace PlaylistRules

/-- The digits that are written: the fewest that read back, with the rounding half way between two
decimals, or a number of leading digits found in extended precision. -/
inductive Selection where
  | shortest (tie : Tie)
  | leading (count : Nat)
deriving DecidableEq, Repr

/-- The digits that are written of a finite number other than zero. -/
def Selection.decimal (f : Binary64) : Selection → Decimal
  | shortest tie => f.shortest tie
  | leading count => f.leadingDecimal count

/-- The decisions of a written form of binary numbers. -/
structure Layout where
  /-- The digits that are written. -/
  selection : Selection
  /-- The smallest and the largest power of ten of the first digit that are written without an
  exponent. All are when there are no bounds. -/
  positional : Option (Int × Int)
  /-- A whole number ends in a point and a zero. -/
  wholePoint : Bool
  /-- A single digit before an exponent is followed by a point and a zero. -/
  singlePoint : Bool
  /-- The least number of digits of an exponent. -/
  exponentDigits : Nat
  /-- The zero below zero keeps its sign. -/
  signedZero : Bool
  /-- The texts of infinity and of a number that is none. -/
  infinity : String
  notANumber : String
deriving Repr

namespace Layout

/-- Values are shown with the fewest digits that read back, never with an exponent. -/
def display : Layout where
  selection := .shortest .up
  positional := none
  wholePoint := false
  singlePoint := false
  exponentDigits := 1
  signedZero := true
  infinity := "inf"
  notANumber := "NaN"

/-- JSON has the fewest digits that read back, an exponent below `-5` and above `15`, and a point
in every number without an exponent. -/
def json : Layout where
  selection := .shortest .toEven
  positional := some (-5, 15)
  wholePoint := true
  singlePoint := false
  exponentDigits := 1
  signedZero := true
  infinity := "inf"
  notANumber := "NaN"

/-- A number that is stored as text has fifteen digits, an exponent below `-4` and above `14`,
and a point in any case. -/
def stored : Layout where
  selection := .leading 15
  positional := some (-4, 14)
  wholePoint := true
  singlePoint := true
  exponentDigits := 2
  signedZero := false
  infinity := "Inf"
  notANumber := "NaN"

/-- The digits of a decimal with a point after the digit of the unit. -/
def writePositional (layout : Layout) (d : Decimal) : List Char :=
  let digits := d.digits
  if d.leading < 0 then
    '0' :: '.' :: (List.replicate (-d.leading - 1).toNat '0' ++ digits)
  else
    let whole := d.leading.toNat + 1
    let padded := digits ++ List.replicate (whole - digits.length) '0'
    let rest := padded.drop whole
    if rest.isEmpty then padded ++ (if layout.wholePoint then ['.', '0'] else [])
    else padded.take whole ++ '.' :: rest

/-- The digits of a decimal with a point after the first digit, and the power of ten. -/
def writeScientific (layout : Layout) (d : Decimal) : List Char :=
  let mantissa := match d.digits with
    | [] => []
    | [c] => if layout.singlePoint then [c, '.', '0'] else [c]
    | c :: cs => c :: '.' :: cs
  let exponent := Nat.toDigits 10 d.leading.natAbs
  mantissa ++ 'e' :: (if d.leading < 0 then '-' else '+') ::
    (List.replicate (layout.exponentDigits - exponent.length) '0' ++ exponent)

/-- The text of a positive decimal. -/
def writeDecimal (layout : Layout) (d : Decimal) : List Char :=
  match layout.positional with
  | none => layout.writePositional d
  | some (least, greatest) =>
    if least ≤ d.leading ∧ d.leading ≤ greatest then layout.writePositional d
    else layout.writeScientific d

/-- The text of a number. -/
def write (layout : Layout) (f : Binary64) : String :=
  let body :=
    if f.isNaN then layout.notANumber.toList
    else if !f.isFinite then layout.infinity.toList
    else if f.isZero then layout.writePositional ⟨0, 0⟩
    else layout.writeDecimal (layout.selection.decimal f)
  let signed := f.isNegative && !f.isNaN && (!f.isZero || layout.signedZero)
  String.ofList (if signed then '-' :: body else body)

end Layout

end PlaylistRules
