import PlaylistRules.Catalog.Entity
import PlaylistRules.Scalar
import PlaylistRules.Store.Numeral

/-!
# Stored values

The values that a table keeps and the preference of its columns for numbers or texts. A column
converts what is put into it as far as nothing is lost.

## Main definitions

* `Store.Value` : null, an integer, a binary number, a text or bytes.
* `Store.Affinity` : the preference of a column.
* `Store.readNumeric?` : the number that a whole text stands for.
* `Store.Affinity.keep` : a value as a column keeps it.
* `Store.Value.ofScalar`, `Store.Value.toScalar` : bound values and results.
-/

namespace PlaylistRules.Store

/-- A value of a table. -/
inductive Value where
  | null
  | int (value : Int64)
  | real (value : Binary64)
  | text (value : String)
  | blob (bytes : List UInt8)
deriving DecidableEq, Repr

/-- The preference of a column for a class of values. -/
inductive Affinity where
  | integer
  | numeric
  | real
  | text
  | none
deriving DecidableEq, Repr

namespace Affinity

/-- The preference of the columns of a type. -/
def ofType : Catalog.ColumnType → Affinity
  | .int => integer
  | .float => real
  | .text => text
  | .bool | .instant => numeric

/-- The column prefers numbers. -/
def isNumeric : Affinity → Bool
  | integer | numeric | real => true
  | text | none => false

end Affinity

/-! ### Texts of numbers -/

/-- The value of a number in a text: an integer when it is written as one and fits, and a binary
number otherwise. -/
def NumericText.value (number : NumericText) : Value :=
  let digits := Number.digitsFrom 0 number.whole
  let whole? := Number.toInt64? (if number.negative then -(digits : Int) else digits)
  match if number.isInteger then whole? else Option.none with
  | some word => .int word
  | Option.none => .real number.binary

/-- The number that a whole text stands for. -/
def readNumeric? (text : String) : Option Value :=
  (readNumericText? text.toList).map NumericText.value

/-! ### Conversions -/

/-- The signed word that equals a binary number. The smallest word is left out. -/
def wholeWord? (f : Binary64) : Option Int64 :=
  f.toInt?.bind fun i => if Number.minInt64 < i then Number.toInt64? i else Option.none

namespace Value

/-- The value is null. -/
def isNull : Value → Bool
  | null => true
  | _ => false

/-- The text of a number. -/
def numberText? : Value → Option String
  | int value => some (String.ofList (Number.signed value.toInt))
  | real value => some (Layout.stored.write value)
  | _ => Option.none

/-- A number as a text; other values stay. -/
def toText (value : Value) : Value :=
  match value.numberText? with
  | some shown => .text shown
  | Option.none => value

/-- A text that stands for a number as that number; other values stay. -/
def toNumber : Value → Value
  | text value => (readNumeric? value).getD (.text value)
  | value => value

/-- A binary number that equals a signed word as that word; other values stay. -/
def toWhole : Value → Value
  | real value => match wholeWord? value with
    | some word => .int word
    | Option.none => .real value
  | value => value

/-- An integer as a binary number; other values stay. -/
def toReal : Value → Value
  | int value => .real (Binary64.ofInt value.toInt)
  | value => value

/-- The text of bytes: their characters, or one character for each byte if they are no text. -/
def bytesText (bytes : List UInt8) : String :=
  (String.fromUTF8? ⟨bytes.toArray⟩).getD
    (String.ofList (bytes.map fun byte => Char.ofNat byte.toNat))

/-- The text of a value in a match with a pattern. Null has none. -/
def patternText? : Value → Option String
  | null => Option.none
  | text value => some value
  | blob bytes => some (bytesText bytes)
  | value => value.numberText?

/-- The bound value of a scalar: booleans are one and zero, instants are shown, and NaN is
null. -/
def ofScalar : Scalar → Value
  | .null => null
  | .bool value => int (if value then 1 else 0)
  | .int value => int value
  | .float value => if value.isNaN then null else real value
  | .text value => text value
  | .instant value => text value.display

/-- The scalar of a value in a result. Bytes are shown by their number. -/
def toScalar : Value → Scalar
  | null => .null
  | int value => .int value
  | real value => .float value
  | text value => .text value
  | blob bytes => .text (String.ofList ('<' :: (Number.digits bytes.length ++ " bytes>".toList)))

end Value

/-- A value as a column keeps it. Texts prefer texts; numeric columns take texts that stand for
numbers as numbers, and whole numbers as integers; real columns have no integers. -/
def Affinity.keep (affinity : Affinity) (value : Value) : Value :=
  match affinity with
  | .text => value.toText
  | .integer | .numeric => value.toNumber.toWhole
  | .real => value.toNumber.toWhole.toReal
  | .none => value

end PlaylistRules.Store
