import PlaylistRules.Number.Layout
import PlaylistRules.Calendar.Instant

/-!
# Scalar values

The values that rules compare with and that queries bind: null, booleans, integers of sixty-four
bits, binary numbers, texts and instants.

## Main definitions

* `Scalar` : a value.
* `Scalar.display` : the text in which a value is shown.
* `Scalar.typeName` : the name of a value's type in messages and tables.
-/

namespace PlaylistRules

/-- A value that a rule compares with and a query binds. -/
inductive Scalar where
  | null
  | bool (value : Bool)
  | int (value : Int64)
  | float (value : Binary64)
  | text (value : String)
  | instant (value : Calendar.Instant)
deriving DecidableEq, Repr

namespace Scalar

/-- The value is null. -/
def isNull : Scalar → Bool
  | null => true
  | _ => false

/-- The integer of an integer value. -/
def int? : Scalar → Option Int64
  | int value => some value
  | _ => none

/-- The text of a text value. -/
def text? : Scalar → Option String
  | text value => some value
  | _ => none

/-- The integer value of thirty-two bits, widened. -/
def ofInt32 (value : Int32) : Scalar :=
  int (Int64.ofInt value.toInt)

/-- The name of the value's type. -/
def typeName : Scalar → String
  | null => "null"
  | bool _ => "bool"
  | int _ => "integer"
  | float _ => "float"
  | text _ => "string"
  | instant _ => "timestamp"

/-- The text in which the value is shown. -/
def display : Scalar → String
  | null => "NULL"
  | bool true => "true"
  | bool false => "false"
  | int value => String.ofList (Number.signed value.toInt)
  | float value => Layout.display.write value
  | text value => value
  | instant value => value.display

end Scalar

end PlaylistRules
