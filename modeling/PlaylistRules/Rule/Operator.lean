import PlaylistRules.Rule.Error
import PlaylistRules.Scalar
import PlaylistRules.Text.Blank

/-!
# Operators

The operators of rules: their names, the number of values they take, the comparison they make with
a column, and the values that they bind for it.

## Main definitions

* `Rule.Operator` : the operators.
* `Rule.Operator.lookup` : an operator by its name.
* `Rule.Comparison` : the comparisons of a column with bound values.
* `Rule.Operator.coerce` : the values that are bound.
-/

namespace PlaylistRules.Rule

/-- The comparisons of a column with bound values. -/
inductive Comparison where
  | equal
  | unequal
  | like
  | notLike
  | between
  | greater
  | less
  | atLeast
deriving DecidableEq, Repr

/-- The number of bound values of a comparison. -/
def Comparison.arity : Comparison → Nat
  | between => 2
  | _ => 1

/-- The operators of rules. -/
inductive Operator where
  | is
  | isNot
  | contains
  | doesNotContain
  | beginsWith
  | endsWith
  | isBetween
  | isGreaterThan
  | isLessThan
  | inLast
  | notInLast
deriving DecidableEq, Repr

namespace Operator

/-- All operators in the order in which they are listed. -/
def all : List Operator :=
  [is, isNot, contains, doesNotContain, beginsWith, endsWith, isBetween, isGreaterThan,
    isLessThan, inLast, notInLast]

/-- The name of an operator in a rule. -/
def name : Operator → String
  | is => "is"
  | isNot => "isNot"
  | contains => "contains"
  | doesNotContain => "doesNotContain"
  | beginsWith => "beginsWith"
  | endsWith => "endsWith"
  | isBetween => "isBetween"
  | isGreaterThan => "isGreaterThan"
  | isLessThan => "isLessThan"
  | inLast => "inLast"
  | notInLast => "notInLast"

/-- The place of an operator in the list of all. -/
def index (operator : Operator) : Nat :=
  all.idxOf operator

/-- The operator of a name. -/
def lookup (name : String) : Except Error Operator :=
  match all.find? fun operator => operator.name == name with
  | some operator => .ok operator
  | none => .error (.of (.unknownOperator name))

/-- The number of values that an operator takes. -/
def arity : Operator → Nat
  | isBetween => 2
  | _ => 1

/-- The comparison that an operator makes. -/
def comparison : Operator → Comparison
  | is => .equal
  | isNot => .unequal
  | contains | beginsWith | endsWith => .like
  | doesNotContain => .notLike
  | isBetween => .between
  | isGreaterThan => .greater
  | isLessThan | notInLast => .less
  | inLast => .atLeast

/-- The error of a wrong number of values. -/
def arityError (operator : Operator) (given : Nat) : Error :=
  .of (.invalidArity operator.name operator.arity given)

/-- A value between two texts, as a pattern. Null and instants have no pattern. -/
def pattern (operator : Operator) (before after : String) (value : Scalar) :
    Except Error Scalar :=
  match value with
  | .null | .instant _ => .error (.of (.noPattern operator.name value.typeName))
  | value => .ok (.text (before ++ value.display ++ after))

/-- The number of days of a value: an integer or the text of one, with blanks around it. -/
def readDays? (value : Scalar) : Option Int64 :=
  match value with
  | .int days => some days
  | .text days => Number.readInt64? (Text.trim days.toList)
  | _ => none

/-- The number of days of a value, unless it is negative. -/
def dayCount (operator : Operator) (value : Scalar) : Except Error Nat :=
  match readDays? value with
  | some days =>
    if 0 ≤ days.toInt then .ok days.toInt.toNat
    else .error (.of (.noDayCount operator.name value.display))
  | none => .error (.of (.noDayCount operator.name value.display))

/-- The first instant of the date so many days before a reference instant. -/
def cutoff (operator : Operator) (now : Calendar.Instant) (value : Scalar) :
    Except Error Scalar := do
  let days ← operator.dayCount value
  match now.date.minusDays? days with
  | some date => .ok (.instant (.midnight date))
  | none => .error (.of (.daysOutOfRange operator.name days))

/-- The values that an operator binds for the values of a rule, at a reference instant. -/
def coerce (operator : Operator) (now : Calendar.Instant) (values : List Scalar) :
    Except Error (List Scalar) :=
  match operator, values with
  | isBetween, [low, high] => .ok [low, high]
  | isBetween, values => .error (isBetween.arityError values.length)
  | operator, [value] =>
    match operator with
    | contains | doesNotContain => return [← operator.pattern "%" "%" value]
    | beginsWith => return [← operator.pattern "" "%" value]
    | endsWith => return [← operator.pattern "%" "" value]
    | inLast | notInLast => return [← operator.cutoff now value]
    | _ => .ok [value]
  | operator, values => .error (operator.arityError values.length)

/-- An operator takes as many values as its comparison has bound values. -/
theorem arity_comparison (operator : Operator) :
    operator.comparison.arity = operator.arity := by
  cases operator <;> rfl

/-- Every operator is found by its name. -/
theorem lookup_name (operator : Operator) : lookup operator.name = .ok operator := by
  cases operator <;> rfl

end Operator

end PlaylistRules.Rule
