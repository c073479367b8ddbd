import PlaylistRules.Rule.Operator
import PlaylistRules.Store.Value

/-!
# Comparing stored values

Comparisons are true, false or unknown, and unknown when null takes part. Numbers come before
texts and texts before bytes; numbers compare by value and texts by their characters. A column
first converts the value that it is compared with. Patterns match whole texts, without regard to
the case of ASCII letters.

## Main definitions

* `Store.Truth` : true, false or unknown, with `Store.Truth.both` and `Store.Truth.any`.
* `Store.Value.order` : the order of values other than null.
* `Store.matchesPattern` : texts that match a pattern.
* `Store.compareWith` : a comparison of a column with bound values.
-/

namespace PlaylistRules.Store

/-- True, false, or unknown. -/
abbrev Truth := Option Bool

namespace Truth

/-- Both are true. One that is false decides. -/
def both : Truth → Truth → Truth
  | some false, _ => some false
  | _, some false => some false
  | some true, some true => some true
  | _, _ => none

/-- One of two is true. One that is true decides. -/
def either : Truth → Truth → Truth
  | some true, _ => some true
  | _, some true => some true
  | some false, some false => some false
  | _, _ => none

/-- The opposite. -/
def negate (truth : Truth) : Truth :=
  truth.map not

/-- All of a list are true. -/
def all (truths : List Truth) : Truth :=
  truths.foldr both (some true)

/-- One of a list is true. -/
def any (truths : List Truth) : Truth :=
  truths.foldr either (some false)

theorem both_eq_true_iff {a b : Truth} : both a b = some true ↔ a = some true ∧ b = some true := by
  rcases a with _ | _ | _ <;> rcases b with _ | _ | _ <;> decide

theorem either_eq_true_iff {a b : Truth} :
    either a b = some true ↔ a = some true ∨ b = some true := by
  rcases a with _ | _ | _ <;> rcases b with _ | _ | _ <;> decide

/-- A list is true when all of it is. -/
theorem all_eq_true_iff {truths : List Truth} :
    all truths = some true ↔ ∀ truth ∈ truths, truth = some true := by
  induction truths with
  | nil => simp [all]
  | cons truth truths ih => simpa [all, both_eq_true_iff] using fun _ => ih

/-- A choice is true when one of it is. -/
theorem any_eq_true_iff {truths : List Truth} :
    any truths = some true ↔ ∃ truth ∈ truths, truth = some true := by
  induction truths with
  | nil => simp [any]
  | cons truth truths ih =>
    simp only [any, List.foldr_cons, either_eq_true_iff, List.mem_cons, exists_eq_or_imp]
    exact or_congr_right ih

end Truth

/-! ### Order -/

namespace Value

/-- The order of values other than null. -/
def order : Value → Value → Ordering
  | int a, int b => compare a.toInt b.toInt
  | int a, real b => (b.compareInt a.toInt).swap
  | real a, int b => a.compareInt b.toInt
  | real a, real b => a.compare b
  | text a, text b => compare a b
  | blob a, blob b => compare a b
  | text _, blob _ => .lt
  | blob _, text _ => .gt
  | text _, _ => .gt
  | blob _, _ => .gt
  | _, text _ => .lt
  | _, blob _ => .lt
  | null, _ => .eq
  | _, null => .eq

/-- The value is a text. -/
def isText : Value → Bool
  | text _ => true
  | _ => false

/-- Two values as a column compares them. Numeric columns take texts that stand for numbers as
numbers; text columns take numbers as texts, unless neither value is a text. -/
def forComparison (affinity : Affinity) (a b : Value) : Value × Value :=
  if affinity.isNumeric then
    if a.isText || b.isText then (a.toNumber, b.toNumber) else (a, b)
  else if affinity = .text then
    if a.isText || b.isText then (a.toText, b.toText) else (a, b)
  else (a, b)

/-- A comparison of two values by their order, unknown when one is null. -/
def test (affinity : Affinity) (accepts : Ordering → Bool) (a b : Value) : Truth :=
  if a.isNull || b.isNull then none
  else
    let (a, b) := forComparison affinity a b
    some (accepts (order a b))

end Value

/-! ### Patterns -/

/-- An ASCII letter in lower case; other characters stay. -/
def foldCase (c : Char) : Char :=
  if 'A' ≤ c ∧ c ≤ 'Z' then Char.ofNat (c.toNat + 32) else c

/-- A property of the end of a text from some place on. -/
def someEnd (property : List Char → Bool) : List Char → Bool
  | [] => property []
  | c :: cs => property (c :: cs) || someEnd property cs

/-- A text matches a pattern: `%` stands for any text, `_` for one character, and any other
character for itself in either case. -/
def matchesPattern : List Char → List Char → Bool
  | [], cs => cs.isEmpty
  | p :: ps, cs =>
    if p = '%' then someEnd (matchesPattern ps) cs
    else match cs with
      | [] => false
      | c :: cs => (p = '_' || foldCase p = foldCase c) && matchesPattern ps cs

/-- The part of a text before its first zero character. -/
def beforeZero (text : String) : List Char :=
  text.toList.takeWhile (· != '\x00')

/-- A match of a value with a pattern, unknown when one is null. -/
def matchValue (value pattern : Value) : Truth :=
  match value.patternText?, pattern.patternText? with
  | some text, some pattern => some (matchesPattern (beforeZero pattern) (beforeZero text))
  | _, _ => none

/-! ### Columns -/

/-- A value with the preference of its column. -/
structure Cell where
  affinity : Affinity
  value : Value
deriving DecidableEq, Repr

open Rule (Comparison)

/-- A comparison of a cell with bound values. Their number is right. -/
def compareWith (cell : Cell) : Comparison → List Value → Truth
  | .equal, [a] => Value.test cell.affinity (· == .eq) cell.value a
  | .unequal, [a] => Value.test cell.affinity (· != .eq) cell.value a
  | .like, [a] => matchValue cell.value a
  | .notLike, [a] => (matchValue cell.value a).negate
  | .between, [low, high] =>
    Truth.both (Value.test cell.affinity (· != .lt) cell.value low)
      (Value.test cell.affinity (· != .gt) cell.value high)
  | .greater, [a] => Value.test cell.affinity (· == .gt) cell.value a
  | .less, [a] => Value.test cell.affinity (· == .lt) cell.value a
  | .atLeast, [a] => Value.test cell.affinity (· != .lt) cell.value a
  | _, _ => none

/-- The equality of two cells. A numeric column makes numbers of texts; otherwise the values are
compared as they are. -/
def equalCells (a b : Cell) : Truth :=
  Value.test (if a.affinity.isNumeric || b.affinity.isNumeric then .numeric else .none)
    (· == .eq) a.value b.value

end PlaylistRules.Store
