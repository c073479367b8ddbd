import PlaylistRules.Rule.Operator
import PlaylistRules.Text.Quoted

/-!
# Predicates

The condition of a query as a tree: a choice between groups of conditions, each a comparison on a
column of the base table, or the existence of a related row with such a comparison. A predicate is
written as text with a question mark in place of every bound value.

## Main definitions

* `Query.Test`, `Query.Condition`, `Query.Predicate` : the parts of a predicate.
* `Query.Predicate.text` : the text of a predicate.
-/

namespace PlaylistRules.Query

open Rule (Comparison)

/-- A comparison of a column with bound values. -/
structure Test where
  column : String
  comparison : Comparison
deriving DecidableEq, Repr

/-- A column with the name of its table. -/
structure ColumnRef where
  table : String
  column : String
deriving DecidableEq, Repr

/-- A condition on a row: a comparison on one of its columns, or a row of another table whose join
column equals one of the row and for which the comparison holds. -/
inductive Condition where
  | own (test : Test)
  | related (table : String) (outer inner : ColumnRef) (test : Test)
deriving DecidableEq, Repr

/-- A predicate: one that no row satisfies, or a choice between groups of conditions. -/
inductive Predicate where
  | never
  | anyOf (groups : List (List Condition))
deriving DecidableEq, Repr

/-- The comparison of a condition, without its place. -/
def Condition.test : Condition → Test
  | own test => test
  | related _ _ _ test => test

/-- The number of bound values of a condition. -/
def Condition.arity (condition : Condition) : Nat :=
  condition.test.comparison.arity

/-- The number of bound values of conditions. -/
def groupArity (group : List Condition) : Nat :=
  group.foldr (fun condition count => condition.arity + count) 0

/-- The number of bound values of a predicate. -/
def Predicate.arity : Predicate → Nat
  | never => 0
  | anyOf groups => groups.foldr (fun group count => groupArity group + count) 0

/-! ### Text -/

/-- A comparison of a column by an operator with one placeholder, after a text. -/
def writeComparison (before column operator : String) : String :=
  before ++ Text.quoteName column ++ " " ++ operator ++ " ?"

/-- The text of a comparison on a column. -/
def Test.text (test : Test) : String :=
  match test.comparison with
  | .equal => writeComparison "" test.column "="
  | .unequal => writeComparison "" test.column "<>"
  | .like => writeComparison "" test.column "LIKE"
  | .notLike => writeComparison "" test.column "NOT LIKE"
  | .between => Text.quoteName test.column ++ " between ? and ?"
  | .greater => writeComparison "" test.column ">"
  | .less => writeComparison "" test.column "<"
  | .atLeast => writeComparison "" test.column ">="

/-- The text of a column with its table. -/
def ColumnRef.text (ref : ColumnRef) : String :=
  Text.quoteName ref.table ++ "." ++ Text.quoteName ref.column

/-- The text of a condition. -/
def Condition.text : Condition → String
  | own test => test.text
  | related table outer inner test =>
    "exists (select * from " ++ Text.quoteName table ++ " where " ++ outer.text ++ " = " ++
      inner.text ++ " and " ++ test.text ++ ")"

/-- The text of a group of conditions. -/
def groupText (group : List Condition) : String :=
  "(" ++ String.intercalate " and " (group.map Condition.text) ++ ")"

/-- The text of the predicate that no row satisfies. -/
def neverText : String := "0 = 1"

/-- The text of a predicate. -/
def Predicate.text : Predicate → String
  | never => neverText
  | anyOf groups => String.intercalate " or " (groups.map groupText)

end PlaylistRules.Query
