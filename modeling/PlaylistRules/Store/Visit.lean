import PlaylistRules.Query.Predicate
import PlaylistRules.Store.Table

/-!
# Orders of visit

The rows of a table are visited in the order of their numbers, in the order of the identity column
when conditions bound it, or group by group when every group of a choice bounds it and this is
estimated to be cheaper. Estimates are in tenths of binary logarithms.

## Main definitions

* `Store.KeyUse` : how a group of conditions bounds the identity column.
* `Store.Estimate.add` : the sum of two estimates.
* `Store.Visit`, `Store.Table.visit` : the order in which the rows of a table are visited.
-/

namespace PlaylistRules.Store

open Query (Condition)
open Rule (Comparison)

/-! ### Bounds of the identity column -/

/-- A group of conditions bounds the identity column to one value, on both sides, or on one. -/
inductive KeyUse where
  | exact
  | twoSided
  | oneSided
deriving DecidableEq, Repr

/-- A comparison bounds a column from below. -/
def boundsBelow : Comparison → Bool
  | .between | .greater | .atLeast => true
  | _ => false

/-- A comparison bounds a column from above. -/
def boundsAbove : Comparison → Bool
  | .between | .less => true
  | _ => false

/-- The comparison of a condition on the column in a place of a table. -/
def Table.comparisonAt? (table : Table) (place : Nat) : Condition → Option Comparison
  | .own test => if table.place? test.column = some place then some test.comparison else none
  | .related _ _ _ _ => none

/-- How comparisons with a column bound it. -/
def KeyUse.of? (comparisons : List Comparison) : Option KeyUse :=
  if comparisons.contains .equal then some exact
  else match comparisons.any boundsBelow, comparisons.any boundsAbove with
    | true, true => some twoSided
    | false, false => none
    | _, _ => some oneSided

/-- How a group of conditions bounds the identity column of a table. -/
def Table.keyUse? (table : Table) (group : List Condition) : Option KeyUse :=
  table.identity.bind fun place => KeyUse.of? (group.filterMap (table.comparisonAt? place))

/-! ### Estimates -/

/-- What the larger of two estimates grows by when the smaller one is added, by their
difference. -/
def Estimate.growth (difference : Nat) : Nat :=
  if difference ≤ 1 then 10
  else if difference ≤ 3 then 9
  else if difference ≤ 5 then 8
  else if difference ≤ 8 then 7
  else if difference ≤ 11 then 6
  else if difference ≤ 14 then 5
  else if difference ≤ 18 then 4
  else if difference ≤ 24 then 3
  else if difference ≤ 31 then 2
  else if difference ≤ 49 then 1
  else 0

/-- The sum of two estimates. -/
def Estimate.add (a b : Nat) : Nat :=
  max a b + growth (max a b - min a b)

/-- The estimate for the rows of a group. Rows that are not found by their numbers are looked up
in an index first. -/
def KeyUse.estimate (numbered : Bool) : KeyUse → Nat
  | exact => if numbered then 45 else 46
  | twoSided => if numbered then 156 else 162
  | oneSided => if numbered then 196 else 202

/-- Groups with a larger estimate are not visited one by one. -/
def largestEstimate : Nat := 214

/-- A choice between more single values is visited group by group. -/
def largestList : Nat := 10

/-! ### Visits -/

/-- The order in which the rows of a table are visited. -/
inductive Visit where
  | byNumber
  | byKey
  | byGroup
deriving DecidableEq, Repr

/-- A group is one comparison for equality. -/
def isSingleValue (group : List Condition) : Bool :=
  match group with
  | [.own test] => test.comparison == .equal
  | _ => false

/-- The order for a choice between groups that all bound the identity column. -/
def visitOfUses (numbered single : Bool) : List KeyUse → Visit
  | [] => .byNumber
  | [_] => .byKey
  | use :: uses =>
    if single && uses.length < largestList then .byKey
    else if uses.foldl (fun sum use => Estimate.add sum (use.estimate numbered))
        (use.estimate numbered) ≤ largestEstimate then .byGroup
    else .byNumber

/-- The order in which the rows of a table are visited for a choice between groups. -/
def Table.visit (table : Table) (groups : List (List Condition)) : Visit :=
  match groups.mapM table.keyUse? with
  | none => .byNumber
  | some uses => visitOfUses table.numberPlace?.isSome (groups.all isSingleValue) uses

/-- The order of two rows by the identity column. -/
def Table.keyOrder (table : Table) (a b : Row) : Ordering :=
  match table.identity.bind (a.values[·]?), table.identity.bind (b.values[·]?) with
  | some a, some b => a.order b
  | _, _ => .eq

/-- The order of two rows in a visit, each with the place of the first group that it belongs to. -/
def Visit.rowLe (table : Table) (visit : Visit) (a b : Nat × Row) : Bool :=
  match visit with
  | byNumber => true
  | byKey => table.keyOrder a.2 b.2 != .gt
  | byGroup => a.1 < b.1 || a.1 == b.1 && table.keyOrder a.2 b.2 != .gt

/-- Rows in the order of a visit, given in the order of their numbers. -/
def Visit.arrange (table : Table) (visit : Visit) (rows : List (Nat × Row)) : List Row :=
  (rows.mergeSort (visit.rowLe table)).map Prod.snd

/-- The order of a visit neither adds nor loses rows. -/
theorem arrange_perm (table : Table) (visit : Visit) (rows : List (Nat × Row)) :
    (visit.arrange table rows).Perm (rows.map Prod.snd) :=
  (List.mergeSort_perm _ _).map _

end PlaylistRules.Store
