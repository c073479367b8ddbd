import PlaylistRules.Query.Predicate

/-!
# Depth of predicates

The expression tree of a predicate has a bounded height. Conditions that are joined nest to the
left, so that every further one adds a level; a condition on a related row holds an expression of
its own, whose height counts on top of the whole.

## Main definitions

* `Store.conditionHeight`, `Store.predicateHeight` : the heights of expression trees.
* `Store.IsShallow` : a predicate within the bound.
-/

namespace PlaylistRules.Store

open Query (Condition Predicate)

/-- The largest height of an expression tree. -/
def heightLimit : Nat := 1000

/-- The height of the expression inside a condition on a related row. -/
def innerHeight : Nat := 4

/-- The height of a condition. -/
def conditionHeight : Condition → Nat
  | .own test => if test.comparison = .notLike then 3 else 2
  | .related _ _ _ _ => innerHeight + 1

/-- The height of expressions that are joined from the left. -/
def joinedHeight : List Nat → Nat
  | [] => 0
  | height :: heights => heights.foldl (fun joined height => max joined height + 1) height

/-- The height of a predicate. -/
def predicateHeight : Predicate → Nat
  | .never => 2
  | .anyOf groups => joinedHeight (groups.map fun group => joinedHeight (group.map conditionHeight))

/-- A condition asks for a related row. -/
def isRelated : Condition → Bool
  | .own _ => false
  | .related _ _ _ _ => true

/-- The height of a predicate with the expressions inside of it. -/
def nestedHeight (predicate : Predicate) : Nat :=
  match predicate with
  | .never => predicateHeight predicate
  | .anyOf groups =>
    predicateHeight predicate + if groups.any (List.any · isRelated) then innerHeight else 0

/-- A predicate is within the bound, with the expressions inside of it. -/
def IsShallow (predicate : Predicate) : Prop :=
  nestedHeight predicate ≤ heightLimit

instance (predicate : Predicate) : Decidable (IsShallow predicate) :=
  inferInstanceAs (Decidable (nestedHeight predicate ≤ heightLimit))

/-- The expressions inside of a predicate only add to its height. -/
theorem predicateHeight_le_nestedHeight (predicate : Predicate) :
    predicateHeight predicate ≤ nestedHeight predicate := by
  cases predicate with
  | never => exact Nat.le_refl _
  | anyOf groups => exact Nat.le_add_right _ _

end PlaylistRules.Store
