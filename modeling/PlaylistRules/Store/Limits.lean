import PlaylistRules.Scalar
import PlaylistRules.Store.Depth

/-!
# Limits of statements

A statement is refused when its expression tree is too high or when it has too many placeholders.
Its conditions are checked in the order in which they are written, so that of two limits the one is
reported that is passed first. A long pattern is refused when a row is tested with it. Which rows
are tested depends on the order in which a database evaluates conditions, so that executing a query
is only described for short patterns.

## Main definitions

* `Store.checkLimits` : the first limit that a predicate passes.
* `Store.placeholderOffset` : the place of a placeholder in a text.
* `Store.HasShortPatterns` : bound values that are no long patterns.
* `Store.IsWithinLimits` : a predicate within the limits, with its bound values.
-/

namespace PlaylistRules.Store

open Query (Condition Predicate)

/-- The limits that are checked when a statement is read. -/
inductive Limit where
  | height
  | variables
deriving DecidableEq, Repr

/-- The largest number of placeholders. -/
def variableLimit : Nat := 32766

/-- The largest size of a pattern, in bytes. -/
def patternLimit : Nat := 50000

/-! ### Heights and placeholders -/

/-- The height of an expression after those that stand before it, if there are any. -/
def joinHeight (joined : Option Nat) (height : Nat) : Nat :=
  joined.elim height fun joined => max joined height + 1

/-- Expressions joined with one more, unless they are too high. -/
def checkHeight (joined : Option Nat) (height : Nat) : Except Limit Nat :=
  if heightLimit < joinHeight joined height then .error .height else .ok (joinHeight joined height)

/-- The placeholders that conditions leave, and the height at which they are joined. -/
def checkConditions : Nat → Option Nat → List Condition → Except Limit (Nat × Option Nat)
  | left, joined, [] => .ok (left, joined)
  | left, joined, condition :: conditions => do
    if left < condition.arity then throw .variables
    let height ← checkHeight joined (conditionHeight condition)
    checkConditions (left - condition.arity) (some height) conditions

/-- The groups of a choice are within the limits, with those that stand before them. -/
def checkGroups : Nat → Option Nat → List (List Condition) → Except Limit Unit
  | _, _, [] => .ok ()
  | left, joined, group :: groups => do
    let (left, height) ← checkConditions left none group
    let height ← checkHeight joined (height.getD 0)
    checkGroups left (some height) groups

/-- A predicate is within the limits of height and placeholders. -/
def checkLimits : Predicate → Except Limit Unit
  | .never => .ok ()
  | .anyOf groups => checkGroups variableLimit none groups

/-- The place of a placeholder in a text, in bytes, after a number of other ones. Question marks in
names are no placeholders. -/
def placeholderOffset : Nat → Bool → List Char → Nat
  | _, _, [] => 0
  | before, quoted, c :: cs =>
    if c = '"' then c.utf8Size + placeholderOffset before (!quoted) cs
    else if c = '?' ∧ quoted = false then
      match before with
      | 0 => 0
      | before + 1 => c.utf8Size + placeholderOffset before quoted cs
    else c.utf8Size + placeholderOffset before quoted cs

/-! ### Patterns -/

/-- The comparison matches a pattern. -/
def takesPattern : Rule.Comparison → Bool
  | .like | .notLike => true
  | _ => false

/-- The bound values that conditions take as patterns. -/
def patterns : List Condition → List Scalar → List Scalar
  | [], _ => []
  | condition :: conditions, values =>
    (if takesPattern condition.test.comparison then values.take condition.arity else []) ++
      patterns conditions (values.drop condition.arity)

/-- The bound values that a predicate takes as patterns. -/
def predicatePatterns : Predicate → List Scalar → List Scalar
  | .never, _ => []
  | .anyOf groups, values => patterns groups.flatten values

/-- No bound value is a long pattern. -/
def HasShortPatterns (predicate : Predicate) (bindings : List Scalar) : Prop :=
  ∀ pattern ∈ predicatePatterns predicate bindings, pattern.display.utf8ByteSize ≤ patternLimit

instance (predicate : Predicate) (bindings : List Scalar) :
    Decidable (HasShortPatterns predicate bindings) :=
  inferInstanceAs (Decidable (∀ pattern ∈ predicatePatterns predicate bindings, _))

/-- A predicate is within the limits, with its bound values. -/
structure IsWithinLimits (predicate : Predicate) (bindings : List Scalar) : Prop where
  isShallow : IsShallow predicate
  arity_le : predicate.arity ≤ variableLimit
  hasShortPatterns : HasShortPatterns predicate bindings

instance (predicate : Predicate) (bindings : List Scalar) :
    Decidable (IsWithinLimits predicate bindings) :=
  decidable_of_iff
    (IsShallow predicate ∧ predicate.arity ≤ variableLimit ∧ HasShortPatterns predicate bindings)
    ⟨fun ⟨h, h', h''⟩ => ⟨h, h', h''⟩, fun h => ⟨h.isShallow, h.arity_le, h.hasShortPatterns⟩⟩

end PlaylistRules.Store
