import PlaylistRules.Json.Basic

/-!
# Rule records

Rules as they are stored with a playlist: a tree of groups of rules, with names and values as
texts and JSON. Nothing is checked here but the shape.

## Main definitions

* `RuleRecord`, `GroupRecord`, `TreeRecord` : a rule, a group of rules and a tree of groups.
* `RuleRecord.values` : the values of a rule as a list.
* `TreeRecord.ruleCount` : the number of rules in all groups.
-/

namespace PlaylistRules

/-- A rule as it is stored: the path of a field, the name of an operator, and a value that holds
the values of the rule. -/
structure RuleRecord where
  model : String
  operator : String
  value : Json

/-- A group of stored rules. -/
structure GroupRecord where
  rules : List RuleRecord

/-- A tree of stored groups. -/
structure TreeRecord where
  groups : List GroupRecord

namespace RuleRecord

/-- A rule with a list of values. -/
def ofValues (model operator : String) (values : List Json) : RuleRecord :=
  ⟨model, operator, .array values⟩

/-- The values of a rule: the items of an array, none for null, and any other value alone. -/
def values (record : RuleRecord) : List Json :=
  match record.value with
  | .array items => items
  | .null => []
  | value => [value]

end RuleRecord

namespace TreeRecord

/-- The number of rules in all groups. -/
def ruleCount (tree : TreeRecord) : Nat :=
  (tree.groups.flatMap GroupRecord.rules).length

end TreeRecord

end PlaylistRules
