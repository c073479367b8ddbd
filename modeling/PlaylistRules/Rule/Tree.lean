import PlaylistRules.Json.Printer
import PlaylistRules.Record.Printer
import PlaylistRules.Record.Reader
import PlaylistRules.Rule.Operator

/-!
# Rule trees

A tree of rules is a choice between groups, and a group holds when all its rules do. A rule has as
many values as its operator takes, and no group of a tree is empty.

## Main definitions

* `Scalar.ofJson`, `Scalar.toJson` : scalar values as JSON.
* `Rule`, `RuleGroup`, `RuleTree` : rules, groups and trees.
* `RuleTree.ofGroups` : the tree of groups, without the empty ones.
* `RuleTree.ofRecord`, `RuleTree.toRecord` : trees and their stored records.
* `RuleTree.parse` : the tree of a stored text.
-/

namespace PlaylistRules

namespace Scalar

/-- The scalar value of a JSON value. Integers beyond the signed words become binary numbers, and
arrays and objects are no scalars. -/
def ofJson : Json → Except Rule.Error Scalar
  | .null => .ok null
  | .bool value => .ok (bool value)
  | .number (.integer value _ _) =>
    match Number.toInt64? value with
    | some word => .ok (int word)
    | none => .ok (float (Binary64.ofInt value))
  | .number (.float value _) => .ok (float value)
  | .string value => .ok (text value)
  | .array items => .error (.of (.notScalar (Json.array items).compact))
  | .object members => .error (.of (.notScalar (Json.object members).compact))

/-- The JSON value of a scalar value. Instants are written as they are shown. -/
def toJson : Scalar → Json
  | null => .null
  | bool value => .bool value
  | int value => Json.ofInt64 value
  | float value => Json.ofBinary64 value
  | text value => .string value
  | instant value => .string value.display

/-- The JSON value of a scalar value in an interchange of queries, where instants have their own
form. -/
def interchange : Scalar → Json
  | instant value => .string value.interchange
  | value => value.toJson

end Scalar

/-- A rule: the path of a field, an operator, and as many values as the operator takes. -/
structure Rule where
  field : String
  operator : Rule.Operator
  values : List Scalar
  values_length : values.length = operator.arity
deriving DecidableEq

/-- A group of rules, with its index among the groups it was written with. -/
structure RuleGroup where
  rules : List Rule
  sourceIndex : Option Nat
deriving DecidableEq

/-- A tree of groups, none of them empty. -/
structure RuleTree where
  groups : List RuleGroup
  groups_nonempty : ∀ group ∈ groups, group.rules ≠ []

namespace Rule

/-- The rule of a field, an operator and values, if their number is right. -/
def of (field : String) (operator : Operator) (values : List Scalar) : Except Error Rule :=
  if h : values.length = operator.arity then .ok ⟨field, operator, values, h⟩
  else .error (operator.arityError values.length)

/-- The rule that a field has a value. -/
def has (field : String) (value : Scalar) : Rule :=
  ⟨field, .is, [value], rfl⟩

/-- The rule of a record: its operator is looked up, then its values are taken as scalars, then
they are counted. -/
def ofRecord (record : RuleRecord) : Except Error Rule := do
  let operator ← Operator.lookup record.operator
  let values ← record.values.mapM Scalar.ofJson
  of record.model operator values

/-- The record of a rule, with its values in an array. -/
def toRecord (rule : Rule) : RuleRecord :=
  .ofValues rule.field rule.operator.name (rule.values.map Scalar.toJson)

end Rule

namespace RuleGroup

/-- A group that was not read from a text. -/
def ofRules (rules : List Rule) : RuleGroup :=
  ⟨rules, none⟩

/-- The group with one more rule, after the others. -/
def withRule (group : RuleGroup) (rule : Rule) : RuleGroup :=
  { group with rules := group.rules ++ [rule] }

/-- The group has no rules. -/
def isEmpty (group : RuleGroup) : Bool :=
  group.rules.isEmpty

/-- The rules of records from an index on. An error is located in the group. -/
def rulesOfRecords (group : Nat) : Nat → List RuleRecord → Except Rule.Error (List Rule)
  | _, [] => .ok []
  | index, record :: records =>
    match Rule.ofRecord record with
    | .error error => .error (error.locate group index)
    | .ok rule => return rule :: (← rulesOfRecords group (index + 1) records)

/-- The group of a record with its index. -/
def ofRecord (index : Nat) (record : GroupRecord) : Except Rule.Error RuleGroup := do
  let rules ← rulesOfRecords index 0 record.rules
  return ⟨rules, some index⟩

/-- The record of a group. -/
def toRecord (group : RuleGroup) : GroupRecord :=
  ⟨group.rules.map Rule.toRecord⟩

end RuleGroup

namespace RuleTree

/-- The tree of groups, without the empty ones. -/
def ofGroups (groups : List RuleGroup) : RuleTree where
  groups := groups.filter fun group => !group.isEmpty
  groups_nonempty group h := by
    simpa [RuleGroup.isEmpty] using (List.mem_filter.1 h).2

/-- The tree without groups. -/
def empty : RuleTree :=
  ofGroups []

/-- The groups of records from an index on. -/
def groupsOfRecords : Nat → List GroupRecord → Except Rule.Error (List RuleGroup)
  | _, [] => .ok []
  | index, record :: records => do
    let group ← RuleGroup.ofRecord index record
    return group :: (← groupsOfRecords (index + 1) records)

/-- The tree of a record. Groups keep the indices that they have in the record. -/
def ofRecord (record : TreeRecord) : Except Rule.Error RuleTree := do
  let groups ← groupsOfRecords 0 record.groups
  return ofGroups groups

/-- The record of a tree. -/
def toRecord (tree : RuleTree) : TreeRecord :=
  ⟨tree.groups.map RuleGroup.toRecord⟩

/-- The record of a stored text, or the error that it is malformed. -/
def readRecord (text : String) : Except Rule.Error TreeRecord :=
  match TreeRecord.parse text with
  | .ok record => .ok record
  | .error fault => .error (.of (.malformed fault))

/-- The tree of a stored text. -/
def parse (text : String) : Except Rule.Error RuleTree := do
  ofRecord (← readRecord text)

/-- The tree of a text is the one of the record that is stored in it. -/
theorem parse_eq_ofRecord {text : String} {record : TreeRecord}
    (h : TreeRecord.parse text = .ok record) : parse text = ofRecord record := by
  rw [parse, readRecord, h]
  rfl

/-- A text that cannot be read has no tree. -/
theorem parse_eq_malformed {text : String} {fault : Json.Fault}
    (h : TreeRecord.parse text = .error fault) :
    parse text = .error (.of (.malformed fault)) := by
  rw [parse, readRecord, h]
  rfl

/-- The tree has no groups. -/
def isEmpty (tree : RuleTree) : Bool :=
  tree.groups.isEmpty

/-- The number of rules in all groups. -/
def ruleCount (tree : RuleTree) : Nat :=
  (tree.groups.flatMap RuleGroup.rules).length

/-- The operators of the rules, in order. -/
def operators (tree : RuleTree) : List Rule.Operator :=
  tree.groups.flatMap fun group => group.rules.map Rule.operator

end RuleTree

end PlaylistRules
