import PlaylistRules.Catalog.Field
import PlaylistRules.Query.Basic
import PlaylistRules.Rule.Scope

/-!
# Compiling rules

A tree of rules is compiled to a query on the table of a base entity. Every rule becomes one
condition and the values that it binds; a rule on a related column asks for a related row.

## Main definitions

* `Catalog.Field.condition` : the condition of a comparison on a field.
* `Rule.compile`, `RuleGroup.compile`, `RuleTree.compileGroups` : rules as conditions with values.
* `RuleTree.compile` : the query of a tree.
* `Query.ofText` : the query of a stored text, scoped to a user.
-/

namespace PlaylistRules

open Query (Condition Predicate)

/-- The condition of a comparison on a field of a base entity. -/
def Catalog.Field.condition (base : String) (comparison : Rule.Comparison) :
    Catalog.Field → Condition
  | own column => .own ⟨column, comparison⟩
  | related relation column =>
    .related relation.target ⟨base, relation.sourceColumn⟩
      ⟨relation.target, relation.targetColumn⟩ ⟨column, comparison⟩

/-- The field of a path, or the error that a name is missing. -/
def Rule.resolve (schema : Catalog.Schema) (base field : String) :
    Except Rule.Error Catalog.Field :=
  match schema.resolve base field with
  | .ok field => .ok field
  | .error fault => .error (.of (.unresolved fault))

/-- The condition of a rule and the values that it binds. The field is resolved first. -/
def Rule.compile (schema : Catalog.Schema) (base : String) (now : Calendar.Instant)
    (rule : Rule) : Except Rule.Error (Condition × List Scalar) := do
  let field ← Rule.resolve schema base rule.field
  let values ← rule.operator.coerce now rule.values
  return (field.condition base rule.operator.comparison, values)

namespace RuleGroup

/-- The conditions of rules from an index on, with their values. An error is located in the
group. -/
def compileRules (schema : Catalog.Schema) (base : String) (now : Calendar.Instant)
    (group : Nat) : Nat → List Rule → Except Rule.Error (List (Condition × List Scalar))
  | _, [] => .ok []
  | index, rule :: rules =>
    match rule.compile schema base now with
    | .error error => .error (error.locate group index)
    | .ok compiled =>
      return compiled :: (← compileRules schema base now group (index + 1) rules)

/-- The conditions of a group with their values. Errors are located by the index with which the
group was written, or by its place in the tree. -/
def compile (schema : Catalog.Schema) (base : String) (now : Calendar.Instant) (place : Nat)
    (group : RuleGroup) : Except Rule.Error (List (Condition × List Scalar)) :=
  compileRules schema base now (group.sourceIndex.getD place) 0 group.rules

end RuleGroup

namespace RuleTree

/-- The conditions of groups from a place on, with their values. -/
def compileGroups (schema : Catalog.Schema) (base : String) (now : Calendar.Instant) :
    Nat → List RuleGroup → Except Rule.Error (List (List (Condition × List Scalar)))
  | _, [] => .ok []
  | place, group :: groups => do
    let compiled ← group.compile schema base now place
    return compiled :: (← compileGroups schema base now (place + 1) groups)

/-- The predicate of compiled groups. Without a group no row satisfies it. -/
def predicate (groups : List (List (Condition × List Scalar))) : Predicate :=
  if groups.isEmpty then .never else .anyOf (groups.map fun group => group.map Prod.fst)

/-- The bound values of compiled groups, in order. -/
def bindings (groups : List (List (Condition × List Scalar))) : List Scalar :=
  groups.flatMap fun group => group.flatMap Prod.snd

/-- The query of a tree on the table of a base entity, at a reference instant. -/
def compile (schema : Catalog.Schema) (base : String) (now : Calendar.Instant)
    (tree : RuleTree) : Except Rule.Error Query :=
  match schema.requireEntity base with
  | .error fault => .error (.of (.unresolved fault))
  | .ok entity => do
    let groups ← compileGroups schema entity.name now 0 tree.groups
    return .ofPredicate entity.name (predicate groups) (bindings groups)

end RuleTree

/-- The query of a stored text, scoped to a user if one is given. -/
def Query.ofText (schema : Catalog.Schema) (base : String) (now : Calendar.Instant)
    (user : Option Int64) (text : String) : Except Rule.Error Query := do
  let tree ← RuleTree.parse text
  (tree.forUser user).compile schema base now

end PlaylistRules
