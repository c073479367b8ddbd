import PlaylistRules.Rule.Tree

/-!
# User scope

Records of what users have done belong to one user each. A tree is scoped to a user by one more
rule in every group.

## Main definitions

* `Rule.scope` : the rule that a record belongs to a user.
* `RuleTree.scopedTo` : the tree with that rule in every group.
-/

namespace PlaylistRules

/-- The field with the user of an interaction. -/
def Rule.scopeField : String := "interactions.user_id"

/-- The rule that an interaction belongs to a user. -/
def Rule.scope (user : Int64) : Rule :=
  .has scopeField (.int user)

namespace RuleTree

/-- The tree with the rule of a user at the end of every group. -/
def scopedTo (tree : RuleTree) (user : Int64) : RuleTree :=
  ofGroups (tree.groups.map fun group => group.withRule (Rule.scope user))

/-- The tree scoped to a user, if one is given. -/
def forUser (tree : RuleTree) : Option Int64 → RuleTree
  | some user => tree.scopedTo user
  | none => tree

/-- Every group stays, with the scope rule after its own rules. -/
theorem groups_scopedTo (tree : RuleTree) (user : Int64) :
    (tree.scopedTo user).groups =
      tree.groups.map fun group => group.withRule (Rule.scope user) := by
  simp only [scopedTo, ofGroups, List.filter_eq_self]
  intro group h
  obtain ⟨other, -, rfl⟩ := List.mem_map.1 h
  simp [RuleGroup.isEmpty, RuleGroup.withRule]

end RuleTree

end PlaylistRules
