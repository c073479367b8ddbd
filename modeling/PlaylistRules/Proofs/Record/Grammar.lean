import PlaylistRules.Proofs.Json.Grammar
import PlaylistRules.Record.Reader

/-!
# The format of rule records

How stored rules, groups and trees are spelled, apart from how they are read. An object may have its
known members in any order among other ones; a known member stands once at most. What stands under
other keys only has to be grammatical and says nothing about the record.

## Main definitions

* `Record.IsOnlyOr` : a value that is given once at most.
* `Record.SpellsRule`, `Record.SpellsGroup`, `Record.SpellsTree` : the parts of a stored tree.
-/

namespace PlaylistRules.Record

open Json

variable {α : Type}

/-- The given values are one value at most, and a default stands for none. -/
def IsOnlyOr (default : α) (values : List α) (a : α) : Prop :=
  values = [a] ∨ values = [] ∧ a = default

/-- An array of records. -/
def SpellsList (item : Spelling α) : Spelling (List α) := fun text as =>
  ∃ rest, SpellsRest ']' item rest as ∧ text = '[' :: rest

/-! ### Rules -/

/-- What a member says about a rule. -/
inductive RuleMember where
  | model (name : String)
  | operator (name : String)
  | value (json : Json)
  | other

namespace RuleMember

/-- The model, if the member is one. -/
def model? : RuleMember → Option String
  | model name => some name
  | _ => none

/-- The operator, if the member is one. -/
def operator? : RuleMember → Option String
  | operator name => some name
  | _ => none

/-- The value, if the member is one. -/
def value? : RuleMember → Option Json
  | value json => some json
  | _ => none

end RuleMember

/-- The value of a member of a rule, by the key. -/
def SpellsRuleMember (key : String) : Spelling RuleMember :=
  if key = "model" then Mapped .model SpellsString
  else if key = "operator" then Mapped .operator SpellsString
  else if key = "value" then Mapped .value (SpellsValue valueDepth)
  else Mapped (fun _ => .other) SkipsValue

/-- The members of an object make a rule: one model, one operator, and one value at most. -/
structure IsRule (members : List RuleMember) (rule : RuleRecord) : Prop where
  model : members.filterMap RuleMember.model? = [rule.model]
  operator : members.filterMap RuleMember.operator? = [rule.operator]
  value : IsOnlyOr .null (members.filterMap RuleMember.value?) rule.value

/-- A rule in an array after the opening bracket: its model, its operator, and its value if it has
one. -/
inductive SpellsRuleItems : Spelling RuleRecord
  | pair {modelText operatorText after after' : List Char} {model operator : String} :
    Spaced SpellsString modelText model → IsBlank after →
    Spaced SpellsString operatorText operator → IsBlank after' →
      SpellsRuleItems (modelText ++ (after ++ ',' :: (operatorText ++ (after' ++ [']']))))
        ⟨model, operator, .null⟩
  | triple {modelText operatorText valueText after after' after'' : List Char}
    {model operator : String} {value : Json} :
    Spaced SpellsString modelText model → IsBlank after →
    Spaced SpellsString operatorText operator → IsBlank after' →
    Spaced (SpellsValue valueDepth) valueText value → IsBlank after'' →
      SpellsRuleItems (modelText ++ (after ++ ',' :: (operatorText ++ (after' ++
        ',' :: (valueText ++ (after'' ++ [']'])))))) ⟨model, operator, value⟩

/-- A rule: an object or an array. -/
inductive SpellsRule : Spelling RuleRecord
  | object {rest : List Char} {members : List (String × RuleMember)} {rule : RuleRecord} :
    SpellsRest '\x7d' (SpellsMember SpellsString SpellsRuleMember) rest members →
    IsRule (members.map Prod.snd) rule → SpellsRule ('\x7b' :: rest) rule
  | items {rest : List Char} {rule : RuleRecord} :
    SpellsRuleItems rest rule → SpellsRule ('[' :: rest) rule

/-! ### Groups and trees -/

/-- The value of a member of a group, by the key: its rules, or nothing. -/
def SpellsGroupMember (key : String) : Spelling (Option (List RuleRecord)) :=
  if key = "rules" then Mapped some (SpellsList SpellsRule)
  else Mapped (fun _ => none) SkipsValue

/-- A group: an object, or an array with its rules if it has any. -/
inductive SpellsGroup : Spelling GroupRecord
  | object {rest : List Char} {members : List (String × Option (List RuleRecord))}
    {rules : List RuleRecord} :
    SpellsRest '\x7d' (SpellsMember SpellsString SpellsGroupMember) rest members →
    IsOnlyOr [] (members.filterMap Prod.snd) rules → SpellsGroup ('\x7b' :: rest) ⟨rules⟩
  | empty {after : List Char} : IsBlank after → SpellsGroup ('[' :: (after ++ [']'])) ⟨[]⟩
  | single {rulesText after : List Char} {rules : List RuleRecord} :
    Spaced (SpellsList SpellsRule) rulesText rules → IsBlank after →
      SpellsGroup ('[' :: (rulesText ++ (after ++ [']']))) ⟨rules⟩

/-- A tree: an array of groups, with nothing but blanks around it. -/
def SpellsTree : Spelling TreeRecord := fun text tree =>
  ∃ body after, Spaced (SpellsList SpellsGroup) body tree.groups ∧ IsBlank after ∧
    text = body ++ after

end PlaylistRules.Record
