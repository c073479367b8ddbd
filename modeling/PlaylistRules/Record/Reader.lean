import PlaylistRules.Json.Reader
import PlaylistRules.Record.Basic

/-!
# Reading rule records

The stored text of a tree of rules is an array of groups. A group is an object with the member
`rules`, or an array with the rules in first position; a rule is an object with the members
`model`, `operator` and `value`, or an array with these in order. Members of other names are
skipped. Rules without the member `value` have the value null.

## Main definitions

* `Record.readRule`, `Record.readGroup`, `Record.readTree` : the parts of a stored tree.
* `TreeRecord.parse` : the tree of a text.
-/

namespace PlaylistRules

namespace Record

open Json

/-- What is expected in place of a group. -/
def expectedGroup : String := "struct RawRuleGroup"

/-- What is expected in place of a rule. -/
def expectedRule : String := "struct RawRule"

/-- What is expected in place of an array. -/
def expectedArray : String := "a sequence"

/-- What is expected in place of a text. -/
def expectedText : String := "a string"

/-- The depth to which the value of a rule may nest: a rule is the fourth level of a tree. -/
def valueDepth : Nat := depthLimit - 4

/-- A text in place of a field. -/
def readField : Reader String
  | cs => match skipSpace cs with
    | [] => .error .malformed
    | '"' :: rest => readString ('"' :: rest)
    | cs => .error (mismatchAt expectedText cs)

/-- An array of records. -/
def readList {α : Type} (item : Reader α) : Reader (List α)
  | cs => match skipSpace cs with
    | [] => .error .malformed
    | '[' :: rest => readArray item rest
    | cs => .error (mismatchAt expectedArray cs)

/-- The next item of a record in positions, if there is one. The closing bracket is not taken. -/
def readNext {α : Type} (first : Bool) (item : Reader α) : Reader (Option α)
  | cs => match skipSpace cs with
    | [] => .error .malformed
    | ']' :: rest => .ok (none, ']' :: rest)
    | c :: rest =>
      if first then (item (c :: rest)).map fun (value, rest) => (some value, rest)
      else if c = ',' then (item rest).map fun (value, rest) => (some value, rest)
      else .error .malformed

/-- The closing bracket of a record in positions. -/
def readClose (cs : List Char) : Except Fault (List Char) :=
  match skipSpace cs with
  | ']' :: rest => .ok rest
  | _ => .error .malformed

/-! ### Rules -/

/-- The members of a rule that have been read. -/
structure RuleMembers where
  model : Option String := none
  operator : Option String := none
  value : Option Json := none

/-- A member of a rule after its key. A known key may not be repeated. -/
def readRuleMember (members : RuleMembers) (key : String) : Reader RuleMembers
  | cs =>
    if key = "model" then
      if members.model.isSome then .error (.duplicate key)
      else do
        let cs ← readColon cs
        let (model, cs) ← readField cs
        .ok ({ members with model := some model }, cs)
    else if key = "operator" then
      if members.operator.isSome then .error (.duplicate key)
      else do
        let cs ← readColon cs
        let (operator, cs) ← readField cs
        .ok ({ members with operator := some operator }, cs)
    else if key = "value" then
      if members.value.isSome then .error (.duplicate key)
      else do
        let cs ← readColon cs
        let (value, cs) ← readValue valueDepth cs
        .ok ({ members with value := some value }, cs)
    else do
      let cs ← readColon cs
      let (_, cs) ← skipValue cs
      .ok (members, cs)

/-- The rule of the members of an object. -/
def RuleMembers.rule (members : RuleMembers) : Except Fault RuleRecord :=
  match members.model, members.operator with
  | none, _ => .error (.missing "model")
  | _, none => .error (.missing "operator")
  | some model, some operator => .ok ⟨model, operator, members.value.getD .null⟩

/-- The length and the kind of a rule in positions, for a rule that ends too early. -/
def shortRule (length : Nat) : Fault :=
  .short length (expectedRule ++ " with 3 elements")

/-- A rule in positions, after the opening bracket. -/
def readRuleItems : Reader RuleRecord
  | cs => do
    let (model, cs) ← readNext true readField cs
    match model with
    | none => .error (shortRule 0)
    | some model => do
      let (operator, cs) ← readNext false readField cs
      match operator with
      | none => .error (shortRule 1)
      | some operator => do
        let (value, cs) ← readNext false (readValue valueDepth) cs
        let cs ← readClose cs
        .ok (⟨model, operator, value.getD .null⟩, cs)

/-- A rule. -/
def readRule : Reader RuleRecord
  | cs => match skipSpace cs with
    | [] => .error .malformed
    | '[' :: rest => readRuleItems rest
    | '\x7b' :: rest => do
      let (members, rest) ← readObject readString readRuleMember {} rest
      let rule ← members.rule
      .ok (rule, rest)
    | cs => .error (mismatchAt expectedRule cs)

/-! ### Groups and trees -/

/-- A member of a group after its key, by the rules read before. -/
def readGroupMember (rules : Option (List RuleRecord)) (key : String) :
    Reader (Option (List RuleRecord))
  | cs =>
    if key = "rules" then
      if rules.isSome then .error (.duplicate key)
      else do
        let cs ← readColon cs
        let (rules, cs) ← readList readRule cs
        .ok (some rules, cs)
    else do
      let cs ← readColon cs
      let (_, cs) ← skipValue cs
      .ok (rules, cs)

/-- A group. -/
def readGroup : Reader GroupRecord
  | cs => match skipSpace cs with
    | [] => .error .malformed
    | '[' :: rest => do
      let (rules, rest) ← readNext true (readList readRule) rest
      let rest ← readClose rest
      .ok (⟨rules.getD []⟩, rest)
    | '\x7b' :: rest => do
      let (rules, rest) ← readObject readString readGroupMember none rest
      .ok (⟨rules.getD []⟩, rest)
    | cs => .error (mismatchAt expectedGroup cs)

/-- A tree. -/
def readTree : Reader TreeRecord
  | cs => do
    let (groups, rest) ← readList readGroup cs
    .ok (⟨groups⟩, rest)

end Record

/-- The tree of a stored text. -/
def TreeRecord.parse (text : String) : Except Json.Fault TreeRecord :=
  Json.readText Record.readTree text

end PlaylistRules
