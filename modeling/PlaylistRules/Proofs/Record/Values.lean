import PlaylistRules.Proofs.Record.Grammar
import PlaylistRules.Proofs.Related

/-!
# The records of JSON values

A JSON value may stand for a rule, a group or a tree: the known members of its objects are taken,
and all other members are left out.

## Main definitions

* `RuleRecord.ofJson?`, `GroupRecord.ofJson?`, `TreeRecord.ofJson?` : the records that JSON values
  stand for.

## Main results

* `RuleRecord.ofJson?_object_iff`, `RuleRecord.ofJson?_array_iff` : the JSON values of a rule.
* `GroupRecord.ofRules?_eq_some_iff`, `TreeRecord.ofJson?_eq_some_iff` : those of groups and trees.
-/

namespace PlaylistRules

variable {α : Type}

/-- The text of a string. -/
def Json.string? : Json → Option String
  | .string text => some text
  | _ => none

/-- The values that the items of an array stand for. -/
def Json.listOf? (item : Json → Option α) : Json → Option (List α)
  | .array items => items.mapM item
  | _ => none

/-- The rule of a JSON value: an object with a model and an operator, or an array of these. The
value is null when there is none, and other members are left out. -/
def RuleRecord.ofJson? : Json → Option RuleRecord
  | .object members => do
    let model ← members.lookup "model" >>= Json.string?
    let operator ← members.lookup "operator" >>= Json.string?
    some ⟨model, operator, (members.lookup "value").getD .null⟩
  | .array [model, operator] => do some ⟨← model.string?, ← operator.string?, .null⟩
  | .array [model, operator, value] => do some ⟨← model.string?, ← operator.string?, value⟩
  | _ => none

/-- The group with the rules that are given, if there are any. -/
def GroupRecord.ofRules? : List Json → Option GroupRecord
  | [] => some ⟨[]⟩
  | [rules] => do some ⟨← rules.listOf? RuleRecord.ofJson?⟩
  | _ => none

/-- The group of a JSON value: an object or an array with its rules, if it has any. -/
def GroupRecord.ofJson? : Json → Option GroupRecord
  | .object members => ofRules? (members.lookup "rules").toList
  | .array items => ofRules? items
  | _ => none

/-- The tree of a JSON value: an array of groups. -/
def TreeRecord.ofJson? (json : Json) : Option TreeRecord := do
  some ⟨← json.listOf? GroupRecord.ofJson?⟩

section OfJson

open Json

variable {json : Json} {members : List (String × Json)} {rule : RuleRecord} {group : GroupRecord}

theorem Json.string?_eq_some_iff {text : String} :
    json.string? = some text ↔ json = string text := by
  cases json with
  | string => exact (Option.some.injEq _ _).to_iff.trans (Json.string.injEq _ _).to_iff.symm
  | null | bool | number | array | object => exact ⟨nofun, nofun⟩

theorem Json.listOf?_eq_some_iff {item : Json → Option α} {as : List α} :
    json.listOf? item = some as ↔
      ∃ items, json = array items ∧ List.Forall₂ (fun value a => item value = some a) items as := by
  cases json with
  | array items =>
    rw [listOf?, Related.mapM_eq_some_iff]
    exact ⟨fun h => ⟨items, rfl, h⟩, fun ⟨_, hitems, h⟩ => Json.array.inj hitems ▸ h⟩
  | null | bool | number | string | object =>
    exact ⟨nofun, fun ⟨_, hitems, _⟩ => nomatch hitems⟩

theorem RuleRecord.ofJson?_object_iff :
    ofJson? (.object members) = some rule ↔
      members.lookup "model" = some (.string rule.model) ∧
        members.lookup "operator" = some (.string rule.operator) ∧
          rule.value = (members.lookup "value").getD .null := by
  obtain ⟨model, operator, value⟩ := rule
  simp only [ofJson?, Option.bind_eq_bind, Option.bind_eq_some_iff, Json.string?_eq_some_iff,
    Option.some.injEq, RuleRecord.mk.injEq]
  constructor
  · rintro ⟨_, ⟨_, hmodel, rfl⟩, _, ⟨_, hoperator, rfl⟩, rfl, rfl, hvalue⟩
    exact ⟨hmodel, hoperator, hvalue.symm⟩
  · rintro ⟨hmodel, hoperator, hvalue⟩
    exact ⟨model, ⟨_, hmodel, rfl⟩, operator, ⟨_, hoperator, rfl⟩, rfl, rfl, hvalue.symm⟩

theorem RuleRecord.ofJson?_array_iff {items : List Json} :
    ofJson? (.array items) = some rule ↔
      items = [.string rule.model, .string rule.operator] ∧ rule.value = .null ∨
        items = [.string rule.model, .string rule.operator, rule.value] := by
  obtain ⟨model, operator, value⟩ := rule
  match items with
  | [] | [_] | _ :: _ :: _ :: _ :: _ => simp [ofJson?]
  | [first, second] =>
    simp [ofJson?, Json.string?_eq_some_iff, Option.bind_eq_some_iff, and_assoc,
      @eq_comm _ Json.null]
  | [first, second, third] =>
    simp [ofJson?, Json.string?_eq_some_iff, Option.bind_eq_some_iff]

theorem GroupRecord.ofRules?_eq_some_iff {given : List Json} :
    ofRules? given = some group ↔ ∃ lists,
      List.Forall₂ (fun value rules => value.listOf? RuleRecord.ofJson? = some rules) given lists ∧
        Record.IsOnlyOr [] lists group.rules := by
  obtain ⟨rules⟩ := group
  match given with
  | [] => simp [ofRules?, Record.IsOnlyOr, eq_comm]
  | [value] =>
    simp only [ofRules?, Option.bind_eq_bind, Option.bind_eq_some_iff, Option.some.injEq,
      GroupRecord.mk.injEq, exists_eq_right, List.forall₂_cons_left_iff,
      List.forall₂_nil_left_iff, Record.IsOnlyOr]
    constructor
    · exact fun h => ⟨[rules], ⟨rules, [], h, rfl, rfl⟩, .inl rfl⟩
    · rintro ⟨_, ⟨_, _, h, rfl, rfl⟩, hone | ⟨hnone, -⟩⟩
      · exact List.singleton_inj.mp hone ▸ h
      · cases hnone
  | _ :: _ :: _ =>
    simp only [ofRules?, reduceCtorEq, false_iff, List.forall₂_cons_left_iff, Record.IsOnlyOr]
    rintro ⟨_, ⟨_, _, -, ⟨_, _, -, -, rfl⟩, rfl⟩, hone | ⟨hnone, -⟩⟩
    · cases hone
    · cases hnone

theorem TreeRecord.ofJson?_eq_some_iff {tree : TreeRecord} :
    ofJson? json = some tree ↔ json.listOf? GroupRecord.ofJson? = some tree.groups := by
  obtain ⟨groups⟩ := tree
  simp only [ofJson?, Option.bind_eq_bind, Option.bind_eq_some_iff, Option.some.injEq,
    TreeRecord.mk.injEq, exists_eq_right]

end OfJson

end PlaylistRules
