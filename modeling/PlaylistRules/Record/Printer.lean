import PlaylistRules.Json.Printer
import PlaylistRules.Record.Basic

/-!
# Writing rule records

The stored text of a tree of rules: an array of objects with the member `rules`, each an array of
objects with the members `model`, `operator` and `value`.

## Main definitions

* `TreeRecord.write`, `TreeRecord.text` : the stored text.
-/

namespace PlaylistRules

/-- Texts with commas between them. -/
def joinCommas : List (List Char) → List Char
  | [] => []
  | [cs] => cs
  | cs :: rest => cs ++ ',' :: joinCommas rest

namespace RuleRecord

/-- A rule as an object with three members. -/
def write (record : RuleRecord) : List Char :=
  '\x7b' :: (Json.writeString "model" ++ ':' :: Json.writeString record.model ++
    ',' :: Json.writeString "operator" ++ ':' :: Json.writeString record.operator ++
    ',' :: Json.writeString "value" ++ ':' :: record.value.write ++ ['\x7d'])

end RuleRecord

namespace GroupRecord

/-- A group as an object with the member `rules`. -/
def write (group : GroupRecord) : List Char :=
  '\x7b' :: (Json.writeString "rules" ++ ':' :: '[' ::
    joinCommas (group.rules.map RuleRecord.write) ++ [']', '\x7d'])

end GroupRecord

namespace TreeRecord

/-- A tree as an array of groups. -/
def write (tree : TreeRecord) : List Char :=
  '[' :: (joinCommas (tree.groups.map GroupRecord.write) ++ [']'])

/-- The stored text of a tree. -/
def text (tree : TreeRecord) : String :=
  String.ofList tree.write

end TreeRecord

end PlaylistRules
