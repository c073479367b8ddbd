import PlaylistRules.Json.Basic
import PlaylistRules.Number.Integer
import PlaylistRules.Number.Layout

/-!
# Writing JSON

The text of a JSON value in two forms: compact, without any blanks, and indented, with one item
or member on a line.

## Main definitions

* `Json.writeString` : a string with its escapes.
* `Json.write`, `Json.compact` : the compact form.
* `Json.writeIndented`, `Json.indented` : the indented form.
-/

namespace PlaylistRules.Json

/-- A hexadecimal digit in lower case. -/
def hexDigit (n : Nat) : Char :=
  if n < 10 then Char.ofNat (48 + n) else Char.ofNat (87 + n)

/-- A character inside a string: quotation marks, backslashes and control characters are
escaped. -/
def writeChar (c : Char) : List Char :=
  if c = '"' then ['\\', '"']
  else if c = '\\' then ['\\', '\\']
  else if c = '\x08' then ['\\', 'b']
  else if c = '\x0c' then ['\\', 'f']
  else if c = '\n' then ['\\', 'n']
  else if c = '\r' then ['\\', 'r']
  else if c = '\t' then ['\\', 't']
  else if c.toNat < 32 then
    ['\\', 'u', '0', '0', hexDigit (c.toNat / 16), hexDigit (c.toNat % 16)]
  else [c]

/-- A string between quotation marks. -/
def writeString (text : String) : List Char :=
  '"' :: (text.toList.flatMap writeChar ++ ['"'])

/-- An integer in decimal digits, or a binary number in the layout of JSON. -/
def Number.write : Number → List Char
  | integer value _ _ => Number.signed value
  | float value _ => (Layout.json.write value).toList

mutual

/-- The compact form of a value. -/
def write : Json → List Char
  | null => "null".toList
  | bool true => "true".toList
  | bool false => "false".toList
  | number value => value.write
  | string value => writeString value
  | array [] => ['[', ']']
  | array (item :: items) => '[' :: (write item ++ writeItems items)
  | object [] => ['\x7b', '\x7d']
  | object ((key, value) :: members) =>
    '\x7b' :: (writeString key ++ ':' :: (write value ++ writeMembers members))

/-- The remaining items of an array and its closing bracket. -/
def writeItems : List Json → List Char
  | [] => [']']
  | item :: items => ',' :: (write item ++ writeItems items)

/-- The remaining members of an object and its closing brace. -/
def writeMembers : List (String × Json) → List Char
  | [] => ['\x7d']
  | (key, value) :: members =>
    ',' :: (writeString key ++ ':' :: (write value ++ writeMembers members))

end

/-- A new line with two blanks for each level. -/
def newLine (level : Nat) : List Char :=
  '\n' :: List.replicate (2 * level) ' '

mutual

/-- The indented form of a value whose first line starts at a level. -/
def writeIndented (level : Nat) : Json → List Char
  | null => "null".toList
  | bool true => "true".toList
  | bool false => "false".toList
  | number value => value.write
  | string value => writeString value
  | array [] => ['[', ']']
  | array (item :: items) =>
    '[' :: (newLine (level + 1) ++ writeIndented (level + 1) item ++
      writeIndentedItems level items)
  | object [] => ['\x7b', '\x7d']
  | object ((key, value) :: members) =>
    '\x7b' :: (newLine (level + 1) ++ writeString key ++ ':' :: ' ' ::
      (writeIndented (level + 1) value ++ writeIndentedMembers level members))

/-- The remaining items of an array and its closing bracket. -/
def writeIndentedItems (level : Nat) : List Json → List Char
  | [] => newLine level ++ [']']
  | item :: items =>
    ',' :: (newLine (level + 1) ++ writeIndented (level + 1) item ++
      writeIndentedItems level items)

/-- The remaining members of an object and its closing brace. -/
def writeIndentedMembers (level : Nat) : List (String × Json) → List Char
  | [] => newLine level ++ ['\x7d']
  | (key, value) :: members =>
    ',' :: (newLine (level + 1) ++ writeString key ++ ':' :: ' ' ::
      (writeIndented (level + 1) value ++ writeIndentedMembers level members))

end

/-- The text of a value without blanks. -/
def compact (value : Json) : String :=
  String.ofList value.write

/-- The text of a value with one item or member on a line. -/
def indented (value : Json) : String :=
  String.ofList (value.writeIndented 0)

end PlaylistRules.Json
