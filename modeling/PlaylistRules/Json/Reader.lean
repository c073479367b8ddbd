import PlaylistRules.Json.Escaped
import PlaylistRules.Json.Fault
import PlaylistRules.Json.Numeral

/-!
# Reading JSON

Readers take a value from the front of a text and return what follows it. They report the first
fault in the order of the text. Arrays and objects of decoded values nest up to a given depth;
values that are skipped may nest to any depth.

## Main definitions

* `Json.Reader` : a reader of a value.
* `Json.readArray`, `Json.readObject` : arrays and objects from readers of their parts.
* `Json.readValue` : any value.
* `Json.skipValue` : a value that is only checked for its grammar.
* `Json.readFound` : what stands in place of an expected value.
* `Json.readText`, `Json.parse` : a whole text.
-/

namespace PlaylistRules.Json

/-- A value from the front of a text, with the text that follows it. -/
abbrev Reader (α : Type) := List Char → Except Fault (α × List Char)

/-- The four blank characters of JSON. -/
def isSpace (c : Char) : Bool :=
  c == ' ' || c == '\n' || c == '\t' || c == '\r'

/-- A text from its first character that is not blank. -/
def skipSpace (cs : List Char) : List Char :=
  cs.dropWhile isSpace

/-! ### Parts of a value -/

/-- A string between quotation marks. -/
def readString : Reader String
  | '"' :: cs => match readBody? cs with
    | some (body, rest) => .ok (String.ofList body, rest)
    | none => .error .malformed
  | _ => .error .malformed

/-- A string whose characters are not needed. -/
def skipString : Reader Unit
  | '"' :: cs => match skipBody? cs with
    | some rest => .ok ((), rest)
    | none => .error .malformed
  | _ => .error .malformed

/-- A number. -/
def readNumber : Reader Number
  | cs => match Numeral.read? cs with
    | some (numeral, rest) => match numeral.value? with
      | some value => .ok (value, rest)
      | none => .error .malformed
    | none => .error .malformed

/-- A number of any size. -/
def skipNumber : Reader Unit
  | cs => match Numeral.read? cs with
    | some (_, rest) => .ok ((), rest)
    | none => .error .malformed

/-- The colon after the key of a member. -/
def readColon (cs : List Char) : Except Fault (List Char) :=
  match skipSpace cs with
  | ':' :: rest => .ok rest
  | _ => .error .malformed

/-- The items of an array from its first one up to the closing bracket. The number of items is at
most `fuel`. -/
def readItems {α : Type} (item : Reader α) : Nat → Reader (List α)
  | 0, _ => .error .malformed
  | fuel + 1, cs => do
    let (first, cs) ← item cs
    match skipSpace cs with
    | ']' :: rest => .ok ([first], rest)
    | ',' :: rest => do
      let (others, rest) ← readItems item fuel rest
      .ok (first :: others, rest)
    | _ => .error .malformed

/-- An array after its opening bracket. -/
def readArray {α : Type} (item : Reader α) : Reader (List α)
  | cs => match skipSpace cs with
    | ']' :: rest => .ok ([], rest)
    | cs => readItems item cs.length cs

/-- The members of an object from the key of the first one up to the closing brace. A member is
read after its key, by what the earlier members have led to. The number of members is at most
`fuel`. -/
def readMembers {κ σ : Type} (key : Reader κ) (member : σ → κ → Reader σ) :
    Nat → σ → Reader σ
  | 0, _, _ => .error .malformed
  | fuel + 1, state, cs => do
    let (name, cs) ← key cs
    let (state, cs) ← member state name cs
    match skipSpace cs with
    | '\x7d' :: rest => .ok (state, rest)
    | ',' :: rest => readMembers key member fuel state (skipSpace rest)
    | _ => .error .malformed

/-- An object after its opening brace. -/
def readObject {κ σ : Type} (key : Reader κ) (member : σ → κ → Reader σ) (start : σ) :
    Reader σ
  | cs => match skipSpace cs with
    | '\x7d' :: rest => .ok (start, rest)
    | cs => readMembers key member cs.length start cs

/-! ### Values -/

/-- A value whose arrays and objects nest to the given depth at most. -/
def readValue (depth : Nat) : Reader Json
  | cs => match skipSpace cs with
    | 'n' :: 'u' :: 'l' :: 'l' :: rest => .ok (null, rest)
    | 't' :: 'r' :: 'u' :: 'e' :: rest => .ok (bool true, rest)
    | 'f' :: 'a' :: 'l' :: 's' :: 'e' :: rest => .ok (bool false, rest)
    | '"' :: rest => do
      let (text, rest) ← readString ('"' :: rest)
      .ok (string text, rest)
    | '[' :: rest => match depth with
      | 0 => .error .malformed
      | depth + 1 => do
        let (items, rest) ← readArray (readValue depth) rest
        .ok (array items, rest)
    | '\x7b' :: rest => match depth with
      | 0 => .error .malformed
      | depth + 1 => do
        let (members, rest) ← readObject readString
          (fun members key cs => do
            let cs ← readColon cs
            let (value, cs) ← readValue depth cs
            .ok ((key, value) :: members, cs)) [] rest
        .ok (object (ofMembers members.reverse), rest)
    | cs => do
      let (value, rest) ← readNumber cs
      .ok (number value, rest)

/-- A value that is only checked for its grammar, nested to the given depth at most. -/
def skipNested (depth : Nat) : Reader Unit
  | cs => match skipSpace cs with
    | 'n' :: 'u' :: 'l' :: 'l' :: rest => .ok ((), rest)
    | 't' :: 'r' :: 'u' :: 'e' :: rest => .ok ((), rest)
    | 'f' :: 'a' :: 'l' :: 's' :: 'e' :: rest => .ok ((), rest)
    | '"' :: rest => skipString ('"' :: rest)
    | '[' :: rest => match depth with
      | 0 => .error .malformed
      | depth + 1 => do
        let (_, rest) ← readArray (skipNested depth) rest
        .ok ((), rest)
    | '\x7b' :: rest => match depth with
      | 0 => .error .malformed
      | depth + 1 =>
        readObject skipString
          (fun _ _ cs => do
            let cs ← readColon cs
            skipNested depth cs) () rest
    | cs => skipNumber cs

/-- A value that is only checked for its grammar. Its nesting is bounded by its length. -/
def skipValue : Reader Unit
  | cs => skipNested cs.length cs

/-- What stands in place of an expected value. -/
def readFound : List Char → Except Fault Found
  | 'n' :: 'u' :: 'l' :: 'l' :: _ => .ok .null
  | 't' :: 'r' :: 'u' :: 'e' :: _ => .ok (.bool true)
  | 'f' :: 'a' :: 'l' :: 's' :: 'e' :: _ => .ok (.bool false)
  | '"' :: cs => (readString ('"' :: cs)).map fun (text, _) => .string text
  | '[' :: _ => .ok .array
  | '\x7b' :: _ => .ok .object
  | cs => (readNumber cs).map fun (value, _) => .number value

/-- The fault of a text that does not start with the expected value. -/
def mismatchAt (expected : String) (cs : List Char) : Fault :=
  match readFound cs with
  | .ok found => .mismatch found expected
  | .error fault => fault

/-! ### Whole texts -/

/-- The value of a whole text. Only blanks may follow it. -/
def readText {α : Type} (reader : Reader α) (text : String) : Except Fault α := do
  let (value, rest) ← reader text.toList
  match skipSpace rest with
  | [] => .ok value
  | _ => .error .malformed

/-- The depth to which the arrays and objects of a text may nest. -/
def depthLimit : Nat := 127

/-- The JSON value of a text. -/
def parse (text : String) : Except Fault Json :=
  readText (readValue depthLimit) text

end PlaylistRules.Json
