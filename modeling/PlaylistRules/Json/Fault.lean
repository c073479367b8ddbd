import PlaylistRules.Json.Printer
import PlaylistRules.Text.Shown

/-!
# Faults of a JSON text

Why a text cannot be read: it is no JSON, or the JSON has another shape than the reader expects.

## Main definitions

* `Json.Found` : what a text holds where something else is expected.
* `Json.Fault` : the reasons.
* `Json.Fault.message` : the wording of a reason.
-/

namespace PlaylistRules.Json

/-- What a text holds where something else is expected. Arrays and objects are named without a
look inside. -/
inductive Found where
  | null
  | bool (value : Bool)
  | number (value : Number)
  | string (value : String)
  | array
  | object
deriving DecidableEq, Repr

/-- Why a text cannot be read. -/
inductive Fault where
  /-- The text is no JSON. -/
  | malformed
  /-- A value of another kind stands in place of the expected one. -/
  | mismatch (found : Found) (expected : String)
  /-- An object ends without a required member. -/
  | missing (field : String)
  /-- An object has a member twice. -/
  | duplicate (field : String)
  /-- A record in positions ends before its required ones. -/
  | short (length : Nat) (expected : String)
deriving DecidableEq, Repr

/-- The wording for what was found. -/
def Found.message : Found → String
  | null => "null"
  | bool true => "boolean `true`"
  | bool false => "boolean `false`"
  | number (.integer value lower upper) =>
    "integer `" ++ String.ofList (Number.write (.integer value lower upper)) ++ "`"
  | number (.float value finite) =>
    "floating point `" ++ String.ofList (Number.write (.float value finite)) ++ "`"
  | string value => "string " ++ Text.shown value
  | array => "sequence"
  | object => "map"

/-- The wording of a fault. -/
def Fault.message : Fault → String
  | malformed => "malformed JSON"
  | mismatch found expected => "invalid type: " ++ found.message ++ ", expected " ++ expected
  | missing field => "missing field `" ++ field ++ "`"
  | duplicate field => "duplicate field `" ++ field ++ "`"
  | short length expected =>
    "invalid length " ++ String.ofList (PlaylistRules.Number.digits length) ++ ", expected " ++
      expected

end PlaylistRules.Json
