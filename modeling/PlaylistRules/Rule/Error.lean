import PlaylistRules.Catalog.Schema
import PlaylistRules.Json.Fault
import PlaylistRules.Number.Integer

/-!
# Rule errors

Why a tree of rules is refused, and at which rule.

## Main definitions

* `Rule.ErrorKind` : the kinds of errors.
* `Rule.Reason` : the causes, with `Rule.Reason.kind` and `Rule.Reason.message`.
* `Rule.Location` : a rule in a tree as it was written.
* `Rule.Error` : a cause with the location, once it is known.
-/

namespace PlaylistRules.Rule

/-- The kinds of errors. -/
inductive ErrorKind where
  | unknownOperator
  | invalidArity
  | unknownColumn
  | unknownRelation
  | unknownEntity
  | invalidValue
  | invalidRule
deriving DecidableEq, Repr

/-- Why a tree of rules is refused. -/
inductive Reason where
  /-- No operator has the name. -/
  | unknownOperator (name : String)
  /-- An operator has another number of values than it takes. -/
  | invalidArity (operator : String) (expected given : Nat)
  /-- A name is missing in the schema. -/
  | unresolved (fault : Catalog.Fault)
  /-- A value is an array or an object. -/
  | notScalar (json : String)
  /-- A pattern cannot be made of a value of this type. -/
  | noPattern (operator typeName : String)
  /-- A value is no number of days. -/
  | noDayCount (operator shown : String)
  /-- No date in range is so many days earlier. -/
  | daysOutOfRange (operator : String) (days : Nat)
  /-- The stored text is no tree of rules. -/
  | malformed (fault : Json.Fault)
  /-- A value is refused for a reason given in words. -/
  | invalidValue (message : String)
  /-- A rule is refused for a reason given in words. -/
  | invalidRule (message : String)
deriving DecidableEq, Repr

namespace Reason

/-- The kind of a cause. -/
def kind : Reason → ErrorKind
  | unknownOperator _ => .unknownOperator
  | invalidArity _ _ _ => .invalidArity
  | unresolved (.unknownEntity _) => .unknownEntity
  | unresolved (.unknownRelation _ _) => .unknownRelation
  | unresolved (.unknownColumn _ _) => .unknownColumn
  | notScalar _ | noPattern _ _ | noDayCount _ _ | daysOutOfRange _ _ | invalidValue _ =>
    .invalidValue
  | malformed _ | invalidRule _ => .invalidRule

/-- The wording of a cause. -/
def message : Reason → String
  | unknownOperator name => "unknown operator '" ++ name ++ "'"
  | invalidArity operator expected given =>
    "operator '" ++ operator ++ "' takes " ++ String.ofList (Number.digits expected) ++
      " value(s), got " ++ String.ofList (Number.digits given)
  | unresolved fault => fault.message
  | notScalar json => "value is not a scalar: " ++ json
  | noPattern operator typeName =>
    "operator '" ++ operator ++ "' cannot match a " ++ typeName ++ " value"
  | noDayCount operator shown =>
    "operator '" ++ operator ++ "' takes a non-negative number of days, got '" ++ shown ++ "'"
  | daysOutOfRange operator days =>
    "operator '" ++ operator ++ "': " ++ String.ofList (Number.digits days) ++
      " days is out of range"
  | malformed fault => "malformed rule payload: " ++ fault.message
  | invalidValue message => message
  | invalidRule message => message

end Reason

/-- A rule by the index of its group and its own index in the group, as they were written. -/
structure Location where
  group : Nat
  rule : Nat
deriving DecidableEq, Repr

/-- A cause with the location of the rule, once it is known. -/
structure Error where
  reason : Reason
  location : Option Location
deriving DecidableEq, Repr

namespace Error

/-- An error without a location. -/
def of (reason : Reason) : Error :=
  ⟨reason, none⟩

/-- The kind of the cause. -/
def kind (error : Error) : ErrorKind :=
  error.reason.kind

/-- The wording of the cause. -/
def message (error : Error) : String :=
  error.reason.message

/-- The error at a location, unless it has one already. -/
def locate (error : Error) (group rule : Nat) : Error :=
  ⟨error.reason, some (error.location.getD ⟨group, rule⟩)⟩

/-- The wording of the cause with the location. -/
def display (error : Error) : String :=
  match error.location with
  | none => error.message
  | some location =>
    error.message ++ " (group " ++ String.ofList (Number.digits location.group) ++ ", rule " ++
      String.ofList (Number.digits location.rule) ++ ")"

end Error

end PlaylistRules.Rule
