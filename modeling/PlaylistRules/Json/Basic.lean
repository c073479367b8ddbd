import PlaylistRules.Number.Binary64

/-!
# JSON values

Values of JSON with two classes of numbers: integers that fit sixty-four bits, signed when they
are negative, and finite binary numbers for all others. The members of an object are in the order
of their keys, each key once.

## Main definitions

* `Json.Number`, `Json` : numbers and values.
* `Json.insertMember`, `Json.ofMembers` : objects from members in any order; the last member of a
  key wins.
* `Json.IsCanonical` : every object inside has its keys in increasing order.
-/

namespace PlaylistRules

/-- A number of JSON: an integer within sixty-four bits or a finite binary number. -/
inductive Json.Number where
  | integer (value : Int) (lower : -0x8000000000000000 ≤ value)
    (upper : value < 0x10000000000000000)
  | float (value : Binary64) (finite : value.isFinite = true)
deriving DecidableEq, Repr

/-- A value of JSON. -/
inductive Json where
  | null
  | bool (value : Bool)
  | number (value : Json.Number)
  | string (value : String)
  | array (items : List Json)
  | object (members : List (String × Json))
deriving Repr, Inhabited

namespace Json

/-- The number of an integer of sixty-four bits. -/
def ofInt64 (value : Int64) : Json :=
  number (.integer value.toInt
    (by have := value.minValue_le_toInt
        have : Int64.minValue.toInt = -0x8000000000000000 := by decide
        omega)
    (by have := value.toInt_lt; omega))

/-- The number of a natural number, when it fits sixty-four bits. -/
def ofUInt64 (value : UInt64) : Json :=
  number (.integer value.toNat (by omega) (by have := value.toNat_lt; omega))

/-- A finite number keeps its value; infinities and NaN have no JSON form and become null. -/
def ofBinary64 (value : Binary64) : Json :=
  if h : value.isFinite = true then number (.float value h) else null

/-- A member added to members in the order of their keys. A member of the same key is replaced. -/
def insertMember (key : String) (value : Json) : List (String × Json) → List (String × Json)
  | [] => [(key, value)]
  | member :: members =>
    if key < member.1 then (key, value) :: member :: members
    else if key = member.1 then (key, value) :: members
    else member :: insertMember key value members

/-- The members in the order of their keys, the last one of each key. -/
def ofMembers (members : List (String × Json)) : List (String × Json) :=
  members.foldl (fun sorted member => insertMember member.1 member.2 sorted) []

mutual

/-- Every object inside the value has its keys in increasing order. -/
def IsCanonical : Json → Prop
  | array items => AllCanonical items
  | object members =>
    (members.map Prod.fst).Pairwise (· < ·) ∧ MembersCanonical members
  | _ => True

/-- All values of a list are canonical. -/
def AllCanonical : List Json → Prop
  | [] => True
  | item :: items => IsCanonical item ∧ AllCanonical items

/-- The values of all members are canonical. -/
def MembersCanonical : List (String × Json) → Prop
  | [] => True
  | (_, value) :: members => IsCanonical value ∧ MembersCanonical members

end

end Json

end PlaylistRules
