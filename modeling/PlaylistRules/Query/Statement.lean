import PlaylistRules.Query.Predicate

/-!
# Statements

A statement asks for all columns of the rows of one table that satisfy a predicate. A database finds
the table and the predicate in the text of the statement: names stand between quotation marks, in
which two marks stand for one, and the words between them are those of the language of statements.

## Main definitions

* `Query.Statement` : a table and a predicate.
* `Query.comparisonWords` : the words of comparisons.
* `Query.Predicate.read?` : the predicate of a text.
* `Query.Statement.read?` : the statement of a text.
-/

namespace PlaylistRules.Query

open Rule (Comparison)

/-- The rows of a table that satisfy a predicate. -/
structure Statement where
  table : String
  predicate : Predicate
deriving DecidableEq, Repr

/-! ### Words and names -/

/-- The text after a given beginning. -/
def dropText? : List Char → List Char → Option (List Char)
  | [], cs => some cs
  | _ :: _, [] => none
  | t :: ts, c :: cs => if t = c then dropText? ts cs else none

/-- A quoted name from the front of a text. -/
def readName? (cs : List Char) : Option (String × List Char) :=
  (Text.readQuoted? '"' cs).map fun (name, rest) => (String.ofList name, rest)

/-- The words of a comparison after its column. -/
def comparisonWords : Comparison → String
  | .equal => " = ?"
  | .unequal => " <> ?"
  | .like => " LIKE ?"
  | .notLike => " NOT LIKE ?"
  | .between => " between ? and ?"
  | .greater => " > ?"
  | .less => " < ?"
  | .atLeast => " >= ?"

/-- The comparisons in the order in which their words are tried. No words begin other ones. -/
def comparisons : List Comparison :=
  [.equal, .unequal, .like, .notLike, .between, .greater, .less, .atLeast]

/-- The words of a comparison from the front of a text. -/
def readComparison? (cs : List Char) : Option (Comparison × List Char) :=
  comparisons.findSome? fun comparison =>
    (dropText? (comparisonWords comparison).toList cs).map fun rest => (comparison, rest)

/-- A comparison on a column from the front of a text. -/
def readTest? (cs : List Char) : Option (Test × List Char) := do
  let (column, cs) ← readName? cs
  let (comparison, cs) ← readComparison? cs
  return (⟨column, comparison⟩, cs)

/-- A column with its table from the front of a text. -/
def readColumnRef? (cs : List Char) : Option (ColumnRef × List Char) := do
  let (table, cs) ← readName? cs
  let cs ← dropText? ['.'] cs
  let (column, cs) ← readName? cs
  return (⟨table, column⟩, cs)

/-- The rest of a condition on a related row, after its first words. -/
def readRelated? (cs : List Char) : Option (Condition × List Char) := do
  let (table, cs) ← readName? cs
  let cs ← dropText? " where ".toList cs
  let (outer, cs) ← readColumnRef? cs
  let cs ← dropText? " = ".toList cs
  let (inner, cs) ← readColumnRef? cs
  let cs ← dropText? " and ".toList cs
  let (test, cs) ← readTest? cs
  let cs ← dropText? [')'] cs
  return (.related table outer inner test, cs)

/-- A condition from the front of a text. -/
def readCondition? (cs : List Char) : Option (Condition × List Char) :=
  match dropText? "exists (select * from ".toList cs with
  | some cs => readRelated? cs
  | none => (readTest? cs).map fun (test, cs) => (.own test, cs)

/-- One or more parts with a text between them. The number of parts is at most `fuel`. -/
def readSeparated? {α : Type} (separator : List Char)
    (part : List Char → Option (α × List Char)) :
    Nat → List Char → Option (List α × List Char)
  | 0, _ => none
  | fuel + 1, cs => do
    let (first, cs) ← part cs
    match dropText? separator cs with
    | none => return ([first], cs)
    | some cs =>
      let (others, cs) ← readSeparated? separator part fuel cs
      return (first :: others, cs)

/-- A group of conditions in parentheses from the front of a text. -/
def readGroup? (cs : List Char) : Option (List Condition × List Char) := do
  let cs ← dropText? ['('] cs
  let (group, cs) ← readSeparated? " and ".toList readCondition? cs.length cs
  let cs ← dropText? [')'] cs
  return (group, cs)

/-- The predicate of a text. No row satisfies that zero is one. -/
def Predicate.read? (text : String) : Option Predicate :=
  if text = "0 = 1" then some .never
  else match readSeparated? " or ".toList readGroup? text.toList.length text.toList with
    | some (groups, []) => some (.anyOf groups)
    | _ => none

/-- The name of the table of a statement, and the text of its predicate. -/
def readTable? (cs : List Char) : Option (String × List Char) := do
  let cs ← dropText? "select * from ".toList cs
  let (table, cs) ← readName? cs
  let cs ← dropText? " where ".toList cs
  return (table, cs)

/-- The statement of a text. -/
def Statement.read? (text : String) : Option Statement := do
  let (table, cs) ← readTable? text.toList
  let predicate ← Predicate.read? (String.ofList cs)
  return ⟨table, predicate⟩

end PlaylistRules.Query
