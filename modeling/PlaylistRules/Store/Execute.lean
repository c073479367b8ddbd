import PlaylistRules.Query.Basic
import PlaylistRules.Query.Statement
import PlaylistRules.Store.Database
import PlaylistRules.Store.Limits
import PlaylistRules.Store.Visit

/-!
# Executing queries

A query is executed by reading the text of its statement and testing the predicate on every row of
the table. A column with a table name belongs to the nearest table of that name, the table of the
related row before the base table; a column without one belongs to the nearest table that has it.
A quoted name that is no column stands for its own text.

## Main definitions

* `Store.Frame`, `Store.Scope` : the rows that names refer to.
* `Store.holds` : the truth of a predicate on a row.
* `Store.Fault` : why a query cannot be executed.
* `Store.Result` : the columns and rows of a result.
* `Store.execute` : the result of a query.
-/

namespace PlaylistRules.Store

open Query (Condition Predicate Test ColumnRef Statement)

/-! ### Names -/

/-- A row of a table. -/
structure Frame where
  table : Table
  row : Row

/-- The rows that names refer to, the nearest first. -/
abbrev Scope := List Frame

/-- The cell of a column in the nearest table of its name. -/
def Scope.qualified? (scope : Scope) (ref : ColumnRef) : Option Cell :=
  scope.findSome? fun frame =>
    if sameName frame.table.name ref.table then frame.table.cell? frame.row ref.column else none

/-- The cell of a column in the nearest table that has it, or the name as a text. -/
def Scope.cell (scope : Scope) (column : String) : Cell :=
  (scope.findSome? fun frame => frame.table.cell? frame.row column).getD
    ⟨.none, .text column⟩

/-! ### Truth -/

/-- A comparison on a column in a scope. -/
def testHolds (scope : Scope) (test : Test) (arguments : List Value) : Truth :=
  compareWith (scope.cell test.column) test.comparison arguments

/-- The join columns are equal and the comparison holds. -/
def joinHolds (scope : Scope) (outer inner : ColumnRef) (test : Test) (arguments : List Value) :
    Truth :=
  let joined := match scope.qualified? outer, scope.qualified? inner with
    | some a, some b => equalCells a b
    | _, _ => none
  joined.both (testHolds scope test arguments)

/-- The truth of a condition on a row. The existence of a related row is never unknown. -/
def conditionHolds (database : Database) (scope : Scope) (arguments : List Value) :
    Condition → Truth
  | .own test => testHolds scope test arguments
  | .related name outer inner test =>
    match database.table? name with
    | none => some false
    | some table =>
      some (table.rows.any fun row =>
        joinHolds (⟨table, row⟩ :: scope) outer inner test arguments == some true)

/-- The truth of each condition of a group, with its share of the bound values, and the values
that are left. -/
def groupTruths (database : Database) (scope : Scope) :
    List Condition → List Value → List Truth × List Value
  | [], values => ([], values)
  | condition :: conditions, values =>
    let truth := conditionHolds database scope (values.take condition.arity) condition
    let (truths, rest) := groupTruths database scope conditions (values.drop condition.arity)
    (truth :: truths, rest)

/-- The truth of each group, with its share of the bound values. -/
def choiceTruths (database : Database) (scope : Scope) :
    List (List Condition) → List Value → List Truth
  | [], _ => []
  | group :: groups, values =>
    let (truths, rest) := groupTruths database scope group values
    Truth.all truths :: choiceTruths database scope groups rest

/-- The truth of a predicate on a row. -/
def holds (database : Database) (scope : Scope) (values : List Value) : Predicate → Truth
  | .never => some false
  | .anyOf groups => Truth.any (choiceTruths database scope groups values)

/-! ### Results -/

/-- Why a query cannot be executed. -/
inductive Fault where
  | cannotOpen (path : String)
  | unreadable (statement : String)
  | tooDeep
  | tooManyVariables (statement : String) (offset : Nat)
  | noSuchTable (name : String)
  | noSuchColumn (name : String)
  | wrongParameterCount (given needed : Nat)
deriving DecidableEq, Repr

/-- The wording of a fault. -/
def Fault.message : Fault → String
  | cannotOpen path => "unable to open database file: " ++ path
  | unreadable statement => "syntax error in " ++ statement
  | tooDeep => "Expression tree is too large (maximum depth " ++
      String.ofList (Number.digits heightLimit) ++ ")"
  | tooManyVariables statement offset =>
    "too many SQL variables in " ++ statement ++ " at offset " ++
      String.ofList (Number.digits offset)
  | noSuchTable name => "no such table: " ++ name
  | noSuchColumn name => "no such column: " ++ name
  | wrongParameterCount given needed =>
    "Wrong number of parameters passed to query. Got " ++ String.ofList (Number.digits given) ++
      ", needed " ++ String.ofList (Number.digits needed)

/-- The fault of a statement that passes a limit. -/
def Fault.ofLimit (statement : String) : Limit → Fault
  | .height => tooDeep
  | .variables =>
    tooManyVariables statement (placeholderOffset variableLimit false statement.toList)

/-- The columns of a result and its rows. -/
structure Result where
  columns : List String
  rows : List (List Scalar)
deriving DecidableEq

namespace Result

/-- The result has no rows. -/
def isEmpty (result : Result) : Bool :=
  result.rows.isEmpty

/-- The texts of a row, compared one after the other. -/
def rowLe (a b : List Scalar) : Bool :=
  compare (a.map Scalar.display) (b.map Scalar.display) != .gt

/-- The result with its rows in the order of their texts. -/
def sorted (result : Result) : Result :=
  { result with rows := result.rows.mergeSort rowLe }

end Result

/-- A column with a table name belongs to one of the tables. -/
def checkRef (tables : List Table) (ref : ColumnRef) : Except Fault Unit :=
  if tables.any fun table => sameName table.name ref.table && (table.place? ref.column).isSome then
    .ok ()
  else .error (.noSuchColumn (ref.table ++ "." ++ ref.column))

/-- The table and the join columns of a condition exist. -/
def checkCondition (database : Database) (base : Table) : Condition → Except Fault Unit
  | .own _ => .ok ()
  | .related name outer inner _ =>
    match database.table? name with
    | none => .error (.noSuchTable name)
    | some table => do
      checkRef [table, base] outer
      checkRef [table, base] inner

/-- The tables and join columns of a predicate exist. -/
def checkPredicate (database : Database) (base : Table) : Predicate → Except Fault Unit
  | .never => .ok ()
  | .anyOf groups => groups.flatten.forM (checkCondition database base)

/-- The rows of a table for which a predicate is true, in the order of their numbers. -/
def select (database : Database) (base : Table) (predicate : Predicate) (values : List Value) :
    List Row :=
  base.rows.filter fun row => holds database [⟨base, row⟩] values predicate == some true

/-- The place of the first group of a choice that is true for a row. -/
def firstGroup (database : Database) (base : Table) (groups : List (List Condition))
    (values : List Value) (row : Row) : Nat :=
  (choiceTruths database [⟨base, row⟩] groups values).idxOf (some true)

/-- The rows of a table for which a predicate is true, in the order in which they are visited. -/
def visited (database : Database) (base : Table) (predicate : Predicate) (values : List Value) :
    List Row :=
  let rows := select database base predicate values
  match predicate with
  | .never => rows
  | .anyOf groups => (base.visit groups).arrange base <|
    rows.map fun row => (firstGroup database base groups values row, row)

/-- The result of a statement that has been read from a text. The limits are checked first, then the
table is looked up, then the expressions inside of the predicate are checked and the bound values
are counted. -/
def executeStatement (database : Database) (text : String) (statement : Statement)
    (bindings : List Scalar) : Except Fault Result := do
  (checkLimits statement.predicate).mapError (Fault.ofLimit text)
  let some base := database.table? statement.table | throw (.noSuchTable statement.table)
  if ¬IsShallow statement.predicate then throw .tooDeep
  checkPredicate database base statement.predicate
  if bindings.length ≠ statement.predicate.arity then
    throw (.wrongParameterCount bindings.length statement.predicate.arity)
  let rows := visited database base statement.predicate (bindings.map Value.ofScalar)
  return ⟨base.columns.map Prod.fst, rows.map fun row => row.values.map Value.toScalar⟩

/-- The result of a query: its statement is read from the text, and executed with its bound
values. -/
def execute (database : Database) (query : Query) : Except Fault Result :=
  match Statement.read? query.sql with
  | some statement => executeStatement database query.sql statement query.bindings
  | none => .error (.unreadable query.sql)

end PlaylistRules.Store
