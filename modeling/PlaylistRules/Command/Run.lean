import PlaylistRules.Calendar.Reading
import PlaylistRules.Catalog.Library
import PlaylistRules.Command.Arguments
import PlaylistRules.Query.Compile

/-!
# Running a command

One invocation prints a schema, the query that rules are compiled to, or the rows that the query
selects in a database.

## Main definitions

* `Command.Settings` : what an invocation is to do, with `Command.Settings.ofArguments`.
* `Command.Failure` : why it fails.
* `Command.compileRules` : the query of a stored text, up to a limit on the number of rules.
* `Command.Surroundings` : what an invocation finds outside.
* `Command.run` : the text that is printed.
-/

namespace PlaylistRules.Command

/-- What an invocation is to do. Without a path the rules are on standard input, and without an
instant the clock is asked. -/
structure Settings where
  rules : Option String
  user : Option Int64
  now : Option Calendar.Instant
  entity : String
  format : Output.Format
  database : Option String
  maxRules : UInt64
  showSchema : Bool
deriving DecidableEq, Repr

/-- The number of rules that are accepted by default. -/
def defaultMaxRules : UInt64 := 100

/-- The path that means standard input. -/
def standardInputPath : String := "-"

/-- Why an invocation fails. -/
inductive Failure where
  | invalidNow (text : String)
  | tooManyRules (count : Nat) (limit : UInt64)
  | refused (error : Rule.Error)
  | unreadableFile (message : String)
  | store (fault : Store.Fault)
deriving DecidableEq, Repr

/-- The wording of a failure. -/
def Failure.message : Failure → String
  | invalidNow text =>
    "invalid reference time '" ++ text ++ "': expected YYYY-MM-DD or YYYY-MM-DDTHH:MM:SS"
  | tooManyRules count limit =>
    "rule tree has " ++ String.ofList (Number.digits count) ++ " rules, more than the limit of " ++
      String.ofList (Number.digits limit.toNat)
  | refused error => "compile error: " ++ error.display
  | unreadableFile message => "io error: " ++ message
  | store fault => "database error: " ++ fault.message

/-- The message for a file that does not exist. -/
def noSuchFile : String := "No such file or directory (os error 2)"

/-- The reference instant of a text. -/
def readNow (text : String) : Except Failure Calendar.Instant :=
  match Calendar.Instant.read? text with
  | some instant => .ok instant
  | none => .error (.invalidNow (String.ofList (Text.trim text.toList)))

namespace Settings

/-- The settings of arguments. -/
def ofArguments (arguments : Arguments) : Except Failure Settings := do
  let now ← match arguments.now with
    | none => .ok none
    | some text => (readNow text).map some
  return {
    rules := match arguments.rules with
      | none => none
      | some path => if path = standardInputPath then none else some path
    user := arguments.user
    now := now
    entity := arguments.entity.getD Catalog.defaultEntity
    format := arguments.format.getD .sql
    database := arguments.database
    maxRules := arguments.maxRules.getD defaultMaxRules
    showSchema := arguments.schema }

end Settings

/-- A rule error as a failure. -/
def refuse {α : Type} (result : Except Rule.Error α) : Except Failure α :=
  result.mapError .refused

/-- The query of a stored text, scoped to a user if one is given. The number of rules is limited
before they are checked. -/
def compileRules (schema : Catalog.Schema) (entity : String) (now : Calendar.Instant)
    (user : Option Int64) (limit : UInt64) (text : String) : Except Failure Query := do
  let record ← refuse (RuleTree.readRecord text)
  if limit.toNat < record.ruleCount then .error (.tooManyRules record.ruleCount limit)
  else
    let tree ← refuse (RuleTree.ofRecord record)
    refuse ((tree.forUser user).compile schema entity now)

/-- What an invocation finds outside: the clock, standard input, files and databases. -/
structure Surroundings where
  clock : Calendar.Instant
  standardInput : String
  file : String → Except Failure String
  database : String → Except Failure Store.Database

/-- The text of the rules. -/
def Surroundings.rules (surroundings : Surroundings) : Option String → Except Failure String
  | none => .ok surroundings.standardInput
  | some path => surroundings.file path

/-- The text that an invocation prints. A schema is printed before any rules are read. -/
def run (surroundings : Surroundings) (settings : Settings) : Except Failure String := do
  let schema := Catalog.library
  refuse ((schema.validate).mapError fun fault => Rule.Error.of (.unresolved fault))
  if settings.showSchema then .ok (Output.formatSchema schema settings.format)
  else
    let text ← surroundings.rules settings.rules
    let query ← compileRules schema settings.entity (settings.now.getD surroundings.clock)
      settings.user settings.maxRules text
    match settings.database with
    | none => .ok (Output.formatQuery query settings.format)
    | some path =>
      let database ← surroundings.database path
      let result ← (Store.execute database query).mapError Failure.store
      .ok (Output.formatResult result settings.format)

end PlaylistRules.Command
