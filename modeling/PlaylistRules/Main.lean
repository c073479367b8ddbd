import PlaylistRules.Command.Run
import Std.Time.Zoned

/-!
# The command line

Reads the words of the command line, the rules from a file or from standard input, and the clock,
and prints what the invocation yields. Catalog databases cannot be opened from here.
-/

namespace PlaylistRules

/-- What is printed for a call for help. -/
def helpText : String :=
  "Compile smart playlist rules into a parameterized query\n\n" ++
    "Options:\n" ++
    "  -r, --rules <FILE>       Rule tree in JSON, or '-' for standard input\n" ++
    "  -u, --user <ID>          Scope per-user fields to this user\n" ++
    "      --now <TIME>         Reference time for relative dates\n" ++
    "  -e, --entity <NAME>      Base entity of the playlist\n" ++
    "  -f, --format <FORMAT>    Output format: sql, json or table\n" ++
    "  -d, --database <PATH>    Catalog to run the query against\n" ++
    "      --max-rules <COUNT>  Largest number of rules in a tree\n" ++
    "      --schema             Print the catalog schema\n" ++
    "  -h, --help               Print this help\n" ++
    "  -V, --version            Print the version"

/-- The version of the program. -/
def versionText : String := "0.1.0"

/-- What is printed in place of a result. -/
def usageText : Command.Usage → String
  | .displayHelp => helpText
  | .displayVersion => versionText
  | .unknownArgument => "error: unexpected argument"
  | .invalidValue => "error: a value is missing or not one of the possible values"
  | .valueValidation => "error: invalid value for an option"
  | .argumentConflict => "error: an option is given more than once"
  | .tooManyValues => "error: unexpected value for an option"

/-- The instant of the local clock. -/
def readClock : IO Calendar.Instant := do
  let now ← Std.Time.PlainDateTime.now
  let date? := Calendar.Date.of? now.year now.month.toNat now.day.toNat
  match date? with
  | none => throw (IO.userError "the clock is out of range")
  | some date =>
    let second := min now.second.toNat 59
    match Calendar.Instant.of? date now.hour.toNat now.minute.toNat second
        now.nanosecond.toNat with
    | some instant => return instant
    | none => return .midnight date

/-- The text of a file, or why it cannot be read. -/
def readRules (path : String) : IO (Except Command.Failure String) := do
  try
    return .ok (← IO.FS.readFile path)
  catch _ =>
    return .error (.unreadableFile Command.noSuchFile)

/-- What the invocation finds outside. The text of the rules is read if it is needed. -/
def readSurroundings (settings : Command.Settings) : IO Command.Surroundings := do
  let clock ← readClock
  let input ← if settings.showSchema || settings.rules.isSome then pure ""
    else (← IO.getStdin).readToEnd
  let file ← match settings.rules with
    | some path => if settings.showSchema then pure (.ok "") else readRules path
    | none => pure (.ok "")
  return {
    clock := clock
    standardInput := input
    file := fun _ => file
    database := fun path => .error (.store (.cannotOpen path)) }

/-- Runs an invocation and prints its result or why it fails. -/
def invoke (words : List String) : IO UInt32 := do
  match Command.Arguments.read words with
  | .error usage =>
    if usage.exitCode = 0 then IO.println (usageText usage) else IO.eprintln (usageText usage)
    return UInt32.ofNat usage.exitCode
  | .ok arguments =>
    let settings := Command.Settings.ofArguments arguments
    let result ← match settings with
      | .error failure => pure (.error failure)
      | .ok settings => do
        let surroundings ← readSurroundings settings
        pure (Command.run surroundings settings)
    match result with
    | .ok output =>
      IO.println output
      return 0
    | .error failure =>
      IO.eprintln ("Error: " ++ failure.message)
      return 1

end PlaylistRules

/-- Runs the words of the command line. -/
def main (words : List String) : IO UInt32 :=
  PlaylistRules.invoke words
