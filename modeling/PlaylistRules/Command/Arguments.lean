import PlaylistRules.Number.Integer
import PlaylistRules.Output.Format

/-!
# Arguments

The words of a command line, read from left to right. An option has its value attached or in the
next word; such a value is checked when the next option begins or the words end.

## Main definitions

* `Command.Arguments` : the options that were given.
* `Command.Usage` : why the words are refused, or what is asked for in their place.
* `Command.Arguments.read` : the options of a list of words.
-/

namespace PlaylistRules.Command

/-- The options with a value. -/
inductive Valued where
  | rules
  | user
  | now
  | entity
  | format
  | database
  | maxRules
deriving DecidableEq, Repr

/-- The options of a command line. -/
inductive Name where
  | valued (option : Valued)
  | schema
  | help
  | version
deriving DecidableEq, Repr

/-- The option of a long name. -/
def Name.ofLong? : String → Option Name
  | "rules" => some (.valued .rules)
  | "user" => some (.valued .user)
  | "now" => some (.valued .now)
  | "entity" => some (.valued .entity)
  | "format" => some (.valued .format)
  | "database" => some (.valued .database)
  | "max-rules" => some (.valued .maxRules)
  | "schema" => some .schema
  | "help" => some .help
  | "version" => some .version
  | _ => none

/-- The option of a letter. -/
def Name.ofLetter? : Char → Option Name
  | 'r' => some (.valued .rules)
  | 'u' => some (.valued .user)
  | 'e' => some (.valued .entity)
  | 'f' => some (.valued .format)
  | 'd' => some (.valued .database)
  | 'h' => some .help
  | 'V' => some .version
  | _ => none

/-- The options that were given. -/
structure Arguments where
  rules : Option String := none
  user : Option Int64 := none
  now : Option String := none
  entity : Option String := none
  format : Option Output.Format := none
  database : Option String := none
  maxRules : Option UInt64 := none
  schema : Bool := false
deriving DecidableEq, Repr

/-- Why the words of a command line are refused, or what is asked for in their place. -/
inductive Usage where
  | unknownArgument
  | invalidValue
  | valueValidation
  | argumentConflict
  | tooManyValues
  | displayHelp
  | displayVersion
deriving DecidableEq, Repr

/-- The exit code: zero when nothing is wrong with the words. -/
def Usage.exitCode : Usage → Nat
  | displayHelp | displayVersion => 0
  | _ => 2

namespace Arguments

/-- An option has been given. -/
def isGiven (arguments : Arguments) : Valued → Bool
  | .rules => arguments.rules.isSome
  | .user => arguments.user.isSome
  | .now => arguments.now.isSome
  | .entity => arguments.entity.isSome
  | .format => arguments.format.isSome
  | .database => arguments.database.isSome
  | .maxRules => arguments.maxRules.isSome

/-- The arguments with the value of an option. -/
def setValue (arguments : Arguments) (value : String) : Valued → Except Usage Arguments
  | .rules => .ok { arguments with rules := some value }
  | .user => match Number.readInt64? value.toList with
    | some user => .ok { arguments with user := some user }
    | none => .error .valueValidation
  | .now => .ok { arguments with now := some value }
  | .entity => .ok { arguments with entity := some value }
  | .format => match Output.Format.ofName? value with
    | some format => .ok { arguments with format := some format }
    | none => .error .invalidValue
  | .database =>
    if value = "" then .error .invalidValue else .ok { arguments with database := some value }
  | .maxRules => match Number.readUInt64? value.toList with
    | some count => .ok { arguments with maxRules := some count }
    | none => .error .valueValidation

/-- The arguments with an option and its value, if there is one. An option is given once. -/
def give (arguments : Arguments) (option : Valued) : Option String → Except Usage Arguments
  | none => .error .invalidValue
  | some value =>
    if arguments.isGiven option then .error .argumentConflict
    else arguments.setValue value option

end Arguments

/-! ### Reading -/

/-- The arguments so far, and an option whose value is awaited or not yet checked. -/
structure Progress where
  arguments : Arguments := {}
  pending : Option (Valued × Option String) := none

namespace Progress

/-- The arguments with the pending option. -/
def settle (progress : Progress) : Except Usage Arguments :=
  match progress.pending with
  | none => .ok progress.arguments
  | some (option, value) => progress.arguments.give option value

/-- One more option, with the value that is attached to it, if any. -/
def take (progress : Progress) (attached : Option String) : Option Name → Except Usage Progress
  | none => .error .unknownArgument
  | some (.valued option) => do
    let arguments ← progress.settle
    match attached with
    | none => .ok ⟨arguments, some (option, none)⟩
    | some value => return ⟨← arguments.give option (some value), none⟩
  | some .schema =>
    if attached.isSome then .error .tooManyValues
    else do
      let arguments ← progress.settle
      if arguments.schema then .error .argumentConflict
      else .ok ⟨{ arguments with schema := true }, none⟩
  | some .help =>
    if attached.isSome then .error .tooManyValues
    else do
      let _ ← progress.settle
      .error .displayHelp
  | some .version =>
    if attached.isSome then .error .tooManyValues
    else do
      let _ ← progress.settle
      .error .displayVersion

/-- A word that is no option: the value of the pending option. -/
def takeValue (progress : Progress) (word : String) : Except Usage Progress :=
  match progress.pending with
  | some (option, none) => .ok ⟨progress.arguments, some (option, some word)⟩
  | _ => .error .unknownArgument

end Progress

/-- A text up to the first equals sign, and the text after the sign. -/
def splitEquals : List Char → List Char × Option (List Char)
  | [] => ([], none)
  | c :: cs =>
    if c = '=' then ([], some cs)
    else
      let (before, after) := splitEquals cs
      (c :: before, after)

/-- The value attached to the letter of an option. An equals sign may come first. -/
def attachedToLetter : List Char → Option String
  | [] => none
  | '=' :: cs => some (String.ofList cs)
  | cs => some (String.ofList cs)

/-- One more word, other than two hyphens alone. -/
def Progress.word (progress : Progress) (word : String) : Except Usage Progress :=
  match word.toList with
  | '-' :: '-' :: cs =>
    let (name, value) := splitEquals cs
    progress.take (value.map String.ofList) (Name.ofLong? (String.ofList name))
  | '-' :: c :: cs => match Name.ofLetter? c with
    | some (.valued option) => progress.take (attachedToLetter cs) (some (.valued option))
    | name => progress.take none name
  | _ => progress.takeValue word

/-- The words from a place on. After two hyphens alone there may be no more words. -/
def Progress.words (progress : Progress) : List String → Except Usage Arguments
  | [] => progress.settle
  | word :: words =>
    if word = "--" then
      if words.isEmpty then progress.settle else .error .unknownArgument
    else do
      let progress ← progress.word word
      progress.words words

/-- The options of a list of words. -/
def Arguments.read (words : List String) : Except Usage Arguments :=
  Progress.words {} words

end PlaylistRules.Command
