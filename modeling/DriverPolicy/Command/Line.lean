import DriverPolicy.Command.Options
import DriverPolicy.Number.Decimal
import DriverPolicy.Policy.Basic
import DriverPolicy.Storage.FileTree
import DriverPolicy.Text.Blank
import DriverPolicy.Text.Letter

/-!
# The command line

The options in front of the command apply to every command: where the configuration is, the
namespace of names without one, and how to log. There are three commands: to parse an
expression, to resolve one in a family, and to list the policies. Values are checked in the
order in which their options were given, then the arguments, each fault ending the check.
-/

namespace DriverPolicy

/-- Why a command line gives no command: it asks for help or for the version, it is faulty, or a
path in it cannot be looked up. -/
inductive LineEnd where
  | help
  | version
  | fault (cause : UsageFault)
  | file (fault : FileFault)
deriving DecidableEq, Repr

/-- The options that apply to every command. -/
structure GlobalOptions where
  /-- The configuration file. -/
  config : Option Path
  /-- The namespace of names without one. -/
  namespaceName : Option String
  /-- The least level that is logged. -/
  logLevel : Option String
  /-- The log file. -/
  logFile : Option Path
  /-- Whether records are logged as JSON. -/
  logJson : Bool
deriving DecidableEq, Repr

namespace GlobalOptions

/-- No options. -/
def unset : GlobalOptions := ⟨none, none, none, none, false⟩

/-- The options in front of the command. -/
def rules : List OptionRule :=
  [⟨"--config", true⟩, ⟨"--namespace", true⟩, ⟨"--log-level", true⟩, ⟨"--log-file", true⟩,
   ⟨"--log-json", false⟩, ⟨"--version", false⟩, ⟨"--help", false⟩]

/-- The levels that can be chosen. -/
def levels : List String := ["debug", "info", "warning", "error"]

/-- A path, which must not hold a null character. -/
def path (value : String) : Except LineEnd Path :=
  match FileTree.checkPath value with
  | .error ⟨.nullCharacter, text⟩ => .error (.file ⟨.nullCharacter, text⟩)
  | _ => .ok (.parse value)

/-- A configuration file, which must not be a directory. -/
def configPath (files : FileTree) (value : String) : Except LineEnd Path :=
  if value ≠ "" && files.isDirectory (.parse value) then
    .error (.fault (.badValue "--config" s!"File {quoted value} is a directory."))
  else path value

/-- A level in any case of letters. -/
def level (value : String) : Except UsageFault String :=
  if levels.contains (lowered value) then .ok (lowered value)
  else .error (.badValue "--log-level" (UsageFault.notAChoice value levels))

/-- Take an option over. -/
def use (files : FileTree) (options : GlobalOptions) (given : OptionUse) :
    Except LineEnd GlobalOptions :=
  let value := given.value.getD ""
  match given.name with
  | "--config" => (configPath files value).map fun path => { options with config := some path }
  | "--namespace" => .ok { options with namespaceName := some value }
  | "--log-level" =>
    ((level value).mapError .fault).map fun level => { options with logLevel := some level }
  | "--log-file" => (path value).map fun path => { options with logFile := some path }
  | "--log-json" => .ok { options with logJson := true }
  | _ => .ok options

end GlobalOptions

/-- Whether options ask for help or for the version instead of a command; the first that does is
answered. -/
def asksInstead (scanned : ScannedArguments) : Option LineEnd :=
  scanned.options.findSome? fun given =>
    if given.name = "--help" then some .help
    else if given.name = "--version" then some .version
    else none

/-- A command. -/
inductive Command where
  | parse (expression : String) (json : Bool)
  | resolve (family : Family) (expression : String) (json : Bool) (schedule : Option Nat)
  | policies (family : Option Family) (json : Bool)
deriving DecidableEq, Repr

/-- The names of the commands. -/
inductive CommandName where
  | parse
  | resolve
  | policies
deriving DecidableEq, Repr

namespace CommandName

/-- A name as it is written. -/
def text : CommandName → String
  | parse => "parse"
  | resolve => "resolve"
  | policies => "policies"

/-- The command with a given name. -/
def ofText? (text : String) : Option CommandName :=
  [parse, resolve, policies].find? (·.text = text)

/-- The options of a command. -/
def rules : CommandName → List OptionRule
  | parse => [⟨"--json", false⟩, ⟨"--help", false⟩]
  | resolve => [⟨"--json", false⟩, ⟨"--schedule", true⟩, ⟨"--help", false⟩]
  | policies => [⟨"--family", true⟩, ⟨"--json", false⟩, ⟨"--help", false⟩]

end CommandName

namespace Command

/-- The names of the families. -/
def familyNames : List String := Family.all.map Family.name

/-- The family that a value names. -/
def familyOf (parameter value : String) : Except UsageFault Family :=
  match Family.ofName? value with
  | some family => .ok family
  | none => .error (.badValue parameter (UsageFault.notAChoice value familyNames))

/-- The argument that names a family. -/
def familyParameter : String := "\x7b" ++ "|".intercalate familyNames ++ "\x7d"

/-- A text without the blanks that may stand around a number: in a text of ASCII alone these are
not the four separators of records. -/
def withoutMargin (text : List Char) : List Char :=
  let isMargin (c : Char) : Bool :=
    isBlank c && !(0x1C ≤ c.toNat && c.toNat ≤ 0x1F && text.all (·.toNat < 0x80))
  ((text.dropWhile isMargin).reverse.dropWhile isMargin).reverse

/-- A number of delays, at least one. -/
def countOf (value : String) : Except UsageFault Nat :=
  match readFreeInteger (withoutMargin value.toList) with
  | some n =>
    if n < 1 then .error (.badValue "--schedule" s!"{n} is not in the range x>=1.")
    else .ok n.toNat
  | none => .error (.badValue "--schedule" s!"{quoted value} is not a valid integer range.")

/-- No arguments beyond those that a command takes. -/
def noMore : List String → Except UsageFault Unit
  | [] => .ok ()
  | more => .error (.extraArguments more)

/-- The expression to parse. -/
def readParse (scanned : ScannedArguments) : Except UsageFault Command :=
  match scanned.others with
  | [] => .error (.missingArgument "EXPRESSION" [])
  | expression :: more => do
    noMore more
    return .parse expression (scanned.has "--json")

/-- The count, the family and the expression to resolve. -/
def readResolve (scanned : ScannedArguments) : Except UsageFault Command := do
  let schedule ←
    match scanned.settled.find? (·.name = "--schedule") with
    | some given => some <$> countOf (given.value.getD "")
    | none => pure none
  match scanned.others with
  | [] => throw (.missingArgument familyParameter familyNames)
  | family :: rest =>
    let family ← familyOf familyParameter family
    match rest with
    | [] => throw (.missingArgument "EXPRESSION" [])
    | expression :: more =>
      noMore more
      return .resolve family expression (scanned.has "--json") schedule

/-- The family to list. -/
def readPolicies (scanned : ScannedArguments) : Except UsageFault Command := do
  let family ←
    match scanned.settled.find? (·.name = "--family") with
    | some given => some <$> familyOf "--family" (given.value.getD "")
    | none => pure none
  noMore scanned.others
  return .policies family (scanned.has "--json")

/-- The command with a name and its arguments. -/
def read (name : CommandName) (arguments : List String) : Except LineEnd Command := do
  let scanned ← (ScannedArguments.scan name.rules true arguments).mapError .fault
  match asksInstead scanned with
  | some instead => throw instead
  | none =>
    let command :=
      match name with
      | .parse => readParse scanned
      | .resolve => readResolve scanned
      | .policies => readPolicies scanned
    command.mapError .fault

end Command

/-- A command line: the options that apply to every command, the command's name, and what
follows it. -/
structure CommandLine where
  /-- The options in front. -/
  options : GlobalOptions
  /-- The command's name. -/
  name : CommandName
  /-- The command's own arguments. -/
  arguments : List String
deriving DecidableEq, Repr

namespace CommandLine

/-- Whether a word that should name a command asks for something else. A word that begins with
neither a letter nor a digit is taken for an option, which by itself shows the help. -/
def notACommand (word : String) : LineEnd :=
  match word.toList with
  | c :: _ => if c.isAlphanum || 0x80 ≤ c.toNat then .fault (.unknownCommand word) else .help
  | [] => .fault (.unknownCommand word)

/-- Read a command line as far as the command's name. -/
def read (files : FileTree) (arguments : List String) : Except LineEnd CommandLine := do
  if arguments.isEmpty then throw .help
  let scanned ← (ScannedArguments.scan GlobalOptions.rules false arguments).mapError .fault
  match asksInstead scanned with
  | some instead => throw instead
  | none =>
    let options ← scanned.settled.foldlM (GlobalOptions.use files) .unset
    match scanned.others with
    | [] => throw (.fault .missingCommand)
    | word :: rest =>
      match CommandName.ofText? word with
      | some name => return ⟨options, name, rest⟩
      | none => throw (notACommand word)

end CommandLine

end DriverPolicy
