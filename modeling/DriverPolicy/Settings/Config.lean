import DriverPolicy.Logging.Event
import DriverPolicy.Registry.Builtin
import DriverPolicy.Settings.Fault
import DriverPolicy.Text.Letter

/-!
# Configurations

A configuration says how to log and which namespace names without one belong to. Its values
are kept as they were given and must be in range: a level and a format of a known name in any
case of letters, sizes that are not negative, and a namespace that is a dotted name.
-/

namespace DriverPolicy

/-- The forms of a log line. -/
inductive LogFormat where
  | text
  | json
deriving DecidableEq, Repr

/-- The form with a given name. -/
def LogFormat.ofName? (name : String) : Option LogFormat :=
  match lowered name with
  | "text" => some .text
  | "json" => some .json
  | _ => none

/-- The level that a configuration may name. -/
def Level.ofName? (name : String) : Option Level :=
  match lowered name with
  | "debug" => some .debug
  | "info" => some .info
  | "warning" => some .warning
  | "error" => some .error
  | _ => none

/-- How to log. -/
structure LoggingConfig where
  /-- The name of the least level that is logged. -/
  level : String
  /-- The log file; without one, records go to the error output. -/
  file : Option Path
  /-- The name of the form of a line. -/
  format : String
  /-- Whether records go to the error output besides the file. -/
  includeStderr : Bool
  /-- The size in bytes from which on a log file is rotated. -/
  maxBytes : Int
  /-- How many rotated files are kept. -/
  backupCount : Int
deriving DecidableEq, Repr

namespace LoggingConfig

/-- News of ordinary work as text on the error output; ten mebibytes and five rotated files. -/
def standard : LoggingConfig := ⟨"info", none, "text", false, 10485760, 5⟩

/-- Whether all values are in range; the first that is not is the fault. -/
def check (config : LoggingConfig) : Except SettingFault Unit :=
  if (Level.ofName? config.level).isNone then .error (.unknownLevel config.level)
  else if (LogFormat.ofName? config.format).isNone then .error (.unknownFormat config.format)
  else if config.maxBytes < 0 then .error (.negativeSize config.maxBytes)
  else if config.backupCount < 0 then .error (.negativeBackups config.backupCount)
  else .ok ()

/-- The least level that is logged. -/
def leastLevel (config : LoggingConfig) : Level := (Level.ofName? config.level).getD .info

/-- The form of a line. -/
def lineFormat (config : LoggingConfig) : LogFormat :=
  (LogFormat.ofName? config.format).getD .text

end LoggingConfig

/-- Whether a character may begin a part of a dotted name. -/
def beginsNamePart (c : Char) : Bool := isLetter c || c = '_'

/-- Whether a character may go on a part of a dotted name. -/
def continuesNamePart (c : Char) : Bool := beginsNamePart c || ('0' ≤ c && c ≤ '9')

/-- Whether a text is a dotted name, of which the current part has begun or not. -/
def isDottedRest (begun : Bool) : List Char → Bool
  | [] => begun
  | c :: rest =>
    if begun then
      if c = '.' then isDottedRest false rest else continuesNamePart c && isDottedRest true rest
    else beginsNamePart c && isDottedRest true rest

/-- Whether a text is one or more name parts with points between them. -/
def isDottedName (text : String) : Bool := isDottedRest false text.toList

/-- A configuration. -/
structure Config where
  /-- How to log. -/
  logging : LoggingConfig
  /-- The namespace of names without one. -/
  namespaceName : String
deriving DecidableEq, Repr

namespace Config

/-- What holds when nothing is configured. -/
def standard : Config := ⟨.standard, defaultNamespace⟩

/-- A configuration whose values are all in range. -/
def checked (config : Config) : Except SettingFault Config := do
  config.logging.check
  if isDottedName config.namespaceName then return config
  else throw (.notADottedName config.namespaceName)

end Config

end DriverPolicy
