import DriverPolicy.Number.Decimal
import DriverPolicy.Storage.FileTree

/-!
# Faults in settings

A setting is faulty when its text cannot be converted, its value in the file has another
type than its own, or the value that finally holds is out of range. Getting a configuration
can also fail because the file cannot be examined or read, or because a path begins with a
tilde that stands for no home.
-/

namespace DriverPolicy

/-- The types of value that settings have in a file. -/
inductive SettingType where
  | text
  | integer
  | boolean
deriving DecidableEq, Repr

/-- A type in messages. -/
def SettingType.description : SettingType → String
  | text => "a string"
  | integer => "an integer"
  | boolean => "a boolean"

/-- What is wrong with a setting. -/
inductive SettingFault where
  | notAnInteger (variableName given : String)
  | notAFlag (variableName given : String)
  | notATable (name given : String)
  | wrongType (table key : String) (wanted : SettingType) (given : String)
  | tooManyDigits (count : Nat)
  | unknownLevel (given : String)
  | unknownFormat (given : String)
  | negativeSize (given : Int)
  | negativeBackups (given : Int)
  | notADottedName (given : String)
deriving DecidableEq, Repr

/-- Choices in braces. -/
def choices (names : List String) : String :=
  "\x7b" ++ ", ".intercalate (names.map quoted) ++ "\x7d"

namespace SettingFault

/-- The message of a fault. -/
def message : SettingFault → String
  | notAnInteger variableName given => s!"{variableName} must be an integer, got {quoted given}"
  | notAFlag variableName given => s!"{variableName} must be true or false, got {quoted given}"
  | notATable name given => s!"[{name}] must be a table, got {given}"
  | wrongType table key wanted given =>
    s!"[{table}] {key} must be {wanted.description}, got {given}"
  | tooManyDigits count => tooManyDigitsMessage count
  | unknownLevel given =>
    let known := choices ["debug", "error", "info", "warning"]
    s!"level must be one of {known}, got {given}"
  | unknownFormat given =>
    let known := choices ["json", "text"]
    s!"format must be one of {known}, got {given}"
  | negativeSize given => s!"max_bytes must be >= 0, got {given}"
  | negativeBackups given => s!"backup_count must be >= 0, got {given}"
  | notADottedName given => s!"default_namespace must be a dotted name, got {quoted given}"

end SettingFault

/-- Why there is no configuration. -/
inductive ConfigFailure where
  | setting (fault : SettingFault)
  | unreadable (path : Path)
  | unknownHome
  | noUserName
  | file (fault : FileFault)
deriving DecidableEq, Repr

/-- The message of a failure. -/
def ConfigFailure.message : ConfigFailure → String
  | setting fault => fault.message
  | unreadable path => s!"Failed to load TOML file {path.text}"
  | unknownHome => "Could not determine home directory."
  | noUserName => FileProblem.nullCharacter.description
  | file fault => fault.message

/-- A tilde that stands for no home, as a failure. -/
def HomeFault.failure : HomeFault → ConfigFailure
  | unknownUser => .unknownHome
  | nullCharacter => .noUserName

end DriverPolicy
