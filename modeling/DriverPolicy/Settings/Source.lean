import DriverPolicy.Settings.Environment
import DriverPolicy.Toml.Value

/-!
# Sources of settings

A source holds what one layer says: the file, the environment, or the command line. It leaves
alone what it does not say. In the file the settings are keys of two tables, each of one type;
in the environment they are variables.
-/

namespace DriverPolicy

/-- The settings. -/
inductive Setting where
  | defaultNamespace
  | level
  | file
  | format
  | includeStderr
  | maxBytes
  | backupCount
deriving DecidableEq, Repr

namespace Setting

/-- The name of a setting in events. -/
def name : Setting → String
  | defaultNamespace => "default_namespace"
  | level => "logging_level"
  | file => "logging_file"
  | format => "logging_format"
  | includeStderr => "logging_include_stderr"
  | maxBytes => "logging_max_bytes"
  | backupCount => "logging_backup_count"

/-- All settings. -/
def all : List Setting :=
  [defaultNamespace, level, file, format, includeStderr, maxBytes, backupCount]

/-- All settings in the order of their names. -/
def byName : List Setting :=
  [defaultNamespace, backupCount, file, format, includeStderr, level, maxBytes]

/-- The settings are listed in the order of their names, and none is left out. -/
theorem byName_sorted :
    byName.Pairwise (fun a b => a.name < b.name) ∧ ∀ s : Setting, s ∈ byName := by
  refine ⟨by decide, fun s => ?_⟩
  cases s <;> decide

end Setting

/-- What one layer says. -/
structure SettingSource where
  /-- The namespace of names without one. -/
  defaultNamespace : Option String
  /-- The least level that is logged. -/
  level : Option String
  /-- The log file. -/
  file : Option Path
  /-- The form of a log line. -/
  format : Option String
  /-- Whether records also go to the error output. -/
  includeStderr : Option Bool
  /-- The size from which on a log file is rotated. -/
  maxBytes : Option Int
  /-- How many rotated files are kept. -/
  backupCount : Option Int
deriving DecidableEq, Repr

namespace SettingSource

/-- A layer that says nothing. -/
def empty : SettingSource := ⟨none, none, none, none, none, none, none⟩

/-- Whether a layer says something about a setting. -/
def sets (source : SettingSource) : Setting → Bool
  | .defaultNamespace => source.defaultNamespace.isSome
  | .level => source.level.isSome
  | .file => source.file.isSome
  | .format => source.format.isSome
  | .includeStderr => source.includeStderr.isSome
  | .maxBytes => source.maxBytes.isSome
  | .backupCount => source.backupCount.isSome

/-- What two layers say together; the upper one wins. -/
def above (upper lower : SettingSource) : SettingSource where
  defaultNamespace := upper.defaultNamespace <|> lower.defaultNamespace
  level := upper.level <|> lower.level
  file := upper.file <|> lower.file
  format := upper.format <|> lower.format
  includeStderr := upper.includeStderr <|> lower.includeStderr
  maxBytes := upper.maxBytes <|> lower.maxBytes
  backupCount := upper.backupCount <|> lower.backupCount

/-- The table of a name in a file; it may be missing. -/
def tableOf (file : TomlTable) (name : String) : Except SettingFault TomlTable :=
  match file.find? name with
  | none => .ok []
  | some (.table fields) => .ok fields
  | some other => .error (.notATable name other.term)

/-- The text of a key. -/
def textOf (table : TomlTable) (tableName key : String) : Except SettingFault (Option String) :=
  match table.find? key with
  | none => .ok none
  | some (.text value) => .ok (some value)
  | some other => .error (.wrongType tableName key .text other.term)

/-- The integer of a key. -/
def integerOf (table : TomlTable) (tableName key : String) : Except SettingFault (Option Int) :=
  match table.find? key with
  | none => .ok none
  | some (.integer value) => .ok (some value)
  | some other => .error (.wrongType tableName key .integer other.term)

/-- The truth value of a key. -/
def booleanOf (table : TomlTable) (tableName key : String) : Except SettingFault (Option Bool) :=
  match table.find? key with
  | none => .ok none
  | some (.boolean value) => .ok (some value)
  | some other => .error (.wrongType tableName key .boolean other.term)

/-- A fault of a setting as a failure. -/
def failing {α : Type} (result : Except SettingFault α) : Except ConfigFailure α :=
  result.mapError .setting

/-- What a file says. An empty path of a log file says nothing. -/
def ofFile (homes : Homes) (file : TomlTable) : Except ConfigFailure SettingSource := do
  let resolver ← failing (tableOf file "resolver")
  let logging ← failing (tableOf file "logging")
  let fileText ← failing (textOf logging "logging" "file")
  let defaultNamespace ← failing (textOf resolver "resolver" "default_namespace")
  let level ← failing (textOf logging "logging" "level")
  let path ←
    match fileText with
    | none | some "" => pure none
    | some text => some <$> (homes.expand (.parse text)).mapError HomeFault.failure
  let format ← failing (textOf logging "logging" "format")
  let includeStderr ← failing (booleanOf logging "logging" "include_stderr")
  let maxBytes ← failing (integerOf logging "logging" "max_bytes")
  let backupCount ← failing (integerOf logging "logging" "backup_count")
  return ⟨defaultNamespace, level, path, format, includeStderr, maxBytes, backupCount⟩

/-- What the environment says. -/
def ofEnvironment (environment : Environment) : Except ConfigFailure SettingSource := do
  let defaultNamespace := environment.text? "DEFAULT_NAMESPACE"
  let level := environment.text? "LOG_LEVEL"
  let file ← environment.path? "LOG_FILE"
  let format := environment.text? "LOG_FORMAT"
  let includeStderr ← environment.flag? "LOG_INCLUDE_STDERR"
  let maxBytes ← environment.integer? "LOG_MAX_BYTES"
  let backupCount ← environment.integer? "LOG_BACKUP_COUNT"
  return ⟨defaultNamespace, level, file, format, includeStderr, maxBytes, backupCount⟩

end SettingSource

end DriverPolicy
