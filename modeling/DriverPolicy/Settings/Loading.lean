import DriverPolicy.Settings.Layers
import DriverPolicy.Storage.FileTree
import DriverPolicy.Toml.Document

/-!
# Loading configurations

A configuration file is read again only when its time of modification has changed; a missing
file has no time and counts as an empty table. Only successful readings are remembered. Each
reading has a number of its own, so that a remembered table can be told from a new one.

A configuration is built from the file, the environment and the caller's own settings, each
laid over the ones before.
-/

namespace DriverPolicy

/-- Carriage returns, alone or before a line break, read as line breaks. -/
def unifyLineEnds : List Char → List Char
  | '\r' :: '\n' :: rest => '\n' :: unifyLineEnds rest
  | '\r' :: rest => '\n' :: unifyLineEnds rest
  | c :: rest => c :: unifyLineEnds rest
  | [] => []

/-- The text of a file with its line ends unified; none if its bytes are no text. -/
def textOfFile? (bytes : ByteArray) : Option String :=
  (String.fromUTF8? bytes).map fun text => String.ofList (unifyLineEnds text.toList)

/-- A file that was read: its table, its time of modification if it was there, and the number
of the reading. -/
structure RememberedFile where
  /-- The path. -/
  path : Path
  /-- The table. -/
  table : TomlTable
  /-- The time of modification; none for a missing file. -/
  modified : Option Int
  /-- The number of the reading. -/
  reading : Nat

/-- The files that are remembered, how many readings there were, and the events that loading
reported. -/
structure LoadingState where
  /-- The remembered files, of different paths. -/
  remembered : List RememberedFile
  /-- The number of readings. -/
  readings : Nat
  /-- The events, the first one first. -/
  events : List Event

/-- Nothing is remembered. -/
def LoadingState.empty : LoadingState := ⟨[], 0, []⟩

/-- Work that reads configuration files and may fail. -/
abbrev Loading (α : Type) := ExceptT ConfigFailure (StateM LoadingState) α

namespace Loading

/-- Report an event. -/
def report (event : Event) : Loading Unit :=
  modify fun state => { state with events := state.events ++ [event] }

/-- Work that remembers and reports nothing. -/
def ofExcept {α : Type} (result : Except ConfigFailure α) : Loading α := ExceptT.mk (pure result)

/-- Forget all files. -/
def forgetAll : Loading Unit := modify fun state => { state with remembered := [] }

/-- Forget one file. -/
def forget (path : Path) : Loading Unit :=
  modify fun state => { state with remembered := state.remembered.filter (·.path ≠ path) }

/-- The number of a new reading. -/
def newReading : Loading Nat := do
  let state ← get
  set { state with readings := state.readings + 1 }
  return state.readings

end Loading

/-- The time of modification of a file; none if it is missing. -/
def FileTree.modifiedIfPresent (tree : FileTree) (path : Path) :
    Except ConfigFailure (Option Int) :=
  match tree.modified path with
  | .ok time => .ok (some time)
  | .error fault => if fault.problem = .notFound then .ok none else .error (.file fault)

/-- Read a TOML file. A missing file is an empty table, which is reported. -/
def readTomlFile (tree : FileTree) (path : Path) : Loading TomlTable := do
  match tree.content path with
  | .error fault =>
    match fault.problem with
    | .notFound =>
      Loading.report (.configMissing path.text)
      return []
    | .nullCharacter => throw (.file fault)
    | _ => throw (.unreadable path)
  | .ok bytes =>
    match textOfFile? bytes with
    | none => throw (.unreadable path)
    | some text =>
      match TomlTable.parse text.toList with
      | .ok table =>
        Loading.report (.configLoaded path.text)
        return table
      | .error .malformed => throw (.unreadable path)
      | .error (.tooManyDigits count) => throw (.setting (.tooManyDigits count))

/-- A table and the number of the reading that it comes from. -/
structure LoadedTable where
  /-- The table. -/
  table : TomlTable
  /-- The number of the reading. -/
  reading : Nat

/-- The table of a configuration file. An unreadable file is a failure when `strict` holds, and
otherwise ignored and reported. -/
def loadConfigFile (tree : FileTree) (path : Path) (strict : Bool) : Loading LoadedTable := do
  let modified ← Loading.ofExcept (tree.modifiedIfPresent path)
  let remembered := (← get).remembered.find? fun file =>
    file.path = path && file.modified = modified
  match remembered with
  | some file => return ⟨file.table, file.reading⟩
  | none =>
    try
      let table ← readTomlFile tree path
      let reading ← Loading.newReading
      Loading.forget path
      modify fun state =>
        { state with remembered := ⟨path, table, modified, reading⟩ :: state.remembered }
      return ⟨table, reading⟩
    catch failure =>
      match failure with
      | .unreadable _ =>
        Loading.forget path
        if strict then throw failure
        Loading.report (.configIgnored failure.message)
        return ⟨[], ← Loading.newReading⟩
      | _ => throw failure

/-- The configuration file unless the environment names another. -/
def standardConfigPath (homes : Homes) : Path :=
  (homes.own.child ".cqlpolicy").child "config.toml"

/-- The path of the configuration file. -/
def configPath (environment : Environment) (fallback : Path) : Except ConfigFailure Path := do
  return (← environment.path? "CONFIG_PATH").getD fallback

/-- Where the settings of a configuration come from. -/
structure ConfigRequest where
  /-- The configuration file; if none is given, the environment or the fallback names it. -/
  path : Option Path
  /-- The configuration file that is read when nothing else names one. -/
  fallback : Path
  /-- The caller's own settings. -/
  overrides : SettingSource
  /-- The environment. -/
  environment : Environment
  /-- Whether an unreadable file is a failure. -/
  strict : Bool

namespace ConfigRequest

/-- The configuration file that is read. -/
def filePath (request : ConfigRequest) : Except ConfigFailure Path :=
  match request.path with
  | some path => .ok path
  | none => configPath request.environment request.fallback

/-- The configuration from the table of the file, the environment and the caller's own settings. -/
def layered (request : ConfigRequest) (table : TomlTable) : Loading Config := do
  let file ← Loading.ofExcept (SettingSource.ofFile request.environment.homes table)
  let environment ← Loading.ofExcept (SettingSource.ofEnvironment request.environment)
  let layers := ((SettingLayers.empty.apply file "file").apply environment "env").apply
    request.overrides "cli"
  for (setting, source) in layers.sources do
    Loading.report (.settingFrom setting.name source)
  Loading.ofExcept (layers.build.mapError .setting)

end ConfigRequest

/-- The configuration from the file, the environment and the caller's own settings. -/
def getConfig (tree : FileTree) (request : ConfigRequest) : Loading Config := do
  let path ← Loading.ofExcept request.filePath
  let loaded ← loadConfigFile tree path request.strict
  request.layered loaded.table

end DriverPolicy
