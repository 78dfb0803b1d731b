import DriverPolicy.Logging.Handler

/-!
# The root logger

All records go to the root logger, which drops those below its level and hands the others to
its handlers in order. Configuring it installs one handler for the log file, if it can be
opened, and one for the error output, if it is asked for or there is no file; the handlers of
the configuration before are removed and closed. Handlers that come from elsewhere stay.
-/

namespace DriverPolicy

/-- A handler on the root logger: one that a configuration installed, or one from elsewhere. -/
inductive RootHandler where
  | own (handler : LogHandler)
  | foreign (name : String)
deriving DecidableEq, Repr

/-- The root logger. -/
structure RootLogger where
  /-- The least level that is handled. -/
  level : Level
  /-- The handlers in the order in which they were added. -/
  handlers : List RootHandler
  /-- The handlers that the last configuration installed. -/
  installed : List LogHandler
  /-- The numbers of the handlers that were closed. -/
  closed : List Nat
  /-- How many handlers configurations have made. -/
  made : Nat
deriving DecidableEq, Repr

namespace RootLogger

/-- A root logger without handlers that drops what is below a warning. -/
def fresh : RootLogger := ⟨.warning, [], [], [], 0⟩

/-- Add a handler from elsewhere, unless it is there. -/
def addForeign (root : RootLogger) (name : String) : RootLogger :=
  if root.handlers.contains (.foreign name) then root
  else { root with handlers := root.handlers ++ [.foreign name] }

/-- Remove a handler from elsewhere. -/
def removeForeign (root : RootLogger) (name : String) : RootLogger :=
  { root with handlers := root.handlers.filter (· ≠ .foreign name) }

/-- Install handlers for targets in the place of those of the configuration before. -/
def install (root : RootLogger) (targets : List LogTarget) (level : Level) (format : LogFormat) :
    RootLogger :=
  let installed := targets.mapIdx fun i target => ⟨root.made + i, target, level, format⟩
  let kept := root.handlers.filter fun
    | .own handler => !root.installed.contains handler
    | .foreign _ => true
  { level, handlers := kept ++ installed.map .own, installed,
    closed := root.closed ++ root.installed.map (·.number),
    made := root.made + targets.length }

end RootLogger

/-- The root logger and where its lines go. -/
structure LogState where
  /-- The root logger. -/
  root : RootLogger
  /-- Where the lines go. -/
  output : LogOutput

/-- The same root logger over other files. -/
def LogState.withFiles (state : LogState) (files : FileTree) : LogState :=
  { state with output := { state.output with files } }

/-- Why a log file is not opened. -/
inductive OpeningFault where
  /-- The path holds a null character, so it is none. -/
  | noPath (path : String)
  /-- The system refuses, and says why. -/
  | refused (reason : String)
deriving DecidableEq, Repr

/-- A failed operation as the reason why a log file is not opened. -/
def FileFault.opening : FileFault → OpeningFault
  | ⟨.nullCharacter, path⟩ => .noPath path
  | fault => .refused fault.message

/-- A configuration that is not installed. -/
structure RefusedConfig where
  /-- Why it is not. -/
  failure : ConfigFailure
  /-- The files that looking for its log file has left. -/
  files : FileTree

namespace LogState

/-- Hand a record to the handlers in order. -/
def handleAll (context : Context) : List RootHandler → LogRecord → LogOutput → LogOutput
  | [], _, output => output
  | .foreign _ :: rest, record, output => handleAll context rest record output
  | .own handler :: rest, record, output =>
    let (record, output) := handler.handle context record output
    handleAll context rest record output

/-- Log a record in a context. -/
def log (state : LogState) (context : Context) (record : LogRecord) : LogState :=
  if record.level.rank < state.root.level.rank then state
  else { state with output := handleAll context state.root.handlers record state.output }

/-- Log a record with attributes in a context. A record that is dropped may have any attributes. -/
def logWith (state : LogState) (context : Context) (record : LogRecord)
    (attributes : List (String × Json)) : Except ReservedName LogState :=
  if record.level.rank < state.root.level.rank then .ok state
  else
    match reserved? attributes with
    | some fault => .error fault
    | none => .ok (state.log context (record.attachAll attributes))

/-- Log what was reported. -/
def report (state : LogState) (now : Instant) (entry : Entry) : LogState :=
  state.log entry.context (.ofEvent entry.event now)

/-- Log all that was reported, in order. -/
def reportAll (state : LogState) (now : Instant) (entries : List Entry) : LogState :=
  entries.foldl (·.report now ·) state

/-- Open a log file for appending: the files afterwards, and its path from the root or why it
cannot be opened. Directories that are missing on the way are made, and stay if it is not opened. -/
def openLog (files : FileTree) (path : Path) (time : Int) : FileTree × Except FileFault Path :=
  match files.ensureDirectories path.parent with
  | (files, .error fault) => (files, .error fault)
  | (files, .ok ()) =>
    let full := files.absolute path
    match files.append full ⟨#[]⟩ time with
    | .error fault => (files, .error fault)
    | .ok files => (files, .ok full)

/-- Configure the root logger, given what opening a log file leads to: the files afterwards, and the
path from the root or why there is none. A log file that cannot be opened is reported as a warning
once the handlers are installed; a file in the home of an unknown user is a failure, and so is a path
that is none. -/
def configureOpening (state : LogState) (homes : Homes) (config : LoggingConfig) (now : Instant)
    (opening : Path → FileTree × Except OpeningFault Path) : Except RefusedConfig LogState := do
  let opened : Option (FileTree × Except OpeningFault Path) ←
    match config.file with
    | none => pure none
    | some file =>
      match homes.expand file with
      | .error fault => throw ⟨fault.failure, state.output.files⟩
      | .ok path =>
        match opening path with
        | (files, .error (.noPath text)) => throw ⟨.file ⟨.nullCharacter, text⟩, files⟩
        | opened => pure (some opened)
  let fileTargets : List LogTarget :=
    match opened with
    | some (_, .ok path) => [.file path config.maxBytes config.backupCount]
    | _ => []
  let targets :=
    if config.includeStderr || fileTargets.isEmpty then fileTargets ++ [.errorOutput]
    else fileTargets
  let files := match opened with | some (files, _) => files | none => state.output.files
  let configured : LogState :=
    { root := state.root.install targets config.leastLevel config.lineFormat,
      output := { state.output with files } }
  match config.file, opened with
  | some file, some (_, .error (.refused reason)) =>
    return configured.report now ⟨.clear, .logFileRefused file.text reason⟩
  | _, _ => return configured

/-- Configure the root logger. Its log file is opened in the tree of files. -/
def configure (state : LogState) (homes : Homes) (config : LoggingConfig) (now : Instant) :
    Except RefusedConfig LogState :=
  state.configureOpening homes config now fun path =>
    (openLog state.output.files path (now.microseconds.fdiv 1000000)).map id
      (·.mapError FileFault.opening)

end LogState

end DriverPolicy
