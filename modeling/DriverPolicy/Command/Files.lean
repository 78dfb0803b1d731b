import DriverPolicy.Command.Run

/-!
# The files of a run

A run reads its configuration file and writes to its log file, whose backups it may rename.
Which files these are follows from the arguments, the environment and the configuration, so
they can be known before the run.
-/

namespace DriverPolicy

/-- The configuration file of a command line. -/
def configFile? (surroundings : Surroundings) (arguments : List String) : Option Path := do
  let line ← (CommandLine.read surroundings.files arguments).toOption
  let fallback := standardConfigPath surroundings.environment.homes
  match line.options.config with
  | some path => return path
  | none => (configPath surroundings.environment fallback).toOption

/-- The log file of a command line, once its configuration file is at hand. -/
def logFile? (surroundings : Surroundings) (arguments : List String) : Option Path := do
  let line ← (CommandLine.read surroundings.files arguments).toOption
  let request := line.options.request surroundings.environment
  let config ← ((getConfig surroundings.files request).run.run .empty).1.toOption
  (surroundings.environment.homes.expand (← config.logging.file)).toOption

/-- The names of the environment variables that a run reads. -/
def variableNames : List String :=
  ["CONFIG_PATH", "DEFAULT_NAMESPACE", "LOG_LEVEL", "LOG_FILE", "LOG_FORMAT",
   "LOG_INCLUDE_STDERR", "LOG_MAX_BYTES", "LOG_BACKUP_COUNT"].map
    fun key => Environment.standardLead ++ key

/-- What is shown when help is asked for. -/
def helpText : String :=
  "Usage: cqlpolicy [OPTIONS] COMMAND [ARGS]...\n\n" ++
  "Build driver policies from configuration expressions.\n\n" ++
  "Commands:\n" ++
  "  parse EXPRESSION [--json]\n" ++
  "  resolve FAMILY EXPRESSION [--json] [--schedule N]\n" ++
  "  policies [--family FAMILY] [--json]\n"

/-- The whole text of the error output. -/
def errorOutput (ending : RunEnd) (state : RunState) : String :=
  match ending with
  | .line (.fault fault) => state.errors ++ fault.errorText ++ "\n"
  | .failure cause => state.errors ++ cause.message ++ "\n"
  | _ => state.errors

/-- The whole text of the standard output. -/
def standardOutput (ending : RunEnd) (state : RunState) : String :=
  match ending with
  | .line .help => helpText
  | .line .version => "cqlpolicy\n"
  | _ => state.printed

end DriverPolicy
