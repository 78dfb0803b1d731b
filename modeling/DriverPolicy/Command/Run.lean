import DriverPolicy.Command.Line
import DriverPolicy.Command.Listing
import DriverPolicy.Command.Output
import DriverPolicy.Expression.Outline
import DriverPolicy.Expression.Record
import DriverPolicy.Logging.Root
import DriverPolicy.Policy.Schedule
import DriverPolicy.Resolution.Resolver
import DriverPolicy.Settings.Loading

/-!
# Running commands

A run reads its command line, gets the configuration, configures the root logger, and carries
out the command. Only then are the command's own arguments looked at, so a configuration that
cannot be used is reported before a fault in them. A run ends with an exit code, with a faulty
command line, or with a failure that no code stands for.
-/

namespace DriverPolicy

/-- A result in the form in which it is displayed. -/
inductive Display where
  | callRecord (call : Call)
  | policyRecord (policy : Policy)
  | policyTerm (policy : Policy)

/-- What of a run depends on the interpreter and how much of its stack is in use. -/
structure Interpreter where
  /-- Whether the stack is deep enough for a result to be displayed. -/
  displays : Display → Bool
  /-- The traces of the stack that are shown with a log record that is lost, by the number of those
  that were lost before. -/
  traces : Nat → StackTraces

/-- What a run has to do with: the files, the environment, the time, the namespace of resolvers
that are ready to be used instead of configured ones, and the interpreter. -/
structure Surroundings where
  /-- The files. -/
  files : FileTree
  /-- The environment. -/
  environment : Environment
  /-- The time. -/
  now : Instant
  /-- The namespace of ready resolvers. -/
  readyNamespace : Option String
  /-- The interpreter. -/
  interpreter : Interpreter

/-- A failure that no exit code stands for. -/
inductive UnhandledFailure where
  | reading (fault : ReadingFault)
  | resolution (failure : ResolutionFailure)
  | config (failure : ConfigFailure)
  | scheduleTooLong
deriving DecidableEq, Repr

/-- The message of a failure. -/
def UnhandledFailure.message : UnhandledFailure → String
  | reading fault => (ResolutionFailure.ofReading fault).message
  | resolution failure => failure.message
  | config failure => failure.message
  | scheduleTooLong =>
    "Stop argument for islice() must be None or an integer: 0 <= x <= sys.maxsize."

/-- How a run ends. -/
inductive RunEnd where
  | exit (code : ExitCode)
  | line (reason : LineEnd)
  | failure (cause : UnhandledFailure)
deriving DecidableEq, Repr

/-- The end of a run whose command line gives no command. -/
def RunEnd.ofLine : LineEnd → RunEnd
  | .file fault => failure (.config (.file fault))
  | reason => line reason

/-- The number that a run ends with: two stands for a faulty command line, one for a failure. -/
def RunEnd.number : RunEnd → Nat
  | exit code => code.number
  | line (.fault _) => 2
  | line _ => 0
  | failure _ => 1

/-- What a run has brought about so far: what was logged, what was printed, and the error that
was printed last. -/
structure RunState where
  /-- The root logger, the files and the logged part of the error output. -/
  log : LogState
  /-- The standard output. -/
  printed : String
  /-- The error message, which ends the error output. -/
  errorMessage : String

/-- The error output. -/
def RunState.errors (state : RunState) : String := state.log.output.errors ++ state.errorMessage

/-- A run that may end early. -/
abbrev Running (α : Type) := ExceptT RunEnd (StateM RunState) α

namespace Running

variable {α : Type}

/-- Print a line without control sequences. -/
def echo (line : String) : Running Unit :=
  modify fun state => { state with printed := state.printed ++ withoutControls line ++ "\n" }

/-- Print a JSON value. -/
def echoJson (value : Json) : Running Unit :=
  modify fun state => { state with printed := state.printed ++ value.printed }

/-- Print an error and end with a code. -/
def stop (text : String) (code : ExitCode) : Running α := do
  modify fun state => { state with errorMessage := text }
  throw (.exit code)

/-- End with an error message. -/
def fail (message : String) (code : ExitCode) (json : Bool) : Running α :=
  stop (errorText message code json) code

/-- End because an expression does not resolve. -/
def failResolving (fault : ResolutionFault) (json : Bool) : Running α :=
  stop (fault.errorText json) fault.exitCode

/-- Log what was reported. -/
def logAll (now : Instant) (entries : List Entry) : Running Unit :=
  modify fun state => { state with log := state.log.reportAll now entries }

end Running

/-- End because a result is nested too deeply for the stack, if it is. -/
def Running.checkDisplay (surroundings : Surroundings) (display : Display) (json : Bool) :
    Running Unit :=
  if surroundings.interpreter.displays display then pure ()
  else Running.fail "Result is nested too deeply to display" .generalError json

/-- The settings that the options of a command line override. -/
def GlobalOptions.overrides (options : GlobalOptions) : SettingSource :=
  { SettingSource.empty with
    defaultNamespace := options.namespaceName
    level := options.logLevel
    file := options.logFile
    format := if options.logJson then some "json" else none }

/-- The request for the configuration of a command line. -/
def GlobalOptions.request (options : GlobalOptions) (environment : Environment) :
    ConfigRequest where
  path := options.config
  fallback := standardConfigPath environment.homes
  overrides := options.overrides
  environment := environment
  strict := true

/-- Get the configuration and log what getting it reported. -/
def Running.configuration (surroundings : Surroundings) (options : GlobalOptions) :
    Running Config := do
  let request := options.request surroundings.environment
  let (result, loading) := (getConfig surroundings.files request).run.run .empty
  Running.logAll surroundings.now (loading.events.map fun event => ⟨.clear, event⟩)
  match result with
  | .ok config => return config
  | .error failure =>
    match failure with
    | .setting _ | .noUserName | .file ⟨.nullCharacter, _⟩ =>
      Running.fail s!"Invalid configuration: {failure.message}" .configError false
    | .unreadable _ => Running.fail failure.message .configError false
    | _ => throw (.failure (.config failure))

/-- Configure the root logger. -/
def Running.configureLog (surroundings : Surroundings) (config : Config) : Running Unit := do
  let state ← get
  match state.log.configure surroundings.environment.homes config.logging surroundings.now with
  | .error ⟨failure, files⟩ =>
    set { state with log := state.log.withFiles files }
    throw (.failure (.config failure))
  | .ok log => set { state with log }
  let started := Event.starting config.namespaceName config.logging.level
  Running.logAll surroundings.now [⟨.clear, started⟩]

namespace Command

/-- Print the tree of an expression. -/
def runParse (surroundings : Surroundings) (expression : String) (json : Bool) : Running Unit := do
  match Call.parse expression with
  | .error (.expression fault) => Running.failResolving (.expression fault) json
  | .error fault => throw (.failure (.reading fault))
  | .ok call =>
    Running.logAll surroundings.now [⟨.clear, .parsed expression call.name call.depth⟩]
    if json then
      Running.checkDisplay surroundings (.callRecord call) true
      Running.echoJson call.toJson
    else
      for line in call.outline do Running.echo line

/-- The first delays of a policy. -/
def delaysOf (policy : Policy) (count : Option Nat) : Running (Option (List Int)) :=
  match count, policy.schedule? with
  | some n, some schedule =>
    match schedule.take? n with
    | some (delays, _) => return some delays
    | none => throw (.failure .scheduleTooLong)
  | _, _ => return none

/-- A resolved policy as JSON. -/
def resolvedJson (family : Family) (expression : String) (policy : Policy)
    (delays : Option (List Int)) : Json :=
  .object ([("family", .text family.name), ("expression", .text expression),
      ("policy", policy.describe)] ++
    match delays with
    | some delays => [("schedule", .list (delays.map .integer))]
    | none => [])

/-- Print the policy that an expression describes. -/
def runResolve (surroundings : Surroundings) (namespaceName : String) (family : Family)
    (expression : String) (json : Bool) (count : Option Nat) : Running Unit := do
  if count.isSome && family ≠ .reconnection then
    throw (.line (.fault .scheduleWithoutReconnection))
  let resolver : Resolver := ⟨family, .standard, namespaceName⟩
  let (result, entries) := Run.start (resolver.resolve expression)
  Running.logAll surroundings.now entries
  match result with
  | .error (.fault fault) => Running.failResolving fault json
  | .error failure => throw (.failure (.resolution failure))
  | .ok policy =>
    let delays ← delaysOf policy count
    if json then
      Running.checkDisplay surroundings (.policyRecord policy) true
      Running.echoJson (resolvedJson family expression policy delays)
    else
      Running.checkDisplay surroundings (.policyTerm policy) false
      Running.echo policy.term
      if let some delays := delays then
        Running.echo ("Schedule (ms): " ++ ", ".intercalate (delays.map toString))

/-- Print the policies of a registry. -/
def runPolicies (registry : Registry) (family : Option Family) (json : Bool) : Running Unit := do
  let types := match family with
    | some family => registry.typesOf family
    | none => registry.types
  if json then Running.echoJson (listingJson types)
  else for line in listingTable types do Running.echo line

/-- Carry a command out with names in a namespace. -/
def run (surroundings : Surroundings) (namespaceName : String) : Command → Running Unit
  | parse expression json => runParse surroundings expression json
  | resolve family expression json schedule =>
    runResolve surroundings namespaceName family expression json schedule
  | policies family json => runPolicies .standard family json

end Command

/-- Run a command line. -/
def runArguments (surroundings : Surroundings) (arguments : List String) : Running Unit := do
  let line ← ExceptT.mk (pure ((CommandLine.read surroundings.files arguments).mapError .ofLine))
  let config ← Running.configuration surroundings line.options
  Running.configureLog surroundings config
  let command ← ExceptT.mk (pure ((Command.read line.name line.arguments).mapError .line))
  let namespaceName := surroundings.readyNamespace.getD config.namespaceName
  command.run surroundings namespaceName

/-- What a run starts with: a root logger without handlers, and nothing printed. -/
def RunState.start (surroundings : Surroundings) : RunState :=
  ⟨⟨.fresh, ⟨surroundings.files, [], surroundings.interpreter.traces⟩⟩, "", ""⟩

/-- The outcome of a command line: how the run ends, and what it has brought about. -/
def outcomeOf (surroundings : Surroundings) (arguments : List String) : RunEnd × RunState :=
  let (result, state) := (runArguments surroundings arguments).run.run (.start surroundings)
  match result with
  | .ok () => (.exit .success, state)
  | .error reason => (reason, state)

end DriverPolicy
