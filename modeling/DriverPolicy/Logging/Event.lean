import DriverPolicy.Json

/-!
# Events

What the library reports while it works. Each event has a channel, a level of severity and a
message, which is logged as a template and the values that fill it; an event is reported when it
happens, in order.
-/

namespace DriverPolicy

/-- The levels of severity by which records are filtered. -/
structure Level where
  /-- The rank: the higher, the more severe. -/
  rank : Int
deriving DecidableEq, Repr

namespace Level

/-- Detail for finding faults. -/
def debug : Level := ⟨10⟩
/-- News of ordinary work. -/
def info : Level := ⟨20⟩
/-- Something unexpected that does not stop the work. -/
def warning : Level := ⟨30⟩
/-- A failure. -/
def error : Level := ⟨40⟩

/-- The name of a level; any other rank is shown as a number. -/
def name (level : Level) : String :=
  match level.rank with
  | 0 => "NOTSET"
  | 10 => "DEBUG"
  | 20 => "INFO"
  | 30 => "WARNING"
  | 40 => "ERROR"
  | 50 => "CRITICAL"
  | rank => s!"Level {rank}"

end Level

/-- What happened. -/
inductive Event where
  | parsed (expression root : String) (depth : Nat)
  | constructed (name : String) (kinds : List String)
  | resolved (expression policy : String)
  | registryBuilt (count : Nat)
  | configMissing (path : String)
  | configLoaded (path : String)
  | configIgnored (reason : String)
  | settingFrom (key source : String)
  | logFileRefused (path reason : String)
  | starting (namespaceName level : String)
deriving DecidableEq, Repr

namespace Event

/-- The channel that an event is reported on. -/
def channel : Event → String
  | parsed .. => "cqlpolicy.expressions.parser"
  | constructed .. | registryBuilt _ => "cqlpolicy.registry.registry"
  | resolved .. => "cqlpolicy.resolver"
  | configMissing _ | configLoaded _ => "cqlpolicy.config.toml_parser"
  | configIgnored _ | settingFrom .. => "cqlpolicy.config.loader"
  | logFileRefused .. => "cqlpolicy.logging.config"
  | starting .. => "cqlpolicy.cli"

/-- The severity of an event. -/
def level : Event → Level
  | configIgnored _ | logFileRefused .. => .warning
  | _ => .debug

/-- The message of an event. -/
def message : Event → String
  | parsed expression root depth => s!"Parsed '{expression}' into {root} (depth {depth})"
  | constructed name kinds =>
    let listed := ", ".intercalate kinds
    s!"Constructed {name}({listed})"
  | resolved expression policy => s!"Resolved '{expression}' to {policy}"
  | registryBuilt count => s!"Built policy registry with {count} type(s)"
  | configMissing path => s!"No config file at {path}"
  | configLoaded path => s!"Loaded config from {path}"
  | configIgnored reason => s!"Ignoring config file: {reason}"
  | settingFrom key source => s!"Config {key} set from {source}"
  | logFileRefused path reason => s!"Could not open log file {path}, logging to stderr: {reason}"
  | starting namespaceName level =>
    s!"cqlpolicy starting: default_namespace={namespaceName}, log_level={level}"

/-- The template of the message of an event. -/
def template : Event → String
  | parsed .. => "Parsed '%s' into %s (depth %d)"
  | constructed .. => "Constructed %s(%s)"
  | resolved .. => "Resolved '%s' to %s"
  | registryBuilt _ => "Built policy registry with %d type(s)"
  | configMissing _ => "No config file at %s"
  | configLoaded _ => "Loaded config from %s"
  | configIgnored _ => "Ignoring config file: %s"
  | settingFrom .. => "Config %s set from %s"
  | logFileRefused .. => "Could not open log file %s, logging to stderr: %s"
  | starting .. => "cqlpolicy starting: default_namespace=%s, log_level=%s"

/-- The values that fill the template; a path and a reason count as their texts. -/
def values : Event → List Json
  | parsed expression root depth => [.text expression, .text root, .integer depth]
  | constructed name kinds => [.text name, .text (", ".intercalate kinds)]
  | resolved expression policy => [.text expression, .text policy]
  | registryBuilt count => [.integer count]
  | configMissing path | configLoaded path => [.text path]
  | configIgnored reason => [.text reason]
  | settingFrom key source => [.text key, .text source]
  | logFileRefused path reason => [.text path, .text reason]
  | starting namespaceName level => [.text namespaceName, .text level]

end Event

end DriverPolicy
