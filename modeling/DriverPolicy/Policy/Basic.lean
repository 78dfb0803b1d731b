import DriverPolicy.Clock.Duration
import DriverPolicy.Json
import DriverPolicy.Text.Quoted

/-!
# Driver policies

A driver has three pluggable decisions: which host gets a query, what happens after a
failure, and how long to wait before a host is contacted again. The policies for one
decision form a family. A policy may wrap a child of its own family. Beside the built-in
policies there are custom ones, of which only what they show is known.

A policy can be shown in two ways: as a term that names its fields, and as a record in which
children are nested and durations are whole milliseconds.
-/

namespace DriverPolicy

/-- The decision that a policy makes. -/
inductive Family where
  | loadBalancing
  | retry
  | reconnection
deriving DecidableEq, Repr

namespace Family

/-- The name of a family. -/
def name : Family → String
  | loadBalancing => "load-balancing"
  | retry => "retry"
  | reconnection => "reconnection"

/-- All families. -/
def all : List Family := [loadBalancing, retry, reconnection]

/-- The family with a given name. -/
def ofName? (name : String) : Option Family := all.find? (·.name = name)

end Family

/-- A number that is given as an integer or as a floating-point value, and stays as it is given. -/
inductive Amount where
  | whole (value : Int)
  | real (value : Binary)
deriving DecidableEq, Repr

namespace Amount

/-- Whether an amount is below one. -/
def belowOne : Amount → Bool
  | whole n => n < 1
  | real x => x.belowOne

/-- The text of an amount. -/
def text : Amount → String
  | whole n => toString n
  | real x => x.text

/-- An amount as JSON. -/
def toJson : Amount → Json
  | whole n => .integer n
  | real x => .number x

end Amount

/-- When hosts count as slow: the threshold as a multiple of the fastest host's latency, how
latencies are averaged, how long a slow host is left out, and when enough has been measured. -/
structure LatencySettings where
  /-- How many times slower than the fastest host a host may be. -/
  threshold : Amount
  /-- How fast old latencies lose weight. -/
  scale : Duration
  /-- How long a slow host is left out. -/
  retryPeriod : Duration
  /-- How often the fastest latency is looked for. -/
  updateRate : Duration
  /-- How many measurements a host needs before it can count as slow. -/
  minimumMeasurements : Int
deriving DecidableEq, Repr

/-- Twice the fastest latency, a scale of 100 ms, ten seconds' exclusion, an update every
100 ms, and fifty measurements. -/
def LatencySettings.standard : LatencySettings where
  threshold := .real (.ofNat 2)
  scale := ⟨100000⟩
  retryPeriod := ⟨10000000⟩
  updateRate := ⟨100000⟩
  minimumMeasurements := 50

/-- A policy that is not built in, as far as it shows. -/
structure CustomPolicy where
  /-- The short name. -/
  name : String
  /-- The family that it says it belongs to. -/
  family : Family
  /-- The families whose policies it is derived from, among which it can be a child. -/
  bases : List Family
  /-- The policy as a term. -/
  term : String
  /-- The policy as a record. -/
  record : Json
deriving DecidableEq, Repr

/-- A policy. The three retry policies without fields are shared: each stands for one object. -/
inductive Policy where
  | roundRobin
  | dataCenterAware (localDataCenter : Option String) (remoteHosts : Int)
  | tokenAware (child : Policy)
  | latencyAware (child : Policy) (settings : LatencySettings)
  | defaultRetry
  | downgradingRetry
  | fallthroughRetry
  | loggingRetry (child : Policy)
  | constantReconnection (delay : Int)
  | exponentialReconnection (base max : Int)
  | custom (policy : CustomPolicy)
deriving DecidableEq, Repr, Inhabited

namespace Policy

/-- The short name of a policy. -/
def name : Policy → String
  | roundRobin => "RoundRobinPolicy"
  | dataCenterAware .. => "DCAwareRoundRobinPolicy"
  | tokenAware _ => "TokenAwarePolicy"
  | latencyAware .. => "LatencyAwarePolicy"
  | defaultRetry => "DefaultRetryPolicy"
  | downgradingRetry => "DowngradingConsistencyRetryPolicy"
  | fallthroughRetry => "FallthroughRetryPolicy"
  | loggingRetry _ => "LoggingRetryPolicy"
  | constantReconnection _ => "ConstantReconnectionPolicy"
  | exponentialReconnection .. => "ExponentialReconnectionPolicy"
  | custom policy => policy.name

/-- The family of a policy. -/
def family : Policy → Family
  | roundRobin | dataCenterAware .. | tokenAware _ | latencyAware .. => .loadBalancing
  | defaultRetry | downgradingRetry | fallthroughRetry | loggingRetry _ => .retry
  | constantReconnection _ | exponentialReconnection .. => .reconnection
  | custom policy => policy.family

/-- Whether a policy is one of a family's policies where a child is wanted. -/
def suits (wanted : Family) : Policy → Bool
  | custom policy => policy.bases.contains wanted
  | builtin => builtin.family = wanted

/-- The wrapped policy, if there is one. -/
def child? : Policy → Option Policy
  | tokenAware child | latencyAware child _ | loggingRetry child => some child
  | _ => none

/-- Whether a policy is one of the shared ones. -/
def isShared : Policy → Bool
  | defaultRetry | downgradingRetry | fallthroughRetry => true
  | _ => false

/-- Whether two policies of independent origin are one object: only shared ones are. -/
def isSameObject (a b : Policy) : Bool := a.isShared && a = b

/-- A name in front of names with the numbers of their repetitions. -/
def repeatedly (name : String) : List (String × Nat) → List (String × Nat)
  | (other, n) :: rest =>
    if other = name then (name, n + 1) :: rest else (name, 1) :: (other, n) :: rest
  | [] => [(name, 1)]

/-- The names of a policy and of those that are wrapped in it, the outermost first, and how
often each stands in a row. -/
def chain : Policy → List (String × Nat)
  | tokenAware child => repeatedly "TokenAwarePolicy" child.chain
  | latencyAware child _ => repeatedly "LatencyAwarePolicy" child.chain
  | loggingRetry child => repeatedly "LoggingRetryPolicy" child.chain
  | other => [(other.name, 1)]

/-- The number of policies that are wrapped in each other. -/
def depth : Policy → Nat
  | tokenAware child | latencyAware child _ | loggingRetry child => child.depth + 1
  | _ => 1

/-- A policy as a term that names its fields. -/
def term : Policy → String
  | roundRobin => "RoundRobinPolicy()"
  | dataCenterAware localDataCenter remoteHosts =>
    let shown := match localDataCenter with | some name => quoted name | none => "None"
    s!"DCAwareRoundRobinPolicy(local_dc={shown}, used_hosts_per_remote_dc={remoteHosts})"
  | tokenAware child =>
    let inner := child.term
    s!"TokenAwarePolicy(child={inner})"
  | latencyAware child settings =>
    let inner := child.term
    let threshold := settings.threshold.text
    let scale := settings.scale.partsText
    let retryPeriod := settings.retryPeriod.partsText
    let updateRate := settings.updateRate.partsText
    let minimum := settings.minimumMeasurements
    s!"LatencyAwarePolicy(child={inner}, exclusion_threshold={threshold}, scale={scale}, " ++
      s!"retry_period={retryPeriod}, update_rate={updateRate}, minimum_measurements={minimum})"
  | defaultRetry => "DefaultRetryPolicy.INSTANCE"
  | downgradingRetry => "DowngradingConsistencyRetryPolicy.INSTANCE"
  | fallthroughRetry => "FallthroughRetryPolicy.INSTANCE"
  | loggingRetry child =>
    let inner := child.term
    s!"LoggingRetryPolicy(child={inner})"
  | constantReconnection delay => s!"ConstantReconnectionPolicy(delay_ms={delay})"
  | exponentialReconnection base max =>
    s!"ExponentialReconnectionPolicy(base_delay_ms={base}, max_delay_ms={max})"
  | custom policy => policy.term

/-- A policy as a record of its name and its fields. -/
def describe : Policy → Json
  | dataCenterAware localDataCenter remoteHosts =>
    .object [("policy", .text "DCAwareRoundRobinPolicy"),
      ("local_dc", Json.optionalText localDataCenter),
      ("used_hosts_per_remote_dc", .integer remoteHosts)]
  | tokenAware child =>
    .object [("policy", .text "TokenAwarePolicy"), ("child", child.describe)]
  | latencyAware child settings =>
    .object [("policy", .text "LatencyAwarePolicy"), ("child", child.describe),
      ("exclusion_threshold", settings.threshold.toJson),
      ("scale", .integer settings.scale.milliseconds),
      ("retry_period", .integer settings.retryPeriod.milliseconds),
      ("update_rate", .integer settings.updateRate.milliseconds),
      ("minimum_measurements", .integer settings.minimumMeasurements)]
  | loggingRetry child =>
    .object [("policy", .text "LoggingRetryPolicy"), ("child", child.describe)]
  | constantReconnection delay =>
    .object [("policy", .text "ConstantReconnectionPolicy"), ("delay_ms", .integer delay)]
  | exponentialReconnection base max =>
    .object [("policy", .text "ExponentialReconnectionPolicy"), ("base_delay_ms", .integer base),
      ("max_delay_ms", .integer max)]
  | roundRobin => .object [("policy", .text "RoundRobinPolicy")]
  | defaultRetry => .object [("policy", .text "DefaultRetryPolicy")]
  | downgradingRetry => .object [("policy", .text "DowngradingConsistencyRetryPolicy")]
  | fallthroughRetry => .object [("policy", .text "FallthroughRetryPolicy")]
  | custom policy => policy.record

end Policy

end DriverPolicy
