import DriverPolicy.Policy.Basic
import DriverPolicy.Text.Blank

/-!
# Constructing policies from values

Each policy checks the values it is given, in a fixed order, and refuses the first that is
out of range. A child must be a policy of the right family. Settings of a latency-aware
policy can also be collected one by one, of their own types or as values of any kind; they are
checked when the policy is built.
-/

namespace DriverPolicy

/-- A value that a policy can be constructed from. -/
inductive Value where
  | policy (value : Policy)
  | text (value : String)
  | number (value : Binary)
  | integer (value : Int)
  | duration (value : Duration)
  | absent
deriving DecidableEq, Repr, Inhabited

/-- What a value is called where a policy was expected. -/
def Value.typeName : Value → String
  | policy value => value.name
  | text _ => "str"
  | number _ => "float"
  | integer _ => "int"
  | duration _ => "timedelta"
  | absent => "NoneType"

/-- Why a policy refuses its values. -/
inductive Refusal where
  | wrongChild (owner : String) (wanted : Family) (given : String)
  | blankDataCenter
  | negativeRemoteHosts (given : Int)
  | lowThreshold (given : Amount)
  | scaleNotPositive (given : Duration)
  | negativeRetryPeriod (given : Duration)
  | updateRateNotPositive (given : Duration)
  | negativeMeasurements (given : Int)
  | negativeDelay (given : Int)
  | negativeDelays
  | zeroBaseDelay
  | maxBelowBase (base max : Int)
  | unsuitable (owner : String)
  | stated (reason : String)
deriving DecidableEq, Repr

/-- Whether the range or the type of a value is refused. -/
inductive RefusalKind where
  | value
  | type
deriving DecidableEq, Repr

namespace Refusal

/-- The kind of a refusal; one that is only stated has none. -/
def kind? : Refusal → Option RefusalKind
  | wrongChild .. | unsuitable _ => some .type
  | stated _ => none
  | _ => some .value

/-- The reason in words. -/
def message : Refusal → String
  | wrongChild owner wanted given =>
    s!"{owner} child must be a {wanted.name} policy, got {given}"
  | blankDataCenter => "Null or empty data center specified"
  | negativeRemoteHosts given => s!"used_hosts_per_remote_dc must be >= 0, got {given}"
  | lowThreshold given =>
    s!"Invalid exclusion threshold, must be greater than 1, got {given.text}"
  | scaleNotPositive given => s!"Invalid scale, must be positive, got {given.clockText}"
  | negativeRetryPeriod given => s!"Invalid retry period, must be >= 0, got {given.clockText}"
  | updateRateNotPositive given =>
    s!"Invalid update rate, must be positive, got {given.clockText}"
  | negativeMeasurements given => s!"Invalid minimum measurements, must be >= 0, got {given}"
  | negativeDelay given =>
    s!"Invalid negative delay (got {given}) for ConstantReconnectionPolicy"
  | negativeDelays => "Invalid negative delay"
  | zeroBaseDelay => "Invalid base delay, must be strictly positive"
  | maxBelowBase base max => s!"Invalid max delay ({max}) lower than base delay ({base})"
  | unsuitable owner => s!"{owner} cannot be constructed from these arguments"
  | stated reason => reason

end Refusal

namespace Policy

/-- A value as a child of a family. -/
def requireChild (owner : String) (wanted : Family) : Value → Except Refusal Policy
  | .policy child =>
    if child.suits wanted then .ok child else .error (.wrongChild owner wanted child.name)
  | other => .error (.wrongChild owner wanted other.typeName)

/-- A data-center-aware policy; a named data center may not be blank. -/
def newDataCenterAware (localDataCenter : Option String) (remoteHosts : Int) :
    Except Refusal Policy :=
  if localDataCenter.any fun name => allBlank name.toList then .error .blankDataCenter
  else if remoteHosts < 0 then .error (.negativeRemoteHosts remoteHosts)
  else .ok (.dataCenterAware localDataCenter remoteHosts)

/-- A token-aware policy. -/
def newTokenAware (child : Value) : Except Refusal Policy :=
  (requireChild "TokenAwarePolicy" .loadBalancing child).map .tokenAware

/-- A latency-aware policy. -/
def newLatencyAware (child : Value) (settings : LatencySettings) : Except Refusal Policy := do
  let child ← requireChild "LatencyAwarePolicy" .loadBalancing child
  if settings.threshold.belowOne then .error (.lowThreshold settings.threshold)
  else if settings.scale.microseconds ≤ 0 then .error (.scaleNotPositive settings.scale)
  else if settings.retryPeriod.microseconds < 0 then
    .error (.negativeRetryPeriod settings.retryPeriod)
  else if settings.updateRate.microseconds ≤ 0 then
    .error (.updateRateNotPositive settings.updateRate)
  else if settings.minimumMeasurements < 0 then
    .error (.negativeMeasurements settings.minimumMeasurements)
  else .ok (.latencyAware child settings)

/-- A retry policy that logs the decisions of another. -/
def newLoggingRetry (child : Value) : Except Refusal Policy :=
  (requireChild "LoggingRetryPolicy" .retry child).map .loggingRetry

/-- A reconnection policy with one delay. -/
def newConstant (delay : Int) : Except Refusal Policy :=
  if delay < 0 then .error (.negativeDelay delay) else .ok (.constantReconnection delay)

/-- A reconnection policy with doubling delays. -/
def newExponential (base max : Int) : Except Refusal Policy :=
  if base < 0 || max < 0 then .error .negativeDelays
  else if base = 0 then .error .zeroBaseDelay
  else if max < base then .error (.maxBelowBase base max)
  else .ok (.exponentialReconnection base max)

end Policy

/-- The settings of a latency-aware policy, by name. -/
inductive LatencySetting where
  | threshold
  | scale
  | retryPeriod
  | updateRate
  | minimumMeasurements
deriving DecidableEq, Repr

namespace LatencySetting

/-- The name of the step that gives a setting its value. -/
def stepName : LatencySetting → String
  | threshold => "with_exclusion_threshold"
  | scale => "with_scale"
  | retryPeriod => "with_retry_period"
  | updateRate => "with_update_rate"
  | minimumMeasurements => "with_minimum_measurements"

/-- All settings in the order of the policy's fields. -/
def all : List LatencySetting := [threshold, scale, retryPeriod, updateRate, minimumMeasurements]

/-- The setting with a given step name. -/
def ofStepName? (name : String) : Option LatencySetting := all.find? (·.stepName = name)

/-- Give a setting a value; none if the value does not suit it. -/
def assign (settings : LatencySettings) : LatencySetting → Value → Option LatencySettings
  | threshold, .number x => some { settings with threshold := .real x }
  | threshold, .integer n => some { settings with threshold := .whole n }
  | scale, .duration d => some { settings with scale := d }
  | retryPeriod, .duration d => some { settings with retryPeriod := d }
  | updateRate, .duration d => some { settings with updateRate := d }
  | minimumMeasurements, .integer n => some { settings with minimumMeasurements := n }
  | _, _ => none

end LatencySetting

/-- A latency-aware policy in the making: its child and the settings collected so far. -/
structure LatencyBuilder where
  /-- The child. -/
  child : Value
  /-- The settings so far. -/
  settings : LatencySettings
deriving DecidableEq, Repr

namespace LatencyBuilder

/-- Start with a child and the standard settings. -/
def start (child : Value) : LatencyBuilder := ⟨child, .standard⟩

/-- Give one setting a value. -/
def assign (builder : LatencyBuilder) (setting : LatencySetting) (value : Value) :
    Except Refusal LatencyBuilder :=
  match setting.assign builder.settings value with
  | some settings => .ok { builder with settings }
  | none => .error (.unsuitable "LatencyAwarePolicy")

/-- Build the policy from the settings so far. -/
def build (builder : LatencyBuilder) : Except Refusal Policy :=
  Policy.newLatencyAware builder.child builder.settings

end LatencyBuilder

/-- The kinds of policy that can be constructed by name. -/
inductive PolicyClass where
  | roundRobin
  | dataCenterAware
  | tokenAware
  | latencyAware
  | defaultRetry
  | downgradingRetry
  | fallthroughRetry
  | loggingRetry
  | constantReconnection
  | exponentialReconnection
deriving DecidableEq, Repr

namespace PolicyClass

/-- The short name of the policies of a class. -/
def name : PolicyClass → String
  | roundRobin => "RoundRobinPolicy"
  | dataCenterAware => "DCAwareRoundRobinPolicy"
  | tokenAware => "TokenAwarePolicy"
  | latencyAware => "LatencyAwarePolicy"
  | defaultRetry => "DefaultRetryPolicy"
  | downgradingRetry => "DowngradingConsistencyRetryPolicy"
  | fallthroughRetry => "FallthroughRetryPolicy"
  | loggingRetry => "LoggingRetryPolicy"
  | constantReconnection => "ConstantReconnectionPolicy"
  | exponentialReconnection => "ExponentialReconnectionPolicy"

/-- All classes. -/
def all : List PolicyClass :=
  [roundRobin, dataCenterAware, tokenAware, latencyAware, defaultRetry, downgradingRetry,
   fallthroughRetry, loggingRetry, constantReconnection, exponentialReconnection]

/-- The class with a given name. -/
def ofName? (name : String) : Option PolicyClass := all.find? (·.name = name)

/-- The family of the policies of a class. -/
def family : PolicyClass → Family
  | roundRobin | dataCenterAware | tokenAware | latencyAware => .loadBalancing
  | defaultRetry | downgradingRetry | fallthroughRetry | loggingRetry => .retry
  | constantReconnection | exponentialReconnection => .reconnection

/-- Give the settings of a latency-aware policy their values in the order of its fields. -/
def assignInOrder (builder : LatencyBuilder) : List LatencySetting → List Value →
    Except Refusal LatencyBuilder
  | _, [] => .ok builder
  | setting :: settings, value :: values => do
    assignInOrder (← builder.assign setting value) settings values
  | [], _ :: _ => .error (.unsuitable "LatencyAwarePolicy")

/-- Construct a policy of a class from values in the order of its fields. -/
def construct (c : PolicyClass) (values : List Value) : Except Refusal Policy :=
  match c, values with
  | roundRobin, [] => .ok .roundRobin
  | dataCenterAware, [] => Policy.newDataCenterAware none 0
  | dataCenterAware, [.text name] => Policy.newDataCenterAware (some name) 0
  | dataCenterAware, [.absent] => Policy.newDataCenterAware none 0
  | dataCenterAware, [.text name, .integer hosts] => Policy.newDataCenterAware (some name) hosts
  | dataCenterAware, [.absent, .integer hosts] => Policy.newDataCenterAware none hosts
  | tokenAware, [child] => Policy.newTokenAware child
  | latencyAware, child :: settings => do
    (← assignInOrder (.start child) LatencySetting.all settings).build
  | defaultRetry, [] => .ok .defaultRetry
  | downgradingRetry, [] => .ok .downgradingRetry
  | fallthroughRetry, [] => .ok .fallthroughRetry
  | loggingRetry, [child] => Policy.newLoggingRetry child
  | constantReconnection, [.integer delay] => Policy.newConstant delay
  | exponentialReconnection, [.integer base, .integer max] => Policy.newExponential base max
  | _, _ => .error (.unsuitable c.name)

end PolicyClass

/-- The value of a setting as one that a policy can be constructed from. -/
def LatencySettings.value (settings : LatencySettings) : LatencySetting → Value
  | .threshold =>
    match settings.threshold with
    | .whole n => .integer n
    | .real x => .number x
  | .scale => .duration settings.scale
  | .retryPeriod => .duration settings.retryPeriod
  | .updateRate => .duration settings.updateRate
  | .minimumMeasurements => .integer settings.minimumMeasurements

/-- The child and the values that a latency-aware policy is to be constructed from. No value is looked at
before all of them are given. -/
structure LatencyDraft where
  /-- The child. -/
  child : Value
  /-- The value of each setting. -/
  value : LatencySetting → Value

namespace LatencyDraft

/-- Start with a child and the standard values. -/
def start (child : Value) : LatencyDraft := ⟨child, LatencySettings.standard.value⟩

/-- Give one setting a value in place of the one that it has. -/
def give (draft : LatencyDraft) (setting : LatencySetting) (value : Value) : LatencyDraft :=
  { draft with value := fun other => if other = setting then value else draft.value other }

/-- Construct the policy from the values. -/
def build (draft : LatencyDraft) : Except Refusal Policy :=
  PolicyClass.latencyAware.construct (draft.child :: LatencySetting.all.map draft.value)

end LatencyDraft

end DriverPolicy
