import DriverPolicy.Registry.Kind

/-!
# Constructors

A constructor has a signature and builds a policy from values that fit it. There are two
forms. A plain one hands all its values to a function. A stepwise one drafts a latency-aware
policy with its first value as the child and gives each further value to one setting; a
number of milliseconds becomes a duration on the way. What a setting is given in general may
be any function of the value, and it replaces what the setting was given before.
-/

namespace DriverPolicy

/-- Why a constructor builds nothing: its values are refused, or a duration has too many days. -/
inductive ConstructionFault where
  | refused (refusal : Refusal)
  | overflow (excess : DurationOverflow)
deriving DecidableEq, Repr

/-- One parameter of a stepwise constructor and the setting that it gives a value. -/
structure SettingStep where
  /-- The kind of the parameter. -/
  kind : ParameterKind
  /-- The setting. -/
  setting : LatencySetting
  /-- Whether the value is a number of milliseconds. -/
  inMilliseconds : Bool
deriving DecidableEq, Repr

namespace SettingStep

/-- The value that the setting is given. -/
def convert (step : SettingStep) (value : Value) : Except ConstructionFault Value :=
  if step.inMilliseconds then
    match value with
    | .integer n =>
      match Duration.ofMilliseconds n with
      | .ok duration => .ok (.duration duration)
      | .error overflow => .error (.overflow overflow)
    | _ => .error (.refused (.unsuitable step.setting.stepName))
  else .ok value

end SettingStep

/-- One parameter of a positional constructor: its kind, the setting that it gives a value, and what the
setting is given for the value of the parameter. -/
structure PositionalStep where
  /-- The kind of the parameter. -/
  kind : ParameterKind
  /-- The setting. -/
  setting : LatencySetting
  /-- The value of the setting for that of the parameter. -/
  convert : Value → Except ConstructionFault Value

/-- A step that gives a value as it is or as a duration. -/
def SettingStep.positional (step : SettingStep) : PositionalStep :=
  ⟨step.kind, step.setting, step.convert⟩

/-- A constructor that drafts a latency-aware policy: the first value is the child, and each further one is
for a step. -/
structure PositionalConstructor where
  /-- The kind of the child. -/
  first : ParameterKind
  /-- The steps in order. -/
  steps : List PositionalStep

namespace PositionalConstructor

/-- The kinds of value that a positional constructor takes. -/
def signature (constructor : PositionalConstructor) : Signature :=
  constructor.first :: constructor.steps.map PositionalStep.kind

/-- Give the settings of steps their values, one after the other. -/
def giveAll (draft : LatencyDraft) : List PositionalStep → List Value →
    Except ConstructionFault LatencyDraft
  | step :: steps, value :: values => do
    giveAll (draft.give step.setting (← step.convert value)) steps values
  | [], [] => .ok draft
  | _, _ => .error (.refused (.unsuitable "LatencyAwarePolicy"))

/-- Build a policy from a child and one value for each step. -/
def build (constructor : PositionalConstructor) : List Value → Except ConstructionFault Policy
  | child :: values => do
    let draft ← giveAll (.start child) constructor.steps values
    draft.build.mapError .refused
  | [] => .error (.refused (.unsuitable "LatencyAwarePolicy"))

end PositionalConstructor

/-- A way to build a policy from values. -/
inductive Constructor where
  | plain (signature : Signature) (make : List Value → Except Refusal Policy)
  | stepwise (first : ParameterKind) (steps : List SettingStep)

namespace Constructor

/-- The kinds of value that a constructor takes. -/
def signature : Constructor → Signature
  | plain signature _ => signature
  | stepwise first steps => first :: steps.map SettingStep.kind

/-- Build a policy from values that fit the signature. -/
def build : Constructor → List Value → Except ConstructionFault Policy
  | plain _ make, values => (make values).mapError .refused
  | stepwise first steps, values =>
    PositionalConstructor.build ⟨first, steps.map SettingStep.positional⟩ values

/-- The plain constructor of a class of policies. -/
def ofClass (policyClass : PolicyClass) (signature : Signature) : Constructor :=
  plain signature policyClass.construct

end Constructor

end DriverPolicy
