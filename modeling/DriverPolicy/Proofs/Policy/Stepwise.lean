import DriverPolicy.Proofs.Policy.Acceptance
import Mathlib.Data.List.Induction
import Mathlib.Logic.Function.Basic

/-!
# Building latency-aware policies step by step

A latency-aware policy in the making is given values for its settings one by one, and policies are
built of it at any time, before and after builds that fail. It holds for each setting the value that
was given last, and otherwise the standard one. So a build does what constructing the policy at once
from these values does; that a setting was given other values before, or that there were other
builds, makes no difference.
-/

namespace DriverPolicy

/-- An amount as a value that a policy can be constructed from. -/
def Amount.asValue : Amount → Value
  | whole n => .integer n
  | real x => .number x

namespace LatencySetting

/-- The values of a setting. -/
def Content : LatencySetting → Type
  | threshold => Amount
  | scale | retryPeriod | updateRate => Duration
  | minimumMeasurements => Int

/-- All settings are listed. -/
theorem mem_all (setting : LatencySetting) : setting ∈ all := by
  cases setting <;> decide

/-- The value of a setting as one that a policy can be constructed from. -/
def asValue : (setting : LatencySetting) → setting.Content → Value
  | threshold, amount => Amount.asValue amount
  | scale, duration => .duration duration
  | retryPeriod, duration => .duration duration
  | updateRate, duration => .duration duration
  | minimumMeasurements, number => .integer number

end LatencySetting

namespace LatencySettings

/-- The value of a setting. -/
def content (settings : LatencySettings) : (setting : LatencySetting) → setting.Content
  | .threshold => settings.threshold
  | .scale => settings.scale
  | .retryPeriod => settings.retryPeriod
  | .updateRate => settings.updateRate
  | .minimumMeasurements => settings.minimumMeasurements

/-- Settings with given values. -/
def ofContent (content : (setting : LatencySetting) → setting.Content) : LatencySettings where
  threshold := content .threshold
  scale := content .scale
  retryPeriod := content .retryPeriod
  updateRate := content .updateRate
  minimumMeasurements := content .minimumMeasurements

/-- Settings have the values that they are put together from. -/
@[simp] theorem content_ofContent (content : (setting : LatencySetting) → setting.Content) :
    (ofContent content).content = content := by
  funext setting
  cases setting <;> rfl

/-- Settings are put together from their values. -/
@[simp] theorem ofContent_content (settings : LatencySettings) :
    ofContent settings.content = settings := rfl

end LatencySettings

/-- A setting takes its own values and no others, and leaves the other settings as they are. -/
theorem LatencySetting.assign_eq_some_iff {settings after : LatencySettings}
    {setting : LatencySetting} {value : Value} :
    setting.assign settings value = some after ↔ ∃ content, value = setting.asValue content ∧
      after = .ofContent (Function.update settings.content setting content) := by
  constructor
  · fun_cases assign settings setting value <;> intro h
    case case1 x => exact ⟨Amount.real x, rfl, (Option.some.inj h).symm⟩
    case case2 n => exact ⟨Amount.whole n, rfl, (Option.some.inj h).symm⟩
    case case7 => contradiction
    all_goals exact ⟨_, rfl, (Option.some.inj h).symm⟩
  · rintro ⟨content, rfl, rfl⟩
    cases setting with
    | threshold => cases content <;> rfl
    | _ => rfl

/-- A policy in the making takes the values of a setting. -/
theorem LatencyBuilder.assign_asValue (builder : LatencyBuilder) (setting : LatencySetting)
    (content : setting.Content) : builder.assign setting (setting.asValue content) =
      .ok { builder with
        settings := .ofContent (Function.update builder.settings.content setting content) } := by
  rw [assign, LatencySetting.assign_eq_some_iff.mpr ⟨content, rfl, rfl⟩]

namespace PolicyClass

/-- Values of the first settings are given to these, and the others keep theirs. -/
theorem assignInOrder_append (builder : LatencyBuilder) (first rest : List LatencySetting)
    (content : (setting : LatencySetting) → setting.Content) :
    assignInOrder builder (first ++ rest) (first.map fun setting =>
      setting.asValue (content setting)) = .ok ⟨builder.child, .ofContent fun setting =>
        if setting ∈ first then content setting else builder.settings.content setting⟩ := by
  induction first generalizing builder with
  | nil => cases rest <;> rfl
  | cons setting first ih =>
    rw [List.cons_append, List.map_cons, assignInOrder, LatencyBuilder.assign_asValue, ok_bind, ih]
    congr 3
    funext other
    rw [LatencySettings.content_ofContent]
    by_cases heq : other = setting
    · subst heq
      simp
    · simp [heq]

/-- A latency-aware policy is constructed from a child and values of the first settings; the others
have their standard values. -/
theorem construct_latencyAware (child : Value) {first rest : List LatencySetting}
    (h : LatencySetting.all = first ++ rest)
    (content : (setting : LatencySetting) → setting.Content) :
    latencyAware.construct (child :: first.map fun setting => setting.asValue (content setting)) =
      Policy.newLatencyAware child (.ofContent fun setting =>
        if setting ∈ first then content setting else LatencySettings.standard.content setting) := by
  rw [construct, h, assignInOrder_append, ok_bind]
  rfl

end PolicyClass

/-- What can be done with a latency-aware policy in the making. -/
inductive LatencyStep where
  | give (setting : LatencySetting) (content : setting.Content)
  | build

namespace LatencyStep

/-- The value that steps give to a setting last. -/
def lastGiven? (steps : List LatencyStep) (setting : LatencySetting) : Option setting.Content :=
  steps.reverse.findSome? fun
    | give other content => if h : other = setting then some (h ▸ content) else none
    | build => none

/-- The value that a setting has after steps: the one that was given last, or the standard one. -/
def effective (steps : List LatencyStep) (setting : LatencySetting) : setting.Content :=
  (lastGiven? steps setting).getD (LatencySettings.standard.content setting)

/-- Giving a value to one setting changes what that setting has. -/
theorem effective_concat_give (steps : List LatencyStep) (setting : LatencySetting)
    (content : setting.Content) : effective (steps ++ [.give setting content]) =
      Function.update (effective steps) setting content := by
  funext other
  by_cases heq : other = setting
  · subst heq
    simp [effective, lastGiven?]
  · simp [effective, lastGiven?, heq, Ne.symm heq]

/-- A build changes no setting. -/
theorem effective_concat_build (steps : List LatencyStep) :
    effective (steps ++ [.build]) = effective steps := by
  funext setting
  simp [effective, lastGiven?]

end LatencyStep

/-- A latency-aware policy in the making and what was built of it, the first build first. -/
structure LatencySession where
  /-- The policy in the making. -/
  builder : LatencyBuilder
  /-- What the builds led to. -/
  built : List (Except Refusal Policy)

namespace LatencySession

/-- The session after a step; one that fails leaves it as it was. -/
def advance (session : LatencySession) : LatencyStep → LatencySession
  | .give setting content =>
    match session.builder.assign setting (setting.asValue content) with
    | .ok builder => { session with builder }
    | .error _ => session
  | .build => { session with built := session.built ++ [session.builder.build] }

/-- The session after steps that start with a child and the standard settings. -/
def after (child : Value) (steps : List LatencyStep) : LatencySession :=
  steps.foldl advance ⟨.start child, []⟩

/-- The last step comes after the others. -/
theorem after_concat (child : Value) (steps : List LatencyStep) (step : LatencyStep) :
    after child (steps ++ [step]) = (after child steps).advance step :=
  List.foldl_concat ..

/-- The policy in the making has its child and, for each setting, the value that was given last. -/
theorem builder_after (child : Value) (steps : List LatencyStep) :
    (after child steps).builder = ⟨child, .ofContent (LatencyStep.effective steps)⟩ := by
  induction steps using List.reverseRecOn with
  | nil => rfl
  | append_singleton steps step ih =>
    rw [after_concat]
    cases step with
    | give setting content =>
      rw [advance, LatencyBuilder.assign_asValue, LatencyStep.effective_concat_give, ih,
        LatencySettings.content_ofContent]
    | build => rw [advance, LatencyStep.effective_concat_build, ih]

/-- Steps do the same with the same policy in the making. -/
theorem builder_after_congr {child : Value} {steps others : List LatencyStep}
    (h : (after child others).builder = (after child steps).builder) (more : List LatencyStep) :
    (after child (others ++ more)).builder = (after child (steps ++ more)).builder := by
  induction more using List.reverseRecOn with
  | nil => simpa using h
  | append_singleton more step ih =>
    rw [← List.append_assoc, ← List.append_assoc, after_concat, after_concat]
    cases step with
    | give setting content =>
      rw [advance, advance, LatencyBuilder.assign_asValue, LatencyBuilder.assign_asValue, ih]
    | build => exact ih

/-- What a build leads to comes after what was built before. -/
theorem built_after_build (child : Value) (steps : List LatencyStep) :
    (after child (steps ++ [.build])).built = (after child steps).built ++
      [Policy.newLatencyAware child (.ofContent (LatencyStep.effective steps))] := by
  rw [after_concat, advance, builder_after]
  rfl

/-- What was built stays where it is. -/
theorem built_prefix_after (child : Value) (steps more : List LatencyStep) :
    (after child steps).built <+: (after child (steps ++ more)).built := by
  induction more using List.reverseRecOn with
  | nil => simp
  | append_singleton more step ih =>
    rw [← List.append_assoc, after_concat]
    cases step with
    | give setting content =>
      rw [advance, LatencyBuilder.assign_asValue]
      exact ih
    | build => exact ih.trans (List.prefix_append _ _)

/-- Giving a value to a setting of a policy in the making succeeds, and what it returns is the
policy in the making that the session goes on with. A build does what constructing a policy at once
does, from the child and the values that were given last, with the standard value where none was
given; the last of these may be left to the construction. A build leaves the policy in the making as
it is, so what is built later is the same without it, whether or not it fails, and what was built
stays. -/
theorem latency_session (child : Value) (steps : List LatencyStep) :
    (∀ (setting : LatencySetting) (content : setting.Content), ∃ returned,
      (after child steps).builder.assign setting (setting.asValue content) = .ok returned ∧
        (after child (steps ++ [.give setting content])).builder = returned) ∧
    (∃ result, (after child (steps ++ [.build])).built = (after child steps).built ++ [result] ∧
      result = Policy.newLatencyAware child (.ofContent (LatencyStep.effective steps)) ∧
      ∀ first rest, LatencySetting.all = first ++ rest →
        (∀ setting ∈ rest, LatencyStep.lastGiven? steps setting = none) →
          result = PolicyClass.latencyAware.construct (child :: first.map fun setting =>
            setting.asValue (LatencyStep.effective steps setting))) ∧
    (∀ more, (after child (steps ++ [.build] ++ more)).builder =
      (after child (steps ++ more)).builder) ∧
    ∀ more, (after child steps).built <+: (after child (steps ++ more)).built := by
  refine ⟨fun setting content => ⟨_, LatencyBuilder.assign_asValue _ setting content, ?_⟩,
    ⟨_, built_after_build child steps, rfl, fun first rest hall hrest => ?_⟩, fun more => ?_,
    built_prefix_after child steps⟩
  · rw [after_concat, advance, LatencyBuilder.assign_asValue]
  · rw [PolicyClass.construct_latencyAware child hall]
    congr 2
    funext setting
    split
    · rfl
    · next hnot =>
      have hmem : setting ∈ first ++ rest := hall ▸ LatencySetting.mem_all setting
      have hnone := hrest setting ((List.mem_append.mp hmem).resolve_left hnot)
      rw [LatencyStep.effective, hnone, Option.getD_none]
  · refine builder_after_congr ?_ more
    rw [after_concat, advance]

/-- A threshold that is too low is refused, and the next build has the threshold that was given
after that. -/
theorem latency_session_repaired :
    let steps : List LatencyStep :=
      [.give .threshold (.whole 0), .build, .give .threshold (.whole 3)]
    (after (.policy .roundRobin) (steps ++ [.build])).built =
      [.error (.lowThreshold (.whole 0)),
        PolicyClass.latencyAware.construct [.policy .roundRobin, .integer 3]] := by
  intro steps
  obtain ⟨result, hbuilt, -, hresult⟩ := (latency_session (.policy .roundRobin) steps).2.1
  rw [hbuilt, hresult [.threshold] _ rfl (by decide)]
  rfl

end LatencySession

end DriverPolicy
