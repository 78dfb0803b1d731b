import DriverPolicy.Proofs.Number.Rounding
import DriverPolicy.Proofs.Number.Value
import DriverPolicy.Proofs.Policy.Stepwise

/-!
# The rules of latency-aware policies

A latency-aware policy has a load-balancing child and settings in their ranges. Its check refuses a
threshold that is below one. What is not a number is below nothing and gets through, although it is
not at least one either; a policy in the making has such a threshold only if it was given one.
-/

namespace DriverPolicy

/-- Whether a value is at least one; a value that is not a number is not. -/
def Binary.AtLeastOne : Binary → Prop
  | finite negative m p => 1 ≤ (finite negative m p).toRat
  | infinite negative => negative = false
  | notANumber => False

/-- A value that is not below one is at least one or not a number. -/
theorem Binary.belowOne_eq_false_iff {x : Binary} :
    x.belowOne = false ↔ x.AtLeastOne ∨ x = .notANumber := by
  cases x with
  | finite negative m p => simp [AtLeastOne, one_le_toRat_iff, isFinite]
  | infinite negative => simp [AtLeastOne, belowOne]
  | notANumber => simp [belowOne]

namespace Amount

/-- Whether an amount is at least one. -/
def AtLeastOne : Amount → Prop
  | whole n => 1 ≤ n
  | real x => x.AtLeastOne

/-- An amount that is not below one is at least one or not a number. -/
theorem belowOne_eq_false_iff {amount : Amount} :
    amount.belowOne = false ↔ amount.AtLeastOne ∨ amount = .real .notANumber := by
  cases amount with
  | whole n => simp [belowOne, AtLeastOne]
  | real x => simp [belowOne, AtLeastOne, Binary.belowOne_eq_false_iff]

end Amount

/-- The rules for a latency-aware policy with a child and settings. -/
structure LatencyRules (child : Policy) (settings : LatencySettings) : Prop where
  /-- A host may be as slow as the fastest one. -/
  threshold : settings.threshold.AtLeastOne
  /-- Latencies are averaged over some time. -/
  scale : 0 < settings.scale.microseconds
  /-- A slow host is left out for some time or none. -/
  retryPeriod : 0 ≤ settings.retryPeriod.microseconds
  /-- Some time passes between updates. -/
  updateRate : 0 < settings.updateRate.microseconds
  /-- Any number of measurements may be asked for. -/
  minimumMeasurements : 0 ≤ settings.minimumMeasurements
  /-- The child is a load-balancing policy. -/
  child : child.suits .loadBalancing

section Check

variable {child : Policy} {settings : LatencySettings}

/-- What the check admits keeps the rules, with any threshold that is at least one if and only if the
check lets the given one through. -/
theorem latencyRules_iff_admissible {amount : Amount}
    (h : amount.AtLeastOne ↔ settings.threshold.belowOne = false) :
    LatencyRules child { settings with threshold := amount } ↔
      child.suits .loadBalancing ∧ settings.Admissible := by
  constructor
  · rintro ⟨hthreshold, hscale, hretryPeriod, hupdateRate, hminimum, hchild⟩
    exact ⟨hchild, h.mp hthreshold, hscale, hretryPeriod, hupdateRate, hminimum⟩
  · rintro ⟨hchild, hbelow, hscale, hretryPeriod, hupdateRate, hminimum⟩
    exact ⟨h.mpr hbelow, hscale, hretryPeriod, hupdateRate, hminimum, hchild⟩

/-- With a threshold that is a number, the check admits what keeps the rules. -/
theorem latencyRules_iff_of_number (h : settings.threshold ≠ .real .notANumber) :
    LatencyRules child settings ↔ child.suits .loadBalancing ∧ settings.Admissible := by
  refine latencyRules_iff_admissible ?_
  rw [Amount.belowOne_eq_false_iff, or_iff_left h]

/-- A threshold that is not a number is let through, and the rest is checked. -/
theorem latencyRules_iff_of_not_number (h : settings.threshold = .real .notANumber) :
    LatencyRules child { settings with threshold := .whole 1 } ↔
      child.suits .loadBalancing ∧ settings.Admissible :=
  latencyRules_iff_admissible <|
    iff_of_true (Int.le_refl 1) (Amount.belowOne_eq_false_iff.mpr (Or.inr h))

end Check

namespace LatencyBuilder

variable {builder after : LatencyBuilder}

/-- Whether the threshold of a policy in the making is a number. -/
def HasNumber (builder : LatencyBuilder) : Prop := builder.settings.threshold ≠ .real .notANumber

/-- A policy in the making starts with a threshold that is a number. -/
theorem hasNumber_start (child : Value) : (start child).HasNumber := by
  rintro (h : Amount.real (binary64.round false (2 * unitsPerOne) 1) = .real .notANumber)
  rw [FloatFormat.round_eq binary64 (by decide)] at h
  split at h <;> cases h

/-- It keeps such a threshold if no value is given that is not a number. -/
theorem HasNumber.assign (h : builder.HasNumber) {setting : LatencySetting} {value : Value}
    (hvalue : value ≠ .number .notANumber) (hassign : builder.assign setting value = .ok after) :
    after.HasNumber := by
  unfold LatencyBuilder.assign at hassign
  split at hassign
  · next settings hsettings =>
    obtain rfl := Except.ok.inj hassign
    obtain ⟨content, rfl, rfl⟩ := LatencySetting.assign_eq_some_iff.mp hsettings
    cases setting with
    | threshold =>
      rintro (hcontent : content = Amount.real .notANumber)
      rw [hcontent] at hvalue
      exact hvalue rfl
    | _ => exact h
  · contradiction

/-- Giving values in order keeps a threshold that is a number, too. -/
theorem HasNumber.assignInOrder {settings : List LatencySetting} {values : List Value}
    (h : builder.HasNumber) (hvalues : ∀ value ∈ values, value ≠ .number .notANumber)
    (hassign : PolicyClass.assignInOrder builder settings values = .ok after) :
    after.HasNumber := by
  induction values generalizing builder settings with
  | nil =>
    rw [PolicyClass.assignInOrder] at hassign
    exact Except.ok.inj hassign ▸ h
  | cons value values ih =>
    cases settings with
    | nil => contradiction
    | cons setting settings =>
      obtain ⟨next, hnext, hassign⟩ := bind_eq_ok_iff.mp hassign
      have hnumber := h.assign (hvalues value List.mem_cons_self) hnext
      exact ih hnumber (fun value hmem => hvalues value (List.mem_cons_of_mem _ hmem)) hassign

/-- A policy that is built has the settings of the policy in the making, which are admitted. -/
theorem build_eq_latencyAware_iff {child : Policy} {settings : LatencySettings} :
    builder.build = .ok (.latencyAware child settings) ↔ builder.child = .policy child ∧
      builder.settings = settings ∧ child.suits .loadBalancing ∧ settings.Admissible := by
  rw [build, Policy.newLatencyAware_eq_ok_iff]
  constructor
  · rintro ⟨inner, hinner, hsuits, hsettings, heq⟩
    obtain ⟨rfl, rfl⟩ := Policy.latencyAware.inj heq
    exact ⟨hinner, rfl, hsuits, hsettings⟩
  · rintro ⟨hchild, rfl, hsuits, hsettings⟩
    exact ⟨child, hchild, hsuits, hsettings, rfl⟩

end LatencyBuilder

/-- What was built in a session is what the check makes of the child and some settings. -/
theorem LatencySession.exists_of_mem_built {child : Value} {steps : List LatencyStep}
    {result : Except Refusal Policy} (h : result ∈ (after child steps).built) :
    ∃ settings, result = Policy.newLatencyAware child settings := by
  induction steps using List.reverseRecOn with
  | nil => contradiction
  | append_singleton steps step ih =>
    cases step with
    | give setting content =>
      rw [after_concat, advance, LatencyBuilder.assign_asValue] at h
      exact ih h
    | build =>
      rw [built_after_build] at h
      rcases List.mem_append.mp h with hbefore | hlast
      · exact ih hbefore
      · exact ⟨_, List.mem_singleton.mp hlast⟩

end DriverPolicy
