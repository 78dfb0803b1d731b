import DriverPolicy.Policy.Construction
import DriverPolicy.Proofs.Attempt

/-!
# When a policy accepts its values

Each policy is constructed exactly from the values that its rules admit, and then holds them as they
were given. The order in which the rules are checked only decides which of several faults is named.
-/

namespace DriverPolicy

/-- The rules for the settings of a latency-aware policy. -/
structure LatencySettings.Admissible (settings : LatencySettings) : Prop where
  /-- A host may be as slow as the fastest one. -/
  threshold : settings.threshold.belowOne = false
  /-- Latencies are averaged over some time. -/
  scale : 0 < settings.scale.microseconds
  /-- A slow host is left out for some time or none. -/
  retryPeriod : 0 ≤ settings.retryPeriod.microseconds
  /-- Some time passes between updates. -/
  updateRate : 0 < settings.updateRate.microseconds
  /-- Any number of measurements may be asked for. -/
  minimumMeasurements : 0 ≤ settings.minimumMeasurements

namespace Policy

variable {policy : Policy}

/-- A child is accepted if it is one of the wanted family's policies. -/
theorem requireChild_eq_ok_iff {owner : String} {wanted : Family} {value : Value} :
    requireChild owner wanted value = .ok policy ↔
      value = .policy policy ∧ policy.suits wanted := by
  cases value with
  | policy child =>
    rw [requireChild]
    split
    · next hsuits =>
      simp only [Except.ok.injEq, Value.policy.injEq]
      exact ⟨fun h => ⟨h, h ▸ hsuits⟩, And.left⟩
    · next hnot =>
      simp only [Value.policy.injEq, reduceCtorEq, false_iff]
      rintro ⟨rfl, hsuits⟩
      exact hnot hsuits
  | _ => simp [requireChild]

/-- A data-center-aware policy takes a name that is not blank, or none, and any number of hosts. -/
theorem newDataCenterAware_eq_ok_iff {localDataCenter : Option String} {remoteHosts : Int} :
    newDataCenterAware localDataCenter remoteHosts = .ok policy ↔
      (∀ name ∈ localDataCenter, allBlank name.toList = false) ∧ 0 ≤ remoteHosts ∧
        .dataCenterAware localDataCenter remoteHosts = policy := by
  have hblank : (∀ name ∈ localDataCenter, allBlank name.toList = false) ↔
      ¬localDataCenter.any fun name => allBlank name.toList := by
    cases localDataCenter <;> simp
  rw [newDataCenterAware, hblank, ← Int.not_lt]
  split
  · next h => simp [h]
  · next h =>
    split
    · next hhosts => simp [hhosts]
    · next hhosts => simp [h, hhosts]

/-- A token-aware policy takes a load-balancing policy. -/
theorem newTokenAware_eq_ok_iff {child : Value} : newTokenAware child = .ok policy ↔
    ∃ inner, child = .policy inner ∧ inner.suits .loadBalancing ∧ .tokenAware inner = policy := by
  simp only [newTokenAware, map_eq_ok_iff, requireChild_eq_ok_iff, and_assoc]

/-- A policy that logs takes a retry policy. -/
theorem newLoggingRetry_eq_ok_iff {child : Value} : newLoggingRetry child = .ok policy ↔
    ∃ inner, child = .policy inner ∧ inner.suits .retry ∧ .loggingRetry inner = policy := by
  simp only [newLoggingRetry, map_eq_ok_iff, requireChild_eq_ok_iff, and_assoc]

/-- A latency-aware policy takes a load-balancing policy and settings that keep the rules. -/
theorem newLatencyAware_eq_ok_iff {child : Value} {settings : LatencySettings} :
    newLatencyAware child settings = .ok policy ↔ ∃ inner, child = .policy inner ∧
      inner.suits .loadBalancing ∧ settings.Admissible ∧ .latencyAware inner settings = policy := by
  constructor
  · intro h
    obtain ⟨inner, hinner, hpolicy⟩ := bind_eq_ok_iff.mp h
    obtain ⟨rfl, hsuits⟩ := requireChild_eq_ok_iff.mp hinner
    repeat' split at hpolicy
    all_goals try contradiction
    next hthreshold hscale hretryPeriod hupdateRate hminimum =>
      have hsettings : settings.Admissible :=
        ⟨Bool.not_eq_true _ ▸ hthreshold, Int.not_le.mp hscale, Int.not_lt.mp hretryPeriod,
          Int.not_le.mp hupdateRate, Int.not_lt.mp hminimum⟩
      exact ⟨inner, rfl, hsuits, hsettings, Except.ok.inj hpolicy⟩
  · rintro ⟨inner, rfl, hsuits, hsettings, rfl⟩
    have hthreshold := hsettings.threshold
    have hscale := Int.not_le.mpr hsettings.scale
    have hretryPeriod := Int.not_lt.mpr hsettings.retryPeriod
    have hupdateRate := Int.not_le.mpr hsettings.updateRate
    have hminimum := Int.not_lt.mpr hsettings.minimumMeasurements
    rw [newLatencyAware, requireChild_eq_ok_iff.mpr ⟨rfl, hsuits⟩, ok_bind]
    simp only [hthreshold, hscale, hretryPeriod, hupdateRate, hminimum, Bool.false_eq_true,
      ↓reduceIte]

/-- A reconnection policy with one delay takes any that is not negative. -/
theorem newConstant_eq_ok_iff {delay : Int} : newConstant delay = .ok policy ↔
    0 ≤ delay ∧ .constantReconnection delay = policy := by
  rw [newConstant, ← Int.not_lt]
  split
  · next h => simp [h]
  · next h => simp [h]

/-- A reconnection policy with doubling delays takes a positive one to begin with and any that is
not below it to end with. -/
theorem newExponential_eq_ok_iff {base max : Int} : newExponential base max = .ok policy ↔
    0 < base ∧ base ≤ max ∧ .exponentialReconnection base max = policy := by
  rw [newExponential]
  split
  · next h =>
    have hnot : ¬(0 < base ∧ base ≤ max) := by simp at h; omega
    simp [← and_assoc, hnot]
  · next h =>
    split
    · next hzero => simp [hzero]
    · next hzero =>
      split
      · next hmax => simp [Int.not_le.mpr hmax]
      · next hmax =>
        have hrange : 0 < base ∧ base ≤ max := by simp at h; omega
        simp [hrange]

end Policy

end DriverPolicy
