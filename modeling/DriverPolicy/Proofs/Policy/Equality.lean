import DriverPolicy.Proofs.Json.Equality
import DriverPolicy.Proofs.Number.Shortest

/-!
# Equal policies

Two policies are equal if they are of one class and have equal fields: children again as policies, thresholds
as numbers, and durations to the microsecond. A record shows durations in whole milliseconds only, so it tells
policies apart just as equality does if no duration has a fraction of a millisecond. Thresholds that are
not below one and values of 64 bits have no second form, so equal policies are then even the same.
-/

namespace DriverPolicy

/-- Whether two settings are equal, one by one. -/
def LatencySettings.equals (a b : LatencySettings) : Bool :=
  a.threshold.equals b.threshold && a.scale = b.scale && a.retryPeriod = b.retryPeriod &&
    a.updateRate = b.updateRate && a.minimumMeasurements = b.minimumMeasurements

namespace Policy

/-- Whether two policies are equal: of one class, with equal fields. The shared ones have no fields and are
compared as objects. How two custom ones are compared is their own affair. -/
def equals (own : CustomPolicy → CustomPolicy → Bool) : Policy → Policy → Bool
  | roundRobin, roundRobin => true
  | dataCenterAware name hosts, dataCenterAware name' hosts' => name = name' && hosts = hosts'
  | tokenAware child, tokenAware child' => child.equals own child'
  | latencyAware child settings, latencyAware child' settings' =>
    child.equals own child' && settings.equals settings'
  | loggingRetry child, loggingRetry child' => child.equals own child'
  | constantReconnection delay, constantReconnection delay' => delay = delay'
  | exponentialReconnection base max, exponentialReconnection base' max' => base = base' && max = max'
  | custom policy, custom policy' => own policy policy'
  | a, b => a.isSameObject b

/-- Whether no custom policy is part of a policy and the settings of all its latency-aware parts have a
property. -/
def Plain (P : LatencySettings → Prop) : Policy → Prop
  | tokenAware child | loggingRetry child => child.Plain P
  | latencyAware child settings => child.Plain P ∧ P settings
  | custom _ => False
  | _ => True

/-- A property that follows from another is one of all settings where the other is. -/
theorem Plain.mono {P Q : LatencySettings → Prop} (hPQ : ∀ settings, P settings → Q settings)
    {policy : Policy} (h : policy.Plain P) : policy.Plain Q := by
  induction policy with
  | tokenAware child ih => exact ih h
  | latencyAware child settings ih => exact ⟨ih h.1, hPQ settings h.2⟩
  | loggingRetry child ih => exact ih h
  | custom policy => exact h
  | _ => trivial

end Policy

/-- Whether a duration is a whole number of milliseconds. -/
def Duration.IsWhole (d : Duration) : Prop := d = ⟨1000 * d.milliseconds⟩

/-- Durations of whole milliseconds are equal if their numbers of milliseconds are. -/
theorem Duration.IsWhole.milliseconds_eq_iff {a b : Duration} (ha : a.IsWhole) (hb : b.IsWhole) :
    a.milliseconds = b.milliseconds ↔ a = b :=
  ⟨fun h => by rw [ha, hb, h], congrArg Duration.milliseconds⟩

/-- Values of 64 bits that are not below one are equal numbers only if they are the same. -/
theorem Binary.equals_iff_eq {x y : Binary} (hx : x.IsCanonical) (hxone : x.belowOne = false)
    (hy : y.IsCanonical) (hyone : y.belowOne = false) : x.equals y ↔ x = y := by
  obtain ⟨s, m, p, rfl, hfits⟩ := hx
  obtain ⟨s', m', p', rfl, hfits'⟩ := hy
  simp only [belowOne, Bool.or_eq_false_iff, decide_eq_false_iff_not] at hxone hyone
  obtain ⟨rfl, hm⟩ := hxone
  obtain ⟨rfl, -⟩ := hyone
  have hne : m ≠ 0 := by
    rintro rfl
    exact hm (by rw [Nat.zero_shiftLeft]; decide)
  simp only [equals, hne, decide_false, Bool.false_and, Bool.false_or, decide_true, Bool.true_and,
    decide_eq_true_eq, finite.injEq, true_and, Nat.shiftLeft_eq]
  constructor
  · exact hfits.unique hfits'
  · rintro ⟨rfl, rfl⟩
    rfl

namespace LatencySettings

/-- Whether all durations in settings are whole numbers of milliseconds. -/
structure IsWhole (settings : LatencySettings) : Prop where
  scale : settings.scale.IsWhole
  retryPeriod : settings.retryPeriod.IsWhole
  updateRate : settings.updateRate.IsWhole

/-- Whether settings are such as can be read: the threshold is a value of 64 bits and not below one, and the
durations are whole numbers of milliseconds. -/
structure IsReadable (settings : LatencySettings) : Prop extends settings.IsWhole where
  threshold : ∃ x : Binary, settings.threshold = .real x ∧ x.IsCanonical ∧ x.belowOne = false

variable {a b : LatencySettings}

/-- Settings that can be read are equal only if they are the same. -/
theorem IsReadable.equals_iff_eq (ha : a.IsReadable) (hb : b.IsReadable) : a.equals b ↔ a = b := by
  obtain ⟨x, hx, hxcanonical, hxone⟩ := ha.threshold
  obtain ⟨y, hy, hycanonical, hyone⟩ := hb.threshold
  have hthreshold : a.threshold.equals b.threshold ↔ a.threshold = b.threshold := by
    rw [hx, hy, Amount.real.injEq]
    exact Binary.equals_iff_eq hxcanonical hxone hycanonical hyone
  obtain ⟨⟩ := a
  obtain ⟨⟩ := b
  simp only [equals, Bool.and_eq_true, decide_eq_true_eq, hthreshold, mk.injEq, and_assoc]

/-- Settings with durations of whole milliseconds are equal if the numbers in their records are. -/
theorem equals_of_isWhole (ha : a.IsWhole) (hb : b.IsWhole) : a.equals b =
    (a.threshold.equals b.threshold && (a.scale.milliseconds = b.scale.milliseconds &&
      (a.retryPeriod.milliseconds = b.retryPeriod.milliseconds &&
        (a.updateRate.milliseconds = b.updateRate.milliseconds &&
          a.minimumMeasurements = b.minimumMeasurements)))) := by
  simp only [equals, ha.scale.milliseconds_eq_iff hb.scale, ha.retryPeriod.milliseconds_eq_iff hb.retryPeriod,
    ha.updateRate.milliseconds_eq_iff hb.updateRate, Bool.and_assoc]

end LatencySettings

namespace Policy

variable {own : CustomPolicy → CustomPolicy → Bool} {a b : Policy}

/-- The records of two policies are equal just if the policies are, if no duration in either has a fraction of
a millisecond. -/
theorem equals_describe (ha : a.Plain LatencySettings.IsWhole) (hb : b.Plain LatencySettings.IsWhole) :
    a.describe.equals b.describe = a.equals own b := by
  induction a generalizing b with
  | custom policy => exact ha.elim
  | tokenAware child ih =>
    cases b with
    | tokenAware child' =>
      have hchild : child.describe.equals child'.describe = child.equals own child' := ih ha hb
      simp [describe, equals, Json.equals_object_cons, hchild]
    | custom policy => exact hb.elim
    | _ => simp [describe, equals, Json.equals_object_cons, isSameObject]
  | latencyAware child settings ih =>
    cases b with
    | latencyAware child' settings' =>
      have hchild : child.describe.equals child'.describe = child.equals own child' := ih ha.1 hb.1
      simp [describe, equals, Json.equals_object_cons, hchild, LatencySettings.equals_of_isWhole ha.2 hb.2]
    | custom policy => exact hb.elim
    | _ => simp [describe, equals, Json.equals_object_cons, isSameObject]
  | loggingRetry child ih =>
    cases b with
    | loggingRetry child' =>
      have hchild : child.describe.equals child'.describe = child.equals own child' := ih ha hb
      simp [describe, equals, Json.equals_object_cons, hchild]
    | custom policy => exact hb.elim
    | _ => simp [describe, equals, Json.equals_object_cons, isSameObject]
  | _ =>
    cases b with
    | custom policy => exact hb.elim
    | _ => simp [describe, equals, Json.equals_object_cons, isSameObject, isShared]

/-- A fraction of a millisecond makes another policy with the same record. -/
example :
    let settings (scale : Int) : LatencySettings := ⟨.whole 2, ⟨scale⟩, ⟨0⟩, ⟨1000⟩, 50⟩
    let policy (scale : Int) : Policy := .latencyAware .roundRobin (settings scale)
    (policy 1000).describe.equals (policy 1500).describe = true ∧
      (policy 1000).equals (fun _ _ => false) (policy 1500) = false := by
  decide

/-- Policies with settings that can be read are equal only if they are the same. -/
theorem equals_iff_eq (ha : a.Plain LatencySettings.IsReadable) (hb : b.Plain LatencySettings.IsReadable) :
    a.equals own b ↔ a = b := by
  induction a generalizing b with
  | custom policy => exact ha.elim
  | tokenAware child ih =>
    cases b with
    | tokenAware child' =>
      have hchild : child.equals own child' ↔ child = child' := ih ha hb
      simp [equals, hchild]
    | custom policy => exact hb.elim
    | _ => simp [equals, isSameObject]
  | latencyAware child settings ih =>
    cases b with
    | latencyAware child' settings' =>
      have hchild : child.equals own child' ↔ child = child' := ih ha.1 hb.1
      simp [equals, hchild, ha.2.equals_iff_eq hb.2]
    | custom policy => exact hb.elim
    | _ => simp [equals, isSameObject]
  | loggingRetry child ih =>
    cases b with
    | loggingRetry child' =>
      have hchild : child.equals own child' ↔ child = child' := ih ha hb
      simp [equals, hchild]
    | custom policy => exact hb.elim
    | _ => simp [equals, isSameObject]
  | _ =>
    cases b with
    | custom policy => exact hb.elim
    | _ => simp [equals, isSameObject, isShared]

end Policy

end DriverPolicy
