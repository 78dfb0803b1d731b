import DriverPolicy.Proofs.Attempt
import DriverPolicy.Registry.Builtin

/-!
# Which constructions fail without a refusal

A policy that is built from values refuses them or accepts them. One thing happens before it sees
them: a latency-aware policy is given durations, and a number of milliseconds that makes none is
neither accepted nor refused. Among the built-in policies that is the only failure of its kind.
-/

namespace DriverPolicy

namespace Duration

/-- Whether a number of milliseconds makes a duration: it has fewer than a thousand million days
in either direction. -/
def Fits (n : Int) : Prop := -86399999913600000 ≤ n ∧ n < 86400000000000000

instance (n : Int) : Decidable (Fits n) := inferInstanceAs (Decidable (_ ∧ _))

/-- The days of a number of milliseconds are within the limit if it makes a duration. -/
theorem fits_iff (n : Int) : Fits n ↔
    -dayLimit ≤ (1000 * n).fdiv perDay ∧ (1000 * n).fdiv perDay ≤ dayLimit := by
  rw [Int.fdiv_eq_ediv_of_nonneg _ (by decide)]
  simp only [Fits, dayLimit, perDay]
  omega

/-- A number of milliseconds that makes a duration is converted. -/
theorem ofMilliseconds_of_fits {n : Int} (h : Fits n) : ofMilliseconds n = .ok ⟨1000 * n⟩ := by
  obtain ⟨hlow, hhigh⟩ := (fits_iff n).mp h
  have hdays : ¬((1000 * n).fdiv perDay < -dayLimit ∨ dayLimit < (1000 * n).fdiv perDay) := by
    omega
  simp [ofMilliseconds, ofMicroseconds, hdays]

/-- A number of milliseconds that makes no duration is not converted. -/
theorem ofMilliseconds_of_not_fits {n : Int} (h : ¬Fits n) :
    ofMilliseconds n = .error ⟨(1000 * n).fdiv perDay⟩ := by
  rw [fits_iff] at h
  have hdays : (1000 * n).fdiv perDay < -dayLimit ∨ dayLimit < (1000 * n).fdiv perDay := by
    omega
  simp [ofMilliseconds, ofMicroseconds, hdays]

end Duration

namespace TypedValue

/-- Whether a value has the kind that it is said to have: it comes from a literal or from a nested
call. -/
inductive IsTyped : TypedValue → Prop
  | literal (value : Literal) : IsTyped (.ofLiteral value)
  | policy (value : Policy) : IsTyped (.ofPolicy value)

/-- What a value of a kind is. -/
def IsOf (value : TypedValue) : ParameterKind → Prop
  | .policy => ∃ policy, value = .ofPolicy policy
  | .string => ∃ s, value = .ofLiteral (.string s)
  | .float => ∃ x, value = .ofLiteral (.float x)
  | .double => ∃ x, value = .ofLiteral (.double x)
  | .long => ∃ n, value = .ofLiteral (.long n)
  | .int => ∃ n, value = .ofLiteral (.int n)

/-- A value is what it is said to be. -/
theorem IsTyped.isOf {value : TypedValue} {kind : ParameterKind} (h : value.IsTyped)
    (hkind : value.kind = kind) : value.IsOf kind := by
  subst hkind
  cases h with
  | literal literal => cases literal <;> exact ⟨_, rfl⟩
  | policy policy => exact ⟨policy, rfl⟩

/-- Values of no kinds are none. -/
theorem eq_nil_of_signature {values : List TypedValue} (h : [] = signature values) : values = [] :=
  List.map_eq_nil_iff.mp h.symm

/-- The first of the values has the first kind, and the others have the others. -/
theorem exists_of_signature_cons {values : List TypedValue} {kind : ParameterKind}
    {kinds : Signature} (htyped : ∀ value ∈ values, value.IsTyped)
    (h : kind :: kinds = signature values) : ∃ value rest, values = value :: rest ∧
      value.IsOf kind ∧ kinds = signature rest ∧ ∀ value ∈ rest, value.IsTyped := by
  obtain ⟨value, rest, rfl, hkind, hrest⟩ := List.map_eq_cons_iff.mp h.symm
  exact ⟨value, rest, rfl, (htyped value List.mem_cons_self).isOf hkind, hrest.symm,
    fun other hother => htyped other (List.mem_cons_of_mem value hother)⟩

end TypedValue

/-- The arguments of a latency-aware policy, the durations still as numbers of milliseconds. -/
structure LatencyArguments where
  /-- The child. -/
  child : Policy
  /-- The exclusion threshold. -/
  threshold : Binary
  /-- The scale. -/
  scale : Int
  /-- The retry period. -/
  retryPeriod : Int
  /-- The update rate. -/
  updateRate : Int
  /-- The least number of measurements. -/
  minimumMeasurements : Int

namespace LatencyArguments

/-- The arguments as values in the order of the constructor. -/
def values (arguments : LatencyArguments) : List TypedValue :=
  [.ofPolicy arguments.child, .ofLiteral (.double arguments.threshold),
    .ofLiteral (.long arguments.scale), .ofLiteral (.long arguments.retryPeriod),
    .ofLiteral (.long arguments.updateRate), .ofLiteral (.int arguments.minimumMeasurements)]

/-- Whether all numbers of milliseconds make durations. -/
def Fit (arguments : LatencyArguments) : Prop :=
  Duration.Fits arguments.scale ∧ Duration.Fits arguments.retryPeriod ∧
    Duration.Fits arguments.updateRate

instance (arguments : LatencyArguments) : Decidable arguments.Fit :=
  inferInstanceAs (Decidable (_ ∧ _ ∧ _))

/-- Values that fit the signature of the constructor are such arguments. -/
theorem exists_of_signature {given : List TypedValue} (htyped : ∀ value ∈ given, value.IsTyped)
    (h : TypedValue.signature given = latencyAwareConstructor.signature) :
    ∃ arguments : LatencyArguments, given = arguments.values := by
  have h := h.symm
  obtain ⟨_, given, rfl, ⟨child, rfl⟩, h, htyped⟩ := TypedValue.exists_of_signature_cons htyped h
  obtain ⟨_, given, rfl, ⟨threshold, rfl⟩, h, htyped⟩ :=
    TypedValue.exists_of_signature_cons htyped h
  obtain ⟨_, given, rfl, ⟨scale, rfl⟩, h, htyped⟩ := TypedValue.exists_of_signature_cons htyped h
  obtain ⟨_, given, rfl, ⟨retryPeriod, rfl⟩, h, htyped⟩ :=
    TypedValue.exists_of_signature_cons htyped h
  obtain ⟨_, given, rfl, ⟨updateRate, rfl⟩, h, htyped⟩ :=
    TypedValue.exists_of_signature_cons htyped h
  obtain ⟨_, given, rfl, ⟨minimum, rfl⟩, h, -⟩ := TypedValue.exists_of_signature_cons htyped h
  obtain rfl := TypedValue.eq_nil_of_signature h
  exact ⟨⟨child, threshold, scale, retryPeriod, updateRate, minimum⟩, rfl⟩

/-- A latency-aware policy is built from durations, which are made one after the other. -/
theorem build_eq (arguments : LatencyArguments) :
    latencyAwareConstructor.build (arguments.values.map TypedValue.value) = (do
      let scale ← (Duration.ofMilliseconds arguments.scale).mapError .overflow
      let retryPeriod ← (Duration.ofMilliseconds arguments.retryPeriod).mapError .overflow
      let updateRate ← (Duration.ofMilliseconds arguments.updateRate).mapError .overflow
      (Policy.newLatencyAware (.policy arguments.child) ⟨.real arguments.threshold, scale,
        retryPeriod, updateRate, arguments.minimumMeasurements⟩).mapError .refused) := by
  have hconvert (setting : LatencySetting) (n : Int) :
      SettingStep.convert ⟨.long, setting, true⟩ (.integer n) = (do
        let duration ← (Duration.ofMilliseconds n).mapError .overflow
        return .duration duration) := by
    simp only [SettingStep.convert, ↓reduceIte]
    cases Duration.ofMilliseconds n <;> rfl
  simp only [latencyAwareConstructor, Constructor.build, PositionalConstructor.build, values,
    List.map_cons, List.map_nil, TypedValue.ofLiteral, TypedValue.ofPolicy, SettingStep.positional,
    PositionalConstructor.giveAll, hconvert, bind_assoc, pure_bind]
  rfl

/-- A latency-aware policy is accepted or refused if all numbers of milliseconds make
durations. -/
theorem build_of_fit {arguments : LatencyArguments} (h : arguments.Fit) :
    latencyAwareConstructor.build (arguments.values.map TypedValue.value) =
      (Policy.newLatencyAware (.policy arguments.child)
        ⟨.real arguments.threshold, ⟨1000 * arguments.scale⟩, ⟨1000 * arguments.retryPeriod⟩,
          ⟨1000 * arguments.updateRate⟩, arguments.minimumMeasurements⟩).mapError .refused := by
  obtain ⟨hscale, hretryPeriod, hupdateRate⟩ := h
  rw [build_eq, Duration.ofMilliseconds_of_fits hscale,
    Duration.ofMilliseconds_of_fits hretryPeriod, Duration.ofMilliseconds_of_fits hupdateRate]
  rfl

/-- The first number of milliseconds that makes no duration ends the construction. -/
theorem build_of_not_fit {arguments : LatencyArguments} (h : ¬arguments.Fit) :
    ∃ excess, latencyAwareConstructor.build (arguments.values.map TypedValue.value) =
      .error (.overflow excess) := by
  rw [build_eq]
  by_cases hscale : Duration.Fits arguments.scale
  · rw [Duration.ofMilliseconds_of_fits hscale]
    by_cases hretryPeriod : Duration.Fits arguments.retryPeriod
    · rw [Duration.ofMilliseconds_of_fits hretryPeriod]
      have hupdateRate : ¬Duration.Fits arguments.updateRate := fun hupdateRate =>
        h ⟨hscale, hretryPeriod, hupdateRate⟩
      rw [Duration.ofMilliseconds_of_not_fits hupdateRate]
      exact ⟨_, rfl⟩
    · rw [Duration.ofMilliseconds_of_not_fits hretryPeriod]
      exact ⟨_, rfl⟩
  · rw [Duration.ofMilliseconds_of_not_fits hscale]
    exact ⟨_, rfl⟩

end LatencyArguments

/-- Values that are accepted or refused do not overflow. -/
theorem mapError_refused_ne_overflow (result : Except Refusal Policy) (excess : DurationOverflow) :
    result.mapError ConstructionFault.refused ≠ .error (.overflow excess) := by
  cases result with
  | error refusal =>
    change Except.error (ConstructionFault.refused refusal) ≠ _
    simp
  | ok policy =>
    change Except.ok policy ≠ _
    simp

/-- Every built-in class but that of latency-aware policies has plain constructors. -/
theorem PolicyClass.constructors_eq_map {c : PolicyClass} (hc : c ≠ latencyAware) :
    ∃ signatures, c.constructors = List.map (Constructor.ofClass c) signatures := by
  cases c with
  | roundRobin => exact ⟨[[]], rfl⟩
  | dataCenterAware => exact ⟨[[], [.string], [.string, .int]], rfl⟩
  | tokenAware => exact ⟨[[.policy]], rfl⟩
  | latencyAware => exact absurd rfl hc
  | constantReconnection => exact ⟨[[.long]], rfl⟩
  | exponentialReconnection => exact ⟨[[.long, .long]], rfl⟩
  | _ => exact ⟨[], rfl⟩

namespace PolicyType

/-- A type of policy refuses values: the constructor that they fit does. -/
def Refuses (type : PolicyType) (values : List TypedValue) (refusal : Refusal) : Prop :=
  ∃ constructor, type.find? (TypedValue.signature values) = some constructor ∧
    constructor.build (values.map TypedValue.value) = .error (.refused refusal)

/-- Refused values are a fault of the construction, which names the type. -/
theorem Refuses.construct_eq {type : PolicyType} {values : List TypedValue} {refusal : Refusal}
    (h : type.Refuses values refusal) :
    type.construct values = .error (.fault (.construction type.qualifiedName refusal)) := by
  obtain ⟨constructor, hfind, hbuild⟩ := h
  simp only [construct, hfind, hbuild]

/-- Constructing overflows if the constructor that the values fit does. -/
theorem construct_eq_overflow_iff {type : PolicyType} {values : List TypedValue}
    {excess : DurationOverflow} : type.construct values = .error (.overflow excess) ↔
      ∃ constructor, type.find? (TypedValue.signature values) = some constructor ∧
        constructor.build (values.map TypedValue.value) = .error (.overflow excess) := by
  unfold construct
  split
  · next hfind => simp [hfind]
  · next constructor hfind =>
    simp only [hfind, Option.some.injEq, exists_eq_left']
    split
    · next hbuild => simp [hbuild]
    · next hbuild => simp [hbuild]
    · next hbuild => simp [hbuild]

/-- The only construction of a built-in policy that overflows is that of a latency-aware policy,
where some number of milliseconds makes no duration. -/
theorem builtin_overflows_iff (namespaceName : String) (c : PolicyClass) {values : List TypedValue}
    (htyped : ∀ value ∈ values, value.IsTyped) :
    (∃ excess, (c.builtinType namespaceName).construct values = .error (.overflow excess)) ↔
      c = .latencyAware ∧ ∃ arguments : LatencyArguments,
        values = arguments.values ∧ ¬arguments.Fit := by
  constructor
  · rintro ⟨excess, h⟩
    obtain ⟨constructor, hfind, hbuild⟩ := construct_eq_overflow_iff.mp h
    have hmem : constructor ∈ c.constructors := List.mem_of_find?_eq_some hfind
    by_cases hc : c = .latencyAware
    · subst hc
      obtain rfl : constructor = latencyAwareConstructor := List.mem_singleton.mp hmem
      have hsignature : latencyAwareConstructor.signature = TypedValue.signature values := by
        simpa using List.find?_some hfind
      obtain ⟨arguments, rfl⟩ := LatencyArguments.exists_of_signature htyped hsignature.symm
      refine ⟨rfl, arguments, rfl, fun hfit => ?_⟩
      rw [LatencyArguments.build_of_fit hfit] at hbuild
      exact mapError_refused_ne_overflow _ excess hbuild
    · obtain ⟨signatures, hplain⟩ := PolicyClass.constructors_eq_map hc
      rw [hplain] at hmem
      obtain ⟨signature, -, rfl⟩ := List.mem_map.mp hmem
      exact absurd hbuild (mapError_refused_ne_overflow _ excess)
  · rintro ⟨rfl, arguments, rfl, hfit⟩
    obtain ⟨excess, hbuild⟩ := LatencyArguments.build_of_not_fit hfit
    exact ⟨excess, construct_eq_overflow_iff.mpr ⟨latencyAwareConstructor, rfl, hbuild⟩⟩

end PolicyType

end DriverPolicy
