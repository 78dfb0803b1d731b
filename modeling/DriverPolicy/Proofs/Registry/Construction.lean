import DriverPolicy.Proofs.Policy.Acceptance
import DriverPolicy.Proofs.Registry.Entries
import DriverPolicy.Proofs.Registry.Overflow

/-!
# What a type constructs

A type constructs a policy by the constructor that has exactly the kinds of the given values. For
the built-in classes all constructions are listed here: which values each class takes, and what
policy they make. The types themselves are found by the names that stand for them.
-/

namespace DriverPolicy

/-- A name stands for the built-in policy with a short name: it is that name, or has the namespace
of built-in policies in front. -/
def StandsFor (name shortName : String) : Prop :=
  qualifyName name defaultNamespace = joinName defaultNamespace shortName

/-- The built-in types are those of the classes. -/
theorem mem_builtinTypes_iff {namespaceName : String} {type : PolicyType} :
    type ∈ builtinTypes namespaceName ↔ ∃ c : PolicyClass, c.builtinType namespaceName = type := by
  have hall (c : PolicyClass) : c ∈ PolicyClass.all := by cases c <;> decide
  simp [builtinTypes, hall]

/-- Built-in types are looked up by the names that stand for them, in their own family. -/
theorem Registry.lookup_standard_eq_ok_iff {name : String} {family : Family} {type : PolicyType} :
    standard.lookup (qualifyName name defaultNamespace) family = .ok type ↔ ∃ c : PolicyClass,
      c.builtinType defaultNamespace = type ∧ StandsFor name c.name ∧ c.family = family := by
  rw [lookup_eq_ok_iff, find?_eq_some_iff]
  change (type ∈ builtinTypes defaultNamespace ∧ _) ∧ _ ↔ _
  rw [mem_builtinTypes_iff]
  constructor
  · rintro ⟨⟨⟨c, rfl⟩, hname⟩, hfamily⟩
    exact ⟨c, rfl, hname.symm, hfamily⟩
  · rintro ⟨c, rfl, hname, hfamily⟩
    exact ⟨⟨⟨c, rfl⟩, hname.symm⟩, hfamily⟩

/-- The settings that the arguments of a latency-aware policy ask for. -/
def LatencyArguments.settings (arguments : LatencyArguments) : LatencySettings where
  threshold := .real arguments.threshold
  scale := ⟨1000 * arguments.scale⟩
  retryPeriod := ⟨1000 * arguments.retryPeriod⟩
  updateRate := ⟨1000 * arguments.updateRate⟩
  minimumMeasurements := arguments.minimumMeasurements

/-- Arguments of a latency-aware policy are accepted if their numbers of milliseconds make durations
and the settings keep the rules. -/
theorem LatencyArguments.build_eq_ok_iff {arguments : LatencyArguments} {policy : Policy} :
    latencyAwareConstructor.build (arguments.values.map TypedValue.value) = .ok policy ↔
      arguments.Fit ∧ arguments.child.suits .loadBalancing ∧ arguments.settings.Admissible ∧
        .latencyAware arguments.child arguments.settings = policy := by
  by_cases hfit : arguments.Fit
  · rw [build_of_fit hfit, mapError_eq_ok_iff, Policy.newLatencyAware_eq_ok_iff]
    simp only [hfit, true_and, Value.policy.injEq, exists_eq_left', settings]
  · obtain ⟨excess, hbuild⟩ := build_of_not_fit hfit
    simp [hbuild, hfit]

/-- The constructions of the built-in classes: a class makes a policy from values. -/
inductive PolicyClass.Constructs : PolicyClass → List TypedValue → Policy → Prop
  | roundRobin : Constructs .roundRobin [] .roundRobin
  | anyDataCenter : Constructs .dataCenterAware [] (.dataCenterAware none 0)
  | localDataCenter {name : String} (hname : allBlank name.toList = false) :
      Constructs .dataCenterAware [.ofLiteral (.string name)] (.dataCenterAware (some name) 0)
  | remoteHosts {name : String} {hosts : Int} (hname : allBlank name.toList = false)
      (hhosts : 0 ≤ hosts) :
      Constructs .dataCenterAware [.ofLiteral (.string name), .ofLiteral (.int hosts)]
        (.dataCenterAware (some name) hosts)
  | tokenAware {child : Policy} (hchild : child.suits .loadBalancing) :
      Constructs .tokenAware [.ofPolicy child] (.tokenAware child)
  | latencyAware {arguments : LatencyArguments} (hfit : arguments.Fit)
      (hchild : arguments.child.suits .loadBalancing) (hsettings : arguments.settings.Admissible) :
      Constructs .latencyAware arguments.values
        (.latencyAware arguments.child arguments.settings)
  | constant {delay : Int} (hdelay : 0 ≤ delay) :
      Constructs .constantReconnection [.ofLiteral (.long delay)] (.constantReconnection delay)
  | exponential {base max : Int} (hbase : 0 < base) (hmax : base ≤ max) :
      Constructs .exponentialReconnection [.ofLiteral (.long base), .ofLiteral (.long max)]
        (.exponentialReconnection base max)

namespace PolicyType

/-- A type has one constructor for the kinds that it takes. -/
theorem find?_eq_some_iff {type : PolicyType} {signature : Signature} {constructor : Constructor} :
    type.find? signature = some constructor ↔
      constructor ∈ type.constructors ∧ constructor.signature = signature :=
  find?_key_eq_some_iff type.distinct

/-- A type constructs what its constructor for the values' kinds builds. -/
theorem construct_eq_ok_iff {type : PolicyType} {values : List TypedValue} {policy : Policy} :
    type.construct values = .ok policy ↔ ∃ constructor ∈ type.constructors,
      constructor.signature = TypedValue.signature values ∧
        constructor.build (values.map TypedValue.value) = .ok policy := by
  simp only [← and_assoc, ← find?_eq_some_iff]
  unfold construct
  split
  · next hfind => simp [hfind]
  · next constructor hfind =>
    simp only [hfind, Option.some.injEq, exists_eq_left']
    split
    · next hbuild => simp [hbuild]
    · next hbuild => simp [hbuild]
    · next hbuild => simp [hbuild]

end PolicyType

namespace PolicyClass

variable {c : PolicyClass} {values : List TypedValue} {policy : Policy}

/-- What the constructors of the built-in classes do with values of their kinds: all but that of
latency-aware policies hand them on as they are. -/
inductive Builds : PolicyClass → List TypedValue → Except ConstructionFault Policy → Prop
  | roundRobin : Builds .roundRobin [] (.ok .roundRobin)
  | anyDataCenter :
      Builds .dataCenterAware [] ((Policy.newDataCenterAware none 0).mapError .refused)
  | localDataCenter (name : String) :
      Builds .dataCenterAware [.ofLiteral (.string name)]
        ((Policy.newDataCenterAware (some name) 0).mapError .refused)
  | remoteHosts (name : String) (hosts : Int) :
      Builds .dataCenterAware [.ofLiteral (.string name), .ofLiteral (.int hosts)]
        ((Policy.newDataCenterAware (some name) hosts).mapError .refused)
  | tokenAware (child : Policy) :
      Builds .tokenAware [.ofPolicy child]
        ((Policy.newTokenAware (.policy child)).mapError .refused)
  | latencyAware (arguments : LatencyArguments) :
      Builds .latencyAware arguments.values
        (latencyAwareConstructor.build (arguments.values.map TypedValue.value))
  | constant (delay : Int) :
      Builds .constantReconnection [.ofLiteral (.long delay)]
        ((Policy.newConstant delay).mapError .refused)
  | exponential (base max : Int) :
      Builds .exponentialReconnection [.ofLiteral (.long base), .ofLiteral (.long max)]
        ((Policy.newExponential base max).mapError .refused)

/-- A constructor of a built-in class does what is listed with values of its kinds. -/
theorem builds_of_signature {constructor : Constructor} (htyped : ∀ value ∈ values, value.IsTyped)
    (hmem : constructor ∈ c.constructors)
    (hsignature : constructor.signature = TypedValue.signature values) :
    c.Builds values (constructor.build (values.map TypedValue.value)) := by
  cases c with
  | roundRobin =>
    obtain rfl := List.mem_singleton.mp hmem
    obtain rfl := TypedValue.eq_nil_of_signature hsignature
    exact .roundRobin
  | dataCenterAware =>
    simp only [constructors, List.mem_cons, List.not_mem_nil, or_false] at hmem
    rcases hmem with rfl | rfl | rfl
    · obtain rfl := TypedValue.eq_nil_of_signature hsignature
      exact .anyDataCenter
    · obtain ⟨value, rest, rfl, ⟨name, rfl⟩, hrest, -⟩ :=
        TypedValue.exists_of_signature_cons htyped hsignature
      obtain rfl := TypedValue.eq_nil_of_signature hrest
      exact .localDataCenter name
    · obtain ⟨value, rest, rfl, ⟨name, rfl⟩, hrest, htyped⟩ :=
        TypedValue.exists_of_signature_cons htyped hsignature
      obtain ⟨value, rest, rfl, ⟨hosts, rfl⟩, hrest, -⟩ :=
        TypedValue.exists_of_signature_cons htyped hrest
      obtain rfl := TypedValue.eq_nil_of_signature hrest
      exact .remoteHosts name hosts
  | tokenAware =>
    obtain rfl := List.mem_singleton.mp hmem
    obtain ⟨value, rest, rfl, ⟨child, rfl⟩, hrest, -⟩ :=
      TypedValue.exists_of_signature_cons htyped hsignature
    obtain rfl := TypedValue.eq_nil_of_signature hrest
    exact .tokenAware child
  | latencyAware =>
    obtain rfl := List.mem_singleton.mp hmem
    obtain ⟨arguments, rfl⟩ := LatencyArguments.exists_of_signature htyped hsignature.symm
    exact .latencyAware arguments
  | constantReconnection =>
    obtain rfl := List.mem_singleton.mp hmem
    obtain ⟨value, rest, rfl, ⟨delay, rfl⟩, hrest, -⟩ :=
      TypedValue.exists_of_signature_cons htyped hsignature
    obtain rfl := TypedValue.eq_nil_of_signature hrest
    exact .constant delay
  | exponentialReconnection =>
    obtain rfl := List.mem_singleton.mp hmem
    obtain ⟨value, rest, rfl, ⟨base, rfl⟩, hrest, htyped⟩ :=
      TypedValue.exists_of_signature_cons htyped hsignature
    obtain ⟨value, rest, rfl, ⟨max, rfl⟩, hrest, -⟩ :=
      TypedValue.exists_of_signature_cons htyped hrest
    obtain rfl := TypedValue.eq_nil_of_signature hrest
    exact .exponential base max
  | defaultRetry | downgradingRetry | fallthroughRetry | loggingRetry =>
    exact absurd hmem List.not_mem_nil

/-- What a constructor of a built-in class builds from values of its kinds is listed. -/
theorem Builds.constructs {result : Except ConstructionFault Policy} (h : c.Builds values result)
    (hresult : result = .ok policy) : c.Constructs values policy := by
  cases h with
  | roundRobin =>
    obtain rfl := Except.ok.inj hresult
    exact .roundRobin
  | anyDataCenter =>
    obtain rfl := Except.ok.inj hresult
    exact .anyDataCenter
  | localDataCenter name =>
    obtain ⟨hname, -, rfl⟩ := Policy.newDataCenterAware_eq_ok_iff.mp (mapError_eq_ok_iff.mp hresult)
    exact .localDataCenter (hname name rfl)
  | remoteHosts name hosts =>
    obtain ⟨hname, hhosts, rfl⟩ :=
      Policy.newDataCenterAware_eq_ok_iff.mp (mapError_eq_ok_iff.mp hresult)
    exact .remoteHosts (hname name rfl) hhosts
  | tokenAware child =>
    obtain ⟨inner, hinner, hsuits, rfl⟩ :=
      Policy.newTokenAware_eq_ok_iff.mp (mapError_eq_ok_iff.mp hresult)
    obtain rfl := Value.policy.inj hinner
    exact .tokenAware hsuits
  | latencyAware arguments =>
    obtain ⟨hfit, hchild, hsettings, rfl⟩ := LatencyArguments.build_eq_ok_iff.mp hresult
    exact .latencyAware hfit hchild hsettings
  | constant delay =>
    obtain ⟨hdelay, rfl⟩ := Policy.newConstant_eq_ok_iff.mp (mapError_eq_ok_iff.mp hresult)
    exact .constant hdelay
  | exponential base max =>
    obtain ⟨hbase, hmax, rfl⟩ := Policy.newExponential_eq_ok_iff.mp (mapError_eq_ok_iff.mp hresult)
    exact .exponential hbase hmax

/-- Each construction that is listed is built by a constructor of the class for its kinds. -/
theorem Constructs.exists_build (h : c.Constructs values policy) : ∃ constructor ∈ c.constructors,
    constructor.signature = TypedValue.signature values ∧
      constructor.build (values.map TypedValue.value) = .ok policy := by
  cases h with
  | roundRobin => exact ⟨_, List.mem_singleton_self _, rfl, rfl⟩
  | anyDataCenter => exact ⟨.ofClass .dataCenterAware [], by simp [constructors], rfl, rfl⟩
  | @localDataCenter name hname =>
    refine ⟨.ofClass .dataCenterAware [.string], by simp [constructors], rfl, ?_⟩
    refine mapError_eq_ok_iff.mpr (Policy.newDataCenterAware_eq_ok_iff.mpr ⟨?_, by decide, rfl⟩)
    rintro _ ⟨⟩
    exact hname
  | @remoteHosts name hosts hname hhosts =>
    refine ⟨.ofClass .dataCenterAware [.string, .int], by simp [constructors], rfl, ?_⟩
    refine mapError_eq_ok_iff.mpr (Policy.newDataCenterAware_eq_ok_iff.mpr ⟨?_, hhosts, rfl⟩)
    rintro _ ⟨⟩
    exact hname
  | tokenAware hchild =>
    refine ⟨_, List.mem_singleton_self _, rfl, mapError_eq_ok_iff.mpr ?_⟩
    exact Policy.newTokenAware_eq_ok_iff.mpr ⟨_, rfl, hchild, rfl⟩
  | latencyAware hfit hchild hsettings =>
    refine ⟨_, List.mem_singleton_self _, rfl, ?_⟩
    exact LatencyArguments.build_eq_ok_iff.mpr ⟨hfit, hchild, hsettings, rfl⟩
  | constant hdelay =>
    refine ⟨_, List.mem_singleton_self _, rfl, mapError_eq_ok_iff.mpr ?_⟩
    exact Policy.newConstant_eq_ok_iff.mpr ⟨hdelay, rfl⟩
  | exponential hbase hmax =>
    refine ⟨_, List.mem_singleton_self _, rfl, mapError_eq_ok_iff.mpr ?_⟩
    exact Policy.newExponential_eq_ok_iff.mpr ⟨hbase, hmax, rfl⟩

/-- The built-in types construct what is listed for their classes. -/
theorem construct_eq_ok_iff_constructs (namespaceName : String)
    (htyped : ∀ value ∈ values, value.IsTyped) :
    (c.builtinType namespaceName).construct values = .ok policy ↔ c.Constructs values policy := by
  rw [PolicyType.construct_eq_ok_iff]
  constructor
  · rintro ⟨constructor, hmem, hsignature, hbuild⟩
    exact (builds_of_signature htyped hmem hsignature).constructs hbuild
  · exact Constructs.exists_build

end PolicyClass

end DriverPolicy
