import DriverPolicy.Registry.Basic

/-!
# The built-in policies

The built-in policies are registered in a namespace of one's choice. Load-balancing and
reconnection policies are built from arguments; the retry policies without a child are handed
out as shared instances, and the one with a child can be neither built nor handed out.
-/

namespace DriverPolicy

/-- The namespace of policies without one. -/
def defaultNamespace : String := "cqlpolicy.policies"

/-- A latency-aware policy takes a child, a threshold, three numbers of milliseconds and a
number of measurements. -/
def latencyAwareConstructor : Constructor :=
  .stepwise .policy
    [⟨.double, .threshold, false⟩, ⟨.long, .scale, true⟩, ⟨.long, .retryPeriod, true⟩,
     ⟨.long, .updateRate, true⟩, ⟨.int, .minimumMeasurements, false⟩]

namespace PolicyClass

/-- The constructors of a built-in class. -/
def constructors : PolicyClass → List Constructor
  | roundRobin => [.ofClass roundRobin []]
  | dataCenterAware =>
    [.ofClass dataCenterAware [], .ofClass dataCenterAware [.string],
     .ofClass dataCenterAware [.string, .int]]
  | tokenAware => [.ofClass tokenAware [.policy]]
  | latencyAware => [latencyAwareConstructor]
  | defaultRetry | downgradingRetry | fallthroughRetry | loggingRetry => []
  | constantReconnection => [.ofClass constantReconnection [.long]]
  | exponentialReconnection => [.ofClass exponentialReconnection [.long, .long]]

/-- The shared instance of a built-in class. -/
def shared? : PolicyClass → Option Policy
  | defaultRetry => some .defaultRetry
  | downgradingRetry => some .downgradingRetry
  | fallthroughRetry => some .fallthroughRetry
  | _ => none

/-- The built-in type of a class in a namespace. -/
def builtinType (namespaceName : String) (c : PolicyClass) : PolicyType where
  qualifiedName := joinName namespaceName c.name
  family := c.family
  constructors := c.constructors
  shared? := c.shared?
  distinct := by cases c <;> decide
  suited := by cases c <;> simp [shared?, family, Policy.family]

/-- Different classes have different names. -/
theorem name_injective {a b : PolicyClass} (h : a.name = b.name) : a = b := by
  cases a <;> cases b <;> simp_all [name]

end PolicyClass

/-- Names are different in a namespace as they are without it. -/
theorem joinName_injective {namespaceName a b : String}
    (h : joinName namespaceName a = joinName namespaceName b) : a = b := by
  simpa [joinName] using h

/-- The built-in types in a namespace. -/
def builtinTypes (namespaceName : String) : List PolicyType :=
  PolicyClass.all.map (PolicyClass.builtinType namespaceName)

/-- No two built-in types have the same name. -/
theorem nodup_namesOf_builtinTypes (namespaceName : String) :
    (namesOf (builtinTypes namespaceName)).Nodup := by
  unfold namesOf builtinTypes
  rw [List.map_map]
  refine List.Pairwise.map _ (fun a b hne heq => ?_) (by decide : PolicyClass.all.Nodup)
  exact hne (PolicyClass.name_injective (joinName_injective heq))

/-- The registry of the built-in policies in a namespace. -/
def Registry.builtin (namespaceName : String) : Registry :=
  ⟨builtinTypes namespaceName, nodup_namesOf_builtinTypes namespaceName⟩

/-- The registry of the built-in policies in the namespace of policies without one. -/
def Registry.standard : Registry := .builtin defaultNamespace

end DriverPolicy
