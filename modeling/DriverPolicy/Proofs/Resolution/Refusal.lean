import DriverPolicy.Proofs.Resolution.Buildable
import DriverPolicy.Proofs.Resolution.Family

/-!
# Why constructions are refused

A policy can refuse a value because it is out of range or because it is of a wrong type. Over the
built-in policies the second never happens: a constructor gets as many values as it has parameters,
each of the kind that it asks for, and a nested call gives a policy of the family that was looked up
for the call around it.
-/

namespace DriverPolicy

/-- Some work refuses nothing but values that are out of range. -/
abbrev OnlyRange {α : Type} (result : Except Refusal α) : Prop :=
  FailsOnly (fun refusal => refusal.kind? = some .value) result

namespace Policy

/-- A policy of the wanted family is accepted as a child. -/
theorem requireChild_of_suits {owner : String} {wanted : Family} {child : Policy}
    (h : child.suits wanted) : requireChild owner wanted (.policy child) = .ok child :=
  requireChild_eq_ok_iff.mpr ⟨rfl, h⟩

/-- A data-center-aware policy refuses a blank name and a negative number of hosts. -/
theorem onlyRange_newDataCenterAware (localDataCenter : Option String) (remoteHosts : Int) :
    OnlyRange (newDataCenterAware localDataCenter remoteHosts) :=
  .ite (.error rfl) (.ite (.error rfl) (.ok _))

/-- A token-aware policy accepts every load-balancing policy. -/
theorem onlyRange_newTokenAware {child : Policy} (h : child.suits .loadBalancing) :
    OnlyRange (newTokenAware (.policy child)) := by
  rw [newTokenAware, requireChild_of_suits h]
  exact .ok _

/-- A latency-aware policy around a load-balancing policy refuses settings that are out of range. -/
theorem onlyRange_newLatencyAware {child : Policy} (h : child.suits .loadBalancing)
    (settings : LatencySettings) : OnlyRange (newLatencyAware (.policy child) settings) := by
  rw [newLatencyAware, requireChild_of_suits h, ok_bind]
  exact .ite (.error rfl) <| .ite (.error rfl) <| .ite (.error rfl) <| .ite (.error rfl) <|
    .ite (.error rfl) (.ok _)

/-- A reconnection policy with one delay refuses a negative one. -/
theorem onlyRange_newConstant (delay : Int) : OnlyRange (newConstant delay) :=
  .ite (.error rfl) (.ok _)

/-- A reconnection policy with doubling delays refuses those that are out of range. -/
theorem onlyRange_newExponential (base max : Int) : OnlyRange (newExponential base max) :=
  .ite (.error rfl) <| .ite (.error rfl) <| .ite (.error rfl) (.ok _)

end Policy

namespace PolicyClass

variable {c : PolicyClass} {values : List TypedValue}

/-- A constructor of a built-in class refuses nothing but values that are out of range, if it is
given values of its kinds, and policies that belong to the family of the class. -/
theorem Builds.kind?_of_refused {result : Except ConstructionFault Policy} {refusal : Refusal}
    (h : c.Builds values result)
    (hsuits : ∀ policy, .ofPolicy policy ∈ values → policy.suits c.family)
    (hresult : result = .error (.refused refusal)) : refusal.kind? = some .value := by
  -- a plain constructor refuses what the function behind it refuses
  have hplain {made : Except Refusal Policy} (hmade : OnlyRange made)
      (h : made.mapError ConstructionFault.refused = .error (.refused refusal)) :
      refusal.kind? = some .value := by
    obtain ⟨given, hgiven, hsame⟩ := mapError_eq_error_iff.mp h
    obtain rfl := ConstructionFault.refused.inj hsame
    exact hmade given hgiven
  cases h with
  | roundRobin => contradiction
  | anyDataCenter => exact hplain (Policy.onlyRange_newDataCenterAware none 0) hresult
  | localDataCenter name => exact hplain (Policy.onlyRange_newDataCenterAware (some name) 0) hresult
  | remoteHosts name hosts =>
    exact hplain (Policy.onlyRange_newDataCenterAware (some name) hosts) hresult
  | tokenAware child =>
    exact hplain (Policy.onlyRange_newTokenAware (hsuits child List.mem_cons_self)) hresult
  | latencyAware arguments =>
    by_cases hfit : arguments.Fit
    · rw [LatencyArguments.build_of_fit hfit] at hresult
      have hchild := hsuits arguments.child List.mem_cons_self
      exact hplain (Policy.onlyRange_newLatencyAware hchild _) hresult
    · obtain ⟨excess, hoverflow⟩ := LatencyArguments.build_of_not_fit hfit
      exact nomatch hoverflow.symm.trans hresult
  | constant delay => exact hplain (Policy.onlyRange_newConstant delay) hresult
  | exponential base max => exact hplain (Policy.onlyRange_newExponential base max) hresult

end PolicyClass

namespace PolicyType

variable {type : PolicyType} {values : List TypedValue}

/-- A fault of the construction is a refusal of the values by the type that it names. -/
theorem refuses_of_construct {name : String} {refusal : Refusal}
    (h : type.construct values = .error (.fault (.construction name refusal))) :
    type.Refuses values refusal := by
  unfold construct at h
  split at h
  · exact nomatch h
  · next constructor hfind =>
    split at h
    · exact nomatch h
    · next given hbuild =>
      obtain ⟨-, rfl⟩ := ResolutionFault.construction.inj
        (ResolutionFailure.fault.inj (Except.error.inj h))
      exact ⟨constructor, hfind, hbuild⟩
    · exact nomatch h

/-- A stepwise constructor is found for a first value and one for each of its steps. -/
theorem exists_cons_of_find?_stepwise {first : ParameterKind} {steps : List SettingStep}
    (h : type.find? (TypedValue.signature values) = some (.stepwise first steps)) :
    ∃ child rest, values = child :: rest ∧ rest.length = steps.length := by
  have hsignature : first :: steps.map SettingStep.kind = TypedValue.signature values :=
    (find?_eq_some_iff.mp h).2
  obtain ⟨child, rest, rfl, -, hrest⟩ := List.map_eq_cons_iff.mp hsignature.symm
  exact ⟨child, rest, rfl, by simpa using congrArg List.length hrest⟩

end PolicyType

namespace Resolver

variable {resolver : Resolver} {home : String}

/-- A name stands for a built-in type of the resolver's family. -/
theorem exists_builtinType_of_typeOf (hregistry : resolver.registry = .builtin home) {name : String}
    {type : PolicyType} (h : resolver.typeOf name = .ok type) :
    ∃ c : PolicyClass, c.builtinType home = type ∧ c.family = resolver.family := by
  obtain ⟨hmem, hfamily⟩ := mem_entries_of_typeOf h
  rw [hregistry] at hmem
  obtain ⟨c, rfl⟩ := mem_builtinTypes_iff.mp hmem
  exact ⟨c, rfl, hfamily⟩

/-- The policy of a nested call belongs to the resolver's family and can be a child in it. -/
theorem suits_of_valueGiven (hregistry : resolver.registry = .builtin home) {argument : Argument}
    {policy : Policy} (h : resolver.valueGiven argument = .ok (.ofPolicy policy)) :
    policy.suits resolver.family ∧ policy.family = resolver.family := by
  cases argument with
  | literal literal =>
    have hkind := congrArg TypedValue.kind (Except.ok.inj h)
    cases literal <;> contradiction
  | call name arguments =>
    rw [valueGiven] at h
    obtain ⟨type, htype, h⟩ := bind_eq_ok_iff.mp h
    obtain ⟨values, hvalues, h⟩ := bind_eq_ok_iff.mp h
    obtain ⟨given, hgiven, h⟩ := bind_eq_ok_iff.mp h
    obtain rfl := Value.policy.inj (congrArg TypedValue.value (Except.ok.inj h))
    obtain ⟨c, rfl, hfamily⟩ := exists_builtinType_of_typeOf hregistry htype
    have hconstructs :=
      (PolicyClass.construct_eq_ok_iff_constructs home (isTyped_of_valuesGiven hvalues)).mp hgiven
    rw [← hfamily]
    exact ⟨hconstructs.suits,
      (PolicyType.keepsFamily_builtinType home c).family_of_construct hgiven⟩

/-- Where a construction is reached, its policies are those of nested calls. -/
theorem Reaches.suits (hregistry : resolver.registry = .builtin home) {type : PolicyType}
    {values : List TypedValue} {call : Call} (h : Reaches resolver type values call)
    {policy : Policy} (hpolicy : .ofPolicy policy ∈ values) : policy.suits resolver.family := by
  induction h with
  | @here call htype hvalues =>
    rw [valuesGiven_eq_mapM] at hvalues
    rcases mapM_cases resolver.valueGiven call.arguments with
      ⟨given, hgiven, hmem⟩ | ⟨before, argument, after, read, failure, -, -, -, hfail⟩
    · obtain rfl := Except.ok.inj (hgiven.symm.trans hvalues)
      obtain ⟨argument, -, hargument⟩ := hmem _ hpolicy
      exact (suits_of_valueGiven hregistry hargument).1
    · rw [hfail] at hvalues
      contradiction
  | inside houter harguments hbefore h ih => exact ih

/-- A construction that is reached refuses nothing but values that are out of range. -/
theorem Reaches.kind?_of_refuses (hregistry : resolver.registry = .builtin home)
    {type : PolicyType} {values : List TypedValue} {call : Call}
    (h : Reaches resolver type values call) {refusal : Refusal}
    (hrefuses : type.Refuses values refusal) : refusal.kind? = some .value := by
  obtain ⟨name, hname⟩ := h.exists_typeOf
  obtain ⟨c, rfl, hfamily⟩ := exists_builtinType_of_typeOf hregistry hname
  obtain ⟨constructor, hfind, hbuild⟩ := hrefuses
  obtain ⟨hmem, hsignature⟩ := PolicyType.find?_eq_some_iff.mp hfind
  have hbuilds := PolicyClass.builds_of_signature h.isTyped hmem hsignature
  refine hbuilds.kind?_of_refused (fun policy hpolicy => ?_) hbuild
  rw [hfamily]
  exact h.suits hregistry hpolicy

/-- Looking a name up is no construction. -/
theorem typeOf_ne_construction {name qualified : String} {refusal : Refusal} :
    resolver.typeOf name ≠ .error (.fault (.construction qualified refusal)) := by
  intro h
  rw [typeOf, Registry.lookup] at h
  rcases bind_eq_error_iff.mp h with hget | ⟨type, -, hfamily⟩
  · unfold Registry.get at hget
    split at hget <;> cases hget
  · split at hfamily <;> cases hfamily

/-- A fault of a construction comes from one that is reached. -/
theorem exists_reaches_of_construction {call : Call} {name : String} {refusal : Refusal}
    (h : resolver.policyGiven call = .error (.fault (.construction name refusal))) :
    ∃ type values, Reaches resolver type values call ∧ type.Refuses values refusal := by
  by_cases hfamily : resolver.family = .retry
  · -- shared instances are handed out or missing
    rw [policyGiven] at h
    rcases bind_eq_error_iff.mp h with htype | ⟨type, -, h⟩
    · exact absurd htype typeOf_ne_construction
    · rw [if_pos hfamily, PolicyType.requireShared] at h
      split at h <;> cases h
  · rcases failure_of_policyGiven hfamily h with ⟨name, hname⟩ | ⟨type, values, hreach, hfail⟩
    · exact absurd hname typeOf_ne_construction
    · exact ⟨type, values, hreach, PolicyType.refuses_of_construct hfail⟩

/-- Over the built-in policies, in whatever namespaces they are registered and names are looked up,
no construction is refused for the type of a value, but only for one that is out of range. For the
policy of a nested call belongs to the family of the type that was looked up for the call around it,
where it can be a child, and where the resolution comes to a stepwise constructor there is a first
value and exactly one for each of the steps. -/
theorem construction_refused_for_range (home namespaceName : String) (family : Family)
    (expression : String) :
    let resolver : Resolver := ⟨family, .builtin home, namespaceName⟩
    (∀ name refusal, resolver.policyOf expression = .error (.fault (.construction name refusal)) →
      refusal.kind? = some .value) ∧
    (∀ name type, resolver.typeOf name = .ok type → ∀ nested policy,
      resolver.valueGiven nested = .ok (.ofPolicy policy) →
        policy.suits type.family ∧ policy.family = type.family) ∧
    ∀ call, resolver.read expression = .ok call → ∀ type values,
      Reaches resolver type values call → ∀ first steps,
        type.find? (TypedValue.signature values) = some (.stepwise first steps) →
          ∃ child rest, values = child :: rest ∧ rest.length = steps.length := by
  intro resolver
  refine ⟨fun name refusal hfault => ?_, fun name type htype nested policy hpolicy => ?_,
    fun call _ type values _ first steps => PolicyType.exists_cons_of_find?_stepwise⟩
  · cases hread : resolver.read expression with
    | error fault =>
      rw [policyOf_eq, hread] at hfault
      cases fault <;> exact nomatch hfault
    | ok call =>
      rw [policyOf_of_read hread] at hfault
      obtain ⟨type, values, hreach, hrefuses⟩ := exists_reaches_of_construction hfault
      exact hreach.kind?_of_refuses rfl hrefuses
  · rw [(mem_entries_of_typeOf htype).2]
    exact suits_of_valueGiven rfl hpolicy

/-- A blank name of a data center under a token-aware policy is refused for its range. -/
theorem construction_refused_blank_data_center :
    (standard .loadBalancing).policyOf "TokenAwarePolicy(DCAwareRoundRobinPolicy(' '))" =
      .error (.fault (.construction "cqlpolicy.policies.DCAwareRoundRobinPolicy"
        .blankDataCenter)) ∧
    Refusal.blankDataCenter.kind? = some .value := by
  have hread : (standard .loadBalancing).read "TokenAwarePolicy(DCAwareRoundRobinPolicy(' '))" =
      .ok ⟨"TokenAwarePolicy", [.call "DCAwareRoundRobinPolicy" [.literal (.string " ")]]⟩ :=
    Option.some.inj ((Call.readWithin_length _).symm.trans rfl)
  have hpolicy : (standard .loadBalancing).policyOf
      "TokenAwarePolicy(DCAwareRoundRobinPolicy(' '))" =
        .error (.fault (.construction "cqlpolicy.policies.DCAwareRoundRobinPolicy"
          .blankDataCenter)) := by
    rw [policyOf_of_read hread]
    rfl
  exact ⟨hpolicy, (construction_refused_for_range defaultNamespace defaultNamespace .loadBalancing
    _).1 _ _ hpolicy⟩

end Resolver

end DriverPolicy
