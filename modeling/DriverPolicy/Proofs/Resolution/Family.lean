import DriverPolicy.Proofs.Expression.Descent
import DriverPolicy.Proofs.Registry.Selection
import DriverPolicy.Proofs.Resolution.Reduction

/-!
# The family of a resolved policy

A look-up compares the family of a type with that of the resolver, and a type compares the family
of its shared instance with its own. What the constructors of a type build is compared with nothing.
So a resolver gives policies of its own family as long as the constructors of its types build
policies of the type's family. Those of the built-in classes and the stepwise ones do; a constructor
that does not makes the resolver of one family give a policy of another.
-/

namespace DriverPolicy

/-- The policies of a class belong to its family. -/
theorem PolicyClass.family_of_construct {c : PolicyClass} {values : List Value} {policy : Policy} :
    c.construct values = .ok policy → policy.family = c.family := by
  fun_cases construct c values <;> intro h
  case case1 => exact Except.ok.inj h ▸ rfl
  case case2 | case3 | case4 | case5 | case6 =>
    obtain ⟨-, -, rfl⟩ := Policy.newDataCenterAware_eq_ok_iff.mp h
    rfl
  case case7 child =>
    obtain ⟨inner, -, -, rfl⟩ := Policy.newTokenAware_eq_ok_iff.mp h
    rfl
  case case8 child settings =>
    obtain ⟨builder, -, hbuild⟩ := bind_eq_ok_iff.mp h
    obtain ⟨inner, -, -, -, rfl⟩ := Policy.newLatencyAware_eq_ok_iff.mp hbuild
    rfl
  case case9 | case10 | case11 => exact Except.ok.inj h ▸ rfl
  case case12 child =>
    obtain ⟨inner, -, -, rfl⟩ := Policy.newLoggingRetry_eq_ok_iff.mp h
    rfl
  case case13 delay =>
    obtain ⟨-, rfl⟩ := Policy.newConstant_eq_ok_iff.mp h
    rfl
  case case14 base max =>
    obtain ⟨-, -, rfl⟩ := Policy.newExponential_eq_ok_iff.mp h
    rfl
  case case15 => contradiction

/-- The constructors of a built-in class call it or, for latency-aware policies, go step by step. -/
theorem PolicyClass.mem_constructors_cases {c : PolicyClass} {constructor : Constructor}
    (h : constructor ∈ c.constructors) : (∃ signature, constructor = .ofClass c signature) ∨
      c = .latencyAware ∧ ∃ first steps, constructor = .stepwise first steps := by
  by_cases hc : c = .latencyAware
  · subst hc
    exact Or.inr ⟨rfl, _, _, List.mem_singleton.mp h⟩
  · obtain ⟨signatures, hplain⟩ := constructors_eq_map hc
    rw [hplain] at h
    obtain ⟨signature, -, rfl⟩ := List.mem_map.mp h
    exact Or.inl ⟨signature, rfl⟩

/-- A stepwise constructor builds load-balancing policies. -/
theorem Constructor.family_of_stepwise {first : ParameterKind} {steps : List SettingStep}
    {values : List Value} {policy : Policy} (h : (stepwise first steps).build values = .ok policy) :
    policy.family = .loadBalancing := by
  cases values with
  | nil => contradiction
  | cons child values =>
    obtain ⟨draft, -, hbuild⟩ := bind_eq_ok_iff.mp h
    exact PolicyClass.family_of_construct (mapError_eq_ok_iff.mp hbuild)

namespace PolicyType

/-- Whether all constructors of a type build policies of its family. -/
def KeepsFamily (type : PolicyType) : Prop := ∀ constructor ∈ type.constructors,
  ∀ values policy, constructor.build values = .ok policy → policy.family = type.family

/-- A type that keeps its family constructs policies of it. -/
theorem KeepsFamily.family_of_construct {type : PolicyType} (h : type.KeepsFamily)
    {values : List TypedValue} {policy : Policy} (hpolicy : type.construct values = .ok policy) :
    policy.family = type.family := by
  obtain ⟨constructor, hmem, -, hbuild⟩ := construct_eq_ok_iff.mp hpolicy
  exact h constructor hmem _ policy hbuild

/-- Plain constructors of classes of the family keep it, and so do stepwise ones if they build the
load-balancing policies that they are for. -/
theorem keepsFamily_of_constructors {type : PolicyType}
    (h : ∀ constructor ∈ type.constructors,
      (∃ c signature, constructor = .ofClass c signature ∧ c.family = type.family) ∨
        ∃ first steps, constructor = .stepwise first steps ∧ type.family = .loadBalancing) :
    type.KeepsFamily := by
  intro constructor hmem values policy hbuild
  rcases h constructor hmem with ⟨c, signature, rfl, hfamily⟩ | ⟨first, steps, rfl, hfamily⟩
  · rw [← hfamily]
    exact PolicyClass.family_of_construct (mapError_eq_ok_iff.mp hbuild)
  · rw [hfamily]
    exact Constructor.family_of_stepwise hbuild

/-- The built-in types keep their families. -/
theorem keepsFamily_builtinType (namespaceName : String) (c : PolicyClass) :
    (c.builtinType namespaceName).KeepsFamily := by
  refine keepsFamily_of_constructors fun constructor hmem => ?_
  rcases PolicyClass.mem_constructors_cases hmem with ⟨signature, rfl⟩ | ⟨rfl, first, steps, rfl⟩
  · exact Or.inl ⟨c, signature, rfl, rfl⟩
  · exact Or.inr ⟨first, steps, rfl, rfl⟩

end PolicyType

namespace Resolver

/-- Resolving a call goes astray: its type belongs to the resolver's family, but constructs a policy
of another one. -/
def GoesAstray (resolver : Resolver) (call : Call) : Prop :=
  resolver.family ≠ .retry ∧ ∃ type values policy, resolver.typeOf call.name = .ok type ∧
    resolver.valuesGiven call.arguments = .ok values ∧ type.construct values = .ok policy ∧
      policy.family ≠ type.family

variable {resolver : Resolver}

/-- A name stands for a type of the resolver's family that is registered. -/
theorem mem_entries_of_typeOf {name : String} {type : PolicyType}
    (h : resolver.typeOf name = .ok type) :
    type ∈ resolver.registry.entries ∧ type.family = resolver.family := by
  obtain ⟨hfind, hfamily⟩ := Registry.lookup_eq_ok_iff.mp h
  exact ⟨(Registry.find?_eq_some_iff.mp hfind).1, hfamily⟩

/-- The policy of a call has the resolver's family if resolving the call does not go astray. -/
theorem family_policyGiven_iff (call : Call) :
    (∀ policy, resolver.policyGiven call = .ok policy → policy.family = resolver.family) ↔
      ¬resolver.GoesAstray call := by
  constructor
  · rintro hfamily ⟨hretry, type, values, policy, htype, hvalues, hpolicy, hother⟩
    rw [policyGiven, htype, ok_bind, if_neg hretry, hvalues, ok_bind] at hfamily
    exact hother ((hfamily policy hpolicy).trans (mem_entries_of_typeOf htype).2.symm)
  · intro hnot policy hpolicy
    rw [policyGiven] at hpolicy
    obtain ⟨type, htype, hpolicy⟩ := bind_eq_ok_iff.mp hpolicy
    obtain ⟨-, hfamily⟩ := mem_entries_of_typeOf htype
    by_cases hretry : resolver.family = .retry
    · rw [if_pos hretry, PolicyType.requireShared] at hpolicy
      split at hpolicy
      · next shared hshared =>
        obtain rfl := Except.ok.inj hpolicy
        exact (type.suited shared hshared).trans hfamily
      · contradiction
    · rw [if_neg hretry] at hpolicy
      obtain ⟨values, hvalues, hpolicy⟩ := bind_eq_ok_iff.mp hpolicy
      by_contra hother
      rw [← hfamily] at hother
      exact hnot ⟨hretry, type, values, policy, htype, hvalues, hpolicy, hother⟩

/-- Resolving goes astray only at a type that does not keep its family. -/
theorem GoesAstray.exists_not_keepsFamily {call : Call} (h : resolver.GoesAstray call) :
    ∃ type ∈ resolver.registry.entries, type.family = resolver.family ∧ ¬type.KeepsFamily := by
  obtain ⟨-, type, values, policy, htype, -, hpolicy, hother⟩ := h
  obtain ⟨hmem, hfamily⟩ := mem_entries_of_typeOf htype
  exact ⟨type, hmem, hfamily, fun hkeeps => hother (hkeeps.family_of_construct hpolicy)⟩

/-- The policy that an expression describes has the resolver's family if and only if resolving the
expression does not go astray at its outermost call. It never does if all registered types of the
family keep it, as do the built-in types and all whose constructors are plain ones of classes of
their family, or stepwise ones for load-balancing policies. Every registry and every type here is
what a builder and the validation of its parts let through. -/
theorem family_policyOf_iff (resolver : Resolver) (expression : String) :
    ((∀ policy, resolver.policyOf expression = .ok policy → policy.family = resolver.family) ↔
      ∀ call, resolver.read expression = .ok call → ¬resolver.GoesAstray call) ∧
    ((∀ type ∈ resolver.registry.entries, type.family = resolver.family → type.KeepsFamily) →
      ∀ policy, resolver.policyOf expression = .ok policy → policy.family = resolver.family) ∧
    (∀ type : PolicyType, (∀ constructor ∈ type.constructors,
        (∃ c signature, constructor = .ofClass c signature ∧ c.family = type.family) ∨
          ∃ first steps, constructor = .stepwise first steps ∧ type.family = .loadBalancing) →
      type.KeepsFamily) ∧
    (∀ (namespaceName : String) (c : PolicyClass), (c.builtinType namespaceName).KeepsFamily) ∧
    RegistryBuilder.empty.registerAll resolver.registry.entries =
      .ok ⟨resolver.registry.entries, resolver.registry.distinct⟩ ∧
    ∀ type : PolicyType, PolicyType.make type.qualifiedName type.family type.constructors
      type.shared? = .ok type := by
  have hread : (∀ policy, resolver.policyOf expression = .ok policy →
      policy.family = resolver.family) ↔
        ∀ call, resolver.read expression = .ok call → ¬resolver.GoesAstray call := by
    cases hcall : resolver.read expression with
    | error fault =>
      have hpolicy (policy : Policy) : resolver.policyOf expression ≠ .ok policy := by
        rw [policyOf_eq, hcall]
        exact fun h => nomatch h
      exact ⟨fun _ _ h => (nomatch h), fun _ policy h => absurd h (hpolicy policy)⟩
    | ok call =>
      rw [policyOf_of_read hcall]
      simp only [Except.ok.injEq, forall_eq']
      exact family_policyGiven_iff call
  refine ⟨hread, fun hkeeps => hread.mpr fun call _ hastray => ?_,
    fun type => PolicyType.keepsFamily_of_constructors, PolicyType.keepsFamily_builtinType,
    RegistryBuilder.registerAll_entries _, PolicyType.make_self⟩
  obtain ⟨type, hmem, hfamily, hnot⟩ := hastray.exists_not_keepsFamily
  exact hnot (hkeeps type hmem hfamily)

/-- A type of load-balancing policies with a constructor of reconnection policies passes the
validation and is registered, and the load-balancing resolver gives a reconnection policy. -/
theorem policyOf_stray_reconnection : ∃ type builder,
    PolicyType.make "acme.Stray" .loadBalancing [.ofClass .constantReconnection [.long]] none =
      .ok type ∧
    RegistryBuilder.empty.registerAll [type] = .ok builder ∧
    (Resolver.mk .loadBalancing builder.build defaultNamespace).policyOf "acme.Stray((long)5)" =
      .ok (.constantReconnection 5) ∧
    (Policy.constantReconnection 5).family ≠ .loadBalancing := by
  have hread (registry : Registry) : (Resolver.mk .loadBalancing registry defaultNamespace).read
      "acme.Stray((long)5)" = .ok ⟨"acme.Stray", [.literal (.long 5)]⟩ :=
    Option.some.inj ((Call.readWithin_length _).symm.trans rfl)
  refine ⟨_, _, rfl, rfl, ?_, by decide⟩
  rw [policyOf_of_read (hread _)]
  rfl

end Resolver

end DriverPolicy
