import DriverPolicy.Proofs.Registry.Entries
import DriverPolicy.Proofs.Resolution.Reduction

/-!
# Resolving over an extended registry

When types of new names are added to a registry, a resolution can only change where it failed for
want of one of these names: a look-up of any other name is answered alike, and constructions depend
on nothing but the type that was found. Two resolutions of one expression, before and after, are
followed side by side up to the first step that fails.
-/

namespace DriverPolicy

/-- An outcome stays as it was, unless it was a failure for want of one of the names. -/
def StaysUnlessLacking {α : Type} (names : List String)
    (before after : Except ResolutionFailure α) : Prop :=
  after = before ∨ ∃ name ∈ names, before = .error (.fault (.unknownPolicy name))

namespace StaysUnlessLacking

variable {α β : Type} {names : List String}

/-- An outcome that does not depend on the registry stays. -/
theorem refl (outcome : Except ResolutionFailure α) : StaysUnlessLacking names outcome outcome :=
  Or.inl rfl

/-- If a step and what follows it stay, so does their sequence. -/
theorem bind {before after : Except ResolutionFailure α}
    {nextBefore nextAfter : α → Except ResolutionFailure β}
    (h : StaysUnlessLacking names before after)
    (hnext : ∀ a, StaysUnlessLacking names (nextBefore a) (nextAfter a)) :
    StaysUnlessLacking names (before >>= nextBefore) (after >>= nextAfter) := by
  rcases h with rfl | ⟨name, hname, rfl⟩
  · cases after with
    | error failure => exact .refl _
    | ok a => exact hnext a
  · exact Or.inr ⟨name, hname, rfl⟩

/-- An outcome that was no such failure is the same. -/
theorem eq {before after : Except ResolutionFailure α} (h : StaysUnlessLacking names before after)
    (hknown : ∀ name ∈ names, before ≠ .error (.fault (.unknownPolicy name))) :
    after = before := by
  rcases h with rfl | ⟨name, hname, hlacks⟩
  · rfl
  · exact absurd hlacks (hknown name hname)

end StaysUnlessLacking

namespace Resolver

/-- A resolver that knows more names than another of the same family: what a name stands for stays,
unless it was unknown and is one of the names that are new. -/
structure Extends (names : List String) (before after : Resolver) : Prop where
  /-- The family is the same. -/
  family_eq : after.family = before.family
  /-- All other names stand for what they stood for. -/
  typeOf (name : String) : StaysUnlessLacking names (before.typeOf name) (after.typeOf name)

namespace Extends

variable {names : List String} {before after : Resolver}

mutual

/-- The value of an argument stays. -/
theorem valueGiven (h : Extends names before after) (argument : Argument) :
    StaysUnlessLacking names (before.valueGiven argument) (after.valueGiven argument) := by
  cases argument with
  | literal value =>
    rw [Resolver.valueGiven, Resolver.valueGiven]
    exact .refl _
  | call name arguments =>
    rw [Resolver.valueGiven, Resolver.valueGiven]
    exact (h.typeOf name).bind fun type => (h.valuesGiven arguments).bind fun values => .refl _

/-- The values of arguments stay. -/
theorem valuesGiven (h : Extends names before after) (arguments : List Argument) :
    StaysUnlessLacking names (before.valuesGiven arguments) (after.valuesGiven arguments) := by
  cases arguments with
  | nil =>
    rw [Resolver.valuesGiven, Resolver.valuesGiven]
    exact .refl _
  | cons argument rest =>
    rw [Resolver.valuesGiven, Resolver.valuesGiven]
    exact (h.valueGiven argument).bind fun value => (h.valuesGiven rest).bind fun values => .refl _

end

/-- The policy of a call tree stays. -/
theorem policyGiven (h : Extends names before after) (call : Call) :
    StaysUnlessLacking names (before.policyGiven call) (after.policyGiven call) := by
  rw [Resolver.policyGiven, Resolver.policyGiven, h.family_eq]
  refine (h.typeOf call.name).bind fun type => ?_
  split
  · exact .refl _
  · exact (h.valuesGiven call.arguments).bind fun values => .refl _

/-- The policy that an expression describes stays. -/
theorem policyOf (h : Extends names before after) (expression : String) :
    StaysUnlessLacking names (before.policyOf expression) (after.policyOf expression) := by
  rw [policyOf_eq, policyOf_eq, Resolver.read, Resolver.read, h.family_eq]
  exact .bind (.refl _) fun call => h.policyGiven call

end Extends

variable {registry : Registry} {builder : RegistryBuilder} {types : List PolicyType}

/-- The names that are added were unknown, and all others are looked up as before. -/
theorem lookup_eq_ite (h : (RegistryBuilder.ofRegistry registry).registerAll types = .ok builder)
    (name : String) (family : Family) : registry.lookup name family =
      if name ∈ namesOf types then .error (.fault (.unknownPolicy name))
      else builder.build.lookup name family := by
  obtain ⟨-, hnew⟩ := RegistryBuilder.exists_registerAll_ofRegistry_iff.mp ⟨builder, h⟩
  split
  · next hmem => exact Registry.lookup_of_contains_eq_false (hnew name hmem) family
  · next hmem =>
    exact (Registry.lookup_congr (RegistryBuilder.find?_build_of_not_mem h hmem) family).symm

/-- A resolver over an extended registry extends that over the registry. -/
theorem extends_of_registerAll
    (h : (RegistryBuilder.ofRegistry registry).registerAll types = .ok builder) (family : Family)
    (namespaceName : String) :
    Extends (namesOf types) ⟨family, registry, namespaceName⟩
      ⟨family, builder.build, namespaceName⟩ where
  family_eq := rfl
  typeOf name := by
    rw [typeOf, typeOf, lookup_eq_ite h]
    split
    · next hmem => exact Or.inr ⟨_, hmem, rfl⟩
    · exact .refl _

/-- Types can be added to those of a registry if and only if their names are new and differ from
each other. The extended registry then holds the types of both. Every resolution has the same
outcome as over the registry itself, unless that one did not know a name that is added; and the
registry still does not know the added names and answers look-ups of all others as the extended
one does. -/
theorem policyOf_extension (registry : Registry) (types : List PolicyType) :
    ((∃ builder, (RegistryBuilder.ofRegistry registry).registerAll types = .ok builder) ↔
      (namesOf types).Nodup ∧ ∀ name ∈ namesOf types, registry.contains name = false) ∧
    ∀ builder, (RegistryBuilder.ofRegistry registry).registerAll types = .ok builder →
      (∀ (family : Family) (namespaceName expression : String),
        (∀ name ∈ namesOf types, (Resolver.mk family registry namespaceName).policyOf expression ≠
          .error (.fault (.unknownPolicy name))) →
        (Resolver.mk family builder.build namespaceName).policyOf expression =
          (Resolver.mk family registry namespaceName).policyOf expression) ∧
      (∀ (name : String) (family : Family), registry.lookup name family =
        if name ∈ namesOf types then .error (.fault (.unknownPolicy name))
        else builder.build.lookup name family) ∧
      ∀ (name : String) (type : PolicyType), builder.build.find? name = some type ↔
        registry.find? name = some type ∨ type ∈ types ∧ type.qualifiedName = name := by
  refine ⟨RegistryBuilder.exists_registerAll_ofRegistry_iff, fun builder h => ⟨?_, ?_, ?_⟩⟩
  · intro family namespaceName expression hknown
    exact ((extends_of_registerAll h family namespaceName).policyOf expression).eq hknown
  · exact lookup_eq_ite h
  · exact fun name type => RegistryBuilder.find?_build_of_registerAll h

end Resolver

end DriverPolicy
