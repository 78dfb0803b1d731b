import DriverPolicy.Proofs.Expression.Descent
import DriverPolicy.Proofs.Registry.Entries
import DriverPolicy.Proofs.Resolution.Renaming

/-!
# The built-in policies in a namespace of one's choice

The built-in policies can be registered in any namespace, and names without a point are then looked
up in it. The two put the namespace in front of a name in different places. They agree for every
namespace but the empty one: there the policies are registered with a point in front of their names,
and looked up without it.

Where they agree, resolution has the same outcome in all namespaces, apart from the namespace in the
name that a failure carries.
-/

namespace DriverPolicy

/-- Replace the qualified name that a fault carries. -/
def ResolutionFault.mapName (f : String → String) : ResolutionFault → ResolutionFault
  | .unknownPolicy name => .unknownPolicy (f name)
  | .familyMismatch name expected actual => .familyMismatch (f name) expected actual
  | .noMatchingConstructor name requested available =>
    .noMatchingConstructor (f name) requested available
  | .missingInstance name => .missingInstance (f name)
  | .construction name refusal => .construction (f name) refusal
  | .unknownBecause name reason => .unknownBecause (f name) reason
  | .expression fault => .expression fault
  | .stated reason => .stated reason

/-- Replace the qualified name that a failure carries. -/
def ResolutionFailure.mapName (f : String → String) : ResolutionFailure → ResolutionFailure
  | .fault cause => .fault (cause.mapName f)
  | .tooManyDigits count => .tooManyDigits count
  | .overflow excess => .overflow excess

/-- Two failures are one and the same but for the namespace of the name that they carry. -/
def ResolutionFailure.SameIn (a b : String) (x y : ResolutionFailure) : Prop :=
  ∃ failure : ResolutionFailure, failure.mapName (joinName a) = x ∧ failure.mapName (joinName b) = y

/-- What a short name stands for in a family among the built-in policies of a namespace. -/
theorem Registry.lookup_builtin (namespaceName name : String) (family : Family) :
    (Registry.builtin namespaceName).lookup (joinName namespaceName name) family =
      match PolicyClass.ofName? name with
      | none => .error (.fault (.unknownPolicy (joinName namespaceName name)))
      | some c =>
        if c.family = family then .ok (c.builtinType namespaceName)
        else .error (.fault (.familyMismatch (joinName namespaceName name) family.name
          c.family.name)) := by
  have hfind : (Registry.builtin namespaceName).find? (joinName namespaceName name) =
      (PolicyClass.ofName? name).map (PolicyClass.builtinType namespaceName) := by
    have hname (c : PolicyClass) : ((c.builtinType namespaceName).qualifiedName =
        joinName namespaceName name) ↔ c.name = name :=
      ⟨joinName_injective, fun h => h ▸ rfl⟩
    simp only [find?, builtin, builtinTypes, List.find?_map, PolicyClass.ofName?, Function.comp_def,
      hname]
  rw [lookup, get, hfind]
  cases PolicyClass.ofName? name with
  | none => rfl
  | some c => rfl

namespace PolicyClass

/-- The built-in types of a class are alike in all namespaces. -/
theorem alike_builtinType (a b : String) (c : PolicyClass) :
    (c.builtinType a).Alike (ResolutionFailure.SameIn a b) (c.builtinType b) where
  construct values := by
    have hfind : (c.builtinType b).find? (TypedValue.signature values) =
        (c.builtinType a).find? (TypedValue.signature values) := rfl
    rw [PolicyType.construct, PolicyType.construct, hfind]
    split
    · exact .error ⟨.fault (.noMatchingConstructor c.name _ _), rfl, rfl⟩
    · split
      · exact .ok rfl
      · next refusal _ => exact .error ⟨.fault (.construction c.name refusal), rfl, rfl⟩
      · next excess _ => exact .error ⟨.overflow excess, rfl, rfl⟩
  requireShared := by
    have hshared : (c.builtinType b).shared? = (c.builtinType a).shared? := rfl
    rw [PolicyType.requireShared, PolicyType.requireShared, hshared]
    split
    · exact .ok rfl
    · exact .error ⟨.fault (.missingInstance c.name), rfl, rfl⟩

end PolicyClass

namespace Resolver

/-- A resolver of the built-in policies in a namespace, which is also that of names without one. -/
def builtinIn (namespaceName : String) (family : Family) : Resolver :=
  ⟨family, .builtin namespaceName, namespaceName⟩

/-- A resolver reads an expression as its family does, whatever the namespace. -/
theorem read_builtinIn (namespaceName : String) (family : Family) (expression : String) :
    (builtinIn namespaceName family).read expression = (standard family).read expression := rfl

/-- Resolvers of the built-in policies in two namespaces mirror each other on names without a
point. -/
theorem mirrors_builtinIn {a b : String} (ha : a ≠ "") (hb : b ≠ "") (family : Family) :
    Mirrors (ResolutionFailure.SameIn a b) (fun name => ¬IsDotted name) id (builtinIn a family)
      (builtinIn b family) where
  family_eq := rfl
  typeOf name hname := by
    rw [id, typeOf, typeOf, builtinIn, builtinIn]
    dsimp only
    rw [qualifyName_of_not_isDotted hname ha, qualifyName_of_not_isDotted hname hb,
      Registry.lookup_builtin, Registry.lookup_builtin]
    split
    · exact .error ⟨.fault (.unknownPolicy name), rfl, rfl⟩
    · next c _ =>
      split
      · exact .ok (c.alike_builtinType a b)
      · exact .error ⟨.fault (.familyMismatch name _ _), rfl, rfl⟩

/-- All names in an expression are without a point, as far as a family can read it. -/
def Undotted (family : Family) (expression : String) : Prop :=
  ∀ call, (standard family).read expression = .ok call → ∀ name ∈ call.names, ¬IsDotted name

/-- An expression of names without a point has the same outcome over the built-in policies of two
namespaces, apart from the namespace in the name of a failure. -/
theorem policyOf_builtinIn {a b : String} (ha : a ≠ "") (hb : b ≠ "") {family : Family}
    {expression : String} (h : Undotted family expression) :
    Correspond Eq (ResolutionFailure.SameIn a b) ((builtinIn a family).policyOf expression)
      ((builtinIn b family).policyOf expression) := by
  rw [policyOf_eq, policyOf_eq, read_builtinIn, read_builtinIn]
  cases hcall : (standard family).read expression with
  | error fault =>
    refine .error ⟨.ofReading fault, ?_⟩
    cases fault with
    | expression fault => exact ⟨rfl, rfl⟩
    | tooManyDigits count => exact ⟨rfl, rfl⟩
  | ok call =>
    have hpolicy := (mirrors_builtinIn ha hb family).policyGiven (h call hcall)
    rwa [Call.mapNames_id] at hpolicy

/-- In the empty namespace no built-in policy is found by a name without a point. -/
theorem policyOf_builtinIn_empty {family : Family} {expression : String} {call : Call}
    (hread : (standard family).read expression = .ok call) (hname : ¬IsDotted call.name) :
    (builtinIn "" family).policyOf expression = .error (.fault (.unknownPolicy call.name)) := by
  have hunknown : (Registry.builtin "").contains call.name = false := by
    rw [Registry.contains_eq_false_iff]
    intro hmem
    obtain ⟨type, htype, hqualified⟩ := List.mem_map.mp hmem
    obtain ⟨c, -, rfl⟩ := List.mem_map.mp htype
    -- the names of the registry begin with the point that joins them to the namespace
    refine hname (hqualified ▸ ?_)
    simp [IsDotted, PolicyClass.builtinType, joinName]
  have hlookup : (builtinIn "" family).typeOf call.name =
      .error (.fault (.unknownPolicy call.name)) := by
    rw [typeOf, builtinIn, qualifyName, if_pos (by simp)]
    exact Registry.lookup_of_contains_eq_false hunknown family
  rw [policyOf_of_read ((read_builtinIn "" family expression).trans hread), policyGiven, hlookup]
  rfl

/-- The simplest expression is read as a bare name. -/
theorem read_round_robin : (standard .loadBalancing).read "RoundRobinPolicy" =
    .ok ⟨"RoundRobinPolicy", []⟩ :=
  Option.some.inj ((Call.readWithin_length _).symm.trans rfl)

/-- Its name has no point. -/
theorem undotted_round_robin : Undotted .loadBalancing "RoundRobinPolicy" := by
  intro call hcall
  obtain rfl := Except.ok.inj (read_round_robin.symm.trans hcall)
  decide

/-- It describes a round-robin policy. -/
theorem policyOf_round_robin :
    (standard .loadBalancing).policyOf "RoundRobinPolicy" = .ok .roundRobin := by
  rw [policyOf_of_read read_round_robin]
  rfl

/-- Expressions of names without a point resolve over the built-in policies of a namespace as they do
over those of the default namespace, apart from the namespace in the name of a failure, if and only
if the namespace is not empty. Over those of the empty namespace every name without a point is
unknown. -/
theorem policyOf_builtinIn_iff (namespaceName : String) :
    ((∀ (family : Family) (expression : String), Undotted family expression →
      Correspond Eq (ResolutionFailure.SameIn namespaceName defaultNamespace)
        ((builtinIn namespaceName family).policyOf expression)
        ((standard family).policyOf expression)) ↔ namespaceName ≠ "") ∧
    ∀ (family : Family) (expression : String) (call : Call),
      (standard family).read expression = .ok call → ¬IsDotted call.name →
      (builtinIn "" family).policyOf expression = .error (.fault (.unknownPolicy call.name)) := by
  refine ⟨⟨?_, fun hnamespace family expression h => policyOf_builtinIn hnamespace (by decide) h⟩,
    fun family expression call => policyOf_builtinIn_empty⟩
  rintro h rfl
  have hcorrespond := h .loadBalancing "RoundRobinPolicy" undotted_round_robin
  rw [policyOf_round_robin, policyOf_builtinIn_empty read_round_robin (by decide)] at hcorrespond
  nomatch hcorrespond

/-- A round-robin policy is not found in the empty namespace. -/
theorem policyOf_round_robin_unknown :
    Undotted .loadBalancing "RoundRobinPolicy" ∧
    (builtinIn "" .loadBalancing).policyOf "RoundRobinPolicy" =
      .error (.fault (.unknownPolicy "RoundRobinPolicy")) ∧
    (standard .loadBalancing).policyOf "RoundRobinPolicy" = .ok .roundRobin :=
  ⟨undotted_round_robin, policyOf_builtinIn_empty read_round_robin (by decide), policyOf_round_robin⟩

end Resolver

end DriverPolicy
