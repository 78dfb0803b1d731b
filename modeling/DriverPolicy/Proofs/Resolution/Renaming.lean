import DriverPolicy.Proofs.Resolution.Rounds

/-!
# Renaming the calls of a tree

The names in a call tree have no other part in its resolution than to be looked up. If two resolvers
of one family answer corresponding look-ups alike, they build the same policy, or fail alike, from a
tree and from the tree with its names replaced. Both reductions are followed side by side.

The namespace of a resolver is an abbreviation in this sense: it only saves writing it in front of
the names that have none.
-/

namespace DriverPolicy

mutual

/-- The names of all calls in an argument. -/
def Argument.names : Argument → List String
  | .literal _ => []
  | .call name arguments => name :: Argument.namesAll arguments

/-- The names of all calls in arguments. -/
def Argument.namesAll : List Argument → List String
  | [] => []
  | argument :: rest => argument.names ++ Argument.namesAll rest

end

mutual

/-- Replace the names of all calls in an argument. -/
def Argument.mapNames (f : String → String) : Argument → Argument
  | .literal value => .literal value
  | .call name arguments => .call (f name) (Argument.mapNamesAll f arguments)

/-- Replace the names of all calls in arguments. -/
def Argument.mapNamesAll (f : String → String) : List Argument → List Argument
  | [] => []
  | argument :: rest => argument.mapNames f :: Argument.mapNamesAll f rest

end

namespace Call

/-- The names of all calls in a tree. -/
def names (call : Call) : List String := call.name :: Argument.namesAll call.arguments

/-- Replace the names of all calls in a tree. -/
def mapNames (f : String → String) (call : Call) : Call :=
  ⟨f call.name, Argument.mapNamesAll f call.arguments⟩

end Call

mutual

/-- An argument stays if each name is replaced by itself. -/
theorem Argument.mapNames_id (argument : Argument) : argument.mapNames id = argument := by
  cases argument with
  | literal value => rw [mapNames]
  | call name arguments => rw [mapNames, Argument.mapNamesAll_id arguments, id]

/-- So do arguments. -/
theorem Argument.mapNamesAll_id (arguments : List Argument) :
    Argument.mapNamesAll id arguments = arguments := by
  cases arguments with
  | nil => rw [mapNamesAll]
  | cons argument rest => rw [mapNamesAll, argument.mapNames_id, Argument.mapNamesAll_id rest]

end

/-- So does a tree. -/
theorem Call.mapNames_id (call : Call) : call.mapNames id = call := by
  rw [mapNames, Argument.mapNamesAll_id, id]

variable {S : ResolutionFailure → ResolutionFailure → Prop}

/-- Two types construct the same policies from the same values and have the same shared instance, or
fail alike. -/
structure PolicyType.Alike (S : ResolutionFailure → ResolutionFailure → Prop) (a b : PolicyType) :
    Prop where
  construct (values : List TypedValue) : Correspond Eq S (a.construct values) (b.construct values)
  requireShared : Correspond Eq S a.requireShared b.requireShared

/-- A type is like itself. -/
theorem PolicyType.Alike.refl (hS : ∀ failure, S failure failure) (type : PolicyType) :
    type.Alike S type :=
  ⟨fun _ => .refl (fun _ => rfl) hS _, .refl (fun _ => rfl) hS _⟩

namespace Resolver

/-- Two resolvers of one family mirror each other: names with a property and the names that `f`
replaces them by stand for types that are alike, or their look-ups fail alike. -/
structure Mirrors (S : ResolutionFailure → ResolutionFailure → Prop) (p : String → Prop)
    (f : String → String) (before after : Resolver) : Prop where
  family_eq : after.family = before.family
  typeOf (name : String) (hname : p name) :
    Correspond (PolicyType.Alike S) S (before.typeOf name) (after.typeOf (f name))

namespace Mirrors

variable {p : String → Prop} {f : String → String} {before after : Resolver}

mutual

/-- An argument has the same value with its names replaced, or fails alike. -/
theorem valueGiven (h : Mirrors S p f before after) (argument : Argument)
    (hnames : ∀ name ∈ argument.names, p name) :
    Correspond Eq S (before.valueGiven argument) (after.valueGiven (argument.mapNames f)) := by
  cases argument with
  | literal value =>
    rw [Argument.mapNames, Resolver.valueGiven, Resolver.valueGiven]
    exact .ok rfl
  | call name arguments =>
    rw [Argument.names, List.forall_mem_cons] at hnames
    rw [Argument.mapNames, Resolver.valueGiven, Resolver.valueGiven]
    refine (h.typeOf name hnames.1).bind fun type type' _ _ htype => ?_
    refine (h.valuesGiven arguments hnames.2).bind fun values values' _ _ hvalues => ?_
    subst hvalues
    refine (htype.construct values).bind fun policy policy' _ _ hpolicy => ?_
    exact .ok (hpolicy ▸ rfl)

/-- Arguments have the same values with their names replaced, or fail alike. -/
theorem valuesGiven (h : Mirrors S p f before after) (arguments : List Argument)
    (hnames : ∀ name ∈ Argument.namesAll arguments, p name) :
    Correspond Eq S (before.valuesGiven arguments)
      (after.valuesGiven (Argument.mapNamesAll f arguments)) := by
  cases arguments with
  | nil =>
    rw [Argument.mapNamesAll, Resolver.valuesGiven, Resolver.valuesGiven]
    exact .ok rfl
  | cons argument rest =>
    rw [Argument.namesAll, List.forall_mem_append] at hnames
    rw [Argument.mapNamesAll, Resolver.valuesGiven, Resolver.valuesGiven]
    refine (h.valueGiven argument hnames.1).bind fun value value' _ _ hvalue => ?_
    refine (h.valuesGiven rest hnames.2).bind fun values values' _ _ hvalues => ?_
    exact .ok (hvalue ▸ hvalues ▸ rfl)

end

/-- The values of a call's arguments construct the same policy of types that are alike. -/
theorem construct (h : Mirrors S p f before after) {type type' : PolicyType}
    (htype : type.Alike S type') {arguments : List Argument}
    (hnames : ∀ name ∈ Argument.namesAll arguments, p name) :
    Correspond Eq S (before.valuesGiven arguments >>= type.construct)
      (after.valuesGiven (Argument.mapNamesAll f arguments) >>= type'.construct) :=
  (h.valuesGiven arguments hnames).bind fun values _ _ _ hvalues =>
    hvalues ▸ htype.construct values

/-- A tree has the same policy with its names replaced, or fails alike. -/
theorem policyGiven (h : Mirrors S p f before after) {call : Call}
    (hnames : ∀ name ∈ call.names, p name) :
    Correspond Eq S (before.policyGiven call) (after.policyGiven (call.mapNames f)) := by
  rw [Call.names, List.forall_mem_cons] at hnames
  rw [Resolver.policyGiven, Resolver.policyGiven, h.family_eq]
  refine (h.typeOf call.name hnames.1).bind fun type type' _ _ htype => ?_
  split
  · exact htype.requireShared
  · exact h.construct htype hnames.2

/-- So it has when the loop builds it, which asks no type for a shared instance. -/
theorem buildByLoop (h : Mirrors S p f before after) {call : Call}
    (hnames : ∀ name ∈ call.names, p name) :
    Correspond Eq S (Run.start (before.buildByLoop call)).1
      (Run.start (after.buildByLoop (call.mapNames f))).1 := by
  rw [Call.names, List.forall_mem_cons] at hnames
  rw [buildByLoop_eq_reduce, buildByLoop_eq_reduce, (gives_reduce before call).start,
    (gives_reduce after (call.mapNames f)).start]
  exact (h.typeOf call.name hnames.1).bind fun type type' _ _ htype => h.construct htype hnames.2

end Mirrors

/-- Whether a name has a point. -/
def IsDotted (name : String) : Prop := '.' ∈ name.toList

instance (name : String) : Decidable (IsDotted name) :=
  inferInstanceAs (Decidable ('.' ∈ name.toList))

/-- A name with a namespace and a point in front, unless it has a point already. -/
def spellOut (namespaceName name : String) : String :=
  if IsDotted name then name else namespaceName ++ "." ++ name

/-- A name that is spelled out has a point. -/
theorem isDotted_spellOut (namespaceName name : String) : IsDotted (spellOut namespaceName name) := by
  unfold spellOut
  split
  · assumption
  · simp [IsDotted]

/-- A name with a point is looked up as it is. -/
theorem qualifyName_of_isDotted {name : String} (h : IsDotted name) (namespaceName : String) :
    qualifyName name namespaceName = name := by
  have hpoint : name.toList.contains '.' := List.contains_iff_mem.mpr h
  rw [qualifyName, hpoint, Bool.true_or, if_pos rfl]

/-- Any other name is looked up in the namespace, if that is not empty. -/
theorem qualifyName_of_not_isDotted {name namespaceName : String} (h : ¬IsDotted name)
    (hnamespace : namespaceName ≠ "") :
    qualifyName name namespaceName = joinName namespaceName name := by
  have hpoint : name.toList.contains '.' = false := by
    rw [← Bool.not_eq_true, List.contains_iff_mem]
    exact h
  rw [qualifyName, hpoint, if_neg (by simpa using hnamespace)]

/-- In a namespace that is not empty a name is looked up as it is spelled out. -/
theorem qualifyName_eq_spellOut {namespaceName : String} (h : namespaceName ≠ "") (name : String) :
    qualifyName name namespaceName = spellOut namespaceName name := by
  by_cases hname : IsDotted name
  · rw [qualifyName_of_isDotted hname, spellOut, if_pos hname]
  · rw [qualifyName_of_not_isDotted hname h, spellOut, if_neg hname, joinName]

/-- Two resolvers build the same from two trees: the same policy, or the same failure. This is asked
of building as the family wants it, and of the loop, whatever the family. -/
structure BuildsSame (before after : Resolver) (call call' : Call) : Prop where
  build : (Run.start (before.build call)).1 = (Run.start (after.build call')).1
  buildByLoop : (Run.start (before.buildByLoop call)).1 = (Run.start (after.buildByLoop call')).1

/-- Resolvers that mirror each other exactly build the same. -/
theorem Mirrors.buildsSame {p : String → Prop} {f : String → String} {before after : Resolver}
    (h : Mirrors Eq p f before after) {call : Call} (hnames : ∀ name ∈ call.names, p name) :
    BuildsSame before after call (call.mapNames f) where
  build := by
    rw [(gives_build before call).start, (gives_build after (call.mapNames f)).start]
    exact (h.policyGiven hnames).eq
  buildByLoop := (h.buildByLoop hnames).eq

/-- The namespace of a resolver is an abbreviation: building a tree in a namespace that is not empty
has the same outcome as building, in any namespace, the tree in which each name without a point has
that namespace in front; and a tree of names with points is built the same in all namespaces. -/
theorem build_spellOut (family : Family) (registry : Registry) (namespaceName other : String) :
    (namespaceName ≠ "" → ∀ call : Call,
      BuildsSame ⟨family, registry, namespaceName⟩ ⟨family, registry, other⟩ call
        (call.mapNames (spellOut namespaceName))) ∧
    ∀ call : Call, (∀ name ∈ call.names, IsDotted name) →
      BuildsSame ⟨family, registry, namespaceName⟩ ⟨family, registry, other⟩ call call := by
  have hmirrors {p : String → Prop} {f : String → String}
      (h : ∀ name, p name → qualifyName name namespaceName = qualifyName (f name) other) :
      Mirrors Eq p f ⟨family, registry, namespaceName⟩ ⟨family, registry, other⟩ := by
    refine ⟨rfl, fun name hname => ?_⟩
    rw [typeOf, typeOf, h name hname]
    exact .refl (.refl fun _ => rfl) (fun _ => rfl) _
  constructor
  · intro hnamespace call
    have hspelled : Mirrors Eq (fun _ => True) (spellOut namespaceName)
        ⟨family, registry, namespaceName⟩ ⟨family, registry, other⟩ := hmirrors fun name _ => by
      rw [qualifyName_eq_spellOut hnamespace,
        qualifyName_of_isDotted (isDotted_spellOut namespaceName name)]
    exact hspelled.buildsSame fun _ _ => trivial
  · intro call hdotted
    have hsame : Mirrors Eq IsDotted id
        ⟨family, registry, namespaceName⟩ ⟨family, registry, other⟩ := hmirrors fun name hname => by
      rw [id, qualifyName_of_isDotted hname, qualifyName_of_isDotted hname]
    have hbuilds := hsame.buildsSame hdotted
    rwa [Call.mapNames_id] at hbuilds

/-- A tree of two names without points, spelled out for a resolver of another namespace. -/
theorem build_spellOut_token_aware :
    defaultNamespace ≠ "" ∧
    (⟨"TokenAwarePolicy", [.call "RoundRobinPolicy" []]⟩ : Call).mapNames (spellOut defaultNamespace) =
      ⟨"cqlpolicy.policies.TokenAwarePolicy", [.call "cqlpolicy.policies.RoundRobinPolicy" []]⟩ ∧
    BuildsSame ⟨.loadBalancing, .standard, defaultNamespace⟩ ⟨.loadBalancing, .standard, "acme"⟩
      ⟨"TokenAwarePolicy", [.call "RoundRobinPolicy" []]⟩
      ⟨"cqlpolicy.policies.TokenAwarePolicy", [.call "cqlpolicy.policies.RoundRobinPolicy" []]⟩ := by
  have hnamespace : defaultNamespace ≠ "" := by decide
  have hspelled : (⟨"TokenAwarePolicy", [.call "RoundRobinPolicy" []]⟩ : Call).mapNames
      (spellOut defaultNamespace) = ⟨"cqlpolicy.policies.TokenAwarePolicy",
        [.call "cqlpolicy.policies.RoundRobinPolicy" []]⟩ := by rfl
  refine ⟨hnamespace, hspelled, ?_⟩
  rw [← hspelled]
  exact (build_spellOut .loadBalancing .standard defaultNamespace "acme").1 hnamespace _

end Resolver

end DriverPolicy
