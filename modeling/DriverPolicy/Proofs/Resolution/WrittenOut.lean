import DriverPolicy.Proofs.Resolution.Buildable
import DriverPolicy.Proofs.Resolution.Renaming
import DriverPolicy.Proofs.Resolution.Shared

/-!
# Trees that are written out

One policy can be described by several trees: a name may have the namespace of the built-in policies in front
or not, and behind a data center the number of remote hosts may be left out if it is zero. Written out, these
trees are one.

A tree is built as it is when it is written out. And a policy that is built leaves no choice beyond these two:
its class and its fields are the names and the literals of the written-out tree, which can be read off it.
-/

namespace DriverPolicy

/-- The arguments of a call of a spelled-out name with the number of remote hosts behind a data center, which
is zero where it is left out. -/
def Argument.withRemoteHosts (name : String) : List Argument → List Argument
  | [.literal (.string dataCenter)] =>
    if name = joinName defaultNamespace PolicyClass.dataCenterAware.name then
      [.literal (.string dataCenter), .literal (.int 0)]
    else [.literal (.string dataCenter)]
  | arguments => arguments

mutual

/-- An argument with all names spelled out and no number of remote hosts left out. -/
def Argument.writtenOut : Argument → Argument
  | .literal value => .literal value
  | .call name arguments =>
    .call (Resolver.spellOut defaultNamespace name)
      (Argument.withRemoteHosts (Resolver.spellOut defaultNamespace name) (Argument.writtenOutAll arguments))

/-- Arguments with all names spelled out and no number of remote hosts left out. -/
def Argument.writtenOutAll : List Argument → List Argument
  | [] => []
  | argument :: rest => argument.writtenOut :: Argument.writtenOutAll rest

end

/-- A tree with all names spelled out and no number of remote hosts left out. -/
def Call.writtenOut (call : Call) : Call where
  name := Resolver.spellOut defaultNamespace call.name
  arguments := Argument.withRemoteHosts (Resolver.spellOut defaultNamespace call.name)
    (Argument.writtenOutAll call.arguments)

namespace Resolver

variable {family : Family}

/-- A spelled-out name is looked up as the name is. -/
theorem typeOf_spellOut (family : Family) (name : String) :
    (standard family).typeOf (spellOut defaultNamespace name) = (standard family).typeOf name := by
  have hnamespace : defaultNamespace ≠ "" := by decide
  rw [typeOf, typeOf, standard, qualifyName_of_isDotted (isDotted_spellOut defaultNamespace name),
    qualifyName_eq_spellOut hnamespace]

/-- A policy is constructed with the number of remote hosts written out as it is without. -/
theorem construct_withRemoteHosts {name : String} {type : PolicyType}
    (htype : (standard family).typeOf name = .ok type) (arguments : List Argument) :
    (standard family).valuesGiven (Argument.withRemoteHosts (spellOut defaultNamespace name) arguments) >>=
        type.construct =
      (standard family).valuesGiven arguments >>= type.construct := by
  unfold Argument.withRemoteHosts
  split
  · next dataCenter =>
    split
    · next hname =>
      obtain ⟨c, rfl, hstands, -⟩ := Registry.lookup_standard_eq_ok_iff.mp htype
      rw [StandsFor, qualifyName_eq_spellOut (by decide), hname] at hstands
      obtain rfl := PolicyClass.name_injective (joinName_injective hstands)
      rfl
    · rfl
  · rfl

mutual

/-- A written-out argument has the same value. -/
theorem valueGiven_writtenOut (argument : Argument) :
    (standard family).valueGiven argument.writtenOut = (standard family).valueGiven argument := by
  cases argument with
  | literal value => rw [Argument.writtenOut]
  | call name arguments =>
    rw [Argument.writtenOut, valueGiven, valueGiven, typeOf_spellOut]
    cases htype : (standard family).typeOf name with
    | error failure => rfl
    | ok type =>
      have hconstruct := construct_withRemoteHosts htype (Argument.writtenOutAll arguments)
      rw [valuesGiven_writtenOutAll arguments] at hconstruct
      rw [ok_bind, ok_bind, ← bind_assoc, ← bind_assoc, hconstruct]

/-- Written-out arguments have the same values. -/
theorem valuesGiven_writtenOutAll (arguments : List Argument) :
    (standard family).valuesGiven (Argument.writtenOutAll arguments) =
      (standard family).valuesGiven arguments := by
  cases arguments with
  | nil => rw [Argument.writtenOutAll]
  | cons argument rest =>
    rw [Argument.writtenOutAll, valuesGiven, valuesGiven, valueGiven_writtenOut argument,
      valuesGiven_writtenOutAll rest]

end

/-- A written-out tree is built as the tree is. -/
theorem policyGiven_writtenOut (call : Call) :
    (standard family).policyGiven call.writtenOut = (standard family).policyGiven call := by
  rw [policyGiven, policyGiven, Call.writtenOut, typeOf_spellOut]
  cases htype : (standard family).typeOf call.name with
  | error failure => rfl
  | ok type =>
    rw [ok_bind, ok_bind]
    split
    · rfl
    · have hconstruct := construct_withRemoteHosts htype (Argument.writtenOutAll call.arguments)
      rwa [valuesGiven_writtenOutAll] at hconstruct


end Resolver

/-! ### The tree of a policy -/

/-- An amount as an argument. -/
def Amount.toArgument : Amount → Argument
  | whole n => .literal (.int n)
  | real x => .literal (.double x)

namespace Policy

/-- The arguments that describe a policy if nothing is left out. -/
def arguments : Policy → List Argument
  | dataCenterAware (some dataCenter) hosts => [.literal (.string dataCenter), .literal (.int hosts)]
  | tokenAware child | loggingRetry child =>
    [.call (joinName defaultNamespace child.name) child.arguments]
  | latencyAware child settings =>
    [.call (joinName defaultNamespace child.name) child.arguments, settings.threshold.toArgument,
      .literal (.long settings.scale.milliseconds), .literal (.long settings.retryPeriod.milliseconds),
      .literal (.long settings.updateRate.milliseconds), .literal (.int settings.minimumMeasurements)]
  | constantReconnection delay => [.literal (.long delay)]
  | exponentialReconnection base max => [.literal (.long base), .literal (.long max)]
  | _ => []

/-- The tree that describes a policy if nothing is left out. -/
def tree (policy : Policy) : Call := ⟨joinName defaultNamespace policy.name, policy.arguments⟩

/-- The arguments that describe a latency-aware policy are those that it is built from. -/
theorem arguments_latencyAware (given : LatencyArguments) :
    (latencyAware given.child given.settings).arguments =
      [given.child.tree.toArgument, .literal (.double given.threshold), .literal (.long given.scale),
        .literal (.long given.retryPeriod), .literal (.long given.updateRate),
        .literal (.int given.minimumMeasurements)] := by
  simp only [arguments, LatencyArguments.settings, Amount.toArgument, Duration.milliseconds_ofMilliseconds,
    tree, Call.toArgument]

end Policy

namespace Resolver

variable {family : Family} {call : Call} {policy : Policy}

/-- A name that stands for a built-in policy is spelled out as its name in the namespace. -/
theorem spellOut_of_standsFor {name shortName : String} (h : StandsFor name shortName) :
    spellOut defaultNamespace name = joinName defaultNamespace shortName :=
  (qualifyName_eq_spellOut (by decide) name).symm.trans h

/-- A tree from which a policy is built is, when it is written out, the tree of the policy. -/
theorem writtenOut_of_policyGiven (hfamily : family ≠ .retry)
    (h : (standard family).policyGiven call = .ok policy) : call.writtenOut = policy.tree := by
  induction hn : call.size using Nat.strongRecOn generalizing call policy with
  | ind n ih =>
    obtain ⟨c, values, hname, rfl, hvalues, hpolicy⟩ := (policyGiven_standard_eq_ok_iff hfamily).mp h
    obtain ⟨name, arguments⟩ := call
    have hchild {childName : String} {childArguments rest : List Argument} {child : Policy}
        (harguments : arguments = .call childName childArguments :: rest)
        (hgiven : (standard c.family).policyGiven ⟨childName, childArguments⟩ = .ok child) :
        (Argument.call childName childArguments).writtenOut = child.tree.toArgument := by
      subst harguments
      exact congrArg Call.toArgument (ih _ (hn ▸ Call.size_lt_of_first) hgiven rfl)
    rw [Call.writtenOut, spellOut_of_standsFor hname]
    cases hpolicy with
    | roundRobin | anyDataCenter =>
      obtain rfl := List.forall₂_nil_right_iff.mp hvalues
      rfl
    | localDataCenter hdataCenter =>
      obtain _ | ⟨hfirst, ⟨⟩⟩ := hvalues
      obtain rfl := eq_literal_of_valueGiven hfirst
      rfl
    | remoteHosts hdataCenter hhosts =>
      obtain _ | ⟨hfirst, _ | ⟨hsecond, ⟨⟩⟩⟩ := hvalues
      obtain rfl := eq_literal_of_valueGiven hfirst
      obtain rfl := eq_literal_of_valueGiven hsecond
      rfl
    | tokenAware hsuits =>
      obtain _ | ⟨hfirst, ⟨⟩⟩ := hvalues
      obtain ⟨childName, childArguments, rfl, hgiven⟩ := exists_call_of_valueGiven hfamily hfirst
      simp only [Argument.writtenOutAll, hchild rfl hgiven]
      rfl
    | latencyAware hfit hsuits hsettings =>
      obtain _ | ⟨hfirst, _ | ⟨hsecond, _ | ⟨hthird, _ | ⟨hfourth, _ | ⟨hfifth, _ | ⟨hsixth,
        ⟨⟩⟩⟩⟩⟩⟩⟩ := hvalues
      obtain ⟨childName, childArguments, rfl, hgiven⟩ := exists_call_of_valueGiven hfamily hfirst
      obtain rfl := eq_literal_of_valueGiven hsecond
      obtain rfl := eq_literal_of_valueGiven hthird
      obtain rfl := eq_literal_of_valueGiven hfourth
      obtain rfl := eq_literal_of_valueGiven hfifth
      obtain rfl := eq_literal_of_valueGiven hsixth
      rw [Policy.tree, Policy.arguments_latencyAware]
      simp only [Argument.writtenOutAll, hchild rfl hgiven]
      rfl
    | constant hdelay =>
      obtain _ | ⟨hfirst, ⟨⟩⟩ := hvalues
      obtain rfl := eq_literal_of_valueGiven hfirst
      rfl
    | exponential hbase hmax =>
      obtain _ | ⟨hfirst, _ | ⟨hsecond, ⟨⟩⟩⟩ := hvalues
      obtain rfl := eq_literal_of_valueGiven hfirst
      obtain rfl := eq_literal_of_valueGiven hsecond
      rfl

/-- The retry policies that are given are the shared instances of the classes that names stand for. -/
theorem exists_shared_of_policyGiven (h : (standard .retry).policyGiven call = .ok policy) :
    ∃ c : PolicyClass, StandsFor call.name c.name ∧ c.shared? = some policy := by
  obtain ⟨type, htype, hshared⟩ := bind_eq_ok_iff.mp h
  obtain ⟨c, rfl, hname, -⟩ := Registry.lookup_standard_eq_ok_iff.mp htype
  rw [if_pos (show (standard .retry).family = .retry from rfl), PolicyType.requireShared] at hshared
  split at hshared
  · next shared hsome => exact ⟨c, hname, Except.ok.inj hshared ▸ hsome⟩
  · contradiction

/-- A bare name for which a shared instance is given is, when it is written out, the tree of the instance. -/
theorem writtenOut_of_bareName {name : String} (h : (standard .retry).policyGiven ⟨name, []⟩ = .ok policy) :
    Call.writtenOut ⟨name, []⟩ = policy.tree := by
  obtain ⟨c, hname, hshared⟩ := exists_shared_of_policyGiven h
  have htree : policy.tree = ⟨joinName defaultNamespace c.name, []⟩ := by cases c <;> cases hshared <;> rfl
  rw [htree, Call.writtenOut, spellOut_of_standsFor hname]
  rfl

/-- The tree of an expression that resolves is, when it is written out, the tree of the policy. -/
theorem writtenOut_of_policyOf {expression : String} (hread : (standard family).read expression = .ok call)
    (h : (standard family).policyOf expression = .ok policy) : call.writtenOut = policy.tree := by
  rw [policyOf_of_read hread] at h
  by_cases hfamily : family = .retry
  · subst hfamily
    rw [read_of_retry rfl] at hread
    obtain ⟨-, rfl⟩ := Call.readBareName_eq_ok_iff.mp hread
    exact writtenOut_of_bareName h
  · exact writtenOut_of_policyGiven hfamily h

end Resolver

end DriverPolicy
