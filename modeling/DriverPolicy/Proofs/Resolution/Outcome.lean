import DriverPolicy.Proofs.Expression.Outcome
import DriverPolicy.Proofs.Registry.Construction
import DriverPolicy.Proofs.Resolution.Reduction

/-!
# What resolving an expression comes to

The policies of a tree are constructed one after the other, and the first construction that fails
is the outcome of the whole resolution, however deep in the tree it stands. Names that are unknown
or of another family and values that are refused are faults with a message of their own. A number
of milliseconds that makes no duration is not: where the resolution comes to a latency-aware policy
with such a number, it ends with the overflow itself.
-/

namespace DriverPolicy

namespace Resolver

/-- Resolving a call comes to the construction of a policy of a type from values: as its own
policy, or inside an argument, when those before it have been reduced. -/
inductive Reaches (resolver : Resolver) (type : PolicyType) (values : List TypedValue) :
    Call → Prop
  | here {call : Call} (htype : resolver.typeOf call.name = .ok type)
      (hvalues : resolver.valuesGiven call.arguments = .ok values) :
      Reaches resolver type values call
  | inside {call child : Call} {outer : PolicyType} {before after : List Argument}
      {read : List TypedValue} (houter : resolver.typeOf call.name = .ok outer)
      (harguments : call.arguments = before ++ child.toArgument :: after)
      (hbefore : resolver.valuesGiven before = .ok read)
      (h : Reaches resolver type values child) : Reaches resolver type values call

variable {resolver : Resolver}

/-- Values of arguments have the kinds that they are said to have. -/
theorem isTyped_of_valueGiven {argument : Argument} {value : TypedValue}
    (h : resolver.valueGiven argument = .ok value) : value.IsTyped := by
  cases argument with
  | literal literal =>
    obtain rfl := Except.ok.inj h
    exact .literal literal
  | call name arguments =>
    rw [valueGiven] at h
    obtain ⟨type, -, h⟩ := bind_eq_ok_iff.mp h
    obtain ⟨values, -, h⟩ := bind_eq_ok_iff.mp h
    obtain ⟨policy, -, h⟩ := bind_eq_ok_iff.mp h
    obtain rfl := Except.ok.inj h
    exact .policy policy

/-- So have the values of all arguments. -/
theorem isTyped_of_valuesGiven {arguments : List Argument} {values : List TypedValue}
    (h : resolver.valuesGiven arguments = .ok values) : ∀ value ∈ values, value.IsTyped := by
  rw [valuesGiven_eq_mapM] at h
  rcases mapM_cases resolver.valueGiven arguments with
    ⟨given, hgiven, hmem⟩ | ⟨before, argument, after, read, failure, -, -, -, hfail⟩
  · obtain rfl := Except.ok.inj (hgiven.symm.trans h)
    intro value hvalue
    obtain ⟨argument, -, hargument⟩ := hmem value hvalue
    exact isTyped_of_valueGiven hargument
  · rw [hfail] at h
    contradiction

/-- A construction is reached with values of the kinds that they are said to have. -/
theorem Reaches.isTyped {type : PolicyType} {values : List TypedValue} {call : Call}
    (h : Reaches resolver type values call) : ∀ value ∈ values, value.IsTyped := by
  induction h with
  | here htype hvalues => exact isTyped_of_valuesGiven hvalues
  | inside houter harguments hbefore h ih => exact ih

/-- The type of a construction that is reached is one that a name stands for. -/
theorem Reaches.exists_typeOf {type : PolicyType} {values : List TypedValue} {call : Call}
    (h : Reaches resolver type values call) : ∃ name, resolver.typeOf name = .ok type := by
  induction h with
  | here htype hvalues => exact ⟨_, htype⟩
  | inside houter harguments hbefore h ih => exact ih

/-- The value of a nested call is its policy. -/
theorem valueGiven_toArgument (hfamily : resolver.family ≠ .retry) (call : Call) :
    resolver.valueGiven call.toArgument = (do
      let policy ← resolver.policyGiven call
      return .ofPolicy policy) := by
  rw [Call.toArgument, valueGiven, policyGiven]
  simp only [hfamily, ↓reduceIte, bind_assoc]

/-- A construction that is reached and fails is the outcome for the whole call. -/
theorem Reaches.policyGiven_eq {type : PolicyType} {values : List TypedValue} {call : Call}
    {failure : ResolutionFailure} (hfamily : resolver.family ≠ .retry)
    (h : Reaches resolver type values call) (hfail : type.construct values = .error failure) :
    resolver.policyGiven call = .error failure := by
  induction h with
  | here htype hvalues => rw [policyGiven, htype, ok_bind, if_neg hfamily, hvalues, ok_bind, hfail]
  | @inside call child outer before after read houter harguments hbefore h ih =>
    have hchild : resolver.valueGiven child.toArgument = .error failure := by
      rw [valueGiven_toArgument hfamily, ih, error_bind]
    rw [valuesGiven_eq_mapM] at hbefore
    rw [policyGiven, houter, ok_bind, if_neg hfamily, valuesGiven_eq_mapM, harguments,
      mapM_append_cons_error hbefore hchild, error_bind]

mutual

/-- An argument fails by a name that cannot be looked up or by a construction that is reached. -/
theorem failure_of_valueGiven {argument : Argument} {failure : ResolutionFailure}
    (h : resolver.valueGiven argument = .error failure) :
    (∃ name, resolver.typeOf name = .error failure) ∨ ∃ call type values,
      argument = call.toArgument ∧ Reaches resolver type values call ∧
        type.construct values = .error failure := by
  cases argument with
  | literal value =>
    rw [valueGiven] at h
    contradiction
  | call name arguments =>
    rw [valueGiven] at h
    rcases bind_eq_error_iff.mp h with htype | ⟨outer, houter, h⟩
    · exact Or.inl ⟨name, htype⟩
    rcases bind_eq_error_iff.mp h with hvalues | ⟨values, hvalues, h⟩
    · rcases failure_of_valuesGiven hvalues with
        hname | ⟨before, child, after, read, type, values, harguments, hbefore, hreach, hfail⟩
      · exact Or.inl hname
      · exact Or.inr ⟨⟨name, arguments⟩, type, values, rfl,
          .inside houter harguments hbefore hreach, hfail⟩
    rcases bind_eq_error_iff.mp h with hfail | ⟨policy, -, h⟩
    · exact Or.inr ⟨⟨name, arguments⟩, outer, values, rfl, .here houter hvalues, hfail⟩
    · contradiction

/-- Arguments fail by a name that cannot be looked up or by a construction that is reached in one
of them, when those before it have been reduced. -/
theorem failure_of_valuesGiven {arguments : List Argument} {failure : ResolutionFailure}
    (h : resolver.valuesGiven arguments = .error failure) :
    (∃ name, resolver.typeOf name = .error failure) ∨ ∃ before child after read type values,
      arguments = before ++ Call.toArgument child :: after ∧
        resolver.valuesGiven before = .ok read ∧ Reaches resolver type values child ∧
          type.construct values = .error failure := by
  cases arguments with
  | nil =>
    rw [valuesGiven] at h
    contradiction
  | cons argument rest =>
    rw [valuesGiven] at h
    rcases bind_eq_error_iff.mp h with hargument | ⟨value, hvalue, h⟩
    · rcases failure_of_valueGiven hargument with
        hname | ⟨child, type, values, rfl, hreach, hfail⟩
      · exact Or.inl hname
      · exact Or.inr ⟨[], child, rest, [], type, values, rfl, rfl, hreach, hfail⟩
    rcases bind_eq_error_iff.mp h with hrest | ⟨values, -, h⟩
    · rcases failure_of_valuesGiven hrest with
        hname | ⟨before, child, after, read, type, values, rfl, hbefore, hreach, hfail⟩
      · exact Or.inl hname
      · refine Or.inr ⟨argument :: before, child, after, value :: read, type, values, rfl, ?_,
          hreach, hfail⟩
        rw [valuesGiven, hvalue, ok_bind, hbefore]
        rfl
    · contradiction

end

/-- A call fails by a name that cannot be looked up or by a construction that is reached. -/
theorem failure_of_policyGiven (hfamily : resolver.family ≠ .retry) {call : Call}
    {failure : ResolutionFailure} (h : resolver.policyGiven call = .error failure) :
    (∃ name, resolver.typeOf name = .error failure) ∨
      ∃ type values, Reaches resolver type values call ∧
        type.construct values = .error failure := by
  have hvalue : resolver.valueGiven call.toArgument = .error failure := by
    rw [valueGiven_toArgument hfamily, h, error_bind]
  rcases failure_of_valueGiven hvalue with hname | ⟨call', type, values, heq, hreach, hfail⟩
  · exact Or.inl hname
  · obtain ⟨name, arguments⟩ := call
    obtain ⟨rfl, rfl⟩ := Argument.call.inj heq
    exact Or.inr ⟨type, values, hreach, hfail⟩

/-- A name that cannot be looked up is a fault. -/
theorem fault_of_typeOf {name : String} {failure : ResolutionFailure}
    (h : resolver.typeOf name = .error failure) : ∃ cause, failure = .fault cause := by
  rw [typeOf, Registry.lookup] at h
  rcases bind_eq_error_iff.mp h with hget | ⟨type, -, hfamily⟩
  · unfold Registry.get at hget
    split at hget
    · contradiction
    · obtain rfl := Except.error.inj hget
      exact ⟨_, rfl⟩
  · split at hfamily
    · contradiction
    · obtain rfl := Except.error.inj hfamily
      exact ⟨_, rfl⟩

/-- A built-in resolver looks up the built-in types of its family. -/
theorem eq_builtinType_of_typeOf {family : Family} {name : String} {type : PolicyType}
    (h : (standard family).typeOf name = .ok type) :
    ∃ c : PolicyClass, type = c.builtinType defaultNamespace ∧ c.family = family := by
  obtain ⟨c, htype, -, hfamily⟩ := Registry.lookup_standard_eq_ok_iff.mp h
  exact ⟨c, htype.symm, hfamily⟩

/-- Resolving a call comes to a latency-aware policy with a number of milliseconds that makes no
duration. -/
def Overflows (resolver : Resolver) (call : Call) : Prop :=
  ∃ arguments : LatencyArguments, ¬arguments.Fit ∧
    Reaches resolver (PolicyClass.latencyAware.builtinType defaultNamespace) arguments.values call

/-- An outcome of resolving that is a policy or a fault with a message of its own. -/
def IsAnswer : Except ResolutionFailure Policy → Prop
  | .ok _ => True
  | .error (.fault _) => True
  | .error _ => False

variable {family : Family} {call : Call}

/-- Shared instances are handed out or missing. -/
theorem isAnswer_of_retry (h : resolver.family = .retry) (call : Call) :
    IsAnswer (resolver.policyGiven call) := by
  rw [policyGiven]
  cases htype : resolver.typeOf call.name with
  | error failure =>
    obtain ⟨cause, rfl⟩ := fault_of_typeOf htype
    exact trivial
  | ok type =>
    rw [ok_bind, if_pos h, PolicyType.requireShared]
    split
    · exact trivial
    · exact trivial

/-- Constructing a policy never meets a numeral. -/
theorem construct_ne_tooManyDigits (type : PolicyType) (values : List TypedValue) (count : Nat) :
    type.construct values ≠ .error (.tooManyDigits count) := by
  unfold PolicyType.construct
  split
  · simp
  · split <;> simp

/-- Only load-balancing policies overflow. -/
theorem Overflows.family_eq (h : Overflows (standard family) call) : family = .loadBalancing := by
  obtain ⟨arguments, -, hreach⟩ := h
  obtain ⟨name, hname⟩ := hreach.exists_typeOf
  obtain ⟨c, heq, rfl⟩ := eq_builtinType_of_typeOf hname
  have hnames : joinName defaultNamespace PolicyClass.latencyAware.name =
      joinName defaultNamespace c.name := congrArg PolicyType.qualifiedName heq
  rw [← PolicyClass.name_injective (joinName_injective hnames)]
  rfl

/-- Where the resolution comes to such a number, it ends with the overflow. -/
theorem Overflows.policyGiven_eq (h : Overflows (standard family) call) :
    ∃ excess, (standard family).policyGiven call = .error (.overflow excess) := by
  have hfamily : (standard family).family ≠ .retry := by
    rw [standard, h.family_eq]
    decide
  obtain ⟨arguments, hfit, hreach⟩ := h
  obtain ⟨excess, hoverflow⟩ := (PolicyType.builtin_overflows_iff defaultNamespace .latencyAware
    hreach.isTyped).mpr ⟨rfl, arguments, rfl, hfit⟩
  exact ⟨excess, hreach.policyGiven_eq hfamily hoverflow⟩

/-- Where the outcome is no answer, the resolution has come to such a number. -/
theorem overflows_of_not_isAnswer (h : ¬IsAnswer ((standard family).policyGiven call)) :
    Overflows (standard family) call := by
  have hfamily : (standard family).family ≠ .retry := by
    intro hretry
    exact h (isAnswer_of_retry hretry call)
  cases hpolicy : (standard family).policyGiven call with
  | ok policy =>
    rw [hpolicy] at h
    exact absurd trivial h
  | error failure =>
    rw [hpolicy] at h
    rcases failure_of_policyGiven hfamily hpolicy with ⟨name, hname⟩ | ⟨type, values, hreach, hfail⟩
    · obtain ⟨cause, rfl⟩ := fault_of_typeOf hname
      exact absurd trivial h
    · cases failure with
      | fault cause => exact absurd trivial h
      | tooManyDigits count => exact absurd hfail (construct_ne_tooManyDigits type values count)
      | overflow excess =>
        obtain ⟨name, hname⟩ := hreach.exists_typeOf
        obtain ⟨c, rfl, -⟩ := eq_builtinType_of_typeOf hname
        obtain ⟨rfl, arguments, rfl, hfit⟩ :=
          (PolicyType.builtin_overflows_iff defaultNamespace c hreach.isTyped).mp ⟨excess, hfail⟩
        exact ⟨arguments, hfit, hreach⟩

/-- Values that are refused by the construction to which the resolution comes are its fault. -/
theorem Reaches.policyGiven_of_refuses {type : PolicyType} {values : List TypedValue}
    {refusal : Refusal} (h : Reaches (standard family) type values call)
    (hrefuses : type.Refuses values refusal) : (standard family).policyGiven call =
      .error (.fault (.construction type.qualifiedName refusal)) := by
  refine h.policyGiven_eq (fun hretry => ?_) hrefuses.construct_eq
  -- retry policies have no constructor that could refuse anything
  obtain ⟨name, hname⟩ := h.exists_typeOf
  obtain ⟨c, rfl, hfamily⟩ := eq_builtinType_of_typeOf hname
  obtain ⟨constructor, hfind, -⟩ := hrefuses
  have hmem : constructor ∈ c.constructors := List.mem_of_find?_eq_some hfind
  have hnone : c.constructors = [] := by
    rw [show family = .retry from hretry] at hfamily
    cases c <;> first | rfl | contradiction
  simp [hnone] at hmem

/-- An expression that reads resolves to a policy or to a fault with a message of its own if and
only if the resolution comes to no latency-aware policy with a number of milliseconds that makes no
duration; if it does, it ends with the overflow. Values that are refused in the construction of a
policy are always a fault of the construction. -/
theorem isAnswer_policyOf_iff {expression : String}
    (hread : (standard family).read expression = .ok call) :
    (IsAnswer ((standard family).policyOf expression) ↔ ¬Overflows (standard family) call) ∧
    ((∃ excess, (standard family).policyOf expression = .error (.overflow excess)) ↔
      Overflows (standard family) call) ∧
    ∀ (type : PolicyType) (values : List TypedValue) (refusal : Refusal),
      Reaches (standard family) type values call → type.Refuses values refusal →
        (standard family).policyOf expression =
          .error (.fault (.construction type.qualifiedName refusal)) := by
  rw [policyOf_of_read hread]
  refine ⟨⟨fun hanswer hoverflows => ?_, fun hnot => ?_⟩, ⟨fun hexcess => ?_, fun h => ?_⟩, ?_⟩
  · obtain ⟨excess, hexcess⟩ := hoverflows.policyGiven_eq
    rwa [hexcess] at hanswer
  · exact Classical.not_not.mp fun hanswer => hnot (overflows_of_not_isAnswer hanswer)
  · obtain ⟨excess, hexcess⟩ := hexcess
    exact overflows_of_not_isAnswer (by rw [hexcess]; exact id)
  · exact h.policyGiven_eq
  · exact fun type values refusal hreach hrefuses => hreach.policyGiven_of_refuses hrefuses

/-- A negative delay is refused, which is a fault of the construction. -/
theorem policyOf_negative_delay :
    (standard .reconnection).read "ConstantReconnectionPolicy((long)-1)" =
      .ok ⟨"ConstantReconnectionPolicy", [.literal (.long (-1))]⟩ ∧
    (standard .reconnection).policyOf "ConstantReconnectionPolicy((long)-1)" =
      .error (.fault (.construction "cqlpolicy.policies.ConstantReconnectionPolicy"
        (.negativeDelay (-1)))) := by
  have hread : (standard .reconnection).read "ConstantReconnectionPolicy((long)-1)" =
      .ok ⟨"ConstantReconnectionPolicy", [.literal (.long (-1))]⟩ :=
    Option.some.inj ((Call.readWithin_length _).symm.trans rfl)
  have hreach : Reaches (standard .reconnection)
      (PolicyClass.constantReconnection.builtinType defaultNamespace) [.ofLiteral (.long (-1))]
      ⟨"ConstantReconnectionPolicy", [.literal (.long (-1))]⟩ := .here rfl rfl
  have hrefuses : (PolicyClass.constantReconnection.builtinType defaultNamespace).Refuses
      [.ofLiteral (.long (-1))] (.negativeDelay (-1)) := ⟨_, rfl, rfl⟩
  exact ⟨hread, (isAnswer_policyOf_iff hread).2.2 _ _ _ hreach hrefuses⟩

/-- A scale of a thousand million days is no fault of the construction. -/
theorem policyOf_long_scale : ¬IsAnswer ((standard .loadBalancing).policyOf
    "LatencyAwarePolicy(RoundRobinPolicy,(double)2,(long)86400000000000000,(long)1,(long)1,1)") := by
  obtain ⟨source, hsource⟩ : ∃ source, source =
      "LatencyAwarePolicy(RoundRobinPolicy,(double)2,(long)86400000000000000,(long)1,(long)1,1)".toList :=
    ⟨_, rfl⟩
  have hhead : Head.read source source 0 = .ok ⟨"LatencyAwarePolicy".toList,
      "RoundRobinPolicy,(double)2,(long)86400000000000000,(long)1,(long)1,1".toList, 19⟩ := by
    rw [hsource]
    rfl
  have hsplit : Fragment.split
      "RoundRobinPolicy,(double)2,(long)86400000000000000,(long)1,(long)1,1".toList source 19 =
        .ok [⟨"RoundRobinPolicy".toList, 19⟩, ⟨"(double)2".toList, 36⟩,
          ⟨"(long)86400000000000000".toList, 46⟩, ⟨"(long)1".toList, 70⟩,
          ⟨"(long)1".toList, 78⟩, ⟨"1".toList, 86⟩] := by
    rw [hsource]
    decide +kernel
  have hchild : Argument.meaning source ⟨"RoundRobinPolicy".toList, 19⟩ =
      .ok (.call "RoundRobinPolicy" []) := by
    change (Call.meaning source "RoundRobinPolicy".toList 19).map Call.toArgument = _
    rw [Call.meaning_eq]
    rfl
  have hthreshold : Argument.meaning source ⟨"(double)2".toList, 36⟩ =
      .ok (.literal (.double (.finite false 4503599627370496 1023))) := by
    have hbinary : (Decimal.read ['2']).map Decimal.toBinary =
        some (.finite false 4503599627370496 1023) := by decide +kernel
    have hbody : (splitMarker "(double)2".toList).2 = ['2'] := rfl
    rw [Argument.meaning, Argument.readWith, if_neg (by decide), Literal.read_eq_ite,
      if_neg (by decide), if_pos (by decide), hbody, Literal.readDouble, hbinary]
    rfl
  have hread : (standard .loadBalancing).read
      "LatencyAwarePolicy(RoundRobinPolicy,(double)2,(long)86400000000000000,(long)1,(long)1,1)" =
        .ok ⟨"LatencyAwarePolicy", [.call "RoundRobinPolicy" [],
          .literal (.double (.finite false 4503599627370496 1023)),
          .literal (.long 86400000000000000), .literal (.long 1), .literal (.long 1),
          .literal (.int 1)]⟩ := by
    rw [read, if_neg (by decide), Call.parse, Call.read_eq_meaning, ← hsource, Call.meaning_eq,
      hhead, ok_bind, hsplit, ok_bind]
    simp only [List.mapM_cons, hchild, hthreshold, ok_bind]
    rfl
  have hoverflows : Overflows (standard .loadBalancing) ⟨"LatencyAwarePolicy",
      [.call "RoundRobinPolicy" [], .literal (.double (.finite false 4503599627370496 1023)),
        .literal (.long 86400000000000000), .literal (.long 1), .literal (.long 1),
        .literal (.int 1)]⟩ :=
    ⟨⟨.roundRobin, .finite false 4503599627370496 1023, 86400000000000000, 1, 1, 1⟩, by decide,
      .here rfl rfl⟩
  obtain ⟨excess, hexcess⟩ := hoverflows.policyGiven_eq
  rw [policyOf_of_read hread, hexcess]
  exact id

end Resolver

end DriverPolicy
