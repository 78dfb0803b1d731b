import DriverPolicy.Proofs.Expression.Outcome
import DriverPolicy.Proofs.Number.Value
import DriverPolicy.Proofs.Registry.Construction
import DriverPolicy.Proofs.Resolution.Outcome

/-!
# Which call trees can be built

The built-in load-balancing and reconnection policies are described by call trees of a few shapes.
A tree can be built exactly if it has one of these shapes, with values in the range that is stated
for each, and the policy then shows as a record in which the tree's own values stand in the tree's
own places.
-/

namespace DriverPolicy

/-- A call tree can be built in a family, and its policy shows as a record. -/
inductive Buildable : Family → Call → Json → Prop
  | roundRobin {name : String} (hname : StandsFor name "RoundRobinPolicy") :
      Buildable .loadBalancing ⟨name, []⟩ (.object [("policy", .text "RoundRobinPolicy")])
  | anyDataCenter {name : String} (hname : StandsFor name "DCAwareRoundRobinPolicy") :
      Buildable .loadBalancing ⟨name, []⟩
        (.object [("policy", .text "DCAwareRoundRobinPolicy"), ("local_dc", .null),
          ("used_hosts_per_remote_dc", .integer 0)])
  | localDataCenter {name dataCenter : String} (hname : StandsFor name "DCAwareRoundRobinPolicy")
      (hdataCenter : ∃ c ∈ dataCenter.toList, isBlank c = false) :
      Buildable .loadBalancing ⟨name, [.literal (.string dataCenter)]⟩
        (.object [("policy", .text "DCAwareRoundRobinPolicy"), ("local_dc", .text dataCenter),
          ("used_hosts_per_remote_dc", .integer 0)])
  | remoteHosts {name dataCenter : String} {hosts : Int}
      (hname : StandsFor name "DCAwareRoundRobinPolicy")
      (hdataCenter : ∃ c ∈ dataCenter.toList, isBlank c = false) (hhosts : 0 ≤ hosts) :
      Buildable .loadBalancing ⟨name, [.literal (.string dataCenter), .literal (.int hosts)]⟩
        (.object [("policy", .text "DCAwareRoundRobinPolicy"), ("local_dc", .text dataCenter),
          ("used_hosts_per_remote_dc", .integer hosts)])
  | tokenAware {name childName : String} {childArguments : List Argument} {child : Json}
      (hname : StandsFor name "TokenAwarePolicy")
      (hchild : Buildable .loadBalancing ⟨childName, childArguments⟩ child) :
      Buildable .loadBalancing ⟨name, [.call childName childArguments]⟩
        (.object [("policy", .text "TokenAwarePolicy"), ("child", child)])
  | latencyAware {name childName : String} {childArguments : List Argument} {child : Json}
      {threshold : Binary} {scale retryPeriod updateRate measurements : Int}
      (hname : StandsFor name "LatencyAwarePolicy")
      (hchild : Buildable .loadBalancing ⟨childName, childArguments⟩ child)
      (hthreshold : 1 ≤ threshold.toRat)
      (hscale : 0 < scale ∧ scale < 86400000 * 10 ^ 9)
      (hretryPeriod : 0 ≤ retryPeriod ∧ retryPeriod < 86400000 * 10 ^ 9)
      (hupdateRate : 0 < updateRate ∧ updateRate < 86400000 * 10 ^ 9)
      (hmeasurements : 0 ≤ measurements) :
      Buildable .loadBalancing
        ⟨name, [.call childName childArguments, .literal (.double threshold),
          .literal (.long scale), .literal (.long retryPeriod), .literal (.long updateRate),
          .literal (.int measurements)]⟩
        (.object [("policy", .text "LatencyAwarePolicy"), ("child", child),
          ("exclusion_threshold", .number threshold), ("scale", .integer scale),
          ("retry_period", .integer retryPeriod), ("update_rate", .integer updateRate),
          ("minimum_measurements", .integer measurements)])
  | constant {name : String} {delay : Int} (hname : StandsFor name "ConstantReconnectionPolicy")
      (hdelay : 0 ≤ delay) :
      Buildable .reconnection ⟨name, [.literal (.long delay)]⟩
        (.object [("policy", .text "ConstantReconnectionPolicy"), ("delay_ms", .integer delay)])
  | exponential {name : String} {base max : Int}
      (hname : StandsFor name "ExponentialReconnectionPolicy") (hbase : 0 < base)
      (hmax : base ≤ max) :
      Buildable .reconnection ⟨name, [.literal (.long base), .literal (.long max)]⟩
        (.object [("policy", .text "ExponentialReconnectionPolicy"),
          ("base_delay_ms", .integer base), ("max_delay_ms", .integer max)])

/-- A nested call is smaller than the call that it is the first argument of. -/
theorem Call.size_lt_of_first {name childName : String} {childArguments rest : List Argument} :
    size ⟨childName, childArguments⟩ < size ⟨name, .call childName childArguments :: rest⟩ := by
  simp only [size, Argument.sizeAll, Argument.size]
  omega

/-- A text is not blank if one of its characters is not. -/
theorem allBlank_eq_false_iff {text : List Char} :
    allBlank text = false ↔ ∃ c ∈ text, isBlank c = false := by
  simp [allBlank]

/-- A number of milliseconds is shown as it was given. -/
theorem Duration.milliseconds_ofMilliseconds (n : Int) : milliseconds ⟨1000 * n⟩ = n :=
  Int.mul_fdiv_cancel_left n (by decide)

/-- The arguments of a latency-aware policy are accepted if each number is in its range. -/
theorem LatencyArguments.fit_and_admissible_iff (arguments : LatencyArguments) :
    arguments.Fit ∧ arguments.settings.Admissible ↔ arguments.threshold.belowOne = false ∧
      (0 < arguments.scale ∧ arguments.scale < 86400000 * 10 ^ 9) ∧
      (0 ≤ arguments.retryPeriod ∧ arguments.retryPeriod < 86400000 * 10 ^ 9) ∧
      (0 < arguments.updateRate ∧ arguments.updateRate < 86400000 * 10 ^ 9) ∧
      0 ≤ arguments.minimumMeasurements := by
  constructor
  · rintro ⟨hfit, hsettings⟩
    have hscale : 0 < 1000 * arguments.scale := hsettings.scale
    have hretryPeriod : 0 ≤ 1000 * arguments.retryPeriod := hsettings.retryPeriod
    have hupdateRate : 0 < 1000 * arguments.updateRate := hsettings.updateRate
    simp only [Fit, Duration.Fits] at hfit
    exact ⟨hsettings.threshold, by omega, by omega, by omega, hsettings.minimumMeasurements⟩
  · rintro ⟨hthreshold, hscale, hretryPeriod, hupdateRate, hminimum⟩
    have hfit : arguments.Fit := by
      simp only [Fit, Duration.Fits]
      omega
    have hscale : 0 < 1000 * arguments.scale := by omega
    have hretryPeriod : 0 ≤ 1000 * arguments.retryPeriod := by omega
    have hupdateRate : 0 < 1000 * arguments.updateRate := by omega
    exact ⟨hfit, hthreshold, hscale, hretryPeriod, hupdateRate, hminimum⟩

/-- Different literals have different values. -/
theorem TypedValue.ofLiteral_injective {a b : Literal} (h : ofLiteral a = ofLiteral b) : a = b := by
  cases a <;> cases b <;> simp_all [ofLiteral, Literal.kind, ParameterKind.forArgument]

/-- The policies of the built-in classes can be children in their family. -/
theorem PolicyClass.Constructs.suits {c : PolicyClass} {values : List TypedValue} {policy : Policy}
    (h : c.Constructs values policy) : policy.suits c.family := by
  cases h <;> rfl

namespace Resolver

variable {family : Family} {resolver : Resolver}

/-- Arguments have values if each of them has one. -/
theorem valuesGiven_eq_ok_iff {arguments : List Argument} {values : List TypedValue} :
    resolver.valuesGiven arguments = .ok values ↔
      List.Forall₂ (fun argument value => resolver.valueGiven argument = .ok value) arguments
        values := by
  rw [valuesGiven_eq_mapM]
  exact mapM_eq_ok_iff

/-- The only value of a nested call is its policy. -/
theorem valueGiven_call_eq_ok_iff (hfamily : resolver.family ≠ .retry) {name : String}
    {arguments : List Argument} {value : TypedValue} :
    resolver.valueGiven (.call name arguments) = .ok value ↔
      ∃ policy, resolver.policyGiven ⟨name, arguments⟩ = .ok policy ∧ .ofPolicy policy = value := by
  have hcall := valueGiven_toArgument hfamily ⟨name, arguments⟩
  rw [Call.toArgument] at hcall
  rw [hcall, bind_eq_ok_iff]
  simp only [pure_eq_ok, Except.ok.injEq]

/-- A built-in resolver gives the policies that are listed for the class which the name of a call
stands for, on the values of the arguments. -/
theorem policyGiven_standard_eq_ok_iff (hfamily : family ≠ .retry) {call : Call} {policy : Policy} :
    (standard family).policyGiven call = .ok policy ↔ ∃ (c : PolicyClass)
      (values : List TypedValue), StandsFor call.name c.name ∧ c.family = family ∧
        List.Forall₂ (fun argument value => (standard family).valueGiven argument = .ok value)
          call.arguments values ∧ c.Constructs values policy := by
  have hretry : (standard family).family ≠ .retry := hfamily
  constructor
  · intro h
    obtain ⟨type, htype, hpolicy⟩ := bind_eq_ok_iff.mp h
    rw [if_neg hretry] at hpolicy
    obtain ⟨values, hvalues, hpolicy⟩ := bind_eq_ok_iff.mp hpolicy
    obtain ⟨c, rfl, hname, hclass⟩ := Registry.lookup_standard_eq_ok_iff.mp htype
    refine ⟨c, values, hname, hclass, valuesGiven_eq_ok_iff.mp hvalues, ?_⟩
    exact (PolicyClass.construct_eq_ok_iff_constructs defaultNamespace
      (isTyped_of_valuesGiven hvalues)).mp hpolicy
  · rintro ⟨c, values, hname, hclass, hvalues, hpolicy⟩
    have hvalues := valuesGiven_eq_ok_iff.mpr hvalues
    have htype : (standard family).typeOf call.name = .ok (c.builtinType defaultNamespace) :=
      Registry.lookup_standard_eq_ok_iff.mpr ⟨c, rfl, hname, hclass⟩
    rw [policyGiven, htype, ok_bind, if_neg hretry, hvalues, ok_bind]
    exact (PolicyClass.construct_eq_ok_iff_constructs defaultNamespace
      (isTyped_of_valuesGiven hvalues)).mpr hpolicy

/-- An argument with the value of a literal is the literal. -/
theorem eq_literal_of_valueGiven {argument : Argument} {literal : Literal}
    (h : resolver.valueGiven argument = .ok (.ofLiteral literal)) :
    argument = .literal literal := by
  cases argument with
  | literal given =>
    rw [valueGiven] at h
    rw [TypedValue.ofLiteral_injective (Except.ok.inj h)]
  | call name arguments =>
    rw [valueGiven] at h
    obtain ⟨type, -, h⟩ := bind_eq_ok_iff.mp h
    obtain ⟨values, -, h⟩ := bind_eq_ok_iff.mp h
    obtain ⟨policy, -, h⟩ := bind_eq_ok_iff.mp h
    have hkind := congrArg TypedValue.kind (Except.ok.inj h)
    cases literal <;> contradiction

/-- An argument with a policy as its value is a nested call of that policy. -/
theorem exists_call_of_valueGiven (hfamily : resolver.family ≠ .retry) {argument : Argument}
    {policy : Policy} (h : resolver.valueGiven argument = .ok (.ofPolicy policy)) :
    ∃ name arguments, argument = .call name arguments ∧
      resolver.policyGiven ⟨name, arguments⟩ = .ok policy := by
  cases argument with
  | literal given =>
    have hkind := congrArg TypedValue.kind (Except.ok.inj h)
    cases given <;> contradiction
  | call name arguments =>
    obtain ⟨given, hgiven, hsame⟩ := (valueGiven_call_eq_ok_iff hfamily).mp h
    obtain rfl := Value.policy.inj (congrArg TypedValue.value hsame)
    exact ⟨name, arguments, rfl, hgiven⟩

/-- A latency-aware policy shows as the record of its arguments. -/
theorem describe_latencyAware (arguments : LatencyArguments) :
    (Policy.latencyAware arguments.child arguments.settings).describe =
      .object [("policy", .text "LatencyAwarePolicy"), ("child", arguments.child.describe),
        ("exclusion_threshold", .number arguments.threshold),
        ("scale", .integer arguments.scale), ("retry_period", .integer arguments.retryPeriod),
        ("update_rate", .integer arguments.updateRate),
        ("minimum_measurements", .integer arguments.minimumMeasurements)] := by
  simp only [Policy.describe, LatencyArguments.settings, Amount.toJson,
    Duration.milliseconds_ofMilliseconds]

/-- A tree that is built has one of the shapes, and its policy shows as the record of that shape. -/
theorem buildable_of_policyGiven (hfamily : family ≠ .retry) {call : Call} {policy : Policy}
    (hsound : call.IsSound) (h : (standard family).policyGiven call = .ok policy) :
    Buildable family call policy.describe := by
  induction hn : call.size using Nat.strongRecOn generalizing call policy with
  | ind n ih =>
    obtain ⟨c, values, hname, rfl, hvalues, hpolicy⟩ :=
      (policyGiven_standard_eq_ok_iff hfamily).mp h
    obtain ⟨name, arguments⟩ := call
    cases hpolicy with
    | roundRobin =>
      obtain rfl := List.forall₂_nil_right_iff.mp hvalues
      exact .roundRobin hname
    | anyDataCenter =>
      obtain rfl := List.forall₂_nil_right_iff.mp hvalues
      exact .anyDataCenter hname
    | localDataCenter hdataCenter =>
      obtain _ | ⟨hfirst, ⟨⟩⟩ := hvalues
      obtain rfl := eq_literal_of_valueGiven hfirst
      exact .localDataCenter hname (allBlank_eq_false_iff.mp hdataCenter)
    | remoteHosts hdataCenter hhosts =>
      obtain _ | ⟨hfirst, _ | ⟨hsecond, ⟨⟩⟩⟩ := hvalues
      obtain rfl := eq_literal_of_valueGiven hfirst
      obtain rfl := eq_literal_of_valueGiven hsecond
      exact .remoteHosts hname (allBlank_eq_false_iff.mp hdataCenter) hhosts
    | tokenAware hchild =>
      obtain _ | ⟨hfirst, ⟨⟩⟩ := hvalues
      obtain ⟨childName, childArguments, rfl, hgiven⟩ := exists_call_of_valueGiven hfamily hfirst
      exact .tokenAware hname (ih _ (hn ▸ Call.size_lt_of_first) hsound.2.1 hgiven rfl)
    | @latencyAware arguments hfit hchild hsettings =>
      obtain _ | ⟨hfirst, _ | ⟨hsecond, _ | ⟨hthird, _ | ⟨hfourth, _ | ⟨hfifth, _ | ⟨hsixth,
        ⟨⟩⟩⟩⟩⟩⟩⟩ := hvalues
      obtain ⟨childName, childArguments, rfl, hgiven⟩ := exists_call_of_valueGiven hfamily hfirst
      obtain rfl := eq_literal_of_valueGiven hsecond
      obtain rfl := eq_literal_of_valueGiven hthird
      obtain rfl := eq_literal_of_valueGiven hfourth
      obtain rfl := eq_literal_of_valueGiven hfifth
      obtain rfl := eq_literal_of_valueGiven hsixth
      obtain ⟨-, hchildSound, hfinite, -⟩ := hsound
      obtain ⟨hthreshold, hscale, hretryPeriod, hupdateRate, hminimum⟩ :=
        arguments.fit_and_admissible_iff.mp ⟨hfit, hsettings⟩
      rw [describe_latencyAware]
      exact .latencyAware hname (ih _ (hn ▸ Call.size_lt_of_first) hchildSound hgiven rfl)
        (Binary.one_le_toRat_iff.mpr ⟨hfinite, hthreshold⟩) hscale hretryPeriod hupdateRate hminimum
    | constant hdelay =>
      obtain _ | ⟨hfirst, ⟨⟩⟩ := hvalues
      obtain rfl := eq_literal_of_valueGiven hfirst
      exact .constant hname hdelay
    | exponential hbase hmax =>
      obtain _ | ⟨hfirst, _ | ⟨hsecond, ⟨⟩⟩⟩ := hvalues
      obtain rfl := eq_literal_of_valueGiven hfirst
      obtain rfl := eq_literal_of_valueGiven hsecond
      exact .exponential hname hbase hmax

/-- A construction that is listed is what a call with the values as arguments comes to. -/
theorem exists_policyGiven_of_constructs {c : PolicyClass} (hfamily : c.family ≠ .retry)
    {name : String} {arguments : List Argument} {values : List TypedValue} {policy : Policy}
    (hname : StandsFor name c.name)
    (hvalues : List.Forall₂ (fun argument value =>
      (standard c.family).valueGiven argument = .ok value) arguments values)
    (h : c.Constructs values policy) {record : Json} (hrecord : policy.describe = record) :
    ∃ policy, (standard c.family).policyGiven ⟨name, arguments⟩ = .ok policy ∧
      policy.describe = record ∧ policy.suits c.family :=
  ⟨policy, (policyGiven_standard_eq_ok_iff hfamily).mpr ⟨c, values, hname, rfl, hvalues, h⟩,
    hrecord, h.suits⟩

/-- A tree of one of the shapes is built, and its policy shows as the record of that shape. -/
theorem exists_policyGiven_of_buildable {call : Call} {record : Json}
    (h : Buildable family call record) : ∃ policy,
      (standard family).policyGiven call = .ok policy ∧ policy.describe = record ∧
        policy.suits family := by
  induction h with
  | roundRobin hname =>
    exact exists_policyGiven_of_constructs (by decide) hname .nil .roundRobin rfl
  | anyDataCenter hname =>
    exact exists_policyGiven_of_constructs (by decide) hname .nil .anyDataCenter rfl
  | localDataCenter hname hdataCenter =>
    exact exists_policyGiven_of_constructs (by decide) hname (.cons rfl .nil)
      (.localDataCenter (allBlank_eq_false_iff.mpr hdataCenter)) rfl
  | remoteHosts hname hdataCenter hhosts =>
    exact exists_policyGiven_of_constructs (by decide) hname (.cons rfl (.cons rfl .nil))
      (.remoteHosts (allBlank_eq_false_iff.mpr hdataCenter) hhosts) rfl
  | tokenAware hname hchild ih =>
    obtain ⟨child, hgiven, rfl, hsuits⟩ := ih
    have hvalue := (valueGiven_call_eq_ok_iff (by decide)).mpr ⟨child, hgiven, rfl⟩
    exact exists_policyGiven_of_constructs (c := .tokenAware) (by decide) hname
      (.cons hvalue .nil) (.tokenAware hsuits) rfl
  | latencyAware hname hchild hthreshold hscale hretryPeriod hupdateRate hmeasurements ih =>
    obtain ⟨child, hgiven, rfl, hsuits⟩ := ih
    have hvalue := (valueGiven_call_eq_ok_iff (by decide)).mpr ⟨child, hgiven, rfl⟩
    obtain ⟨hfit, hsettings⟩ := (LatencyArguments.fit_and_admissible_iff ⟨child, _, _, _, _, _⟩).mpr
      ⟨(Binary.one_le_toRat_iff.mp hthreshold).2, hscale, hretryPeriod, hupdateRate, hmeasurements⟩
    exact exists_policyGiven_of_constructs (c := .latencyAware) (by decide) hname
      (.cons hvalue (.cons rfl (.cons rfl (.cons rfl (.cons rfl (.cons rfl .nil))))))
      (.latencyAware hfit hsuits hsettings) (describe_latencyAware _)
  | constant hname hdelay =>
    exact exists_policyGiven_of_constructs (by decide) hname (.cons rfl .nil)
      (.constant hdelay) rfl
  | exponential hname hbase hmax =>
    exact exists_policyGiven_of_constructs (by decide) hname (.cons rfl (.cons rfl .nil))
      (.exponential hbase hmax) rfl

/-- An expression that reads resolves if and only if its tree can be built, and the policy then
shows as the record of the tree. -/
theorem policyOf_iff_buildable (hfamily : family ≠ .retry) {expression : String} {call : Call}
    (hread : (standard family).read expression = .ok call) :
    ((∃ policy, (standard family).policyOf expression = .ok policy) ↔
      ∃ record, Buildable family call record) ∧
    ∀ record, (∃ policy, (standard family).policyOf expression = .ok policy ∧
      policy.describe = record) ↔ Buildable family call record := by
  have hparse : Call.parse expression = .ok call := by
    rwa [read, if_neg (show (standard family).family ≠ .retry from hfamily)] at hread
  have hsound := Call.isSound_of_parse hparse
  rw [policyOf_of_read hread]
  have hrecord (record : Json) : (∃ policy, (standard family).policyGiven call = .ok policy ∧
      policy.describe = record) ↔ Buildable family call record := by
    constructor
    · rintro ⟨policy, hpolicy, rfl⟩
      exact buildable_of_policyGiven hfamily hsound hpolicy
    · intro h
      obtain ⟨policy, hpolicy, hdescribe, -⟩ := exists_policyGiven_of_buildable h
      exact ⟨policy, hpolicy, hdescribe⟩
  refine ⟨⟨?_, ?_⟩, hrecord⟩
  · rintro ⟨policy, hpolicy⟩
    exact ⟨policy.describe, (hrecord _).mp ⟨policy, hpolicy, rfl⟩⟩
  · rintro ⟨record, h⟩
    obtain ⟨policy, hpolicy, -⟩ := (hrecord record).mpr h
    exact ⟨policy, hpolicy⟩

/-- A token-aware policy over one data center and two hosts of each other one is built. -/
theorem policyOf_token_aware :
    (standard .loadBalancing).read "TokenAwarePolicy(DCAwareRoundRobinPolicy('dc1', 2))" =
      .ok ⟨"TokenAwarePolicy", [.call "DCAwareRoundRobinPolicy"
        [.literal (.string "dc1"), .literal (.int 2)]]⟩ ∧
    ∃ policy, (standard .loadBalancing).policyOf
        "TokenAwarePolicy(DCAwareRoundRobinPolicy('dc1', 2))" = .ok policy ∧
      policy.describe = .object [("policy", .text "TokenAwarePolicy"),
        ("child", .object [("policy", .text "DCAwareRoundRobinPolicy"), ("local_dc", .text "dc1"),
          ("used_hosts_per_remote_dc", .integer 2)])] := by
  have hread : (standard .loadBalancing).read
      "TokenAwarePolicy(DCAwareRoundRobinPolicy('dc1', 2))" =
        .ok ⟨"TokenAwarePolicy", [.call "DCAwareRoundRobinPolicy"
          [.literal (.string "dc1"), .literal (.int 2)]]⟩ :=
    Option.some.inj ((Call.readWithin_length _).symm.trans rfl)
  refine ⟨hread, ((policyOf_iff_buildable (by decide) hread).2 _).mpr ?_⟩
  exact .tokenAware rfl (.remoteHosts rfl ⟨'d', by decide, by decide⟩ (by decide))

end Resolver

end DriverPolicy
