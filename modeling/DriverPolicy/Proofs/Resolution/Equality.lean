import DriverPolicy.Proofs.Expression.Outline
import DriverPolicy.Proofs.Policy.Equality
import DriverPolicy.Proofs.Resolution.WrittenOut

/-!
# Equality of resolved policies

What is read and built has thresholds that are values of 64 bits and durations of whole milliseconds. So two
resolved policies are equal just if their records are, and then they are the same. Shared instances have no
settings at all, and each is equal to itself only.

They are the same, too, just if the trees of the expressions are one when they are written out. So equality,
records and written-out trees tell resolved policies apart alike, however deep they are nested.
-/

namespace DriverPolicy

namespace Resolver

variable {family : Family}

/-- The settings of the arguments of a latency-aware policy can be read if the threshold is a value of 64 bits
that is not below one. -/
theorem isReadable_settings {arguments : LatencyArguments} (hcanonical : arguments.threshold.IsCanonical)
    (hsettings : arguments.settings.Admissible) : arguments.settings.IsReadable := by
  have hwhole (n : Int) : Duration.IsWhole ⟨1000 * n⟩ := by
    rw [Duration.IsWhole, Duration.milliseconds_ofMilliseconds]
  exact ⟨⟨hwhole _, hwhole _, hwhole _⟩, arguments.threshold, rfl, hcanonical, hsettings.threshold⟩

/-- What is built from arguments whose literals are values of 64 bits has settings that can be read. -/
theorem plain_of_policyGiven (hfamily : family ≠ .retry) {call : Call} {policy : Policy} {level : Nat}
    (hshown : ∀ entry ∈ Argument.preorderAll level call.arguments, entry.2.IsShown)
    (h : (standard family).policyGiven call = .ok policy) : policy.Plain LatencySettings.IsReadable := by
  induction hn : call.size using Nat.strongRecOn generalizing call policy level with
  | ind n ih =>
    obtain ⟨c, values, hname, rfl, hvalues, hpolicy⟩ := (policyGiven_standard_eq_ok_iff hfamily).mp h
    obtain ⟨name, arguments⟩ := call
    cases hpolicy with
    | @tokenAware child hchild =>
      obtain _ | ⟨hfirst, ⟨⟩⟩ := hvalues
      obtain ⟨childName, childArguments, rfl, hgiven⟩ := exists_call_of_valueGiven hfamily hfirst
      simp only [Argument.preorderAll, Argument.preorder, List.append_nil, List.forall_mem_cons] at hshown
      have hplain : child.Plain LatencySettings.IsReadable :=
        ih (Call.size ⟨childName, childArguments⟩) (hn ▸ Call.size_lt_of_first) hshown.2 hgiven rfl
      exact hplain
    | @latencyAware arguments hfit hchild hsettings =>
      obtain _ | ⟨hfirst, _ | ⟨hsecond, hrest⟩⟩ := hvalues
      obtain ⟨childName, childArguments, rfl, hgiven⟩ := exists_call_of_valueGiven hfamily hfirst
      obtain rfl := eq_literal_of_valueGiven hsecond
      simp only [Argument.preorderAll, Argument.preorder, List.cons_append, List.forall_mem_cons,
        List.forall_mem_append, List.nil_append] at hshown
      obtain ⟨-, hchildShown, hcanonical, -⟩ := hshown
      have hplain : arguments.child.Plain LatencySettings.IsReadable :=
        ih (Call.size ⟨childName, childArguments⟩) (hn ▸ Call.size_lt_of_first) hchildShown hgiven rfl
      exact ⟨hplain, isReadable_settings hcanonical hsettings⟩
    | _ => trivial

/-- A resolved policy has settings that can be read. -/
theorem plain_of_policyOf {expression : String} {policy : Policy}
    (h : (standard family).policyOf expression = .ok policy) : policy.Plain LatencySettings.IsReadable := by
  cases hread : (standard family).read expression with
  | error fault =>
    rw [policyOf_eq, hread] at h
    exact nomatch h
  | ok call =>
    rw [policyOf_of_read hread] at h
    by_cases hfamily : family = .retry
    · subst hfamily
      obtain ⟨c, -, hshared⟩ := exists_shared_of_policyGiven h
      cases c <;> cases hshared <;> trivial
    · have hparse : Call.parse expression = .ok call := by
        rwa [read, if_neg (show (standard family).family ≠ .retry from hfamily)] at hread
      have hshown := Call.isShown_of_parse hparse
      rw [Call.toArgument, Argument.preorder, List.forall_mem_cons] at hshown
      exact plain_of_policyGiven hfamily hshown.2 h

/-- Two expressions of one family that resolve give equal policies if and only if the records of these are
equal, if and only if the policies are the same, and if and only if the trees of the expressions are one when
they are written out: they differ, at any depth, only in names with or without the namespace of the built-in
policies and in a number of remote hosts that is zero or left out. Trees that differ only so come to the same
policy or to the same failure. -/
theorem equals_policyOf_iff (family : Family) (own : CustomPolicy → CustomPolicy → Bool)
    (expression expression' : String) :
    (∀ policy policy', (standard family).policyOf expression = .ok policy →
      (standard family).policyOf expression' = .ok policy' →
        (policy.equals own policy' ↔ policy.describe.equals policy'.describe) ∧
        (policy.equals own policy' ↔ policy = policy')) ∧
    ∀ call call', (standard family).read expression = .ok call →
      (standard family).read expression' = .ok call' →
        (call.writtenOut = call'.writtenOut →
          (standard family).policyOf expression = (standard family).policyOf expression') ∧
        ∀ policy policy', (standard family).policyOf expression = .ok policy →
          (standard family).policyOf expression' = .ok policy' →
            (policy.equals own policy' ↔ call.writtenOut = call'.writtenOut) := by
  have hsame {policy policy' : Policy} (h : (standard family).policyOf expression = .ok policy)
      (h' : (standard family).policyOf expression' = .ok policy') :
      policy.equals own policy' ↔ policy = policy' :=
    Policy.equals_iff_eq (plain_of_policyOf h) (plain_of_policyOf h')
  refine ⟨fun policy policy' h h' => ⟨?_, hsame h h'⟩, fun call call' hread hread' => ?_⟩
  · have hwhole := (plain_of_policyOf h).mono fun _ => LatencySettings.IsReadable.toIsWhole
    have hwhole' := (plain_of_policyOf h').mono fun _ => LatencySettings.IsReadable.toIsWhole
    rw [Policy.equals_describe hwhole hwhole']
  · have houtcome (hwritten : call.writtenOut = call'.writtenOut) :
        (standard family).policyOf expression = (standard family).policyOf expression' := by
      rw [policyOf_of_read hread, policyOf_of_read hread', ← policyGiven_writtenOut call, hwritten,
        policyGiven_writtenOut]
    refine ⟨houtcome, fun policy policy' h h' => (hsame h h').trans ⟨?_, fun hwritten => ?_⟩⟩
    · rintro rfl
      rw [writtenOut_of_policyOf hread h, writtenOut_of_policyOf hread' h']
    · exact Except.ok.inj (h.symm.trans ((houtcome hwritten).trans h'))

/-- A data center without a number of remote hosts, and one with zero inside a call of a name with the
namespace in front, make equal policies with equal records. -/
theorem equals_policyOf_token_aware :
    (standard .loadBalancing).read "TokenAwarePolicy(DCAwareRoundRobinPolicy('dc1'))" =
      .ok ⟨"TokenAwarePolicy", [.call "DCAwareRoundRobinPolicy" [.literal (.string "dc1")]]⟩ ∧
    (standard .loadBalancing).read
        "cqlpolicy.policies.TokenAwarePolicy(DCAwareRoundRobinPolicy('dc1', 0))" =
      .ok ⟨"cqlpolicy.policies.TokenAwarePolicy",
        [.call "DCAwareRoundRobinPolicy" [.literal (.string "dc1"), .literal (.int 0)]]⟩ ∧
    (standard .loadBalancing).policyOf "TokenAwarePolicy(DCAwareRoundRobinPolicy('dc1'))" =
      .ok (.tokenAware (.dataCenterAware (some "dc1") 0)) ∧
    (standard .loadBalancing).policyOf
        "cqlpolicy.policies.TokenAwarePolicy(DCAwareRoundRobinPolicy('dc1', 0))" =
      .ok (.tokenAware (.dataCenterAware (some "dc1") 0)) ∧
    (Policy.tokenAware (.dataCenterAware (some "dc1") 0)).equals (fun _ _ => false)
      (.tokenAware (.dataCenterAware (some "dc1") 0)) ∧
    (Policy.tokenAware (.dataCenterAware (some "dc1") 0)).describe.equals
      (Policy.tokenAware (.dataCenterAware (some "dc1") 0)).describe := by
  have hread : (standard .loadBalancing).read "TokenAwarePolicy(DCAwareRoundRobinPolicy('dc1'))" =
      .ok ⟨"TokenAwarePolicy", [.call "DCAwareRoundRobinPolicy" [.literal (.string "dc1")]]⟩ :=
    Option.some.inj ((Call.readWithin_length _).symm.trans rfl)
  have hread' : (standard .loadBalancing).read
      "cqlpolicy.policies.TokenAwarePolicy(DCAwareRoundRobinPolicy('dc1', 0))" =
        .ok ⟨"cqlpolicy.policies.TokenAwarePolicy",
          [.call "DCAwareRoundRobinPolicy" [.literal (.string "dc1"), .literal (.int 0)]]⟩ :=
    Option.some.inj ((Call.readWithin_length _).symm.trans rfl)
  have hpolicy : (standard .loadBalancing).policyOf "TokenAwarePolicy(DCAwareRoundRobinPolicy('dc1'))" =
      .ok (.tokenAware (.dataCenterAware (some "dc1") 0)) := by
    rw [policyOf_of_read hread]
    rfl
  obtain ⟨hrecords, htrees⟩ := equals_policyOf_iff .loadBalancing (fun _ _ => false)
    "TokenAwarePolicy(DCAwareRoundRobinPolicy('dc1'))"
    "cqlpolicy.policies.TokenAwarePolicy(DCAwareRoundRobinPolicy('dc1', 0))"
  obtain ⟨houtcome, hequal⟩ := htrees _ _ hread hread'
  have hpolicy' := (houtcome rfl).symm.trans hpolicy
  have hequal := (hequal _ _ hpolicy hpolicy').mpr rfl
  exact ⟨hread, hread', hpolicy, hpolicy', hequal, (hrecords _ _ hpolicy hpolicy').1.mp hequal⟩

end Resolver

end DriverPolicy
