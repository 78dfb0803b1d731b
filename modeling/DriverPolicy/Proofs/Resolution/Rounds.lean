import DriverPolicy.Proofs.Resolution.Reduction

/-!
# Rounds, look-ups and constructions

The loop of pending calls goes round: it takes over a literal, looks up the name of a nested call,
or constructs the innermost call. Each round makes what is left lighter, so a tree takes at most
two rounds for each of its calls and literals.

The steps that can fail are look-ups and constructions. In the order of the tree a call is looked
up on the way down, before its arguments, and constructed on the way up, after them. The first
step of this order that fails on its own is the failure of the whole tree.
-/

namespace DriverPolicy

namespace PendingCall

/-- What one round of the loop comes to: a policy, or calls that are still pending. -/
inductive Round where
  | ended (policy : Policy)
  | ongoing (current : PendingCall) (outer : List PendingCall)

/-- What follows a round: nothing after the last one, and `next` while calls are pending. -/
def Round.continue (next : PendingCall → List PendingCall → Run ResolutionFailure Policy) :
    Round → Run ResolutionFailure Policy
  | ended policy => return policy
  | ongoing current outer => next current outer

/-- One round: take over the next literal, look up the next nested call, or construct the innermost
call. -/
def round (resolver : Resolver) (current : PendingCall) (outer : List PendingCall) :
    Run ResolutionFailure Round :=
  match current.pending with
  | .literal value :: rest =>
    return .ongoing ({ current with pending := rest }.accept (.ofLiteral value)) outer
  | .call name arguments :: rest => do
    let type ← Run.ofExcept (resolver.typeOf name)
    return .ongoing ⟨type, arguments, []⟩ ({ current with pending := rest } :: outer)
  | [] => do
    let policy ← Resolver.constructOf current.type current.done.reverse
    match outer with
    | [] => return .ended policy
    | parent :: outer => return .ongoing (parent.accept (.ofPolicy policy)) outer

/-- The loop goes one round and then on. -/
theorem run_eq_round (resolver : Resolver) (current : PendingCall) (outer : List PendingCall) :
    run resolver current outer =
      round resolver current outer >>= Round.continue (run resolver) := by
  rw [run, round]
  split
  · next hpending => rw [hpending, pure_bind, Round.continue]
  · next hpending =>
    rw [hpending, bind_assoc]
    simp only [pure_bind, Round.continue]
  · next hpending =>
    rw [hpending, bind_assoc]
    congr 1
    funext policy
    cases outer with
    | nil => rw [pure_bind, Round.continue]
    | cons parent outer => rw [pure_bind, Round.continue]

/-- The policy that the loop comes to, if it takes no more rounds than `n`; a failure ends the loop
at once. -/
def within (resolver : Resolver) :
    Nat → PendingCall → List PendingCall → Run ResolutionFailure (Option Policy)
  | 0, _, _ => return none
  | n + 1, current, outer => do
    match ← round resolver current outer with
    | .ended policy => return some policy
    | .ongoing next around => within resolver n next around

/-- The loop takes no more rounds than the pending calls weigh. -/
theorem within_weight (resolver : Resolver) (n : Nat) (current : PendingCall)
    (outer : List PendingCall) (h : current.weight + totalWeight outer ≤ n) :
    within resolver n current outer = some <$> run resolver current outer := by
  induction n generalizing current outer with
  | zero => simp [weight] at h
  | succ n ih =>
    rw [within, run_eq_round, map_bind, round]
    split
    · next value rest hpending =>
      rw [pure_bind, pure_bind]
      refine ih _ _ ?_
      simp only [accept, weight, Argument.sizeAll, Argument.size, hpending] at h ⊢
      omega
    · next name arguments rest hpending =>
      simp only [bind_assoc, pure_bind]
      congr 1
      funext type
      refine ih _ _ ?_
      simp only [totalWeight, weight, Argument.sizeAll, Argument.size, hpending] at h ⊢
      omega
    · next hpending =>
      simp only [bind_assoc]
      congr 1
      funext policy
      cases outer with
      | nil =>
        rw [pure_bind, pure_bind, Round.continue, map_pure]
      | cons parent outer =>
        rw [pure_bind, pure_bind]
        refine ih _ _ ?_
        simp only [totalWeight, accept, weight, hpending] at h ⊢
        omega

end PendingCall

/-- A step in which a tree is reduced and which can fail. -/
inductive Step where
  | lookUp (name : String)
  | construct (call : Call)

mutual

/-- The steps for an argument: a nested call is looked up before its arguments are reduced and
constructed after that. -/
def Argument.steps : Argument → List Step
  | .literal _ => []
  | .call name arguments =>
    .lookUp name :: (Argument.stepsAll arguments ++ [.construct ⟨name, arguments⟩])

/-- The steps for arguments, from left to right. -/
def Argument.stepsAll : List Argument → List Step
  | [] => []
  | argument :: rest => argument.steps ++ Argument.stepsAll rest

end

/-- The steps for a whole tree. -/
def Call.steps (call : Call) : List Step := call.toArgument.steps

/-- Why a step fails on its own: its name cannot be looked up, or its type does not construct a
policy from the values of its arguments. A construction for which something is missing does not
take place. -/
def Step.failure? (resolver : Resolver) : Step → Option ResolutionFailure
  | lookUp name => failureOf (resolver.typeOf name)
  | construct call =>
    match resolver.typeOf call.name, resolver.valuesGiven call.arguments with
    | .ok type, .ok values => failureOf (type.construct values)
    | _, _ => none

namespace Resolver

mutual

/-- The failure of an argument is that of the first step that fails. -/
theorem failureOf_valueGiven (resolver : Resolver) (argument : Argument) :
    failureOf (resolver.valueGiven argument) =
      argument.steps.findSome? (Step.failure? resolver) := by
  cases argument with
  | literal value => rw [valueGiven, Argument.steps, failureOf, List.findSome?_nil]
  | call name arguments =>
    have harguments := failureOf_valuesGiven resolver arguments
    rw [valueGiven, Argument.steps, List.findSome?_cons, List.findSome?_append, ← harguments,
      List.findSome?_singleton, Step.failure?, Step.failure?]
    cases htype : resolver.typeOf name with
    | error failure => rfl
    | ok type =>
      cases hvalues : resolver.valuesGiven arguments with
      | error failure => rfl
      | ok values => cases hpolicy : type.construct values <;> simp [failureOf, hpolicy]

/-- The failure of arguments is that of the first step that fails. -/
theorem failureOf_valuesGiven (resolver : Resolver) (arguments : List Argument) :
    failureOf (resolver.valuesGiven arguments) =
      (Argument.stepsAll arguments).findSome? (Step.failure? resolver) := by
  cases arguments with
  | nil => rw [valuesGiven, Argument.stepsAll, failureOf, List.findSome?_nil]
  | cons argument rest =>
    rw [valuesGiven, Argument.stepsAll, List.findSome?_append,
      ← failureOf_valueGiven resolver argument, ← failureOf_valuesGiven resolver rest]
    cases resolver.valueGiven argument with
    | error failure => rfl
    | ok value => cases resolver.valuesGiven rest <;> rfl

end

/-- Reducing a call gives the policy that its type constructs from the values of its arguments. -/
theorem gives_reduce (resolver : Resolver) (call : Call) :
    Run.Gives (resolver.reduce call) (do
      let type ← resolver.typeOf call.name
      type.construct (← resolver.valuesGiven call.arguments)) := by
  rw [reduce]
  refine .bind (.ofExcept _) fun type _ => .bind (gives_valuesOf resolver call.arguments) ?_
  exact fun values _ => gives_constructOf type values

/-- The failure of a reduction is that of the first step that fails. -/
theorem failureOf_reduce (resolver : Resolver) (call : Call) :
    failureOf (Run.start (resolver.reduce call)).1 =
      call.steps.findSome? (Step.failure? resolver) := by
  have hvalue : resolver.valueGiven call.toArgument = (do
      let type ← resolver.typeOf call.name
      let policy ← type.construct (← resolver.valuesGiven call.arguments)
      return .ofPolicy policy) := rfl
  rw [Call.steps, ← failureOf_valueGiven, hvalue]
  rw [(gives_reduce resolver call).start]
  cases resolver.typeOf call.name with
  | error failure => rfl
  | ok type =>
    cases resolver.valuesGiven call.arguments with
    | error failure => rfl
    | ok values => cases hpolicy : type.construct values <;> simp [failureOf, hpolicy]

/-- The values of arguments are reduced one after the other. -/
theorem valuesOf_eq_mapM (resolver : Resolver) (arguments : List Argument) :
    resolver.valuesOf arguments = arguments.mapM resolver.valueOf := by
  induction arguments with
  | nil => rw [valuesOf, List.mapM_nil]
  | cons argument rest ih => rw [valuesOf, List.mapM_cons, ih]

/-- The value of an argument, where nested calls are reduced by `reduceCall`. -/
def valueWith (reduceCall : Call → Run ResolutionFailure Policy) :
    Argument → Run ResolutionFailure TypedValue
  | .literal value => return .ofLiteral value
  | .call name arguments => return .ofPolicy (← reduceCall ⟨name, arguments⟩)

/-- The reduction is a recursion: a call's name is looked up, its arguments are reduced from left to
right, nested calls in the same way, and its type constructs a policy from the values. -/
theorem reduce_eq (resolver : Resolver) (call : Call) :
    resolver.reduce call = (do
      let type ← Run.ofExcept (resolver.typeOf call.name)
      let values ← call.arguments.mapM (valueWith resolver.reduce)
      constructOf type values) := by
  have hvalue : resolver.valueOf = valueWith resolver.reduce := by
    funext argument
    cases argument with
    | literal value => rw [valueOf, valueWith]
    | call name arguments =>
      rw [valueOf, valueWith, reduce]
      simp only [bind_assoc]
  rw [reduce, valuesOf_eq_mapM, hvalue]

/-- A literal fills a parameter of the kind that has its own kind's name. -/
theorem kind_name_ofLiteral (literal : Literal) :
    (TypedValue.ofLiteral literal).kind.name = literal.kind.name := by
  cases literal <;> rfl

/-- Look up the name of a call and go round the loop until its policy is constructed. -/
def buildByLoop (resolver : Resolver) (call : Call) : Run ResolutionFailure Policy := do
  let type ← Run.ofExcept (resolver.typeOf call.name)
  PendingCall.run resolver ⟨type, call.arguments, []⟩ []

/-- The same, given up when the loop has not ended after `n` rounds. -/
def buildWithin (resolver : Resolver) (n : Nat) (call : Call) :
    Run ResolutionFailure (Option Policy) := do
  let type ← Run.ofExcept (resolver.typeOf call.name)
  PendingCall.within resolver n ⟨type, call.arguments, []⟩ []

/-- Building by the loop is reducing. -/
theorem buildByLoop_eq_reduce (resolver : Resolver) (call : Call) :
    resolver.buildByLoop call = resolver.reduce call := by
  rw [buildByLoop, reduce]
  congr 1
  funext type
  rw [PendingCall.run_eq_finish, PendingCall.finish]
  exact bind_pure _

/-- The loop ends within two rounds for each call and literal of the tree. -/
theorem buildWithin_size (resolver : Resolver) (call : Call) :
    resolver.buildWithin (2 * call.size) call = some <$> resolver.buildByLoop call := by
  rw [buildWithin, buildByLoop, map_bind]
  congr 1
  funext type
  refine PendingCall.within_weight resolver _ _ _ ?_
  simp only [PendingCall.weight, PendingCall.totalWeight, Call.size]
  omega

/-- Building a call tree by the loop ends and is the recursive reduction: the same policy or the
same failure, and the same reports. The failure is that of the first step that fails, where names
are looked up on the way down and policies are constructed on the way up. -/
theorem buildByLoop_eq_recursion (resolver : Resolver) (call : Call) :
    resolver.buildWithin (2 * call.size) call = some <$> resolver.buildByLoop call ∧
    resolver.buildByLoop call = resolver.reduce call ∧
    (resolver.family ≠ .retry → resolver.build call = resolver.buildByLoop call) ∧
    failureOf (Run.start (resolver.buildByLoop call)).1 =
      call.steps.findSome? (Step.failure? resolver) ∧
    (∀ call : Call, resolver.reduce call = (do
      let type ← Run.ofExcept (resolver.typeOf call.name)
      let values ← call.arguments.mapM (valueWith resolver.reduce)
      constructOf type values)) ∧
    ∀ literal : Literal, (TypedValue.ofLiteral literal).kind.name = literal.kind.name := by
  refine ⟨buildWithin_size resolver call, buildByLoop_eq_reduce resolver call, fun hfamily => ?_,
    ?_, reduce_eq resolver, kind_name_ofLiteral⟩
  · rw [build_eq_reduce hfamily, buildByLoop_eq_reduce]
  · rw [buildByLoop_eq_reduce, failureOf_reduce]

end Resolver

end DriverPolicy
