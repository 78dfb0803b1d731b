import DriverPolicy.Proofs.Attempt
import DriverPolicy.Resolution.Resolver

/-!
# The loop of pending calls reduces as the recursion does

The work of a resolver keeps the calls whose arguments are not all reduced on a list and goes
round a loop. What is left to do is said by recursion: finish the innermost call, hand its policy
to the call around it, and finish that one. The loop does the same work, reports included.

What is reported never has a part in the outcome. The outcome alone is a recursion on the tree,
without any trail.
-/

namespace DriverPolicy

namespace PendingCall

/-- Reduce the arguments of a call that are still pending, by recursion, and construct its
policy. -/
def finish (resolver : Resolver) (call : PendingCall) : Run ResolutionFailure Policy := do
  let values ← resolver.valuesOf call.pending
  Resolver.constructOf call.type (call.done.reverse ++ values)

/-- Hand a policy to the innermost pending call, finish that one, and so on to the outermost. -/
def unwind (resolver : Resolver) : List PendingCall → Policy → Run ResolutionFailure Policy
  | [], policy => return policy
  | parent :: outer, policy => do
    unwind resolver outer (← finish resolver (parent.accept (.ofPolicy policy)))

/-- A call without pending arguments is constructed. -/
theorem finish_nil {resolver : Resolver} {call : PendingCall} (h : call.pending = []) :
    finish resolver call = Resolver.constructOf call.type call.done.reverse := by
  rw [finish, h, Resolver.valuesOf, pure_bind, List.append_nil]

/-- The first pending argument is reduced before the rest of the call is finished. -/
theorem finish_cons {resolver : Resolver} {call : PendingCall} {argument : Argument}
    {rest : List Argument} (h : call.pending = argument :: rest) :
    finish resolver call = (do
      let value ← resolver.valueOf argument
      finish resolver ({ call with pending := rest }.accept value)) := by
  simp only [finish, h, Resolver.valuesOf, bind_assoc, pure_bind, accept, List.reverse_cons,
    List.append_assoc, List.singleton_append]

/-- The loop does what finishing the innermost call and those around it does. -/
theorem run_eq_finish (resolver : Resolver) (current : PendingCall) (outer : List PendingCall) :
    run resolver current outer = finish resolver current >>= unwind resolver outer := by
  induction hn : current.weight + totalWeight outer using Nat.strongRecOn
    generalizing current outer with
  | ind n ih =>
    rw [run]
    split
    · next value rest hpending =>
      have hweight : ({ current with pending := rest }.accept (.ofLiteral value)).weight +
          totalWeight outer < n := by
        rw [← hn]
        simp only [accept, weight, Argument.sizeAll, Argument.size, hpending]
        omega
      rw [ih _ hweight _ _ rfl, finish_cons hpending, Resolver.valueOf, pure_bind]
    · next name arguments rest hpending =>
      have hweight (type : PolicyType) : (PendingCall.mk type arguments []).weight +
          totalWeight ({ current with pending := rest } :: outer) < n := by
        rw [← hn]
        simp only [totalWeight, weight, Argument.sizeAll, Argument.size, hpending]
        omega
      -- to finish the nested call and resume this one is to reduce the argument and go on
      rw [finish_cons hpending, Resolver.valueOf]
      simp only [bind_assoc, pure_bind]
      congr 1
      funext type
      rw [ih _ (hweight type) _ _ rfl, finish, bind_assoc]
      rfl
    · next hpending =>
      rw [finish_nil hpending]
      congr 1
      funext policy
      cases outer with
      | nil => rfl
      | cons parent outer =>
        have hweight : (parent.accept (.ofPolicy policy)).weight + totalWeight outer < n := by
          rw [← hn]
          simp only [totalWeight, accept, weight]
          omega
        exact ih _ hweight _ _ rfl

end PendingCall

namespace Resolver

/-- Policies of other families than retry are built by the recursive reduction. -/
theorem build_eq_reduce {resolver : Resolver} (h : resolver.family ≠ .retry) (call : Call) :
    resolver.build call = resolver.reduce call := by
  rw [build, reduce]
  congr 1
  funext type
  rw [if_neg h, PendingCall.run_eq_finish, PendingCall.finish]
  simp only [List.reverse_nil, List.nil_append]
  exact bind_pure _

end Resolver

namespace Run

variable {ε α β : Type}

/-- Some work has an outcome, whatever the context and whatever has been reported before. -/
def Gives (work : Run ε α) (outcome : Except ε α) : Prop :=
  ∀ trail, (work.run.run trail).1 = outcome

namespace Gives

/-- Work that starts without a context comes to its outcome. -/
theorem start {work : Run ε α} {x : Except ε α} (h : Gives work x) : (Run.start work).1 = x :=
  h .empty

/-- Returning a value gives it. -/
theorem pure (a : α) : Gives (pure a : Run ε α) (.ok a) := fun _ => rfl

/-- Work that reports nothing gives its result. -/
theorem ofExcept (result : Except ε α) : Gives (ofExcept result) result := fun _ => rfl

/-- A report succeeds. -/
theorem report (event : Event) : Gives (report event : Run ε Unit) (.ok ()) := fun _ => rfl

/-- Work and what follows it give the outcomes of both in sequence. -/
theorem bind {work : Run ε α} {next : α → Run ε β} {x : Except ε α} {f : α → Except ε β}
    (hwork : Gives work x) (hnext : ∀ a, x = .ok a → Gives (next a) (f a)) :
    Gives (work >>= next) (x >>= f) := by
  intro trail
  have hx := hwork trail
  rw [ExceptT.run_bind, StateT.run_bind]
  obtain ⟨⟨outcome, after⟩, hrun⟩ : ∃ result, work.run.run trail = result := ⟨_, rfl⟩
  rw [hrun] at hx ⊢
  subst hx
  cases outcome with
  | error e => rfl
  | ok a => exact hnext a rfl after

/-- A context has no part in the outcome. -/
theorem within {context : Context} {work : Run ε α} {x : Except ε α} (h : Gives work x) :
    Gives (within context work) x := fun trail => h { trail with context }

end Gives

end Run

namespace Resolver

mutual

/-- The value of an argument, without what is reported on the way. -/
def valueGiven (resolver : Resolver) : Argument → Except ResolutionFailure TypedValue
  | .literal value => .ok (.ofLiteral value)
  | .call name arguments => do
    let type ← resolver.typeOf name
    let values ← resolver.valuesGiven arguments
    return .ofPolicy (← type.construct values)

/-- The values of arguments, without what is reported on the way. -/
def valuesGiven (resolver : Resolver) : List Argument → Except ResolutionFailure (List TypedValue)
  | [] => .ok []
  | argument :: rest => do
    let value ← resolver.valueGiven argument
    return value :: (← resolver.valuesGiven rest)

end

/-- The policy of a call tree, without what is reported on the way. -/
def policyGiven (resolver : Resolver) (call : Call) : Except ResolutionFailure Policy := do
  let type ← resolver.typeOf call.name
  if resolver.family = .retry then type.requireShared
  else type.construct (← resolver.valuesGiven call.arguments)

/-- The values of arguments are found one after the other. -/
theorem valuesGiven_eq_mapM (resolver : Resolver) (arguments : List Argument) :
    resolver.valuesGiven arguments = arguments.mapM resolver.valueGiven := by
  induction arguments with
  | nil => rfl
  | cons argument rest ih => rw [valuesGiven, List.mapM_cons, ih]

/-- Constructing a policy gives it, or the failure to construct it. -/
theorem gives_constructOf (type : PolicyType) (values : List TypedValue) :
    Run.Gives (constructOf type values) (type.construct values) := by
  rw [← bind_pure (type.construct values), constructOf]
  exact .bind (.ofExcept _) fun policy _ => .bind (.report _) fun _ _ => .pure policy

mutual

/-- Reducing an argument gives its value. -/
theorem gives_valueOf (resolver : Resolver) (argument : Argument) :
    Run.Gives (resolver.valueOf argument) (resolver.valueGiven argument) := by
  cases argument with
  | literal value =>
    rw [valueOf, valueGiven]
    exact .pure _
  | call name arguments =>
    rw [valueOf, valueGiven]
    refine .bind (.ofExcept _) fun type _ => .bind (gives_valuesOf resolver arguments) ?_
    exact fun values _ => .bind (gives_constructOf type values) fun policy _ => .pure _

/-- Reducing arguments gives their values. -/
theorem gives_valuesOf (resolver : Resolver) (arguments : List Argument) :
    Run.Gives (resolver.valuesOf arguments) (resolver.valuesGiven arguments) := by
  cases arguments with
  | nil =>
    rw [valuesOf, valuesGiven]
    exact .pure _
  | cons argument rest =>
    rw [valuesOf, valuesGiven]
    refine .bind (gives_valueOf resolver argument) fun value _ => ?_
    exact .bind (gives_valuesOf resolver rest) fun values _ => .pure _

end

/-- Building a call tree gives its policy. -/
theorem gives_build (resolver : Resolver) (call : Call) :
    Run.Gives (resolver.build call) (resolver.policyGiven call) := by
  by_cases hretry : resolver.family = .retry
  · rw [build, policyGiven]
    refine .bind (.ofExcept _) fun type _ => ?_
    rw [if_pos hretry, if_pos hretry]
    exact .ofExcept _
  · rw [build_eq_reduce hretry, reduce, policyGiven]
    refine .bind (.ofExcept _) fun type _ => ?_
    rw [if_neg hretry]
    refine .bind (gives_valuesOf resolver call.arguments) fun values _ => ?_
    exact gives_constructOf type values

/-- Reading and reporting a tree gives the tree. -/
theorem gives_readReporting (resolver : Resolver) (expression : String) :
    Run.Gives (resolver.readReporting expression)
      ((resolver.read expression).mapError .ofReading) := by
  rw [← bind_pure ((resolver.read expression).mapError ResolutionFailure.ofReading),
    readReporting]
  refine .bind (.ofExcept _) fun call _ => ?_
  split
  · exact .bind (.report _) fun _ _ => .pure call
  · exact .bind (.pure ()) fun _ _ => .pure call

/-- The policy that an expression describes is that of its tree. -/
theorem policyOf_eq (resolver : Resolver) (expression : String) :
    resolver.policyOf expression =
      (resolver.read expression).mapError .ofReading >>= resolver.policyGiven := by
  have hgives : Run.Gives (resolver.resolve expression)
      ((resolver.read expression).mapError .ofReading >>= resolver.policyGiven) := by
    rw [resolve]
    refine .within (.bind (gives_readReporting resolver expression) fun call _ => ?_)
    rw [← bind_pure (resolver.policyGiven call)]
    refine .bind (gives_build resolver call) fun policy _ => ?_
    exact .bind (.report _) fun _ _ => .pure policy
  exact hgives .empty

/-- The policy that an expression describes is that of the tree which it is read as. -/
theorem policyOf_of_read {resolver : Resolver} {expression : String} {call : Call}
    (h : resolver.read expression = .ok call) :
    resolver.policyOf expression = resolver.policyGiven call := by
  rw [policyOf_eq, h]
  rfl

end Resolver

end DriverPolicy
