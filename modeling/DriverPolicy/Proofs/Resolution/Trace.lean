import DriverPolicy.Proofs.Expression.Descent
import DriverPolicy.Proofs.Registry.Entries
import DriverPolicy.Proofs.Resolution.Rounds

/-!
# What a resolution reports

Work appends its reports to the trail, each in the context in force. What the reduction of a tree
reports can be read off the tree: the calls whose construction comes before the first step that
fails, each when it is constructed, which is after its arguments. The context that a resolution
works in is its own; the one before it is back in force afterwards, whatever the outcome.
-/

namespace DriverPolicy

namespace Run

variable {ε α β : Type}

/-- Some work has an outcome and appends events to the trail, each in the context in force, whatever
that is and whatever has been reported before. -/
def Reports (work : Run ε α) (outcome : Except ε α) (events : List Event) : Prop :=
  ∀ trail : Trail, work.run.run trail =
    (outcome, { trail with entries := trail.entries ++ events.map (Entry.mk trail.context) })

namespace Reports

/-- Returning a value reports nothing. -/
theorem pure (a : α) : Reports (pure a : Run ε α) (.ok a) [] := by
  intro trail
  rw [List.map_nil, List.append_nil]
  rfl

/-- Work that reports nothing reports nothing with its result. -/
theorem ofExcept (result : Except ε α) : Reports (Run.ofExcept result) result [] := by
  intro trail
  rw [List.map_nil, List.append_nil]
  rfl

/-- A report is appended. -/
theorem report (event : Event) : Reports (Run.report event : Run ε Unit) (.ok ()) [event] :=
  fun _ => rfl

/-- Work that succeeds is followed by the events of what comes next, and work that fails by none. -/
theorem bind {work : Run ε α} {next : α → Run ε β} {x : Except ε α} {f : α → Except ε β}
    {events more : List Event} (hwork : Reports work x events)
    (hnext : ∀ a, x = .ok a → Reports (next a) (f a) more) :
    Reports (work >>= next) (x >>= f) (events ++ if failureOf x = none then more else []) := by
  intro trail
  rw [ExceptT.run_bind, StateT.run_bind, hwork trail]
  cases x with
  | error e =>
    rw [failureOf, if_neg (Option.some_ne_none e), List.append_nil]
    rfl
  | ok a =>
    rw [failureOf, if_pos rfl, List.map_append, ← List.append_assoc]
    exact hnext a rfl _

/-- After work that succeeds the next work follows with its value. -/
theorem bind_ok {work : Run ε α} {next : α → Run ε β} {a : α} {y : Except ε β}
    {events more : List Event} (hwork : Reports work (.ok a) events)
    (hnext : Reports (next a) y more) : Reports (work >>= next) y (events ++ more) :=
  hwork.bind (f := fun _ => y) fun _ h => Except.ok.inj h ▸ hnext

/-- After work that fails nothing follows. -/
theorem bind_error {work : Run ε α} {next : α → Run ε β} {e : ε} {events : List Event}
    (hwork : Reports work (.error e) events) : Reports (work >>= next) (.error e) events := by
  have hnext (a : α) (h : Except.error e = .ok a) : Reports (next a) (.error e) [] := by
    contradiction
  have hbind := hwork.bind hnext
  rwa [ite_self, List.append_nil] at hbind

/-- A result is handed on without a report. -/
theorem ofExcept_bind {next : α → Run ε β} {x : Except ε α} {f : α → Except ε β}
    {more : List Event} (hnext : ∀ a, x = .ok a → Reports (next a) (f a) more) :
    Reports (Run.ofExcept x >>= next) (x >>= f) (if failureOf x = none then more else []) :=
  (ofExcept x).bind hnext

/-- A value is handed on without a report. -/
theorem ofExcept_ok_bind {next : α → Run ε β} {a : α} {y : Except ε β} {more : List Event}
    (hnext : Reports (next a) y more) : Reports (Run.ofExcept (.ok a) >>= next) y more :=
  (ofExcept (.ok a)).bind_ok hnext

/-- What is made of the result reports nothing. -/
theorem bind_pure {work : Run ε α} {x : Except ε α} {events : List Event}
    (h : Reports work x events) (f : α → β) :
    Reports (do return f (← work)) (do return f (← x)) events := by
  have hbind := h.bind (f := fun a => .ok (f a)) fun a _ => .pure (f a)
  rwa [ite_self, List.append_nil] at hbind

end Reports

/-- In a context of its own work appends its events with that context, and the one before it is
back in force. -/
theorem run_within {work : Run ε α} {outcome : Except ε α} {events : List Event}
    (h : Reports work outcome events) (context : Context) (trail : Trail) :
    (within context work).run.run trail =
      (outcome, { trail with entries := trail.entries ++ events.map (Entry.mk context) }) := by
  change ((work.run.run { trail with context }).1,
    { (work.run.run { trail with context }).2 with context := trail.context }) = _
  rw [h]

end Run

mutual

/-- The calls in an argument, each after those in its own arguments. -/
def Argument.postorder : Argument → List Call
  | .literal _ => []
  | .call name arguments => Argument.postorderAll arguments ++ [⟨name, arguments⟩]

/-- The calls in arguments, from left to right. -/
def Argument.postorderAll : List Argument → List Call
  | [] => []
  | argument :: rest => argument.postorder ++ Argument.postorderAll rest

end

/-- The calls of a tree, each after those in its arguments. -/
def Call.postorder (call : Call) : List Call := call.toArgument.postorder

/-- The call that a step constructs. -/
def Step.constructed? : Step → Option Call
  | lookUp _ => none
  | construct call => some call

mutual

/-- Among the steps for an argument each call in it is constructed once, in this order. -/
theorem Argument.filterMap_steps (argument : Argument) :
    argument.steps.filterMap Step.constructed? = argument.postorder := by
  cases argument with
  | literal value => rfl
  | call name arguments =>
    rw [steps, postorder, List.filterMap_cons_none rfl, List.filterMap_append,
      Argument.filterMap_stepsAll arguments]
    rfl

/-- So is each call in arguments. -/
theorem Argument.filterMap_stepsAll (arguments : List Argument) :
    (Argument.stepsAll arguments).filterMap Step.constructed? =
      Argument.postorderAll arguments := by
  cases arguments with
  | nil => rfl
  | cons argument rest =>
    rw [stepsAll, postorderAll, List.filterMap_append, argument.filterMap_steps,
      Argument.filterMap_stepsAll rest]

end

namespace Resolver

/-- The calls that are constructed before the first of some steps that fails. -/
def completedIn (resolver : Resolver) (steps : List Step) : List Call :=
  (steps.takeWhile fun step => (step.failure? resolver).isNone).filterMap Step.constructed?

/-- The calls of a tree that are constructed before the first step that fails. -/
def completed (resolver : Resolver) (call : Call) : List Call := resolver.completedIn call.steps

/-- What is reported when a call is constructed: its qualified name and the kinds of its
arguments. -/
def constructedEvent (resolver : Resolver) (call : Call) : Event :=
  .constructed (qualifyName call.name resolver.namespaceName)
    (call.arguments.map fun argument => (ParameterKind.forArgument argument.kind).name)

/-- What reading an expression as a tree reports. Bare names are not trees. -/
def parsedEvents (resolver : Resolver) (expression : String) (call : Call) : List Event :=
  if resolver.family = .retry then [] else [.parsed expression call.name call.depth]

/-- What building a tree reports. Shared instances are not constructed. -/
def constructedEvents (resolver : Resolver) (call : Call) : List Event :=
  if resolver.family = .retry then []
  else (resolver.completed call).map resolver.constructedEvent

/-- What the outcome of a resolution reports. -/
def resolvedEvents (expression : String) : Except ResolutionFailure Policy → List Event
  | .ok policy => [.resolved expression policy.name]
  | .error _ => []

/-- What resolving an expression reports. -/
def reported (resolver : Resolver) (expression : String) : List Event :=
  (match resolver.read expression with
    | .error _ => []
    | .ok call => resolver.parsedEvents expression call ++ resolver.constructedEvents call) ++
    resolvedEvents expression (resolver.policyOf expression)

variable {resolver : Resolver}

/-- The first step completes its call, if it is a construction and does not fail; a step that fails
ends the work. -/
theorem completedIn_cons (resolver : Resolver) (step : Step) (steps : List Step) :
    resolver.completedIn (step :: steps) = if step.failure? resolver = none then
      step.constructed?.toList ++ resolver.completedIn steps else [] := by
  rw [completedIn, List.takeWhile_cons]
  cases step.failure? resolver with
  | some failure => rfl
  | none => cases step <;> rfl

/-- Steps after others are taken only if none of these fails. -/
theorem completedIn_append (resolver : Resolver) (steps more : List Step) :
    resolver.completedIn (steps ++ more) = resolver.completedIn steps ++
      if steps.findSome? (Step.failure? resolver) = none then resolver.completedIn more
      else [] := by
  induction steps with
  | nil => simp [completedIn]
  | cons step steps ih =>
    rw [List.cons_append, completedIn_cons, completedIn_cons, List.findSome?_cons]
    cases step.failure? resolver with
    | some failure => rfl
    | none => rw [if_pos rfl, if_pos rfl, ih, List.append_assoc]

/-- If no step fails, all calls are completed. -/
theorem completedIn_of_findSome? {steps : List Step}
    (h : steps.findSome? (Step.failure? resolver) = none) :
    resolver.completedIn steps = steps.filterMap Step.constructed? := by
  have hall : ∀ step ∈ steps, (step.failure? resolver).isNone := fun step hstep => by
    simpa using List.findSome?_eq_none_iff.mp h step hstep
  rw [completedIn, ← List.append_nil steps, List.takeWhile_append_of_pos hall, List.takeWhile_nil]

/-- An argument's value fills a parameter of the argument's own kind. -/
theorem kind_of_valueGiven {argument : Argument} {value : TypedValue}
    (h : resolver.valueGiven argument = .ok value) :
    value.kind = .forArgument argument.kind := by
  cases argument with
  | literal literal =>
    rw [valueGiven] at h
    rw [← Except.ok.inj h]
    rfl
  | call name arguments =>
    rw [valueGiven] at h
    obtain ⟨type, -, h⟩ := bind_eq_ok_iff.mp h
    obtain ⟨values, -, h⟩ := bind_eq_ok_iff.mp h
    obtain ⟨policy, -, h⟩ := bind_eq_ok_iff.mp h
    rw [← Except.ok.inj h]
    rfl

/-- The values of arguments ask for the signature that the kinds of the arguments make. -/
theorem signature_of_valuesGiven {arguments : List Argument} {values : List TypedValue}
    (h : resolver.valuesGiven arguments = .ok values) :
    TypedValue.signature values = arguments.map fun argument => .forArgument argument.kind := by
  rw [valuesGiven_eq_mapM, mapM_eq_ok_iff] at h
  induction h with
  | nil => rfl
  | cons hvalue _ ih => exact List.cons_eq_cons.mpr ⟨kind_of_valueGiven hvalue, ih⟩

/-- A type that a call's name stands for has this name, qualified. -/
theorem qualifiedName_of_typeOf {name : String} {type : PolicyType}
    (h : resolver.typeOf name = .ok type) :
    type.qualifiedName = qualifyName name resolver.namespaceName :=
  (Registry.find?_eq_some_iff.mp (Registry.lookup_eq_ok_iff.mp h).1).2

/-- Constructing the policy of a call reports the call if it succeeds, and else nothing. -/
theorem reports_constructOf {call : Call} {type : PolicyType} {values : List TypedValue}
    (htype : resolver.typeOf call.name = .ok type)
    (hvalues : resolver.valuesGiven call.arguments = .ok values) :
    Run.Reports (constructOf type values) (type.construct values)
      ((resolver.completedIn [.construct call]).map resolver.constructedEvent) := by
  have hfailure : (Step.construct call).failure? resolver = failureOf (type.construct values) := by
    rw [Step.failure?, htype, hvalues]
  have hevent : resolver.constructedEvent call =
      .constructed type.qualifiedName (TypedValue.signature values).names := by
    rw [constructedEvent, qualifiedName_of_typeOf htype, signature_of_valuesGiven hvalues,
      Signature.names, List.map_map]
    rfl
  have hreports : Run.Reports (constructOf type values) (type.construct values >>= .ok)
      ([] ++ if failureOf (type.construct values) = none then [resolver.constructedEvent call]
        else []) := by
    refine .bind (.ofExcept _) fun policy _ => ?_
    rw [hevent]
    exact .bind (x := .ok ()) (f := fun _ => .ok policy) (.report _) fun _ _ => .pure policy
  rw [completedIn_cons, hfailure, apply_ite (List.map _)]
  rwa [show type.construct values >>= .ok = type.construct values from bind_pure _] at hreports

/-- Reducing a call reports the calls that are completed, if this is so for its arguments. -/
theorem reports_reduce_of_arguments (call : Call)
    (h : Run.Reports (resolver.valuesOf call.arguments) (resolver.valuesGiven call.arguments)
      ((resolver.completedIn (Argument.stepsAll call.arguments)).map resolver.constructedEvent)) :
    Run.Reports (resolver.reduce call)
      (do
        let type ← resolver.typeOf call.name
        type.construct (← resolver.valuesGiven call.arguments))
      ((resolver.completed call).map resolver.constructedEvent) := by
  rw [reduce, completed, Call.steps, Call.toArgument, Argument.steps, completedIn_cons,
    apply_ite (List.map _)]
  refine .ofExcept_bind fun type htype => ?_
  rw [completedIn_append, ← failureOf_valuesGiven, List.map_append, List.map_append,
    apply_ite (List.map _)]
  exact .bind h fun values hvalues => reports_constructOf htype hvalues

mutual

/-- Reducing an argument reports the calls that are completed in it. -/
theorem reports_valueOf (resolver : Resolver) (argument : Argument) :
    Run.Reports (resolver.valueOf argument) (resolver.valueGiven argument)
      ((resolver.completedIn argument.steps).map resolver.constructedEvent) := by
  cases argument with
  | literal value =>
    rw [valueOf, valueGiven]
    exact .pure _
  | call name arguments =>
    have hreduce := reports_reduce_of_arguments ⟨name, arguments⟩
      (reports_valuesOf resolver arguments)
    have hvalue := hreduce.bind_pure TypedValue.ofPolicy
    simp only [reduce, bind_assoc] at hvalue
    rwa [valueOf, valueGiven]

/-- Reducing arguments reports the calls that are completed in them. -/
theorem reports_valuesOf (resolver : Resolver) (arguments : List Argument) :
    Run.Reports (resolver.valuesOf arguments) (resolver.valuesGiven arguments)
      ((resolver.completedIn (Argument.stepsAll arguments)).map resolver.constructedEvent) := by
  cases arguments with
  | nil =>
    rw [valuesOf, valuesGiven]
    exact .pure _
  | cons argument rest =>
    rw [valuesOf, valuesGiven, Argument.stepsAll, completedIn_append, ← failureOf_valueGiven,
      List.map_append, apply_ite (List.map _)]
    refine .bind (reports_valueOf resolver argument) fun value _ => ?_
    exact .bind_pure (reports_valuesOf resolver rest) _

end

/-- Building a call tree reports the calls that are completed; handing out a shared instance reports
nothing. -/
theorem reports_build (resolver : Resolver) (call : Call) :
    Run.Reports (resolver.build call) (resolver.policyGiven call)
      (resolver.constructedEvents call) := by
  rw [constructedEvents]
  by_cases hretry : resolver.family = .retry
  · rw [if_pos hretry, build, policyGiven]
    simp only [if_pos hretry]
    cases resolver.typeOf call.name with
    | error failure => exact .bind_error (.ofExcept _)
    | ok type => exact .ofExcept_ok_bind (.ofExcept _)
  · rw [if_neg hretry, build_eq_reduce hretry, policyGiven]
    simp only [if_neg hretry]
    exact reports_reduce_of_arguments call (reports_valuesOf resolver call.arguments)

/-- Reading a tree reports it; bare names are not reported. -/
theorem reports_readReporting {expression : String} {call : Call}
    (h : resolver.read expression = .ok call) :
    Run.Reports (resolver.readReporting expression) (.ok call)
      (resolver.parsedEvents expression call) := by
  rw [readReporting, parsedEvents, h]
  by_cases hretry : resolver.family = .retry
  · rw [if_pos hretry]
    refine .ofExcept_ok_bind ?_
    simp only [hretry, ne_eq, not_true_eq_false, ↓reduceIte]
    exact .pure call
  · rw [if_neg hretry]
    refine .ofExcept_ok_bind ?_
    simp only [hretry, ne_eq, not_false_eq_true, ↓reduceIte]
    exact .bind_ok (a := ()) (.report _) (.pure call)

/-- In its context a resolution has its policy as outcome and reports what is expected. -/
theorem reports_resolution (resolver : Resolver) (expression : String) :
    Run.Reports
      (do
        let policy ← resolver.build (← resolver.readReporting expression)
        Run.report (.resolved expression policy.name)
        return policy)
      (resolver.policyOf expression) (resolver.reported expression) := by
  rw [reported, policyOf_eq]
  cases hread : resolver.read expression with
  | error fault =>
    refine .bind_error ?_
    rw [readReporting, hread]
    exact .bind_error (.ofExcept _)
  | ok call =>
    rw [List.append_assoc]
    refine .bind_ok (reports_readReporting hread) ?_
    have hbuild := reports_build resolver call
    change Run.Reports _ (resolver.policyGiven call)
      (_ ++ resolvedEvents expression (resolver.policyGiven call))
    cases hpolicy : resolver.policyGiven call with
    | error failure =>
      rw [hpolicy] at hbuild
      rw [resolvedEvents, List.append_nil]
      exact .bind_error hbuild
    | ok policy =>
      rw [hpolicy] at hbuild
      exact .bind_ok hbuild (.bind_ok (.report _) (.pure policy))

/-- The failure of a call tree is that of its first step that fails. -/
theorem failureOf_policyGiven (hfamily : resolver.family ≠ .retry) (call : Call) :
    failureOf (resolver.policyGiven call) = call.steps.findSome? (Step.failure? resolver) := by
  rw [← failureOf_reduce, ← build_eq_reduce hfamily, (gives_build resolver call).start]

/-- Of the calls of a tree the first ones are completed in the order after their arguments, and all
of them if no step fails. -/
theorem completed_prefix_postorder (resolver : Resolver) (call : Call) :
    resolver.completed call <+: call.postorder := by
  rw [completed, completedIn, Call.postorder, ← Argument.filterMap_steps]
  exact (List.takeWhile_prefix _).filterMap _

/-- What a resolution reports is detail for finding faults. -/
theorem level_of_mem_reported {expression : String} {event : Event}
    (h : event ∈ resolver.reported expression) : event.level = .debug := by
  rw [reported, List.mem_append] at h
  rcases h with hread | hresolved
  · split at hread
    · contradiction
    · simp only [parsedEvents, constructedEvents, List.mem_append] at hread
      split at hread
      · simp at hread
      · simp only [List.mem_singleton, List.mem_map] at hread
        rcases hread with rfl | ⟨call, -, rfl⟩
        · rfl
        · rfl
  · cases hpolicy : resolver.policyOf expression with
    | error failure => simp [hpolicy, resolvedEvents] at hresolved
    | ok policy =>
      rw [hpolicy, resolvedEvents, List.mem_singleton] at hresolved
      rw [hresolved]
      rfl

/-- Resolving an expression leaves the context as it was, whatever the outcome, and appends its
reports to the trail, each with the family and the expression as its context. The calls that are
reported as constructed are the first ones of the tree in the order in which each comes after its
arguments: those before the first look-up or construction that fails, which is the failure of the
resolution, and all of them if it succeeds. -/
theorem run_resolve (resolver : Resolver) (expression : String) (trail : Trail) :
    (resolver.resolve expression).run.run trail = (resolver.policyOf expression,
      ⟨trail.context, trail.entries ++ (resolver.reported expression).map
        (Entry.mk ⟨some resolver.family.name, some expression⟩)⟩) ∧
    (∀ event ∈ resolver.reported expression, event.level = .debug) ∧
    ∀ call, resolver.family ≠ .retry → resolver.read expression = .ok call →
      failureOf (resolver.policyOf expression) =
        call.steps.findSome? (Step.failure? resolver) ∧
      resolver.completed call <+: call.postorder ∧
      (failureOf (resolver.policyOf expression) = none →
        resolver.completed call = call.postorder) := by
  refine ⟨Run.run_within (reports_resolution resolver expression) _ trail,
    fun _ => level_of_mem_reported, fun call hfamily hread => ?_⟩
  rw [policyOf_of_read hread, failureOf_policyGiven hfamily]
  refine ⟨rfl, completed_prefix_postorder resolver call, fun hfailure => ?_⟩
  rw [completed, completedIn_of_findSome? hfailure]
  exact Argument.filterMap_steps _

/-- The child of a token-aware policy is reported before the policy itself. -/
theorem run_resolve_token_aware :
    (standard .loadBalancing).read "TokenAwarePolicy(RoundRobinPolicy)" =
      .ok ⟨"TokenAwarePolicy", [.call "RoundRobinPolicy" []]⟩ ∧
    (standard .loadBalancing).completed ⟨"TokenAwarePolicy", [.call "RoundRobinPolicy" []]⟩ =
      [⟨"RoundRobinPolicy", []⟩, ⟨"TokenAwarePolicy", [.call "RoundRobinPolicy" []]⟩] := by
  have hread : (standard .loadBalancing).read "TokenAwarePolicy(RoundRobinPolicy)" =
      .ok ⟨"TokenAwarePolicy", [.call "RoundRobinPolicy" []]⟩ :=
    Option.some.inj ((Call.readWithin_length _).symm.trans rfl)
  have hpolicy : failureOf ((standard .loadBalancing).policyOf
      "TokenAwarePolicy(RoundRobinPolicy)") = none := by
    rw [policyOf_of_read hread]
    rfl
  exact ⟨hread, ((run_resolve (standard .loadBalancing) "TokenAwarePolicy(RoundRobinPolicy)"
    .empty).2.2 _ (by decide) hread).2.2 hpolicy⟩

/-- Of two children both are constructed, and then no constructor takes them. -/
example : (standard .loadBalancing).completed
    ⟨"TokenAwarePolicy", [.call "RoundRobinPolicy" [], .call "RoundRobinPolicy" []]⟩ =
      [⟨"RoundRobinPolicy", []⟩, ⟨"RoundRobinPolicy", []⟩] := rfl

end Resolver

end DriverPolicy
