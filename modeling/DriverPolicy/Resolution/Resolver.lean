import DriverPolicy.Expression.Reading
import DriverPolicy.Logging.Context
import DriverPolicy.Registry.Builtin

/-!
# Resolving expressions

A resolver builds the policies of one family from expressions. The expression is read first;
then the tree is reduced: a call's name is looked up before its arguments are reduced, these
are reduced from left to right, and the policy is constructed from their values last. The
first failure ends the work. Retry policies are not built: their resolver takes a bare name
and hands out the shared instance.

The reduction is recursive on the tree. The work itself keeps the calls whose arguments are
not all reduced yet on a list, so no nesting is too deep for it.
-/

namespace DriverPolicy

/-- A resolver: the family that it resolves, where policies are looked up, and the namespace of
names without one. -/
structure Resolver where
  /-- The family. -/
  family : Family
  /-- The types of policy. -/
  registry : Registry
  /-- The namespace of names without one. -/
  namespaceName : String

namespace Resolver

/-- A resolver of built-in policies. -/
def standard (family : Family) : Resolver := ⟨family, .standard, defaultNamespace⟩

/-- The type that a call's name stands for. -/
def typeOf (resolver : Resolver) (name : String) : Except ResolutionFailure PolicyType :=
  resolver.registry.lookup (qualifyName name resolver.namespaceName) resolver.family

/-- Build a policy of a type and report it. -/
def constructOf (type : PolicyType) (values : List TypedValue) : Run ResolutionFailure Policy := do
  let policy ← Run.ofExcept (type.construct values)
  Run.report (.constructed type.qualifiedName (TypedValue.signature values).names)
  return policy

mutual

/-- The value of an argument: a literal's own, or the policy of a nested call. -/
def valueOf (resolver : Resolver) : Argument → Run ResolutionFailure TypedValue
  | .literal value => return .ofLiteral value
  | .call name arguments => do
    let type ← Run.ofExcept (resolver.typeOf name)
    let values ← resolver.valuesOf arguments
    return .ofPolicy (← constructOf type values)

/-- The values of arguments, from left to right. -/
def valuesOf (resolver : Resolver) : List Argument → Run ResolutionFailure (List TypedValue)
  | [] => return []
  | argument :: rest => do
    let value ← resolver.valueOf argument
    return value :: (← resolver.valuesOf rest)

end

/-- Reduce a call: its name first, then its arguments, then the policy. -/
def reduce (resolver : Resolver) (call : Call) : Run ResolutionFailure Policy := do
  let type ← Run.ofExcept (resolver.typeOf call.name)
  let values ← resolver.valuesOf call.arguments
  constructOf type values

end Resolver

/-- A call whose name has been looked up and of which some arguments are still to be reduced. -/
structure PendingCall where
  /-- The type of policy. -/
  type : PolicyType
  /-- The arguments that are still to be reduced. -/
  pending : List Argument
  /-- The values of the reduced arguments, the last first. -/
  done : List TypedValue

namespace PendingCall

/-- A call with one more value. -/
def accept (call : PendingCall) (value : TypedValue) : PendingCall :=
  { call with done := value :: call.done }

/-- What is left to do for a call. -/
def weight (call : PendingCall) : Nat := 1 + 2 * Argument.sizeAll call.pending

/-- What is left to do for calls that are pending inside each other. -/
def totalWeight : List PendingCall → Nat
  | [] => 0
  | call :: rest => call.weight + totalWeight rest

/-- Reduce the arguments of a call and of the calls around it until all are constructed. -/
def run (resolver : Resolver) (current : PendingCall) (outer : List PendingCall) :
    Run ResolutionFailure Policy :=
  match _hpending : current.pending with
  | .literal value :: rest =>
    run resolver ({ current with pending := rest }.accept (.ofLiteral value)) outer
  | .call name arguments :: rest => do
    let type ← Run.ofExcept (resolver.typeOf name)
    run resolver ⟨type, arguments, []⟩ ({ current with pending := rest } :: outer)
  | [] => do
    let policy ← Resolver.constructOf current.type current.done.reverse
    match outer with
    | [] => return policy
    | parent :: outer => run resolver (parent.accept (.ofPolicy policy)) outer
termination_by current.weight + totalWeight outer
decreasing_by
  all_goals
    simp only [totalWeight, accept, weight, Argument.sizeAll, Argument.size, _hpending]
    omega

end PendingCall

/-- Read the bare name of a retry policy. -/
def Call.readBareName (source : List Char) : Except ReadingFault Call :=
  let name := trim source
  if name ≠ [] && name.all isNameChar then .ok ⟨String.ofList name, []⟩
  else if name.contains '(' then
    malformed (.takesNoArguments (String.ofList name)) source
      (source.takeWhile (· ≠ '(')).length
  else malformed (.notAPolicyName (String.ofList name)) source 0

namespace Resolver

/-- Read an expression as the family wants it, without building anything. -/
def read (resolver : Resolver) (expression : String) : Except ReadingFault Call :=
  if resolver.family = .retry then Call.readBareName expression.toList else Call.parse expression

/-- The policy of a call tree. -/
def build (resolver : Resolver) (call : Call) : Run ResolutionFailure Policy := do
  let type ← Run.ofExcept (resolver.typeOf call.name)
  if resolver.family = .retry then Run.ofExcept type.requireShared
  else PendingCall.run resolver ⟨type, call.arguments, []⟩ []

/-- Read an expression and report its tree; bare names are not reported. -/
def readReporting (resolver : Resolver) (expression : String) : Run ResolutionFailure Call := do
  let call ← Run.ofExcept ((resolver.read expression).mapError .ofReading)
  if resolver.family ≠ .retry then Run.report (.parsed expression call.name call.depth)
  return call

/-- The policy that an expression describes. Everything reported on the way carries the family
and the expression. -/
def resolve (resolver : Resolver) (expression : String) : Run ResolutionFailure Policy :=
  Run.within ⟨some resolver.family.name, some expression⟩ do
    let policy ← resolver.build (← resolver.readReporting expression)
    Run.report (.resolved expression policy.name)
    return policy

/-- The policy that an expression describes, without what is reported on the way. -/
def policyOf (resolver : Resolver) (expression : String) : Except ResolutionFailure Policy :=
  (Run.start (resolver.resolve expression)).1

end Resolver

end DriverPolicy
