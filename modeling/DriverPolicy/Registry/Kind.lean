import DriverPolicy.Expression.Call
import DriverPolicy.Policy.Construction

/-!
# Kinds of parameter

A constructor declares the kinds of its parameters. An argument fills a parameter of its own
kind, where a nested call stands for the policy that it builds. A signature is the list of
kinds in order.
-/

namespace DriverPolicy

/-- The kinds of parameter. -/
inductive ParameterKind where
  | policy
  | string
  | float
  | double
  | long
  | int
deriving DecidableEq, Repr

namespace ParameterKind

/-- The name of a kind in messages. -/
def name : ParameterKind → String
  | policy => "policy"
  | string => "string"
  | float => "float"
  | double => "double"
  | long => "long"
  | int => "int"

/-- All kinds. -/
def all : List ParameterKind := [policy, string, float, double, long, int]

/-- The kind with a given name. -/
def ofName? (name : String) : Option ParameterKind := all.find? (·.name = name)

/-- The kind of parameter that an argument fills. -/
def forArgument : ArgumentKind → ParameterKind
  | .call => policy
  | .string => string
  | .float => float
  | .double => double
  | .long => long
  | .int => int

/-- Different kinds have different names. -/
theorem name_injective {a b : ParameterKind} (h : a.name = b.name) : a = b := by
  cases a <;> cases b <;> simp_all [name]

end ParameterKind

/-- The kinds of a constructor's parameters, in order. -/
abbrev Signature := List ParameterKind

/-- The names of the kinds in a signature. -/
def Signature.names (signature : Signature) : List String := signature.map ParameterKind.name

/-- A value that is ready for a constructor, with the kind of parameter that it fills. -/
structure TypedValue where
  /-- The kind. -/
  kind : ParameterKind
  /-- The value. -/
  value : Value
deriving DecidableEq, Repr

namespace TypedValue

/-- A policy that was built from a nested call. -/
def ofPolicy (policy : Policy) : TypedValue := ⟨.policy, .policy policy⟩

/-- A literal as a value of its own kind. -/
def ofLiteral (literal : Literal) : TypedValue :=
  ⟨.forArgument literal.kind,
    match literal with
    | .string s => .text s
    | .float x | .double x => .number x
    | .long n | .int n => .integer n⟩

/-- The signature that values ask for. -/
def signature (values : List TypedValue) : Signature := values.map kind

end TypedValue

end DriverPolicy
