import DriverPolicy.Registry.Constructor
import DriverPolicy.Resolution.Fault

/-!
# Types of policy

A type of policy has a qualified name, a family, constructors and possibly one shared
instance. No two constructors of a type have the same signature, so values are fitted by at
most one of them; a shared instance belongs to the family of its type.
-/

namespace DriverPolicy

/-- A type of policy that can be built or handed out. -/
structure PolicyType where
  /-- The dotted name. -/
  qualifiedName : String
  /-- The family. -/
  family : Family
  /-- The constructors in the order in which they were listed. -/
  constructors : List Constructor
  /-- The shared instance, if there is one. -/
  shared? : Option Policy
  /-- No two constructors have the same signature. -/
  distinct : (constructors.map Constructor.signature).Nodup
  /-- The shared instance belongs to the family. -/
  suited : ∀ policy ∈ shared?, policy.family = family

/-- Why a type of policy is refused. -/
inductive PolicyTypeFault where
  | duplicateSignature (name : String)
  | sharedOfOtherFamily (name : String) (actual expected : Family)
deriving DecidableEq, Repr

/-- The message of a refusal. -/
def PolicyTypeFault.message : PolicyTypeFault → String
  | duplicateSignature name => s!"Duplicate constructor signature for {name}"
  | sharedOfOtherFamily name actual expected =>
    s!"Instance of {name} is a {actual.name} policy, expected {expected.name}"

/-- A name in a namespace. -/
def joinName (namespaceName name : String) : String := namespaceName ++ "." ++ name

namespace PolicyType

/-- A type of policy, unless two constructors have one signature or the shared instance belongs
to another family. The signatures are checked first. -/
def make (name : String) (family : Family) (constructors : List Constructor)
    (shared? : Option Policy) : Except PolicyTypeFault PolicyType :=
  if distinct : (constructors.map Constructor.signature).Nodup then
    match shared? with
    | none => .ok ⟨name, family, constructors, none, distinct, by simp⟩
    | some policy =>
      if suited : policy.family = family then
        .ok ⟨name, family, constructors, some policy, distinct, by simpa using suited⟩
      else .error (.sharedOfOtherFamily name policy.family family)
  else .error (.duplicateSignature name)

/-- The type of the policies of a class, which has a plain constructor for each signature. -/
def ofClass (policyClass : PolicyClass) (signatures : List Signature) (namespaceName : String)
    (shared? : Option Policy) : Except PolicyTypeFault PolicyType :=
  make (joinName namespaceName policyClass.name) policyClass.family
    (signatures.map (Constructor.ofClass policyClass)) shared?

/-- The name without its namespace. -/
def shortName (type : PolicyType) : String :=
  String.ofList (type.qualifiedName.toList.reverse.takeWhile (· ≠ '.')).reverse

/-- The signatures of the constructors in order. -/
def signatures (type : PolicyType) : List Signature := type.constructors.map Constructor.signature

/-- The constructor with a given signature. -/
def find? (type : PolicyType) (signature : Signature) : Option Constructor :=
  type.constructors.find? (·.signature = signature)

/-- Build a policy from values by the constructor that has exactly their kinds. -/
def construct (type : PolicyType) (values : List TypedValue) :
    Except ResolutionFailure Policy :=
  match type.find? (TypedValue.signature values) with
  | none =>
    .error (.fault (.noMatchingConstructor type.qualifiedName
      (TypedValue.signature values).names (type.signatures.map Signature.names)))
  | some constructor =>
    match constructor.build (values.map TypedValue.value) with
    | .ok policy => .ok policy
    | .error (.refused refusal) => .error (.fault (.construction type.qualifiedName refusal))
    | .error (.overflow overflow) => .error (.overflow overflow)

/-- The shared instance of a type. -/
def requireShared (type : PolicyType) : Except ResolutionFailure Policy :=
  match type.shared? with
  | some policy => .ok policy
  | none => .error (.fault (.missingInstance type.qualifiedName))

end PolicyType

end DriverPolicy
