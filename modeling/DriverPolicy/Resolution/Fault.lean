import DriverPolicy.Clock.Duration
import DriverPolicy.Expression.Fault
import DriverPolicy.Policy.Construction

/-!
# Why an expression does not resolve

An expression fails to resolve because its text is faulty, a name is unknown or belongs to
another family, no constructor fits the arguments, a policy has no shared instance, or a
policy refuses its values. A fault has a message and particulars by name. Two failures are not
of this kind: a numeral with too many digits and a duration with too many days.
-/

namespace DriverPolicy

/-- The particulars of a fault in the text of an expression by name. -/
def ExpressionFault.details (fault : ExpressionFault) : List (String × Json) :=
  [("position", .integer fault.position), ("column", .integer fault.column),
    ("source", .text fault.source)] ++
  match fault.defect with
  | .number literal kind => [("literal", .text literal), ("kind", .text kind)]
  | _ => []

/-- Why an expression does not resolve. -/
inductive ResolutionFault where
  | expression (fault : ExpressionFault)
  | unknownPolicy (name : String)
  | familyMismatch (name expected actual : String)
  | noMatchingConstructor (name : String) (requested : List String)
      (available : List (List String))
  | missingInstance (name : String)
  | construction (name : String) (refusal : Refusal)
  | unknownBecause (name reason : String)
  | stated (reason : String)
deriving DecidableEq, Repr

/-- The names of kinds in brackets. -/
def bracketed (names : List String) : String := "(" ++ ", ".intercalate names ++ ")"

namespace ResolutionFault

/-- The message of a fault. -/
def message : ResolutionFault → String
  | expression fault => fault.message
  | unknownPolicy name => s!"Unknown policy: {name}"
  | familyMismatch name expected actual =>
    s!"{name} is a {actual} policy, not a {expected} policy"
  | noMatchingConstructor name requested available =>
    let offered :=
      if available.isEmpty then "none" else ", ".intercalate (available.map bracketed)
    s!"No constructor of {name} accepts {bracketed requested}; available: {offered}"
  | missingInstance name => s!"{name} does not expose a shared INSTANCE"
  | construction name refusal => s!"Failed to construct {name}: {refusal.message}"
  | unknownBecause _ reason => reason
  | stated reason => reason

/-- The particulars of a fault by name. -/
def details : ResolutionFault → List (String × Json)
  | expression fault => fault.details
  | unknownPolicy name | unknownBecause name _ | missingInstance name =>
    [("qualified_name", .text name)]
  | familyMismatch name expected actual =>
    [("qualified_name", .text name), ("expected", .text expected), ("actual", .text actual)]
  | noMatchingConstructor name requested available =>
    [("qualified_name", .text name), ("requested", Json.texts requested),
      ("available", .list (available.map Json.texts))]
  | construction name refusal =>
    [("qualified_name", .text name), ("reason", .text refusal.message)]
  | stated _ => []

end ResolutionFault

/-- Why resolving an expression gives no policy. -/
inductive ResolutionFailure where
  | fault (cause : ResolutionFault)
  | tooManyDigits (count : Nat)
  | overflow (excess : DurationOverflow)
deriving DecidableEq, Repr

namespace ResolutionFailure

/-- An expression that cannot be read does not resolve. -/
def ofReading : ReadingFault → ResolutionFailure
  | .expression cause => .fault (.expression cause)
  | .tooManyDigits count => .tooManyDigits count

/-- The message of a failure. -/
def message : ResolutionFailure → String
  | fault cause => cause.message
  | tooManyDigits count => tooManyDigitsMessage count
  | overflow excess => excess.message

end ResolutionFailure

end DriverPolicy
