import DriverPolicy.Resolution.Fault

/-!
# Exit codes

A command ends with a code that tells what went wrong: codes from ten on for faults in the
text of an expression, from twenty on for policies that cannot be built, thirty for a
configuration that cannot be used.
-/

namespace DriverPolicy

/-- How a command ends. -/
inductive ExitCode where
  | success
  | generalError
  | malformedExpression
  | numericFormatError
  | unknownPolicy
  | noMatchingConstructor
  | missingSingleton
  | constructionFailed
  | configError
deriving DecidableEq, Repr

namespace ExitCode

/-- The number of a code. -/
def number : ExitCode → Nat
  | success => 0
  | generalError => 1
  | malformedExpression => 10
  | numericFormatError => 11
  | unknownPolicy => 20
  | noMatchingConstructor => 21
  | missingSingleton => 22
  | constructionFailed => 23
  | configError => 30

/-- The name of a code. -/
def name : ExitCode → String
  | success => "SUCCESS"
  | generalError => "GENERAL_ERROR"
  | malformedExpression => "MALFORMED_EXPRESSION"
  | numericFormatError => "NUMERIC_FORMAT_ERROR"
  | unknownPolicy => "UNKNOWN_POLICY"
  | noMatchingConstructor => "NO_MATCHING_CONSTRUCTOR"
  | missingSingleton => "MISSING_SINGLETON"
  | constructionFailed => "CONSTRUCTION_FAILED"
  | configError => "CONFIG_ERROR"

/-- All codes. -/
def all : List ExitCode :=
  [success, generalError, malformedExpression, numericFormatError, unknownPolicy,
   noMatchingConstructor, missingSingleton, constructionFailed, configError]

/-- The code with a name. -/
def ofName? (name : String) : Option ExitCode := all.find? (·.name = name)

end ExitCode

/-- The code for a fault in an expression. -/
def Defect.exitCode : Defect → ExitCode
  | malformed _ => .malformedExpression
  | number .. => .numericFormatError
  | stated _ => .generalError

/-- The code for an expression that does not resolve. A policy of another family is as unknown
as one that is not registered. -/
def ResolutionFault.exitCode : ResolutionFault → ExitCode
  | expression fault => fault.defect.exitCode
  | unknownPolicy _ | familyMismatch .. | unknownBecause .. => .unknownPolicy
  | noMatchingConstructor .. => .noMatchingConstructor
  | missingInstance _ => .missingSingleton
  | construction .. => .constructionFailed
  | stated _ => .generalError

end DriverPolicy
