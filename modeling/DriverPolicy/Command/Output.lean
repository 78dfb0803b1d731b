import DriverPolicy.Command.ExitCode
import DriverPolicy.Text.ControlSequence

/-!
# What commands print

Results are printed on the standard output, errors on the error output. An error is a line of
text without control sequences, or a JSON object on one line; a fault in the text of an
expression shows the expression with a caret in the first form and its message alone in the
second.
-/

namespace DriverPolicy

/-- A JSON result as it is printed. -/
def Json.printed (value : Json) : String := value.indented ++ "\n"

/-- An error as a JSON object. -/
def errorObject (message : String) (code : ExitCode) : Json :=
  .object [("status", .text "failed"),
    ("error", .object [("code", .text code.name), ("message", .text message)])]

/-- An error as it is printed. -/
def errorText (message : String) (code : ExitCode) (json : Bool) : String :=
  if json then (errorObject message code).compact ++ "\n"
  else withoutControls s!"Error: {message}\n"

namespace ResolutionFault

/-- What is shown of a fault. -/
def shown (fault : ResolutionFault) (json : Bool) : String :=
  match fault with
  | expression cause => if json then cause.message else cause.report
  | other => other.message

/-- A fault as it is printed. -/
def errorText (fault : ResolutionFault) (json : Bool) : String :=
  DriverPolicy.errorText (fault.shown json) fault.exitCode json

end ResolutionFault

end DriverPolicy
