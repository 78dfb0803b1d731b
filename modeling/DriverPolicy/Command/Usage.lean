import DriverPolicy.Text.ControlSequence
import DriverPolicy.Text.Quoted
import DriverPolicy.Text.Similar

/-!
# Faults in a command line

Why the arguments of a program cannot be understood. Each fault has a message, which may go
over several lines.
-/

namespace DriverPolicy

/-- Why arguments cannot be understood. -/
inductive UsageFault where
  | unknownOption (name : String) (similar : List String)
  | missingValue (name : String)
  | needlessValue (name : String)
  | badValue (parameter reason : String)
  | missingArgument (parameter : String) (choices : List String)
  | extraArguments (arguments : List String)
  | unknownCommand (name : String)
  | missingCommand
  | scheduleWithoutReconnection
deriving DecidableEq, Repr

namespace UsageFault

/-- The message of a fault. Several similar options are listed by name. -/
def message : UsageFault → String
  | unknownOption name [] => s!"No such option: {name}"
  | unknownOption name [similar] => s!"No such option: {name} Did you mean {similar}?"
  | unknownOption name similar =>
    let listed := ", ".intercalate similar.mergeSort
    s!"No such option: {name} (Possible options: {listed})"
  | missingValue name => s!"Option {quoted name} requires an argument."
  | needlessValue name => s!"Option {quoted name} does not take a value."
  | badValue parameter reason => s!"Invalid value for '{parameter}': {reason}"
  | missingArgument parameter [] => s!"Missing argument '{parameter}'."
  | missingArgument parameter choices =>
    let listed := ",\n\t".intercalate choices
    s!"Missing argument '{parameter}'. Choose from:\n\t{listed}"
  | extraArguments [argument] => s!"Got unexpected extra argument ({argument})"
  | extraArguments arguments =>
    let listed := " ".intercalate arguments
    s!"Got unexpected extra arguments ({listed})"
  | unknownCommand name => s!"No such command {quoted name}."
  | missingCommand => "Missing command."
  | scheduleWithoutReconnection => "--schedule applies to reconnection policies only"

/-- A fault as it is printed, without the lines about usage before it. -/
def errorText (fault : UsageFault) : String := withoutControls s!"Error: {fault.message}"

/-- The last line of a fault as it is printed. -/
def lastLine (fault : UsageFault) : String :=
  String.ofList (fault.errorText.toList.reverse.takeWhile (· ≠ '\n')).reverse

/-- Why a value is not one of some choices. -/
def notAChoice (value : String) (choices : List String) : String :=
  let listed := ", ".intercalate (choices.map quoted)
  s!"{quoted value} is not one of {listed}."

end UsageFault

end DriverPolicy
