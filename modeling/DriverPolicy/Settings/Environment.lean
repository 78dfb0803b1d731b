import DriverPolicy.Settings.Fault
import DriverPolicy.Text.Blank
import DriverPolicy.Text.Letter

/-!
# Environment variables

Settings are read from variables whose names begin alike, by the part of the name that
follows. Blanks around a value do not count; a variable without anything else is not set.
-/

namespace DriverPolicy

/-- The values of variables, how the names of settings begin, and the home directories that
paths may refer to. -/
structure Environment where
  /-- The values of the variables by name. -/
  values : List (String × String)
  /-- How the names of settings begin. -/
  lead : String
  /-- The home directories. -/
  homes : Homes

namespace Environment

/-- How the names of settings begin unless something else is said. -/
def standardLead : String := "CQLPOLICY_"

/-- The whole name of a variable. -/
def nameOf (environment : Environment) (key : String) : String := environment.lead ++ key

/-- The text of a variable. -/
def text? (environment : Environment) (key : String) : Option String :=
  match environment.values.find? (·.1 = environment.nameOf key) with
  | some (_, value) => if trimmed value = "" then none else some (trimmed value)
  | none => none

/-- The integer of a variable. -/
def integer? (environment : Environment) (key : String) : Except ConfigFailure (Option Int) :=
  match environment.text? key with
  | none => .ok none
  | some text =>
    match readFreeInteger text.toList with
    | some n => .ok (some n)
    | none => .error (.setting (.notAnInteger (environment.nameOf key) text))

/-- The words that mean yes. -/
def trueWords : List String := ["true", "1", "yes", "on"]

/-- The words that mean no. -/
def falseWords : List String := ["false", "0", "no", "off"]

/-- The truth value of a variable. -/
def flag? (environment : Environment) (key : String) : Except ConfigFailure (Option Bool) :=
  match environment.text? key with
  | none => .ok none
  | some text =>
    if trueWords.contains (lowered text) then .ok (some true)
    else if falseWords.contains (lowered text) then .ok (some false)
    else .error (.setting (.notAFlag (environment.nameOf key) text))

/-- A text as a path, with a leading tilde replaced. -/
def expand (environment : Environment) (text : String) : Except ConfigFailure Path :=
  (environment.homes.expand (.parse text)).mapError HomeFault.failure

/-- The path of a variable. -/
def path? (environment : Environment) (key : String) : Except ConfigFailure (Option Path) :=
  match environment.text? key with
  | none => .ok none
  | some text => (environment.expand text).map some

end Environment

end DriverPolicy
