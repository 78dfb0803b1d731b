import DriverPolicy.Command.Usage

/-!
# Options among arguments

An option is written with two hyphens and its whole name; a value follows after an equals sign
or as the next argument, whatever that looks like. Two hyphens alone end the options. Other
arguments may stand between options, or end them as well.
-/

namespace DriverPolicy

/-- An option that a command knows. -/
structure OptionRule where
  /-- The name with its hyphens. -/
  name : String
  /-- Whether the option has a value. -/
  takesValue : Bool
deriving DecidableEq, Repr

/-- An option in a command line. -/
structure OptionUse where
  /-- The name with its hyphens. -/
  name : String
  /-- The value, if the option has one. -/
  value : Option String
deriving DecidableEq, Repr

/-- What a command line consists of: the options in order, and the other arguments. -/
structure ScannedArguments where
  /-- The options in the order in which they were given. -/
  options : List OptionUse
  /-- The other arguments. -/
  others : List String
deriving DecidableEq, Repr

/-- Whether an argument is meant as an option. -/
def looksLikeOption (argument : String) : Bool :=
  match argument.toList with
  | '-' :: _ :: _ => true
  | _ => false

/-- The name of an option and the value behind its first equals sign. -/
def splitOption (argument : String) : String × Option String :=
  let name := argument.toList.takeWhile (· ≠ '=')
  match argument.toList.drop name.length with
  | _ :: value => (String.ofList name, some (String.ofList value))
  | [] => (argument, none)

/-- Why an option is not known: with two hyphens it may be a misspelling, with one only its first
letter counts. -/
def unknownOption (rules : List OptionRule) (argument name : String) : UsageFault :=
  match argument.toList with
  | '-' :: '-' :: _ => .unknownOption name (similarTexts name (rules.map (·.name)))
  | letters => .unknownOption (String.ofList (letters.take 2)) []

namespace ScannedArguments

/-- One more option in front. -/
def withOption (scanned : ScannedArguments) (name : String) (value : Option String) :
    ScannedArguments :=
  { scanned with options := ⟨name, value⟩ :: scanned.options }

/-- Tell options from other arguments. When `mixed` does not hold, the first other argument ends
the options. -/
def scan (rules : List OptionRule) (mixed : Bool) :
    List String → Except UsageFault ScannedArguments
  | [] => .ok ⟨[], []⟩
  | argument :: rest =>
    if argument = "--" then .ok ⟨[], rest⟩
    else if looksLikeOption argument then
      let (name, attached) := splitOption argument
      match rules.find? (·.name = name) with
      | none => .error (unknownOption rules argument name)
      | some rule =>
        match rule.takesValue, attached, rest with
        | false, some _, _ => .error (.needlessValue name)
        | false, none, rest => (scan rules mixed rest).map (·.withOption name none)
        | true, some value, rest => (scan rules mixed rest).map (·.withOption name (some value))
        | true, none, value :: rest => (scan rules mixed rest).map (·.withOption name (some value))
        | true, none, [] => .error (.missingValue name)
    else if mixed then
      (scan rules mixed rest).map fun scanned =>
        { scanned with others := argument :: scanned.others }
    else .ok ⟨[], argument :: rest⟩

/-- Whether an option was given. -/
def has (scanned : ScannedArguments) (name : String) : Bool :=
  scanned.options.any (·.name = name)

/-- The options that were given, each once at the place of its first use, with the value of its
last use. -/
def settled (scanned : ScannedArguments) : List OptionUse :=
  let names := (scanned.options.map (·.name)).eraseDups
  names.filterMap fun name => scanned.options.reverse.find? (·.name = name)

end ScannedArguments

end DriverPolicy
