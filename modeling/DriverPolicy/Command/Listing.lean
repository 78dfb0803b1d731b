import DriverPolicy.Registry.Basic

/-!
# Listings of policies

A listing shows the types of policy that a registry holds, as a table or as JSON. The table has
a line for each type with its name, its family, the kinds of arguments it takes, and whether it
is handed out as a shared instance.
-/

namespace DriverPolicy

/-- A text with blanks behind it, at least `width` characters long. -/
def padRight (width : Nat) (text : String) : String :=
  text ++ String.ofList (List.replicate (width - text.length) ' ')

/-- A line of the table: a name, a family, and the ways in which the policy is built. -/
def tableRow (name family forms : String) : String :=
  s!"{padRight 36 name} {padRight 16 family} {forms}"

namespace PolicyType

/-- The ways in which a type is built or handed out. -/
def forms (type : PolicyType) : List String :=
  type.signatures.map (fun signature => bracketed signature.names) ++
    (if type.shared?.isSome then ["INSTANCE"] else [])

/-- A type as a line of the table. -/
def row (type : PolicyType) : String :=
  tableRow type.shortName type.family.name
    (if type.forms.isEmpty then "-" else " ".intercalate type.forms)

/-- A type as JSON. -/
def toJson (type : PolicyType) : Json :=
  .object [("name", .text type.qualifiedName), ("family", .text type.family.name),
    ("signatures", .list (type.signatures.map fun signature => Json.texts signature.names)),
    ("singleton", .boolean type.shared?.isSome)]

end PolicyType

/-- The lines of the table. -/
def listingTable (types : List PolicyType) : List String :=
  [tableRow "NAME" "FAMILY" "ARGUMENTS", String.ofList (List.replicate 80 '-')] ++
  types.map PolicyType.row ++
  ["", s!"Found {types.length} policy type(s)"]

/-- The listing as JSON. -/
def listingJson (types : List PolicyType) : Json :=
  .object [("policies", .list (types.map PolicyType.toJson))]

end DriverPolicy
