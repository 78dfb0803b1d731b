import DriverPolicy.Logging.Event
import DriverPolicy.Registry.PolicyType

/-!
# Registries of policy types

A registry holds types of policy of different names and never changes. It is assembled in a
builder, which starts empty or with the types of a registry and refuses a type whose name it
already holds. The types of a registry are listed in the order of their names.
-/

namespace DriverPolicy

/-- The names of types. -/
def namesOf (types : List PolicyType) : List String := types.map PolicyType.qualifiedName

/-- Types in the order of their names. -/
def sortedByName (types : List PolicyType) : List PolicyType :=
  types.mergeSort fun a b => a.qualifiedName ≤ b.qualifiedName

/-- Sorting keeps names different. -/
theorem nodup_namesOf_sortedByName {types : List PolicyType} (h : (namesOf types).Nodup) :
    (namesOf (sortedByName types)).Nodup :=
  (((List.mergeSort_perm types _).map PolicyType.qualifiedName).nodup_iff).mpr h

/-- A name with a namespace in front, unless it has a point or there is no namespace. -/
def qualifyName (name namespaceName : String) : String :=
  if name.toList.contains '.' || namespaceName = "" then name else joinName namespaceName name

/-- Types of policy of different names. -/
structure Registry where
  /-- The types in the order in which they were registered. -/
  entries : List PolicyType
  /-- No two types have the same name. -/
  distinct : (namesOf entries).Nodup

namespace Registry

/-- The number of types. -/
def size (registry : Registry) : Nat := registry.entries.length

/-- All types in the order of their names. -/
def types (registry : Registry) : List PolicyType := sortedByName registry.entries

/-- The types of a family in the order of their names. -/
def typesOf (registry : Registry) (family : Family) : List PolicyType :=
  sortedByName (registry.entries.filter (·.family = family))

/-- The type with a given name. -/
def find? (registry : Registry) (name : String) : Option PolicyType :=
  registry.entries.find? (·.qualifiedName = name)

/-- Whether a name is registered. -/
def contains (registry : Registry) (name : String) : Bool := (registry.find? name).isSome

/-- The type with a given name, which must be registered. -/
def get (registry : Registry) (name : String) : Except ResolutionFailure PolicyType :=
  match registry.find? name with
  | some type => .ok type
  | none => .error (.fault (.unknownPolicy name))

/-- The type with a given name, which must be registered and belong to a family. -/
def lookup (registry : Registry) (name : String) (family : Family) :
    Except ResolutionFailure PolicyType := do
  let type ← registry.get name
  if type.family = family then return type
  else throw (.fault (.familyMismatch name family.name type.family.name))

end Registry

/-- A type was registered twice. -/
structure RegistrationFault where
  /-- The name of the type. -/
  name : String
deriving DecidableEq, Repr

/-- The message of a refusal. -/
def RegistrationFault.message (fault : RegistrationFault) : String :=
  s!"Policy already registered: {fault.name}"

/-- A registry in the making. -/
structure RegistryBuilder where
  /-- The types so far. -/
  entries : List PolicyType
  /-- No two types have the same name. -/
  distinct : (namesOf entries).Nodup

namespace RegistryBuilder

/-- No types. -/
def empty : RegistryBuilder := ⟨[], List.nodup_nil⟩

/-- The types of a registry, in the order of their names. -/
def ofRegistry (registry : Registry) : RegistryBuilder :=
  ⟨registry.types, nodup_namesOf_sortedByName registry.distinct⟩

/-- Add a type of a new name. -/
def register (builder : RegistryBuilder) (type : PolicyType) :
    Except RegistrationFault RegistryBuilder :=
  if h : type.qualifiedName ∈ namesOf builder.entries then .error ⟨type.qualifiedName⟩
  else .ok ⟨builder.entries ++ [type], by
    simpa [namesOf, List.nodup_append] using ⟨builder.distinct, by simpa [namesOf] using h⟩⟩

/-- The registry of the types so far. -/
def build (builder : RegistryBuilder) : Registry := ⟨builder.entries, builder.distinct⟩

/-- What building reports. -/
def buildEvent (builder : RegistryBuilder) : Event := .registryBuilt builder.entries.length

end RegistryBuilder

end DriverPolicy
