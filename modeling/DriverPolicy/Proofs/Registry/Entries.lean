import DriverPolicy.Proofs.Attempt
import DriverPolicy.Registry.Basic
import Mathlib.Data.List.Nodup

/-!
# What a registry holds

A registry holds the types that were registered in its builder, each under its own name. A builder
takes a list of types just if their names differ from each other and from those that it holds
already; it then holds both, and nothing that was there before is lost or replaced.
-/

namespace DriverPolicy

/-- Among items with different keys each is found by its own. -/
theorem find?_key_eq_some_iff {α β : Type} [DecidableEq β] {key : α → β} {items : List α}
    (h : (items.map key).Nodup) {k : β} {item : α} :
    items.find? (fun other => key other = k) = some item ↔ item ∈ items ∧ key item = k := by
  constructor
  · intro hfind
    exact ⟨List.mem_of_find?_eq_some hfind, by simpa using List.find?_some hfind⟩
  · rintro ⟨hmem, rfl⟩
    cases hfind : items.find? (fun other => key other = key item) with
    | none => simpa using List.find?_eq_none.mp hfind item hmem
    | some found =>
      have hkey : key found = key item := by simpa using List.find?_some hfind
      rw [List.inj_on_of_nodup_map h (List.mem_of_find?_eq_some hfind) hmem hkey]

namespace Registry

/-- A name finds the type in the registry that has it. -/
theorem find?_eq_some_iff {registry : Registry} {name : String} {type : PolicyType} :
    registry.find? name = some type ↔ type ∈ registry.entries ∧ type.qualifiedName = name :=
  find?_key_eq_some_iff registry.distinct

/-- A name is not registered if no type in the registry has it. -/
theorem contains_eq_false_iff {registry : Registry} {name : String} :
    registry.contains name = false ↔ name ∉ namesOf registry.entries := by
  rw [contains, Option.isSome_eq_false_iff, Option.isNone_iff_eq_none, find?, List.find?_eq_none]
  simp [namesOf]

/-- A name that is not registered is unknown in every family. -/
theorem lookup_of_contains_eq_false {registry : Registry} {name : String}
    (h : registry.contains name = false) (family : Family) :
    registry.lookup name family = .error (.fault (.unknownPolicy name)) := by
  rw [contains, Option.isSome_eq_false_iff, Option.isNone_iff_eq_none] at h
  rw [lookup, get, h, error_bind]

/-- A look-up gives the type of the name if the type belongs to the family. -/
theorem lookup_eq_ok_iff {registry : Registry} {name : String} {family : Family}
    {type : PolicyType} : registry.lookup name family = .ok type ↔
      registry.find? name = some type ∧ type.family = family := by
  rw [lookup, get]
  cases registry.find? name with
  | none => simp
  | some found =>
    rw [ok_bind, Option.some.injEq]
    split
    · next hfamily =>
      rw [pure_eq_ok, Except.ok.injEq]
      exact ⟨fun h => ⟨h, h ▸ hfamily⟩, And.left⟩
    · next hfamily =>
      constructor
      · intro h
        contradiction
      · rintro ⟨rfl, h⟩
        exact absurd h hfamily

/-- A registered name gives its type in the family of the type and a mismatch in all others. -/
theorem lookup_of_find?_eq_some {registry : Registry} {name : String} {type : PolicyType}
    (h : registry.find? name = some type) (family : Family) : registry.lookup name family =
      if type.family = family then .ok type
      else .error (.fault (.familyMismatch name family.name type.family.name)) := by
  rw [lookup, get, h, ok_bind]
  rfl

/-- Registries that find the same by a name answer look-ups of that name alike. -/
theorem lookup_congr {a b : Registry} {name : String} (h : a.find? name = b.find? name)
    (family : Family) : a.lookup name family = b.lookup name family := by
  rw [lookup, lookup, get, get, h]

end Registry

namespace RegistryBuilder

/-- Add types one after the other. -/
def registerAll (builder : RegistryBuilder) (types : List PolicyType) :
    Except RegistrationFault RegistryBuilder := types.foldlM register builder

/-- A type of a new name is added behind the others. -/
theorem register_eq_ok_iff {builder after : RegistryBuilder} {type : PolicyType} :
    builder.register type = .ok after ↔
      type.qualifiedName ∉ namesOf builder.entries ∧ after.entries = builder.entries ++ [type] := by
  rw [register]
  split
  · next hmem => simp [hmem]
  · next hmem =>
    obtain ⟨entries, distinct⟩ := after
    simp [hmem, eq_comm]

/-- Types are added behind the others just if all names stay different. -/
theorem registerAll_eq_ok_iff {builder after : RegistryBuilder} {types : List PolicyType} :
    builder.registerAll types = .ok after ↔
      (namesOf (builder.entries ++ types)).Nodup ∧ after.entries = builder.entries ++ types := by
  induction types generalizing builder with
  | nil =>
    obtain ⟨entries, distinct⟩ := builder
    obtain ⟨entries', distinct'⟩ := after
    simp [registerAll, distinct, eq_comm]
  | cons type rest ih =>
    have hentries : builder.entries ++ type :: rest = (builder.entries ++ [type]) ++ rest := by simp
    rw [registerAll, List.foldlM_cons, bind_eq_ok_iff, hentries]
    constructor
    · rintro ⟨next, hnext, hrest⟩
      obtain ⟨-, hnext⟩ := register_eq_ok_iff.mp hnext
      rw [← hnext]
      exact ih.mp hrest
    · rintro ⟨hnodup, hafter⟩
      have hfirst : (namesOf (builder.entries ++ [type])).Nodup := by
        rw [namesOf, List.map_append] at hnodup
        exact (List.nodup_append.mp hnodup).1
      have hnew : type.qualifiedName ∉ namesOf builder.entries := by
        simp only [namesOf, List.map_append, List.nodup_append] at hfirst
        exact fun hmem => hfirst.2.2 _ hmem _ (List.mem_singleton_self _) rfl
      exact ⟨⟨_, hfirst⟩, register_eq_ok_iff.mpr ⟨hnew, rfl⟩, ih.mpr ⟨hnodup, hafter⟩⟩

/-- Every registry is what its own types make when they are registered from the beginning. -/
theorem registerAll_entries (registry : Registry) :
    empty.registerAll registry.entries = .ok ⟨registry.entries, registry.distinct⟩ :=
  registerAll_eq_ok_iff.mpr ⟨registry.distinct, rfl⟩

variable {registry : Registry} {builder : RegistryBuilder} {types : List PolicyType}

/-- Types can be added to those of a registry just if their names are new and different. -/
theorem exists_registerAll_ofRegistry_iff :
    (∃ builder, (ofRegistry registry).registerAll types = .ok builder) ↔
      (namesOf types).Nodup ∧ ∀ name ∈ namesOf types, registry.contains name = false := by
  have hperm : (namesOf registry.types).Perm (namesOf registry.entries) :=
    (List.mergeSort_perm _ _).map _
  have hnodup : (namesOf (registry.types ++ types)).Nodup ↔
      (namesOf types).Nodup ∧ ∀ name ∈ namesOf types, registry.contains name = false := by
    rw [show namesOf (registry.types ++ types) = namesOf registry.types ++ namesOf types from
      List.map_append, List.nodup_append_comm, (hperm.append_left _).nodup_iff,
      List.nodup_append']
    simp only [registry.distinct, true_and, Registry.contains_eq_false_iff, List.Disjoint]
  constructor
  · rintro ⟨builder, h⟩
    exact hnodup.mp (registerAll_eq_ok_iff.mp h).1
  · intro h
    exact ⟨⟨_, hnodup.mpr h⟩, registerAll_eq_ok_iff.mpr ⟨hnodup.mpr h, rfl⟩⟩

/-- An extended registry finds what the registry finds, and the added types by their names. -/
theorem find?_build_of_registerAll
    (h : (ofRegistry registry).registerAll types = .ok builder) {name : String}
    {type : PolicyType} : builder.build.find? name = some type ↔
      registry.find? name = some type ∨ type ∈ types ∧ type.qualifiedName = name := by
  have hentries : builder.build.entries = registry.types ++ types := (registerAll_eq_ok_iff.mp h).2
  have hmem : type ∈ registry.types ↔ type ∈ registry.entries := List.mem_mergeSort
  rw [Registry.find?_eq_some_iff, Registry.find?_eq_some_iff, hentries, List.mem_append, hmem,
    or_and_right]

/-- Names that are not added are found as before. -/
theorem find?_build_of_not_mem (h : (ofRegistry registry).registerAll types = .ok builder)
    {name : String} (hname : name ∉ namesOf types) :
    builder.build.find? name = registry.find? name := by
  refine Option.ext fun type => ?_
  rw [find?_build_of_registerAll h, or_iff_left]
  rintro ⟨hmem, rfl⟩
  exact hname (List.mem_map_of_mem hmem)

end RegistryBuilder

end DriverPolicy
