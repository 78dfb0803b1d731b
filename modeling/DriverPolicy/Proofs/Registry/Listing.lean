import DriverPolicy.Proofs.Registry.Entries
import Mathlib.Data.List.Sort
import Mathlib.Data.String.Basic

/-!
# How a registry lists its types

The types of a registry are listed once each, in the strict order of their names, and those of a
family are a part of this list. So the list depends on which types there are and not on the order
in which they were registered, and neither does any other answer of a registry.
-/

namespace DriverPolicy

variable {types others : List PolicyType}

/-- Types of different names are sorted strictly by name. -/
theorem pairwise_sortedByName (h : (namesOf types).Nodup) :
    (sortedByName types).Pairwise fun a b => a.qualifiedName < b.qualifiedName := by
  have hle : (sortedByName types).Pairwise fun a b => a.qualifiedName ≤ b.qualifiedName := by
    simpa only [sortedByName, decide_eq_true_eq] using
      @List.pairwise_mergeSort _ (fun a b : PolicyType => a.qualifiedName ≤ b.qualifiedName)
        (fun a b c hab hbc => by simpa using le_trans (by simpa using hab) (by simpa using hbc))
        (fun a b => by simpa using le_total a.qualifiedName b.qualifiedName) types
  have hne : (sortedByName types).Pairwise fun a b => a.qualifiedName ≠ b.qualifiedName :=
    List.pairwise_map.mp (nodup_namesOf_sortedByName h)
  exact (hle.and hne).imp fun hab => lt_of_le_of_ne hab.1 hab.2

/-- Lists of the same types that are in the strict order of names are equal. -/
theorem eq_of_perm_of_pairwise_name (hperm : types.Perm others)
    (htypes : types.Pairwise fun a b => a.qualifiedName < b.qualifiedName)
    (hothers : others.Pairwise fun a b => a.qualifiedName < b.qualifiedName) : types = others :=
  hperm.eq_of_pairwise (fun _ _ _ _ hab hba => absurd hba (lt_asymm hab)) htypes hothers

/-- Sorting types of different names forgets the order in which they were given. -/
theorem sortedByName_eq_of_perm (h : (namesOf types).Nodup) (hperm : types.Perm others) :
    sortedByName types = sortedByName others := by
  have hothers : (namesOf others).Nodup := (hperm.map _).nodup_iff.mp h
  refine eq_of_perm_of_pairwise_name ?_ (pairwise_sortedByName h) (pairwise_sortedByName hothers)
  exact (List.mergeSort_perm types _).trans (hperm.trans (List.mergeSort_perm others _).symm)

/-- Every type belongs to one of the three families. -/
theorem filter_families_perm (types : List PolicyType) :
    (types.filter (·.family = .loadBalancing) ++ types.filter (·.family = .retry) ++
      types.filter (·.family = .reconnection)).Perm types := by
  induction types with
  | nil => exact .refl _
  | cons type rest ih =>
    cases hfamily : type.family with
    | loadBalancing => simpa [hfamily] using ih
    | retry =>
      simp only [List.filter_cons, hfamily, decide_true, decide_false, reduceCtorEq,
        Bool.false_eq_true, ↓reduceIte, List.append_assoc, List.cons_append] at ih ⊢
      exact List.perm_middle.trans (ih.cons type)
    | reconnection =>
      simp only [List.filter_cons, hfamily, decide_true, decide_false, reduceCtorEq,
        Bool.false_eq_true, ↓reduceIte] at ih ⊢
      exact List.perm_middle.trans (by simpa using ih.cons type)

namespace Registry

variable {a b registry : Registry}

/-- All types of a registry are listed, each as often as it was registered. -/
theorem perm_types (registry : Registry) : registry.types.Perm registry.entries :=
  List.mergeSort_perm _ _

/-- The list of types is in the strict order of their names. -/
theorem pairwise_types (registry : Registry) :
    registry.types.Pairwise fun a b => a.qualifiedName < b.qualifiedName :=
  pairwise_sortedByName registry.distinct

/-- A name finds the type that is listed with it. -/
theorem get_eq_ok_iff {name : String} {type : PolicyType} :
    registry.get name = .ok type ↔ type ∈ registry.types ∧ type.qualifiedName = name := by
  rw [registry.perm_types.mem_iff, ← find?_eq_some_iff, get]
  cases registry.find? name <;> simp

/-- The types of a family are those types in the list that belong to it, in the same order. -/
theorem typesOf_eq_filter (registry : Registry) (family : Family) :
    registry.typesOf family = registry.types.filter (·.family = family) := by
  have hnames : (namesOf (registry.entries.filter (·.family = family))).Nodup :=
    registry.distinct.sublist (List.filter_sublist.map _)
  refine eq_of_perm_of_pairwise_name ?_ (pairwise_sortedByName hnames)
    (registry.pairwise_types.filter _)
  exact (List.mergeSort_perm _ _).trans (registry.perm_types.symm.filter _)

/-- Two registries answer every query alike. -/
structure Alike (a b : Registry) : Prop where
  get (name : String) : a.get name = b.get name
  lookup (name : String) (family : Family) : a.lookup name family = b.lookup name family
  contains (name : String) : a.contains name = b.contains name
  size : a.size = b.size
  types : a.types = b.types
  typesOf (family : Family) : a.typesOf family = b.typesOf family

/-- Registries answer alike if and only if they hold the same types. -/
theorem alike_iff_perm : a.Alike b ↔ a.entries.Perm b.entries := by
  constructor
  · intro h
    exact a.perm_types.symm.trans (h.types ▸ b.perm_types)
  · intro hperm
    have hfind (name : String) : a.find? name = b.find? name := by
      refine Option.ext fun type => ?_
      rw [find?_eq_some_iff, find?_eq_some_iff, hperm.mem_iff]
    have htypes : a.types = b.types := sortedByName_eq_of_perm a.distinct hperm
    exact {
      get name := by rw [Registry.get, Registry.get, hfind]
      lookup name family := lookup_congr (hfind name) family
      contains name := by rw [Registry.contains, Registry.contains, hfind]
      size := hperm.length_eq
      types := htypes
      typesOf family := by rw [typesOf_eq_filter, typesOf_eq_filter, htypes] }

end Registry

end DriverPolicy
