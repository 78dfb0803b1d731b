import DriverPolicy.Proofs.Registry.Construction

/-!
# Which constructor is used

The validation of a type lets no two of its constructors have one signature, be they plain ones or
stepwise ones, whose signature is put together from their steps. So values are taken by at most one
constructor, and a search through the constructors finds it wherever it stands in the list. If there
is none, the failure tells which kinds were asked for and which signatures there are.
-/

namespace DriverPolicy

/-- Keys of items repeat if and only if two items at different places have one key. -/
theorem not_nodup_map_iff {α β : Type} {key : α → β} {items : List α} :
    ¬(items.map key).Nodup ↔ ∃ (m n : Nat) (a b : α),
      m < n ∧ items[m]? = some a ∧ items[n]? = some b ∧ key a = key b := by
  rw [List.nodup_iff_getElem?_ne_getElem?]
  simp only [not_forall, ne_eq, not_not, List.length_map, List.getElem?_map]
  constructor
  · rintro ⟨m, n, hlt, hn, heq⟩
    have hm : m < items.length := Nat.lt_trans hlt hn
    rw [List.getElem?_eq_getElem hm, List.getElem?_eq_getElem hn] at heq
    exact ⟨m, n, items[m], items[n], hlt, List.getElem?_eq_getElem hm, List.getElem?_eq_getElem hn,
      Option.some.inj heq⟩
  · rintro ⟨m, n, a, b, hlt, ha, hb, heq⟩
    refine ⟨m, n, hlt, (List.getElem?_eq_some_iff.mp hb).1, ?_⟩
    rw [ha, hb, Option.map_some, Option.map_some, heq]

/-- What a construction that fails comes to for the type of a name. -/
def ResolutionFailure.ofConstruction (name : String) : ConstructionFault → ResolutionFailure
  | .refused refusal => .fault (.construction name refusal)
  | .overflow excess => .overflow excess

/-- Whether a constructor takes values: they have the kinds of its parameters, in order. -/
def Constructor.Takes (constructor : Constructor) (values : List TypedValue) : Prop :=
  constructor.signature = values.map TypedValue.kind

namespace PolicyType

variable {name : String} {family : Family} {constructors : List Constructor}
  {shared? : Option Policy} {type : PolicyType} {values : List TypedValue}

/-- Every type passes the validation of its parts. -/
theorem make_self (type : PolicyType) :
    make type.qualifiedName type.family type.constructors type.shared? = .ok type := by
  obtain ⟨name, family, constructors, shared?, distinct, suited⟩ := type
  cases shared? with
  | none => simp only [make, distinct, ↓reduceDIte]
  | some policy => simp only [make, distinct, suited policy rfl, ↓reduceDIte]

/-- A type that is made of parts has these parts. -/
theorem make_eq_ok_iff : make name family constructors shared? = .ok type ↔
    type.qualifiedName = name ∧ type.family = family ∧ type.constructors = constructors ∧
      type.shared? = shared? := by
  constructor
  · intro h
    unfold make at h
    split at h
    · split at h
      · obtain rfl := Except.ok.inj h
        exact ⟨rfl, rfl, rfl, rfl⟩
      · split at h
        · obtain rfl := Except.ok.inj h
          exact ⟨rfl, rfl, rfl, rfl⟩
        · exact nomatch h
    · exact nomatch h
  · rintro ⟨rfl, rfl, rfl, rfl⟩
    exact make_self type

/-- Constructors are refused if and only if two of them have one signature. -/
theorem make_eq_duplicateSignature_iff :
    make name family constructors shared? = .error (.duplicateSignature name) ↔
      ¬(constructors.map Constructor.signature).Nodup := by
  unfold make
  split
  · next hdistinct =>
    refine iff_of_false (fun h => ?_) (not_not.mpr hdistinct)
    split at h
    · exact nomatch h
    · split at h <;> exact nomatch h
  · next hdistinct => exact iff_of_true rfl hdistinct

/-- The parts of a type can be put together again with the constructors in another order. -/
theorem exists_make_of_perm (h : make name family constructors shared? = .ok type)
    {others : List Constructor} (hperm : others.Perm constructors) :
    ∃ reordered, make name family others shared? = .ok reordered := by
  obtain ⟨-, rfl, rfl, rfl⟩ := make_eq_ok_iff.mp h
  have hdistinct : (others.map Constructor.signature).Nodup :=
    (hperm.map _).nodup_iff.mpr type.distinct
  exact ⟨⟨name, type.family, others, type.shared?, hdistinct, type.suited⟩,
    make_eq_ok_iff.mpr ⟨rfl, rfl, rfl, rfl⟩⟩

/-- Values are built by the constructor that takes them. -/
theorem construct_of_takes {constructor : Constructor} (hmem : constructor ∈ type.constructors)
    (h : constructor.Takes values) : type.construct values =
      (constructor.build (values.map TypedValue.value)).mapError
        (.ofConstruction type.qualifiedName) := by
  have hfind : type.find? (TypedValue.signature values) = some constructor :=
    find?_eq_some_iff.mpr ⟨hmem, h⟩
  cases hbuild : constructor.build (values.map TypedValue.value) with
  | ok policy =>
    simp only [construct, hfind, hbuild]
    rfl
  | error fault =>
    simp only [construct, hfind, hbuild]
    cases fault <;> rfl

/-- Values that no constructor takes are not built, and the failure tells the kinds of the values
and the signatures of the constructors. -/
theorem construct_of_forall_not_takes (h : ∀ constructor ∈ type.constructors,
    ¬constructor.Takes values) : type.construct values =
      .error (.fault (.noMatchingConstructor type.qualifiedName
        (values.map fun value => value.kind.name)
        (type.constructors.map fun constructor =>
          constructor.signature.map ParameterKind.name))) := by
  have hfind : type.find? (TypedValue.signature values) = none := by
    rw [find?, List.find?_eq_none]
    intro constructor hmem hsignature
    rw [decide_eq_true_eq] at hsignature
    exact h constructor hmem hsignature
  simp only [construct, hfind]
  simp only [TypedValue.signature, Signature.names, signatures, List.map_map]
  rfl

/-- A type is refused if and only if two of the listed constructors, of whatever variants, have one
signature. Values are built by the constructor that has exactly their kinds, in order: it is the
only one in the list, and the outcome is what it builds, or its failure under the name of the type.
The constructors can be listed in any other order. If no constructor has the kinds of the values,
the failure tells these kinds and all signatures, in the order of the list. -/
theorem constructor_selection (name : String) (family : Family) (constructors : List Constructor)
    (shared? : Option Policy) :
    (make name family constructors shared? = .error (.duplicateSignature name) ↔
      ∃ (m n : Nat) (first second : Constructor), m < n ∧ constructors[m]? = some first ∧
        constructors[n]? = some second ∧ first.signature = second.signature) ∧
    ∀ type, make name family constructors shared? = .ok type → ∀ values : List TypedValue,
      (∀ (n : Nat) (constructor : Constructor), constructors[n]? = some constructor →
        constructor.Takes values →
          (∀ (m : Nat) (other : Constructor), constructors[m]? = some other → other.Takes values →
            m = n) ∧
          type.construct values =
            (constructor.build (values.map TypedValue.value)).mapError (.ofConstruction name)) ∧
      (∀ others : List Constructor, others.Perm constructors →
        ∃ reordered, make name family others shared? = .ok reordered ∧
          ((∃ constructor ∈ constructors, constructor.Takes values) →
            reordered.construct values = type.construct values)) ∧
      ((∀ constructor ∈ constructors, ¬constructor.Takes values) →
        type.construct values = .error (.fault (.noMatchingConstructor name
          (values.map fun value => value.kind.name)
          (constructors.map fun constructor =>
            constructor.signature.map ParameterKind.name)))) := by
  refine ⟨make_eq_duplicateSignature_iff.trans not_nodup_map_iff, fun type hmake values => ?_⟩
  obtain ⟨rfl, rfl, rfl, rfl⟩ := make_eq_ok_iff.mp hmake
  refine ⟨fun n constructor hn htakes => ⟨fun m other hm hother => ?_, ?_⟩,
    fun others hperm => ?_, construct_of_forall_not_takes⟩
  · by_contra hne
    have hsignature : other.signature = constructor.signature := hother.trans htakes.symm
    refine not_nodup_map_iff.mpr ?_ type.distinct
    rcases Nat.lt_or_gt_of_ne hne with hlt | hlt
    · exact ⟨m, n, other, constructor, hlt, hm, hn, hsignature⟩
    · exact ⟨n, m, constructor, other, hlt, hn, hm, hsignature.symm⟩
  · exact construct_of_takes (List.mem_of_getElem? hn) htakes
  · obtain ⟨reordered, hreordered⟩ := exists_make_of_perm hmake hperm
    refine ⟨reordered, hreordered, ?_⟩
    rintro ⟨constructor, hmem, htakes⟩
    obtain ⟨hname, -, rfl, -⟩ := make_eq_ok_iff.mp hreordered
    rw [construct_of_takes hmem htakes, construct_of_takes (hperm.mem_iff.mpr hmem) htakes, hname]

/-- Two constructors of different variants, listed in either order, and a third one that has the
signature of the first. -/
theorem constructor_selection_two_variants :
    let plain := Constructor.ofClass .tokenAware [.policy]
    let stepwise := Constructor.stepwise .policy [⟨.double, .threshold, false⟩]
    let values := [TypedValue.ofPolicy .roundRobin]
    make "acme.Policy" .loadBalancing [plain, stepwise, .stepwise .policy []] none =
      .error (.duplicateSignature "acme.Policy") ∧
    ∃ type reordered, make "acme.Policy" .loadBalancing [plain, stepwise] none = .ok type ∧
      make "acme.Policy" .loadBalancing [stepwise, plain] none = .ok reordered ∧
      type.construct values = .ok (.tokenAware .roundRobin) ∧
      reordered.construct values = .ok (.tokenAware .roundRobin) := by
  intro plain stepwise values
  obtain ⟨type, hmake⟩ : ∃ type, make "acme.Policy" .loadBalancing [plain, stepwise] none =
      .ok type := ⟨_, rfl⟩
  have htakes : plain.Takes values := rfl
  obtain ⟨huses, horder, -⟩ :=
    (constructor_selection "acme.Policy" .loadBalancing [plain, stepwise] none).2 type hmake values
  obtain ⟨reordered, hreordered, hsame⟩ := horder [stepwise, plain] (.swap ..)
  have hbuilt : type.construct values = .ok (.tokenAware .roundRobin) :=
    (huses 0 plain rfl htakes).2
  refine ⟨(constructor_selection "acme.Policy" .loadBalancing _ none).1.mpr
    ⟨0, 2, plain, .stepwise .policy [], by decide, rfl, rfl, rfl⟩, type, reordered, hmake,
    hreordered, hbuilt, ?_⟩
  rw [hsame ⟨plain, List.mem_cons_self, htakes⟩, hbuilt]

end PolicyType

end DriverPolicy
