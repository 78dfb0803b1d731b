import DriverPolicy.Proofs.Registry.Listing
import DriverPolicy.Registry.Builtin
import Mathlib.Data.List.Induction

/-!
# Sessions with a builder

A builder is started empty or with the types of a registry. In a session types are registered and
registries are built in any order; a type that is refused leaves everything as it was, and the
session goes on.

The builder and the registries have their types in tables that stand in one store, and what they
answer is read from there. Registering changes the table of the builder in its place. Building makes
a copy of it, which no one changes; so a registry that was built stays as it is whatever is done
later: it holds the types that the builder was started with and those that were registered until
then.
-/

namespace DriverPolicy

/-- What can be done with a builder. -/
inductive RegistryStep where
  | register (type : PolicyType)
  | build

/-- The types that steps try to register, in order. -/
def RegistryStep.offered (steps : List RegistryStep) : List PolicyType :=
  steps.filterMap fun
    | register type => some type
    | build => none

/-- A builder that starts empty or with the types of a registry. -/
def RegistryBuilder.start : Option Registry → RegistryBuilder
  | none => .empty
  | some registry => .ofRegistry registry

/-- A builder and the registries that were built with it, over a store of tables of types. -/
structure RegistrySession where
  /-- The tables that were made, the first one first. -/
  tables : List RegistryBuilder
  /-- The place of the builder's table. -/
  own : Nat
  /-- The places of the registries' tables, in the order in which they were built. -/
  copies : List Nat
  /-- The builder has a table. -/
  own_lt : own < tables.length
  /-- So has every registry. -/
  copies_lt : ∀ copy ∈ copies, copy < tables.length
  /-- No registry shares the builder's table. -/
  own_not_mem : own ∉ copies

namespace RegistrySession

/-- The builder, as its table is now. -/
def builder (session : RegistrySession) : RegistryBuilder :=
  session.tables.get ⟨session.own, session.own_lt⟩

/-- The registries, as their tables are now, the first one first. -/
def built (session : RegistrySession) : List Registry :=
  session.copies.pmap (fun copy h => (session.tables.get ⟨copy, h⟩).build) session.copies_lt

/-- A builder with a table of its own. -/
def start (table : RegistryBuilder) : RegistrySession where
  tables := [table]
  own := 0
  copies := []
  own_lt := Nat.zero_lt_one
  copies_lt := nofun
  own_not_mem := nofun

/-- Change the builder's table. -/
def change (session : RegistrySession) (table : RegistryBuilder) : RegistrySession :=
  { session with
    tables := session.tables.set session.own table
    own_lt := by simpa using session.own_lt
    copies_lt := by simpa using session.copies_lt }

/-- Make a registry that gets a copy of the builder's table. -/
def copyOut (session : RegistrySession) : RegistrySession where
  tables := session.tables ++ [session.builder]
  own := session.own
  copies := session.copies ++ [session.tables.length]
  own_lt := by simpa using Nat.lt_succ_of_lt session.own_lt
  copies_lt copy hcopy := by
    rw [List.length_append, List.length_singleton]
    rcases List.mem_append.mp hcopy with hold | hnew
    · exact Nat.lt_succ_of_lt (session.copies_lt copy hold)
    · rw [List.mem_singleton.mp hnew]
      exact Nat.lt_succ_self _
  own_not_mem := by
    simpa using ⟨session.own_not_mem, Nat.ne_of_lt session.own_lt⟩

/-- The builder's table is what it was changed to. -/
@[simp] theorem builder_change (session : RegistrySession) (table : RegistryBuilder) :
    (session.change table).builder = table := by
  simp [builder, change]

/-- The registries do not see that the builder's table is changed. -/
@[simp] theorem built_change (session : RegistrySession) (table : RegistryBuilder) :
    (session.change table).built = session.built := by
  refine List.pmap_congr_left _ fun copy hcopy _ _ => ?_
  have hne : session.own ≠ copy := fun h => session.own_not_mem (h ▸ hcopy)
  simp [change, List.getElem_set_ne hne]

/-- The builder does not see that its table is copied. -/
@[simp] theorem builder_copyOut (session : RegistrySession) :
    session.copyOut.builder = session.builder := by
  simp [builder, copyOut, List.getElem_append_left session.own_lt]

/-- The copy is a registry of the builder's types, and the registries that were there stay. -/
@[simp] theorem built_copyOut (session : RegistrySession) :
    session.copyOut.built = session.built ++ [session.builder.build] := by
  refine (List.pmap_append ..).trans (congrArg₂ _ ?_ ?_)
  · refine List.pmap_congr_left _ fun copy hcopy _ _ => ?_
    simp [copyOut, List.getElem_append_left (session.copies_lt copy hcopy)]
  · simp [copyOut, List.pmap]

/-- A builder starts with the types of its table. -/
@[simp] theorem builder_start (table : RegistryBuilder) : (start table).builder = table := rfl

/-- There are no registries at the start. -/
@[simp] theorem built_start (table : RegistryBuilder) : (start table).built = [] := rfl

/-- One step, which fails if a type is refused. -/
def step (session : RegistrySession) : RegistryStep → Except RegistrationFault RegistrySession
  | .register type => do return session.change (← session.builder.register type)
  | .build => return session.copyOut

/-- The session after a step; one that fails leaves it as it was. -/
def advance (session : RegistrySession) (step : RegistryStep) : RegistrySession :=
  match session.step step with
  | .ok next => next
  | .error _ => session

/-- The session after steps with a builder that starts empty or with the types of a registry. -/
def after (base : Option Registry) (steps : List RegistryStep) : RegistrySession :=
  steps.foldl advance (start (.start base))

/-- A type is registered in the course of steps: one of them adds it and does not fail. -/
def Registers (base : Option Registry) (steps : List RegistryStep) (type : PolicyType) : Prop :=
  ∃ before, before ++ [.register type] <+: steps ∧
    ∃ next, (after base before).step (.register type) = .ok next

variable {session : RegistrySession} {base : Option Registry} {steps : List RegistryStep}
  {type : PolicyType}

/-- The last step comes after the others. -/
theorem after_concat (base : Option Registry) (steps : List RegistryStep) (step : RegistryStep) :
    after base (steps ++ [step]) = (after base steps).advance step :=
  List.foldl_concat ..

/-- A type whose name is there is refused and changes nothing; any other is added. -/
theorem register_cases (session : RegistrySession) (type : PolicyType) :
    (type.qualifiedName ∈ namesOf session.builder.entries ∧
      session.step (.register type) = .error ⟨type.qualifiedName⟩ ∧
      session.advance (.register type) = session) ∨
    (type.qualifiedName ∉ namesOf session.builder.entries ∧
      ∃ builder, builder.entries = session.builder.entries ++ [type] ∧
        session.step (.register type) = .ok (session.change builder) ∧
        session.advance (.register type) = session.change builder) := by
  by_cases hname : type.qualifiedName ∈ namesOf session.builder.entries
  · have hstep : session.step (.register type) = .error ⟨type.qualifiedName⟩ := by
      rw [step, RegistryBuilder.register, dif_pos hname, error_bind]
    exact Or.inl ⟨hname, hstep, by rw [advance, hstep]⟩
  · obtain ⟨builder, hbuilder⟩ : ∃ builder, session.builder.register type = .ok builder :=
      ⟨_, dif_neg hname⟩
    have hstep : session.step (.register type) = .ok (session.change builder) := by
      rw [step, hbuilder, ok_bind, pure_eq_ok]
    exact Or.inr ⟨hname, builder, (RegistryBuilder.register_eq_ok_iff.mp hbuilder).2, hstep,
      by rw [advance, hstep]⟩

/-- Registering fails if and only if the name is there, and then changes nothing. -/
theorem register_fails (session : RegistrySession) (type : PolicyType) :
    ((∃ fault, session.step (.register type) = .error fault) ↔
      session.builder.build.contains type.qualifiedName = true) ∧
    ∀ fault, session.step (.register type) = .error fault →
      fault = ⟨type.qualifiedName⟩ ∧ session.advance (.register type) = session := by
  have hcontains : session.builder.build.contains type.qualifiedName = true ↔
      type.qualifiedName ∈ namesOf session.builder.entries := by
    rw [← Bool.not_eq_false, Registry.contains_eq_false_iff, not_not]
    rfl
  rw [hcontains]
  rcases register_cases session type with
    ⟨hname, hstep, hnext⟩ | ⟨hname, builder, -, hstep, -⟩
  · rw [hstep, hnext]
    refine ⟨iff_of_true ⟨_, rfl⟩ hname, ?_⟩
    rintro fault ⟨⟩
    exact ⟨rfl, rfl⟩
  · rw [hstep]
    refine ⟨iff_of_false ?_ hname, ?_⟩
    · rintro ⟨fault, ⟨⟩⟩
    · rintro fault ⟨⟩

/-- Building copies the builder's table. -/
@[simp] theorem advance_build (session : RegistrySession) :
    session.advance .build = session.copyOut :=
  rfl

/-- Registering leaves the registries as they are. -/
theorem built_advance_register (session : RegistrySession) (type : PolicyType) :
    (session.advance (.register type)).built = session.built := by
  rcases register_cases session type with ⟨-, -, h⟩ | ⟨-, builder, -, -, h⟩
  · rw [h]
  · rw [h, built_change]

/-- A registry that was built stays where it is. -/
theorem built_prefix_after (base : Option Registry) (steps more : List RegistryStep) :
    (after base steps).built <+: (after base (steps ++ more)).built := by
  induction more using List.reverseRecOn with
  | nil => simp
  | append_singleton more step ih =>
    rw [← List.append_assoc, after_concat]
    cases step with
    | register type => rwa [built_advance_register]
    | build =>
      rw [advance_build, built_copyOut]
      exact ih.trans (List.prefix_append _ _)

/-- Each registry was built by a step, from the types that there were before it. -/
theorem exists_build_of_built {n : Nat} {registry : Registry}
    (h : (after base steps).built[n]? = some registry) :
    ∃ before, before ++ [.build] <+: steps ∧ (after base before).built.length = n ∧
      registry = (after base before).builder.build := by
  induction steps using List.reverseRecOn with
  | nil => simp [after] at h
  | append_singleton steps step ih =>
    -- a registry that was there before the last step was built by one of the others
    have hbefore (h : (after base steps).built[n]? = some registry) :
        ∃ before, before ++ [.build] <+: steps ++ [step] ∧ (after base before).built.length = n ∧
          registry = (after base before).builder.build := by
      obtain ⟨before, hprefix, hrest⟩ := ih h
      exact ⟨before, hprefix.trans (List.prefix_append _ _), hrest⟩
    rw [after_concat] at h
    cases step with
    | register type => exact hbefore (built_advance_register _ type ▸ h)
    | build =>
      rw [advance_build, built_copyOut, List.getElem?_append] at h
      split at h
      · exact hbefore h
      · next hn =>
        obtain ⟨hindex, hregistry⟩ := List.getElem?_eq_some_iff.mp h
        simp only [List.length_singleton] at hindex
        exact ⟨steps, List.prefix_rfl, by omega, by simpa using hregistry.symm⟩

/-- What is registered by one more step. -/
theorem registers_concat {step : RegistryStep} : Registers base (steps ++ [step]) type ↔
    Registers base steps type ∨
      step = .register type ∧ ∃ next, (after base steps).step (.register type) = .ok next := by
  simp only [Registers, List.prefix_concat_iff]
  constructor
  · rintro ⟨before, heq | hprefix, hstep⟩
    · obtain ⟨hbefore, hlast⟩ := List.append_inj' heq rfl
      exact Or.inr ⟨(List.cons.inj hlast).1.symm, hbefore ▸ hstep⟩
    · exact Or.inl ⟨before, hprefix, hstep⟩
  · rintro (⟨before, hprefix, hstep⟩ | ⟨rfl, hstep⟩)
    · exact ⟨before, Or.inr hprefix, hstep⟩
    · exact ⟨steps, Or.inl rfl, hstep⟩

/-- A session holds the types that it started with and those that are registered in its course. -/
theorem mem_entries_after : type ∈ (after base steps).builder.entries ↔
    type ∈ (RegistryBuilder.start base).entries ∨ Registers base steps type := by
  induction steps using List.reverseRecOn with
  | nil => simp [after, Registers]
  | append_singleton steps step ih =>
    rw [after_concat, registers_concat, ← or_assoc, ← ih]
    cases step with
    | build => simp [advance_build]
    | register new =>
      rcases register_cases (after base steps) new with
        ⟨-, hstep, hnext⟩ | ⟨-, builder, hentries, hstep, hnext⟩
      · rw [hnext]
        refine (or_iff_left ?_).symm
        rintro ⟨heq, next, hok⟩
        obtain rfl := RegistryStep.register.inj heq
        rw [hstep] at hok
        contradiction
      · rw [hnext, builder_change, hentries, List.mem_append, List.mem_singleton]
        refine or_congr_right ⟨?_, fun h => (RegistryStep.register.inj h.1).symm⟩
        rintro rfl
        exact ⟨rfl, _, hstep⟩

/-- Of types of different names those are added that are offered under a name that the builder does
not start with. -/
theorem mem_entries_after_of_nodup (h : (namesOf (RegistryStep.offered steps)).Nodup) :
    type ∈ (after base steps).builder.entries ↔ type ∈ (RegistryBuilder.start base).entries ∨
      type ∈ RegistryStep.offered steps ∧
        type.qualifiedName ∉ namesOf (RegistryBuilder.start base).entries := by
  induction steps using List.reverseRecOn generalizing type with
  | nil => simp [after, RegistryStep.offered]
  | append_singleton steps step ih =>
    rw [after_concat]
    cases step with
    | build =>
      have hoffered : RegistryStep.offered (steps ++ [.build]) = RegistryStep.offered steps := by
        simp [RegistryStep.offered]
      rw [advance_build, builder_copyOut, hoffered]
      exact ih (hoffered ▸ h)
    | register new =>
      have hoffered : RegistryStep.offered (steps ++ [.register new]) =
          RegistryStep.offered steps ++ [new] := by simp [RegistryStep.offered]
      rw [hoffered, namesOf, List.map_append, List.nodup_append] at h
      obtain ⟨hnames, -, hnew⟩ := h
      have hknown : new.qualifiedName ∈ namesOf (after base steps).builder.entries ↔
          new.qualifiedName ∈ namesOf (RegistryBuilder.start base).entries := by
        simp only [namesOf, List.mem_map]
        constructor
        · rintro ⟨other, hother, heq⟩
          rcases (ih hnames).mp hother with hbase | ⟨hearlier, -⟩
          · exact ⟨other, hbase, heq⟩
          · exact absurd heq (hnew _ (List.mem_map_of_mem hearlier) _ (List.mem_singleton_self _))
        · rintro ⟨other, hother, heq⟩
          exact ⟨other, (ih hnames).mpr (Or.inl hother), heq⟩
      rw [hoffered, List.mem_append, List.mem_singleton, or_and_right, ← or_assoc, ← ih hnames]
      rcases register_cases (after base steps) new with
        ⟨hname, -, hnext⟩ | ⟨hname, builder, hentries, -, hnext⟩
      · rw [hnext]
        refine (or_iff_left ?_).symm
        rintro ⟨rfl, hfresh⟩
        exact hfresh (hknown.mp hname)
      · rw [hnext, builder_change, hentries, List.mem_append, List.mem_singleton]
        refine or_congr_right ⟨?_, And.left⟩
        rintro rfl
        exact ⟨rfl, fun h => hname (hknown.mpr h)⟩

/-- Offering the same types of different names in another order makes no difference. -/
theorem alike_of_offered_perm {others : List RegistryStep}
    (hnames : (namesOf (RegistryStep.offered steps)).Nodup)
    (hperm : (RegistryStep.offered steps).Perm (RegistryStep.offered others)) :
    (after base steps).builder.build.Alike (after base others).builder.build := by
  have hothers : (namesOf (RegistryStep.offered others)).Nodup := (hperm.map _).nodup_iff.mp hnames
  rw [Registry.alike_iff_perm]
  refine (List.perm_ext_iff_of_nodup (List.Nodup.of_map _ (Registry.distinct _))
    (List.Nodup.of_map _ (Registry.distinct _))).mpr fun type => ?_
  change type ∈ (after base steps).builder.entries ↔ type ∈ (after base others).builder.entries
  rw [mem_entries_after_of_nodup hnames, mem_entries_after_of_nodup hothers, hperm.mem_iff]

/-- A builder starts with the types of its registry, if it has one. -/
theorem mem_entries_start : type ∈ (RegistryBuilder.start base).entries ↔
    ∃ registry ∈ base, type ∈ registry.types := by
  cases base <;> simp [RegistryBuilder.start, RegistryBuilder.empty, RegistryBuilder.ofRegistry]

/-- In a session with a builder that starts empty or with the types of a registry, registering a
type fails if and only if its name is there, and then changes nothing. A build adds a registry,
which stays as it is whatever comes after. It holds the types that the builder started with and
those registered before it was built, and finds each by its name; it lists them once, in the strict
order of their names, and the lists of the three families make up this list. Sessions in which the
same types of different names are registered in different orders lead to registries that answer
every query alike, and so does copying a registry. -/
theorem registry_session (base : Option Registry) :
    (∀ (steps : List RegistryStep) (type : PolicyType),
      ((∃ fault, (after base steps).step (.register type) = .error fault) ↔
        (after base steps).builder.build.contains type.qualifiedName = true) ∧
      ∀ fault, (after base steps).step (.register type) = .error fault →
        fault = ⟨type.qualifiedName⟩ ∧
          after base (steps ++ [.register type]) = after base steps) ∧
    (∀ steps : List RegistryStep, ∃ registry,
      (after base (steps ++ [.build])).built = (after base steps).built ++ [registry]) ∧
    (∀ (steps : List RegistryStep) (n : Nat) (registry : Registry),
      (after base steps).built[n]? = some registry →
        (∃ before, before ++ [.build] <+: steps ∧ (after base before).built.length = n ∧
          ∀ type, type ∈ registry.types ↔
            (∃ start ∈ base, type ∈ start.types) ∨ Registers base before type) ∧
        (∀ more, (after base (steps ++ more)).built[n]? = some registry) ∧
        (∀ name type, registry.get name = .ok type ↔
          type ∈ registry.types ∧ type.qualifiedName = name) ∧
        registry.size = registry.types.length ∧
        (registry.types.Pairwise fun a b => a.qualifiedName < b.qualifiedName) ∧
        (∀ family, registry.typesOf family = registry.types.filter (·.family = family)) ∧
        (registry.typesOf .loadBalancing ++ registry.typesOf .retry ++
          registry.typesOf .reconnection).Perm registry.types) ∧
    (∀ steps others : List RegistryStep, (namesOf (RegistryStep.offered steps)).Nodup →
      (RegistryStep.offered steps).Perm (RegistryStep.offered others) →
        (after base steps).builder.build.Alike (after base others).builder.build) ∧
    ∀ registry : Registry, (RegistryBuilder.ofRegistry registry).build.Alike registry := by
  refine ⟨fun steps type => ?_, fun steps => ⟨(after base steps).builder.build, ?_⟩,
    fun steps n registry hbuilt => ?_, fun steps others => alike_of_offered_perm,
    fun registry => Registry.alike_iff_perm.mpr registry.perm_types⟩
  · rw [after_concat]
    exact register_fails (after base steps) type
  · rw [after_concat, advance_build, built_copyOut]
  · obtain ⟨before, hprefix, hlength, rfl⟩ := exists_build_of_built hbuilt
    refine ⟨⟨before, hprefix, hlength, fun type => ?_⟩, fun more => ?_, fun _ _ =>
      Registry.get_eq_ok_iff, (Registry.perm_types _).length_eq.symm, Registry.pairwise_types _,
      Registry.typesOf_eq_filter _, ?_⟩
    · rw [(Registry.perm_types _).mem_iff, ← mem_entries_start]
      exact mem_entries_after
    · obtain ⟨rest, hrest⟩ := built_prefix_after base steps more
      rw [← hrest, List.getElem?_append_left (List.getElem?_eq_some_iff.mp hbuilt).1]
      exact hbuilt
    · simp only [Registry.typesOf_eq_filter]
      exact filter_families_perm _

/-- Two types that are registered in one order or the other. -/
theorem registry_session_two_orders :
    (after none [.register (PolicyClass.tokenAware.builtinType "acme"), .build,
        .register (PolicyClass.roundRobin.builtinType "acme")]).builder.build.Alike
      (after none [.register (PolicyClass.roundRobin.builtinType "acme"),
        .register (PolicyClass.tokenAware.builtinType "acme")]).builder.build :=
  (registry_session none).2.2.2.1 _ _ (by decide) (.swap ..)

end RegistrySession

end DriverPolicy
