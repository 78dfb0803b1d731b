import DriverPolicy.Proofs.Attempt
import DriverPolicy.Registry.Constructor

/-!
# Building through positional steps

A positional constructor gives its values to the settings of a draft, one after the other. The draft
keeps no record of what a setting was given before, so a policy is built of what the last step for each
setting makes of its value, and of the standard value where there is no such step. Steps for different
settings may trade places without a difference to the result.

Each construction begins a draft of its own and changes it in place. One that fails leaves its draft
behind as it was then. Nothing comes back to a draft that is left behind, whether or not it was
finished, so a construction comes to the same after any others as on its own.
-/

namespace DriverPolicy

namespace PositionalConstructor

variable {steps : List PositionalStep} {values : List Value}

/-- The steps with what they are given. -/
def entries (constructor : PositionalConstructor) (given : List TypedValue) :
    List (PositionalStep × Value) :=
  constructor.steps.zip (given.map TypedValue.value)

/-- The entries for one setting, in order. -/
def entriesFor (setting : LatencySetting) (entries : List (PositionalStep × Value)) :
    List (PositionalStep × Value) :=
  entries.filter fun entry => entry.1.setting = setting

/-- Whether the conversion of an entry succeeds. -/
def Converts (entry : PositionalStep × Value) : Prop :=
  ∃ converted, entry.1.convert entry.2 = .ok converted

/-- What the last entry for a setting gives it, if there is one. -/
def lastGiven? (entries : List (PositionalStep × Value)) (setting : LatencySetting) : Option Value :=
  (entriesFor setting entries).getLast?.bind fun entry => (entry.1.convert entry.2).toOption

/-- What a setting has in the end: what the last entry for it gives it, or else the standard value. -/
def effective (entries : List (PositionalStep × Value)) (setting : LatencySetting) : Value :=
  (lastGiven? entries setting).getD (LatencySettings.standard.value setting)

/-- What the first of some entries gives its setting remains if none of the others is for that setting. -/
theorem lastGiven?_cons {step : PositionalStep} {value converted : Value}
    {entries : List (PositionalStep × Value)} (hconvert : step.convert value = .ok converted)
    (hall : ∀ entry ∈ entries, Converts entry) (setting : LatencySetting) :
    lastGiven? ((step, value) :: entries) setting =
      (lastGiven? entries setting).or (if setting = step.setting then some converted else none) := by
  by_cases heq : setting = step.setting
  · have hentries : entriesFor setting ((step, value) :: entries) =
        (step, value) :: entriesFor setting entries :=
      List.filter_cons_of_pos (by simp [heq])
    rw [lastGiven?, lastGiven?, hentries, List.getLast?_cons, if_pos heq]
    cases hlast : (entriesFor setting entries).getLast? with
    | none => simp [hconvert, Except.toOption]
    | some entry =>
      obtain ⟨last, hconverted⟩ := hall entry (List.mem_filter.mp (List.mem_of_getLast? hlast)).1
      simp [hconverted, Except.toOption]
  · have hentries : entriesFor setting ((step, value) :: entries) = entriesFor setting entries :=
      List.filter_cons_of_neg (by simp [Ne.symm heq])
    rw [lastGiven?, lastGiven?, hentries, if_neg heq, Option.or_none]

/-- Steps whose conversions succeed leave a draft with what each setting was given last. -/
theorem giveAll_eq (hlength : steps.length = values.length)
    (hall : ∀ entry ∈ steps.zip values, Converts entry) (draft : LatencyDraft) :
    giveAll draft steps values = .ok ⟨draft.child, fun setting =>
      (lastGiven? (steps.zip values) setting).getD (draft.value setting)⟩ := by
  induction steps generalizing draft values with
  | nil =>
    obtain rfl := List.length_eq_zero_iff.mp hlength.symm
    rfl
  | cons step steps ih =>
    cases values with
    | nil => contradiction
    | cons value values =>
      rw [List.zip_cons_cons, List.forall_mem_cons] at hall
      obtain ⟨⟨converted, hconvert⟩, hrest⟩ := hall
      rw [giveAll, hconvert, ok_bind, ih (Nat.succ.inj hlength) hrest]
      congr 2
      funext setting
      rw [List.zip_cons_cons, lastGiven?_cons hconvert hrest, LatencyDraft.give]
      cases lastGiven? (steps.zip values) setting with
      | some last => rfl
      | none =>
        dsimp only [Option.none_or, Option.getD_none]
        split <;> rfl

variable {constructor : PositionalConstructor} {child : TypedValue} {given : List TypedValue}

/-- There is a value for every step if the values fit the signature. -/
theorem length_of_signature (h : TypedValue.signature (child :: given) = constructor.signature) :
    constructor.steps.length = (given.map TypedValue.value).length := by
  have hlength := congrArg List.length h
  simp only [TypedValue.signature, signature, List.length_map, List.length_cons] at hlength ⊢
  omega

/-- A policy is constructed of the child and of what each setting was given last. -/
theorem build_eq (h : TypedValue.signature (child :: given) = constructor.signature)
    (hall : ∀ entry ∈ constructor.entries given, Converts entry) :
    constructor.build ((child :: given).map TypedValue.value) =
      (PolicyClass.latencyAware.construct
        (child.value :: LatencySetting.all.map (effective (constructor.entries given)))).mapError
        .refused := by
  rw [List.map_cons, build, giveAll_eq (length_of_signature h) hall, ok_bind]
  rfl

/-- Whether some entries are others in an order that is the same among those for one setting. -/
def Reordered (entries others : List (PositionalStep × Value)) : Prop :=
  ∀ setting, entriesFor setting others = entriesFor setting entries

/-- The same conversions are made in another order. -/
theorem Reordered.converts {entries others : List (PositionalStep × Value)}
    (h : Reordered entries others) (hall : ∀ entry ∈ entries, Converts entry) :
    ∀ entry ∈ others, Converts entry := by
  intro entry hmem
  have hmem' : entry ∈ entriesFor entry.1.setting others :=
    List.mem_filter.mpr ⟨hmem, decide_eq_true rfl⟩
  rw [h] at hmem'
  exact hall entry (List.mem_filter.mp hmem').1

/-- Settings are given the same last. -/
theorem Reordered.effective_eq {entries others : List (PositionalStep × Value)}
    (h : Reordered entries others) : effective others = effective entries := by
  funext setting
  rw [effective, effective, lastGiven?, lastGiven?, h setting]

/-- Give the settings of steps their values in the draft at a place of a store, which is changed there. -/
def fillIn (place : Nat) (store : List LatencyDraft) : List PositionalStep → List Value →
    List LatencyDraft × Except ConstructionFault Unit
  | step :: steps, value :: values =>
    match step.convert value with
    | .ok converted => fillIn place (store.modify place (·.give step.setting converted)) steps values
    | .error fault => (store, .error fault)
  | [], [] => (store, .ok ())
  | _, _ => (store, .error (.refused (.unsuitable "LatencyAwarePolicy")))

/-- Build the policy that the draft at a place of a store is for. -/
def buildAt (store : List LatencyDraft) (place : Nat) : Except ConstructionFault Policy :=
  match store[place]? with
  | some draft => draft.build.mapError .refused
  | none => .error (.refused (.unsuitable "LatencyAwarePolicy"))

/-- Begin a draft at the end of a store, give the settings of steps their values in it and build the policy.
The draft stays in the store. -/
def buildIn (constructor : PositionalConstructor) (store : List LatencyDraft) :
    List Value → List LatencyDraft × Except ConstructionFault Policy
  | child :: values =>
    let filled := fillIn store.length (store ++ [.start child]) constructor.steps values
    (filled.1, filled.2.bind fun _ => buildAt filled.1 store.length)
  | [] => (store, .error (.refused (.unsuitable "LatencyAwarePolicy")))

/-- Do constructions one after the other in one store. -/
def buildAllIn (store : List LatencyDraft) : List (PositionalConstructor × List Value) →
    List LatencyDraft × List (Except ConstructionFault Policy)
  | [] => (store, [])
  | (constructor, values) :: rest =>
    let built := constructor.buildIn store values
    let others := buildAllIn built.1 rest
    (others.1, built.2 :: others.2)

/-- A change at the end of a store leaves the rest as it is. -/
theorem modify_last (store : List LatencyDraft) (draft : LatencyDraft)
    (change : LatencyDraft → LatencyDraft) :
    (store ++ [draft]).modify store.length change = store ++ [change draft] := by
  induction store with
  | nil => rfl
  | cons first store ih => simpa using ih

/-- The draft at the end of a store is filled in as it would be by itself, up to where that fails, and the
others stay as they are. -/
theorem fillIn_eq (store : List LatencyDraft) (draft : LatencyDraft) (steps : List PositionalStep)
    (values : List Value) : ∃ left,
      (fillIn store.length (store ++ [draft]) steps values).1 = store ++ [left] ∧
      giveAll draft steps values =
        (fillIn store.length (store ++ [draft]) steps values).2.map fun _ => left := by
  induction steps generalizing draft values with
  | nil => cases values <;> exact ⟨draft, rfl, rfl⟩
  | cons step steps ih =>
    cases values with
    | nil => exact ⟨draft, rfl, rfl⟩
    | cons value values =>
      rw [fillIn, giveAll]
      cases hconvert : step.convert value with
      | error fault => exact ⟨draft, rfl, rfl⟩
      | ok converted =>
        dsimp only
        rw [modify_last, ok_bind]
        exact ih _ _

/-- A construction in a store leaves a draft in it and comes to what it comes to on its own. -/
theorem buildIn_eq (constructor : PositionalConstructor) (store : List LatencyDraft)
    (values : List Value) : store <+: (constructor.buildIn store values).1 ∧
      (constructor.buildIn store values).2 = constructor.build values := by
  cases values with
  | nil => exact ⟨List.prefix_refl store, rfl⟩
  | cons child values =>
    obtain ⟨left, hstore, hdraft⟩ := fillIn_eq store (.start child) constructor.steps values
    rw [buildIn, build, hdraft]
    dsimp only
    rw [hstore]
    refine ⟨List.prefix_append _ _, ?_⟩
    have hat : buildAt (store ++ [left]) store.length = left.build.mapError .refused := by
      simp [buildAt]
    cases (fillIn store.length (store ++ [.start child]) constructor.steps values).2 with
    | error fault => rfl
    | ok => exact hat

/-- So it is with several constructions. -/
theorem buildAllIn_eq (store : List LatencyDraft)
    (constructions : List (PositionalConstructor × List Value)) :
    store <+: (buildAllIn store constructions).1 ∧
      (buildAllIn store constructions).2 = constructions.map fun entry => entry.1.build entry.2 := by
  induction constructions generalizing store with
  | nil => exact ⟨List.prefix_refl store, rfl⟩
  | cons entry rest ih =>
    obtain ⟨constructor, values⟩ := entry
    obtain ⟨hstore, hbuilt⟩ := constructor.buildIn_eq store values
    obtain ⟨hothers, hrest⟩ := ih (constructor.buildIn store values).1
    rw [buildAllIn, List.map_cons]
    exact ⟨hstore.trans hothers, congrArg₂ List.cons hbuilt hrest⟩

/-- Positional construction from values that fit the signature, all of which can be converted, does what
constructing the policy at once does, from the child and, for each setting, what the last step for it makes of
its value, or the standard value. Steps with their values may be put in another order that is the same among
those for one setting. And a construction comes to the same after any others, finished or not, as on its own,
though what these did to their drafts is not undone. -/
theorem build_of_last_given :
    (∀ (constructor : PositionalConstructor) (child : TypedValue) (given : List TypedValue),
      TypedValue.signature (child :: given) = constructor.signature →
      (∀ entry ∈ constructor.entries given, Converts entry) →
      constructor.build ((child :: given).map TypedValue.value) =
        (PolicyClass.latencyAware.construct
          (child.value :: LatencySetting.all.map (effective (constructor.entries given)))).mapError
          .refused) ∧
    (∀ (constructor other : PositionalConstructor) (child : TypedValue) (given others : List TypedValue),
      TypedValue.signature (child :: given) = constructor.signature →
      TypedValue.signature (child :: others) = other.signature →
      (∀ entry ∈ constructor.entries given, Converts entry) →
      Reordered (constructor.entries given) (other.entries others) →
      other.build ((child :: others).map TypedValue.value) =
        constructor.build ((child :: given).map TypedValue.value)) ∧
    ∀ (store : List LatencyDraft) (constructions : List (PositionalConstructor × List Value)),
      store <+: (buildAllIn store constructions).1 ∧
        (buildAllIn store constructions).2 = constructions.map fun entry => entry.1.build entry.2 := by
  refine ⟨fun constructor child given hsignature hall => build_eq hsignature hall, ?_, buildAllIn_eq⟩
  intro constructor other child given others hsignature hother hall hreordered
  rw [build_eq hsignature hall, build_eq hother (hreordered.converts hall), hreordered.effective_eq]

/-- A scale that is no duration is replaced before anything looks at it, and it does not matter where the
step for the threshold stands. -/
theorem build_replaced_scale :
    let raw : SettingStep := ⟨.long, .scale, false⟩
    let scale : SettingStep := ⟨.long, .scale, true⟩
    let threshold : SettingStep := ⟨.int, .threshold, false⟩
    let outcome : Except ConstructionFault Policy := .ok (.latencyAware .roundRobin
      { LatencySettings.standard with threshold := .whole 3, scale := ⟨250000⟩ })
    build ⟨.policy, [raw.positional, scale.positional, threshold.positional]⟩
      [.policy .roundRobin, .integer 5, .integer 250, .integer 3] = outcome ∧
    build ⟨.policy, [threshold.positional, raw.positional, scale.positional]⟩
      [.policy .roundRobin, .integer 3, .integer 5, .integer 250] = outcome := by
  intro raw scale threshold outcome
  obtain ⟨hbuild, hreorder, -⟩ := build_of_last_given
  have hconverts : ∀ entry ∈ entries ⟨.policy, [raw.positional, scale.positional, threshold.positional]⟩
      [.ofLiteral (.long 5), .ofLiteral (.long 250), .ofLiteral (.int 3)], Converts entry := by
    intro entry hmem
    rcases List.mem_cons.mp hmem with rfl | hmem
    · exact ⟨_, rfl⟩
    · rcases List.mem_cons.mp hmem with rfl | hmem
      · exact ⟨_, rfl⟩
      · obtain rfl := List.mem_singleton.mp hmem
        exact ⟨_, rfl⟩
  have hfirst := hbuild ⟨.policy, [raw.positional, scale.positional, threshold.positional]⟩
    (.ofPolicy .roundRobin) [.ofLiteral (.long 5), .ofLiteral (.long 250), .ofLiteral (.int 3)] rfl
    hconverts
  have hsecond := hreorder ⟨.policy, [raw.positional, scale.positional, threshold.positional]⟩
    ⟨.policy, [threshold.positional, raw.positional, scale.positional]⟩ (.ofPolicy .roundRobin)
    [.ofLiteral (.long 5), .ofLiteral (.long 250), .ofLiteral (.int 3)]
    [.ofLiteral (.int 3), .ofLiteral (.long 5), .ofLiteral (.long 250)] rfl rfl hconverts
    (fun setting => by cases setting <;> rfl)
  exact ⟨hfirst.trans rfl, hsecond.trans (hfirst.trans rfl)⟩

end PositionalConstructor

end DriverPolicy
