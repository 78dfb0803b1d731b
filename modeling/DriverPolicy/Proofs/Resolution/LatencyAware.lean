import DriverPolicy.Proofs.Policy.LatencyRules
import DriverPolicy.Proofs.Resolution.Refusal

/-!
# How latency-aware policies come into being

A latency-aware policy comes into being in three ways: by a call of its class, by a build of a
policy in the making, or by a construction in the course of resolving an expression. All of them end
in the one check of child and settings, and what it does not admit is refused for the range or the
type of a value. So whatever comes into being keeps the rules, but for a threshold that is not a
number. No literal is such a value, so resolving never comes to such a policy.
-/

namespace DriverPolicy

/-- Some work refuses nothing but values that are out of range or of a wrong type. -/
abbrev OnlyRangeOrType {α : Type} (result : Except Refusal α) : Prop :=
  FailsOnly (fun refusal => refusal.kind? ≠ none) result

/-- Work that refuses only values out of range refuses none but those and values of a wrong type. -/
theorem OnlyRange.orType {α : Type} {result : Except Refusal α} (h : OnlyRange result) :
    OnlyRangeOrType result :=
  h.mono fun _ hkind hnone => nomatch hkind.symm.trans hnone

/-- A child is refused for its type. -/
theorem Policy.onlyRangeOrType_requireChild (owner : String) (wanted : Family) (value : Value) :
    OnlyRangeOrType (requireChild owner wanted value) := by
  cases value with
  | policy child => exact .ite (.ok _) (.error (Option.some_ne_none _))
  | _ => exact .error (Option.some_ne_none _)

/-- A latency-aware policy is refused for the range or the type of a value. -/
theorem Policy.onlyRangeOrType_newLatencyAware (child : Value) (settings : LatencySettings) :
    OnlyRangeOrType (newLatencyAware child settings) := by
  refine .bind (onlyRangeOrType_requireChild _ _ _) fun inner => ?_
  exact OnlyRange.orType <| .ite (.error rfl) <| .ite (.error rfl) <| .ite (.error rfl) <|
    .ite (.error rfl) <| .ite (.error rfl) (.ok _)

/-- A setting is refused a value of a wrong type. -/
theorem LatencyBuilder.onlyRangeOrType_assign (builder : LatencyBuilder) (setting : LatencySetting)
    (value : Value) : OnlyRangeOrType (builder.assign setting value) := by
  unfold assign
  split
  · exact .ok _
  · exact .error (Option.some_ne_none _)

namespace PolicyClass

/-- Settings are refused values of a wrong type and more values than there are settings. -/
theorem onlyRangeOrType_assignInOrder (builder : LatencyBuilder) (settings : List LatencySetting)
    (values : List Value) : OnlyRangeOrType (assignInOrder builder settings values) := by
  induction values generalizing builder settings with
  | nil =>
    rw [assignInOrder]
    exact .ok _
  | cons value values ih =>
    cases settings with
    | nil => exact .error (Option.some_ne_none _)
    | cons setting settings =>
      exact .bind (builder.onlyRangeOrType_assign setting value) fun next => ih next settings

/-- A class refuses nothing but values that are out of range or of a wrong type. -/
theorem onlyRangeOrType_construct (c : PolicyClass) (values : List Value) :
    OnlyRangeOrType (c.construct values) := by
  fun_cases construct c values
  case case1 | case9 | case10 | case11 => exact .ok _
  case case2 | case3 | case4 | case5 | case6 =>
    exact (Policy.onlyRange_newDataCenterAware _ _).orType
  case case7 | case12 =>
    exact fun refusal h =>
      Policy.onlyRangeOrType_requireChild _ _ _ refusal (map_eq_error_iff.mp h)
  case case8 given values =>
    exact .bind (onlyRangeOrType_assignInOrder _ _ _) fun builder =>
      Policy.onlyRangeOrType_newLatencyAware _ _
  case case13 => exact (Policy.onlyRange_newConstant _).orType
  case case14 => exact (Policy.onlyRange_newExponential _ _).orType
  case case15 => exact .error (Option.some_ne_none _)

/-- A class that gives a latency-aware policy builds it of a policy in the making, whose threshold is
a number if no value is given that is not a number. -/
theorem exists_builder_of_construct {c : PolicyClass} {values : List Value}
    {child : Policy} {settings : LatencySettings} :
    c.construct values = .ok (.latencyAware child settings) → ∃ builder : LatencyBuilder,
      builder.build = .ok (.latencyAware child settings) ∧
        ((∀ value ∈ values, value ≠ .number .notANumber) → builder.HasNumber) := by
  fun_cases construct c values <;> intro h
  case case8 given values =>
    obtain ⟨builder, hassign, hbuild⟩ := bind_eq_ok_iff.mp h
    refine ⟨builder, hbuild, fun hvalues => ?_⟩
    exact (LatencyBuilder.hasNumber_start given).assignInOrder
      (fun value hmem => hvalues value (List.mem_cons_of_mem _ hmem)) hassign
  -- all other classes give policies of other shapes
  case case1 | case9 | case10 | case11 => cases h
  case case2 | case3 | case4 | case5 | case6 =>
    obtain ⟨-, -, hother⟩ := Policy.newDataCenterAware_eq_ok_iff.mp h
    contradiction
  case case7 =>
    obtain ⟨inner, -, -, hother⟩ := Policy.newTokenAware_eq_ok_iff.mp h
    contradiction
  case case12 =>
    obtain ⟨inner, -, -, hother⟩ := Policy.newLoggingRetry_eq_ok_iff.mp h
    contradiction
  case case13 =>
    obtain ⟨-, hother⟩ := Policy.newConstant_eq_ok_iff.mp h
    contradiction
  case case14 =>
    obtain ⟨-, -, hother⟩ := Policy.newExponential_eq_ok_iff.mp h
    contradiction
  case case15 => contradiction

end PolicyClass

/-- Whether a fault of a construction is a refusal for range or type, or an overflow. -/
def ConstructionFault.IsRangeOrType : ConstructionFault → Prop
  | refused refusal => refusal.kind? ≠ none
  | overflow _ => True

/-- A refusal for range or type is one as a fault of a construction, too. -/
theorem OnlyRangeOrType.mapError {α : Type} {result : Except Refusal α}
    (h : OnlyRangeOrType result) :
    FailsOnly ConstructionFault.IsRangeOrType (result.mapError .refused) :=
  FailsOnly.mapError h

namespace LatencyDraft

/-- Whether no value of a draft is one that is not a number. -/
def HasNumbers (draft : LatencyDraft) : Prop := ∀ setting, draft.value setting ≠ .number .notANumber

/-- A draft starts with numbers. -/
theorem hasNumbers_start (child : Value) : (start child).HasNumbers := by
  intro setting
  cases setting with
  | threshold =>
    intro h
    exact LatencyBuilder.hasNumber_start child (congrArg Amount.real (Value.number.inj h))
  | _ => exact nofun

/-- It keeps them if no value is given that is not a number. -/
theorem HasNumbers.give {draft : LatencyDraft} (h : draft.HasNumbers) (setting : LatencySetting)
    {value : Value} (hvalue : value ≠ .number .notANumber) : (draft.give setting value).HasNumbers := by
  intro other
  rw [LatencyDraft.give]
  dsimp only
  split
  · exact hvalue
  · exact h other

end LatencyDraft

namespace SettingStep

variable {step : SettingStep} {value : Value}

/-- A step makes no value that is not a number. -/
theorem convert_ne_notANumber {converted : Value} (hvalue : value ≠ .number .notANumber)
    (h : step.convert value = .ok converted) : converted ≠ .number .notANumber := by
  unfold convert at h
  split at h
  · split at h
    · split at h
      · exact Except.ok.inj h ▸ nofun
      · contradiction
    · contradiction
  · exact Except.ok.inj h ▸ hvalue

/-- A step refuses values for their range or type. -/
theorem failsOnly_convert (step : SettingStep) (value : Value) :
    FailsOnly ConstructionFault.IsRangeOrType (step.convert value) := by
  unfold convert
  split
  · split
    · split
      · exact .ok _
      · exact .error trivial
    · exact .error (Option.some_ne_none _)
  · exact .ok _

end SettingStep

namespace Constructor

variable {draft after : LatencyDraft} {steps : List SettingStep} {values : List Value}

/-- Steps keep the child and the numbers of a draft. -/
theorem hasNumbers_giveAll (hdraft : draft.HasNumbers)
    (hvalues : ∀ value ∈ values, value ≠ .number .notANumber)
    (h : PositionalConstructor.giveAll draft (steps.map SettingStep.positional) values = .ok after) :
    after.child = draft.child ∧ after.HasNumbers := by
  induction steps generalizing draft values with
  | nil =>
    cases values with
    | nil => exact Except.ok.inj h ▸ ⟨rfl, hdraft⟩
    | cons value values => contradiction
  | cons step steps ih =>
    cases values with
    | nil => contradiction
    | cons value values =>
      obtain ⟨converted, hconvert, h⟩ := bind_eq_ok_iff.mp h
      have hnumber := step.convert_ne_notANumber (hvalues value List.mem_cons_self) hconvert
      have hrest := ih (hdraft.give step.setting hnumber)
        (fun value hmem => hvalues value (List.mem_cons_of_mem _ hmem)) h
      exact hrest

/-- Steps refuse values for their range or type, and a wrong number of them. -/
theorem failsOnly_giveAll (draft : LatencyDraft) (steps : List SettingStep) (values : List Value) :
    FailsOnly ConstructionFault.IsRangeOrType
      (PositionalConstructor.giveAll draft (steps.map SettingStep.positional) values) := by
  induction steps generalizing draft values with
  | nil =>
    cases values with
    | nil => exact .ok _
    | cons value values => exact .error (Option.some_ne_none _)
  | cons step steps ih =>
    cases values with
    | nil => exact .error (Option.some_ne_none _)
    | cons value values => exact .bind (step.failsOnly_convert value) fun converted => ih _ values

/-- Whether a constructor calls a class or goes step by step, and does nothing else. -/
def IsRegular (constructor : Constructor) : Prop :=
  (∃ c signature, constructor = .ofClass c signature) ∨
    ∃ first steps, constructor = .stepwise first steps

variable {constructor : Constructor}

/-- A regular constructor builds a latency-aware policy of a policy in the making, whose threshold
is a number if no value is given that is not a number. -/
theorem IsRegular.exists_builder (h : constructor.IsRegular) {child : Policy}
    {settings : LatencySettings}
    (hbuild : constructor.build values = .ok (.latencyAware child settings)) :
    ∃ builder : LatencyBuilder, builder.build = .ok (.latencyAware child settings) ∧
      ((∀ value ∈ values, value ≠ .number .notANumber) → builder.HasNumber) := by
  rcases h with ⟨c, signature, rfl⟩ | ⟨first, steps, rfl⟩
  · exact PolicyClass.exists_builder_of_construct (mapError_eq_ok_iff.mp hbuild)
  · cases values with
    | nil => contradiction
    | cons given values =>
      obtain ⟨draft, hsteps, hdraft⟩ := bind_eq_ok_iff.mp hbuild
      obtain ⟨builder, hbuilder, hnumber⟩ :=
        PolicyClass.exists_builder_of_construct (mapError_eq_ok_iff.mp hdraft)
      refine ⟨builder, hbuilder, fun hvalues => hnumber ?_⟩
      rw [List.forall_mem_cons] at hvalues
      obtain ⟨hchild, hnumbers⟩ :=
        hasNumbers_giveAll (LatencyDraft.hasNumbers_start given) hvalues.2 hsteps
      rw [List.forall_mem_cons, List.forall_mem_map, hchild]
      exact ⟨hvalues.1, fun setting _ => hnumbers setting⟩

/-- A regular constructor refuses values for their range or type. -/
theorem IsRegular.failsOnly_build (h : constructor.IsRegular) (values : List Value) :
    FailsOnly ConstructionFault.IsRangeOrType (constructor.build values) := by
  rcases h with ⟨c, signature, rfl⟩ | ⟨first, steps, rfl⟩
  · exact (c.onlyRangeOrType_construct values).mapError
  · cases values with
    | nil => exact .error (Option.some_ne_none _)
    | cons given values =>
      exact .bind (failsOnly_giveAll _ _ _) fun draft =>
        (PolicyClass.latencyAware.onlyRangeOrType_construct _).mapError

end Constructor

/-- Whether all constructors of a type are regular. -/
def PolicyType.IsRegular (type : PolicyType) : Prop :=
  ∀ constructor ∈ type.constructors, constructor.IsRegular

/-- The built-in types are regular. -/
theorem PolicyType.isRegular_builtinType (home : String) (c : PolicyClass) :
    (c.builtinType home).IsRegular := by
  intro constructor hmem
  rcases PolicyClass.mem_constructors_cases hmem with ⟨signature, rfl⟩ | ⟨-, hstepwise⟩
  · exact Or.inl ⟨c, signature, rfl⟩
  · exact Or.inr hstepwise

/-- Each of some arguments is sound if all are. -/
theorem Argument.isSound_of_mem {arguments : List Argument} (h : AllSound arguments)
    {argument : Argument} (hmem : argument ∈ arguments) : argument.IsSound := by
  induction arguments with
  | nil => contradiction
  | cons first rest ih =>
    rcases List.mem_cons.mp hmem with rfl | hmem
    · exact h.1
    · exact ih h.2 hmem

namespace Resolver

variable {resolver : Resolver}

/-- A sound argument has no value that is not a number. -/
theorem ne_notANumber_of_valueGiven {argument : Argument} (hsound : argument.IsSound)
    {value : TypedValue} (h : resolver.valueGiven argument = .ok value) :
    value.value ≠ .number .notANumber := by
  cases argument with
  | literal literal =>
    obtain rfl := Except.ok.inj h
    rintro hvalue
    cases literal with
    | float x | double x =>
      obtain rfl := Value.number.inj hvalue
      contradiction
    | _ => contradiction
  | call name arguments =>
    rw [valueGiven] at h
    obtain ⟨type, -, h⟩ := bind_eq_ok_iff.mp h
    obtain ⟨values, -, h⟩ := bind_eq_ok_iff.mp h
    obtain ⟨policy, -, h⟩ := bind_eq_ok_iff.mp h
    obtain rfl := Except.ok.inj h
    exact nofun

/-- Neither have sound arguments. -/
theorem ne_notANumber_of_valuesGiven {arguments : List Argument} {values : List TypedValue}
    (hsound : Argument.AllSound arguments)
    (h : List.Forall₂ (fun argument value => resolver.valueGiven argument = .ok value) arguments
      values) : ∀ value ∈ values, value.value ≠ .number .notANumber := by
  induction h with
  | nil => exact nofun
  | cons hvalue _ ih =>
    intro value hmem
    rcases List.mem_cons.mp hmem with rfl | hmem
    · exact ne_notANumber_of_valueGiven hsound.1 hvalue
    · exact ih hsound.2 value hmem

/-- In a sound tree no construction is reached with a value that is not a number. -/
theorem Reaches.ne_notANumber {type : PolicyType} {values : List TypedValue} {call : Call}
    (h : Reaches resolver type values call) (hsound : call.IsSound) :
    ∀ value ∈ values, value.value ≠ .number .notANumber := by
  induction h with
  | here htype hvalues =>
    exact ne_notANumber_of_valuesGiven hsound.2 (valuesGiven_eq_ok_iff.mp hvalues)
  | @inside call child outer before after read houter harguments hbefore h ih =>
    have hmem : child.toArgument ∈ call.arguments := by simp [harguments]
    exact ih (Argument.isSound_of_mem hsound.2 hmem)

/-- A policy is constructed in the course of resolving an expression, as the policy of the
expression or inside it, by a type whose constructors are regular. -/
inductive Makes (resolver : Resolver) (expression : String) (policy : Policy) : Prop
  | intro {call : Call} {type : PolicyType} {values : List TypedValue}
      (hfamily : resolver.family ≠ .retry) (hread : resolver.read expression = .ok call)
      (hreach : Reaches resolver type values call) (hregular : type.IsRegular)
      (hconstruct : type.construct values = .ok policy)

variable {expression : String}

/-- The policy of an expression is constructed if it is not handed out. -/
theorem makes_of_policyOf (hfamily : resolver.family ≠ .retry)
    (hregular : ∀ type ∈ resolver.registry.entries, type.IsRegular) {policy : Policy}
    (h : resolver.policyOf expression = .ok policy) : resolver.Makes expression policy := by
  cases hread : resolver.read expression with
  | error fault =>
    rw [policyOf_eq, hread] at h
    contradiction
  | ok call =>
    rw [policyOf_of_read hread, policyGiven] at h
    obtain ⟨type, htype, h⟩ := bind_eq_ok_iff.mp h
    rw [if_neg hfamily] at h
    obtain ⟨values, hvalues, hconstruct⟩ := bind_eq_ok_iff.mp h
    exact ⟨hfamily, hread, .here htype hvalues, hregular type (mem_entries_of_typeOf htype).1,
      hconstruct⟩

/-- A latency-aware policy that is constructed in the course of resolving is built of a policy in
the making whose threshold is a number. -/
theorem Makes.exists_builder {child : Policy} {settings : LatencySettings}
    (h : resolver.Makes expression (.latencyAware child settings)) : ∃ builder : LatencyBuilder,
      builder.build = .ok (.latencyAware child settings) ∧ builder.HasNumber := by
  obtain ⟨hfamily, hread, hreach, hregular, hconstruct⟩ := h
  obtain ⟨constructor, hmem, -, hbuild⟩ := PolicyType.construct_eq_ok_iff.mp hconstruct
  obtain ⟨builder, hbuilder, hnumber⟩ := (hregular constructor hmem).exists_builder hbuild
  refine ⟨builder, hbuilder, hnumber fun value hvalue => ?_⟩
  rw [read, if_neg hfamily] at hread
  obtain ⟨typed, htyped, rfl⟩ := List.mem_map.mp hvalue
  exact hreach.ne_notANumber (Call.isSound_of_parse hread) typed htyped

end Resolver

/-- A latency-aware policy comes into being. -/
inductive LatencyArises (child : Policy) (settings : LatencySettings) : Prop
  | called {values : List Value}
      (h : PolicyClass.latencyAware.construct values = .ok (.latencyAware child settings))
  | built {given : Value} {steps : List LatencyStep}
      (h : .ok (.latencyAware child settings) ∈ (LatencySession.after given steps).built)
  | resolved {resolver : Resolver} {expression : String}
      (h : resolver.Makes expression (.latencyAware child settings))

/-- What an attempt to make a latency-aware policy of a child and settings comes to: the policy, if
there can be one, and otherwise a refusal for the range or the type of a value. -/
inductive LatencyOutcome (given : Value) (settings : LatencySettings) :
    Except Refusal Policy → Prop
  | arises {child : Policy} (hgiven : given = .policy child)
      (h : LatencyArises child settings) :
      LatencyOutcome given settings (.ok (.latencyAware child settings))
  | refused {refusal : Refusal}
      (hnone : ∀ child, given = .policy child → ¬LatencyArises child settings)
      (hkind : refusal.kind? ≠ none) : LatencyOutcome given settings (.error refusal)

/-- Latency-aware policies come into being exactly as the check admits them. -/
theorem latencyArises_iff_admissible {child : Policy} {settings : LatencySettings} :
    LatencyArises child settings ↔ child.suits .loadBalancing ∧ settings.Admissible := by
  constructor
  · intro h
    cases h with
    | called h =>
      obtain ⟨builder, hbuilder, -⟩ := PolicyClass.exists_builder_of_construct h
      exact (LatencyBuilder.build_eq_latencyAware_iff.mp hbuilder).2.2
    | @built given steps h =>
      obtain ⟨collected, hbuilt⟩ := LatencySession.exists_of_mem_built h
      have hbuilder : LatencyBuilder.build ⟨given, collected⟩ =
          .ok (.latencyAware child settings) := hbuilt.symm
      exact (LatencyBuilder.build_eq_latencyAware_iff.mp hbuilder).2.2
    | resolved h =>
      obtain ⟨builder, hbuilder, -⟩ := h.exists_builder
      exact (LatencyBuilder.build_eq_latencyAware_iff.mp hbuilder).2.2
  · rintro ⟨hsuits, hsettings⟩
    have hcall := PolicyClass.construct_latencyAware (.policy child)
      (List.append_nil LatencySetting.all).symm settings.content
    simp only [LatencySetting.mem_all, ↓reduceIte, LatencySettings.ofContent_content] at hcall
    exact .called (hcall.trans (Policy.newLatencyAware_eq_ok_iff.mpr
      ⟨child, rfl, hsuits, hsettings, rfl⟩))

/-- An attempt comes to the policy that the check admits or to its refusal. -/
theorem latencyOutcome_newLatencyAware (given : Value) (settings : LatencySettings) :
    LatencyOutcome given settings (Policy.newLatencyAware given settings) := by
  cases hresult : Policy.newLatencyAware given settings with
  | ok policy =>
    obtain ⟨child, hgiven, hsuits, hsettings, rfl⟩ := Policy.newLatencyAware_eq_ok_iff.mp hresult
    exact .arises hgiven (latencyArises_iff_admissible.mpr ⟨hsuits, hsettings⟩)
  | error refusal =>
    refine .refused ?_ (Policy.onlyRangeOrType_newLatencyAware given settings refusal hresult)
    rintro child rfl h
    obtain ⟨hsuits, hsettings⟩ := latencyArises_iff_admissible.mp h
    have haccepted := Policy.newLatencyAware_eq_ok_iff.mpr ⟨child, rfl, hsuits, hsettings, rfl⟩
    exact nomatch hresult.symm.trans haccepted

/-- A latency-aware policy with a threshold that is a number comes into being if and only if it
keeps the rules. The check lets a threshold that is not a number through, and then the policy comes
into being if it keeps the other rules. No such policy is constructed in the course of resolving, be
it the policy of an expression or one inside it, by types whose constructors call classes or go step
by step, as all built-in types do. A call of the class and a build lead to the policy with the given
values if it can come into being, and otherwise to a refusal for the range or the type of a value. A
call with any other values and a construction by such a type are refused for nothing else either. -/
theorem latencyArises_iff (child : Policy) (settings : LatencySettings) :
    (settings.threshold ≠ .real .notANumber →
      (LatencyArises child settings ↔ LatencyRules child settings)) ∧
    (settings.threshold = .real .notANumber →
      (LatencyArises child settings ↔
        LatencyRules child { settings with threshold := .whole 1 })) ∧
    (∀ (resolver : Resolver) (expression : String),
      resolver.Makes expression (.latencyAware child settings) → LatencyRules child settings) ∧
    (∀ (resolver : Resolver) (expression : String) (policy : Policy), resolver.family ≠ .retry →
      (∀ type ∈ resolver.registry.entries, type.IsRegular) →
        resolver.policyOf expression = .ok policy → resolver.Makes expression policy) ∧
    (∀ (home : String) (c : PolicyClass), (c.builtinType home).IsRegular) ∧
    (∀ (given : Value) (first rest : List LatencySetting)
        (content : (setting : LatencySetting) → setting.Content),
      LatencySetting.all = first ++ rest → LatencyOutcome given
        (.ofContent fun setting =>
          if setting ∈ first then content setting else LatencySettings.standard.content setting)
        (PolicyClass.latencyAware.construct
          (given :: first.map fun setting => setting.asValue (content setting)))) ∧
    (∀ (given : Value) (steps : List LatencyStep), ∃ result,
      (LatencySession.after given (steps ++ [.build])).built =
          (LatencySession.after given steps).built ++ [result] ∧
        LatencyOutcome given (.ofContent (LatencyStep.effective steps)) result) ∧
    (∀ values refusal, PolicyClass.latencyAware.construct values = .error refusal →
      refusal.kind? ≠ none) ∧
    ∀ (type : PolicyType) (values : List TypedValue) (refusal : Refusal), type.IsRegular →
      type.Refuses values refusal → refusal.kind? ≠ none := by
  refine ⟨fun hnumber => ?_, fun hnot => ?_, fun resolver expression h => ?_,
    fun resolver expression policy hfamily hregular =>
      Resolver.makes_of_policyOf hfamily hregular,
    PolicyType.isRegular_builtinType,
    fun given first rest content hall => ?_,
    fun given steps => ⟨_, LatencySession.built_after_build given steps,
      latencyOutcome_newLatencyAware given _⟩,
    PolicyClass.onlyRangeOrType_construct .latencyAware, fun type values refusal hregular h => ?_⟩
  · rw [latencyArises_iff_admissible, latencyRules_iff_of_number hnumber]
  · rw [latencyArises_iff_admissible, latencyRules_iff_of_not_number hnot]
  · obtain ⟨builder, hbuilder, hnumber⟩ := h.exists_builder
    obtain ⟨-, rfl, hadmitted⟩ := LatencyBuilder.build_eq_latencyAware_iff.mp hbuilder
    exact (latencyRules_iff_of_number hnumber).mpr hadmitted
  · rw [PolicyClass.construct_latencyAware given hall]
    exact latencyOutcome_newLatencyAware given _
  · obtain ⟨constructor, hfind, hbuild⟩ := h
    obtain ⟨hmem, -⟩ := PolicyType.find?_eq_some_iff.mp hfind
    exact (hregular constructor hmem).failsOnly_build _ _ hbuild

/-- An infinite threshold keeps the rules in a policy that was built step by step. -/
theorem latencyArises_infinite_threshold :
    LatencyRules .roundRobin
      { LatencySettings.standard with threshold := .real (.infinite false) } := by
  have hbuilt : (LatencySession.after (.policy .roundRobin)
      [.give .threshold (.real (.infinite false)), .build]).built = [.ok (.latencyAware .roundRobin
        { LatencySettings.standard with threshold := .real (.infinite false) })] := rfl
  have harises : LatencyArises .roundRobin
      { LatencySettings.standard with threshold := .real (.infinite false) } :=
    .built (hbuilt ▸ List.mem_singleton_self _)
  exact ((latencyArises_iff _ _).1 (by simp)).mp harises

/-- A call of the class with a threshold that is not a number is not refused, and the policy breaks
the rule for the threshold. -/
theorem construct_threshold_not_a_number :
    PolicyClass.latencyAware.construct [.policy .roundRobin, .number .notANumber] =
      .ok (.latencyAware .roundRobin
        { LatencySettings.standard with threshold := .real .notANumber }) ∧
    ¬LatencyRules .roundRobin { LatencySettings.standard with threshold := .real .notANumber } :=
  ⟨rfl, fun h => h.threshold⟩

end DriverPolicy
