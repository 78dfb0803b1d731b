import DriverPolicy.Proofs.Settings.Range
import Mathlib.Data.List.Induction

/-!
# Sessions with layers of settings

In a session layers are applied and configurations built in any order; a build that fails leaves
the layers as they are, and the session goes on. What holds for a setting is what the last layer
says that says something about it, and otherwise what the standard configuration says. A build tells
of the values that hold when it is done, and of no others.
-/

namespace DriverPolicy

/-- What can be done with layers. -/
inductive LayerStep where
  | apply (source : SettingSource) (name : String)
  | build

/-- The layers that steps apply, in order. -/
def LayerStep.applied (steps : List LayerStep) : List (SettingSource × String) :=
  steps.filterMap fun
    | apply source name => some (source, name)
    | build => none

/-- What the last layer says that says something about a setting, with the name of that layer. -/
def lastSaid? (layers : List (SettingSource × String)) (setting : Setting) :
    Option (setting.Value × String) :=
  layers.reverse.findSome? fun layer => (layer.1.value? setting).map (·, layer.2)

/-- The value that holds for a setting under layers. Only the log file can be without one. -/
def effective? (layers : List (SettingSource × String)) (setting : Setting) :
    Option setting.Value :=
  ((lastSaid? layers setting).map Prod.fst).or (Config.standard.value? setting)

/-- One more layer has the last word where it says something. -/
theorem lastSaid?_concat (layers : List (SettingSource × String)) (layer : SettingSource × String)
    (setting : Setting) : lastSaid? (layers ++ [layer]) setting =
      ((layer.1.value? setting).map (·, layer.2)).or (lastSaid? layers setting) := by
  rw [lastSaid?, List.reverse_concat, List.findSome?_cons]
  cases layer.1.value? setting <;> rfl

/-- The value that holds under one more layer. -/
theorem effective?_concat (layers : List (SettingSource × String)) (layer : SettingSource × String)
    (setting : Setting) : effective? (layers ++ [layer]) setting =
      (layer.1.value? setting).or (effective? layers setting) := by
  rw [effective?, lastSaid?_concat, effective?]
  cases layer.1.value? setting <;> rfl

/-- A value that holds and is out of range was said by a layer. -/
theorem exists_lastSaid?_of_not_allows {layers : List (SettingSource × String)}
    {setting : Setting} {value : setting.Value} (h : value ∈ effective? layers setting)
    (hout : ¬ setting.Allows value) : ∃ name, lastSaid? layers setting = some (value, name) := by
  rw [effective?, Option.mem_def, Option.or_eq_some_iff] at h
  rcases h with hsaid | ⟨-, hstandard⟩
  · obtain ⟨⟨_, name⟩, hlast, rfl⟩ := Option.map_eq_some_iff.mp hsaid
    exact ⟨name, hlast⟩
  · exact absurd (Config.allows_standard setting value hstandard) hout

/-- What two layers say together about a setting. -/
theorem SettingSource.value?_above (upper lower : SettingSource) (setting : Setting) :
    (upper.above lower).value? setting = (upper.value? setting).or (lower.value? setting) := by
  cases setting <;> exact Option.orElse_eq_or

/-- A layer sets what it says something about. -/
theorem SettingSource.sets_eq_isSome_value? (source : SettingSource) (setting : Setting) :
    source.sets setting = (source.value? setting).isSome := by
  cases setting <;> rfl

namespace SettingLayers

/-- What layers say with one more over them. -/
theorem value?_apply (layers : SettingLayers) (source : SettingSource) (name : String)
    (setting : Setting) : (layers.apply source name).values.value? setting =
      (source.value? setting).or (layers.values.value? setting) :=
  SettingSource.value?_above source layers.values setting

/-- The sources with one more layer over the others. -/
theorem origin_apply (layers : SettingLayers) (source : SettingSource) (name : String)
    (setting : Setting) : (layers.apply source name).origin setting =
      ((source.value? setting).map fun _ => name).or (layers.origin setting) := by
  simp only [apply, SettingSource.sets_eq_isSome_value?]
  cases source.value? setting <;> rfl

/-- What layers say together holds, and the standard configuration where they say nothing. -/
theorem value?_config (layers : SettingLayers) (setting : Setting) :
    layers.config.value? setting =
      (layers.values.value? setting).or (Config.standard.value? setting) := by
  cases setting with
  | file => exact Option.orElse_eq_or
  | _ => exact (Option.or_some ..).symm

/-- The sources of a setting. -/
theorem mem_sources {layers : SettingLayers} {setting : Setting} {name : String} :
    (setting, name) ∈ layers.sources ↔ layers.origin setting = some name := by
  simp only [sources, List.mem_filterMap, Option.map_eq_some_iff, Prod.mk.injEq]
  constructor
  · rintro ⟨_, -, _, horigin, rfl, rfl⟩
    exact horigin
  · intro horigin
    exact ⟨setting, Setting.byName_sorted.2 setting, name, horigin, rfl, rfl⟩

/-- The sources are listed in the strict order of the settings' names. -/
theorem pairwise_sources (layers : SettingLayers) :
    layers.sources.Pairwise fun a b => a.1.name < b.1.name := by
  rw [sources, List.pairwise_filterMap]
  refine Setting.byName_sorted.1.imp fun {a b} hlt => ?_
  simp only [Option.map_eq_some_iff]
  rintro _ ⟨_, -, rfl⟩ _ ⟨_, -, rfl⟩
  exact hlt

end SettingLayers

/-- Layers and what was built of them, the first build first. -/
structure LayerSession where
  /-- The layers. -/
  layers : SettingLayers
  /-- What the builds led to. -/
  built : List (Except SettingFault Config)

namespace LayerSession

/-- The session after a step. -/
def advance (session : LayerSession) : LayerStep → LayerSession
  | .apply source name => { session with layers := session.layers.apply source name }
  | .build => { session with built := session.built ++ [session.layers.build] }

/-- The session after steps that begin without layers. -/
def after (steps : List LayerStep) : LayerSession := steps.foldl advance ⟨.empty, []⟩

/-- The last step comes after the others. -/
theorem after_concat (steps : List LayerStep) (step : LayerStep) :
    after (steps ++ [step]) = (after steps).advance step :=
  List.foldl_concat ..

/-- Layers and the names of their sources stay in step: both are of the last layer that says
something about a setting. -/
theorem said_after (steps : List LayerStep) (setting : Setting) :
    (after steps).layers.values.value? setting =
        (lastSaid? (LayerStep.applied steps) setting).map Prod.fst ∧
      (after steps).layers.origin setting =
        (lastSaid? (LayerStep.applied steps) setting).map Prod.snd := by
  induction steps using List.reverseRecOn with
  | nil => cases setting <;> exact ⟨rfl, rfl⟩
  | append_singleton steps step ih =>
    obtain ⟨hvalue, horigin⟩ := ih
    rw [after_concat]
    cases step with
    | build => simpa [advance, LayerStep.applied] using ⟨hvalue, horigin⟩
    | apply source name =>
      have happlied : LayerStep.applied (steps ++ [.apply source name]) =
          LayerStep.applied steps ++ [(source, name)] := by simp [LayerStep.applied]
      rw [happlied, lastSaid?_concat]
      rw [advance, SettingLayers.value?_apply, SettingLayers.origin_apply, hvalue, horigin]
      cases source.value? setting <;> exact ⟨rfl, rfl⟩

/-- The unchecked configuration has the values that hold. -/
theorem value?_config_after (steps : List LayerStep) (setting : Setting) :
    (after steps).layers.config.value? setting = effective? (LayerStep.applied steps) setting := by
  rw [SettingLayers.value?_config, (said_after steps setting).1, effective?]

/-- A build tells of the values that hold: it succeeds with them if all are in range, and otherwise
fails for one that is not. -/
theorem build_after_cases (steps : List LayerStep) :
    (∃ config, (after steps).layers.build = .ok config ∧
      (∀ setting, config.value? setting = effective? (LayerStep.applied steps) setting) ∧
      ∀ setting, ∀ value ∈ effective? (LayerStep.applied steps) setting, setting.Allows value) ∨
    ∃ (setting : Setting), ∃ value ∈ effective? (LayerStep.applied steps) setting,
      ¬ setting.Allows value ∧
      ∃ fault ∈ setting.faultOf? value, (after steps).layers.build = .error fault := by
  have h := Config.checked_cases (after steps).layers.config
  simp only [value?_config_after] at h
  exact h.imp_left fun ⟨hbuild, hrange⟩ => ⟨_, hbuild, value?_config_after steps, hrange⟩

/-- What is built of the same layers is the same. -/
theorem build_after_congr {steps others : List LayerStep}
    (h : LayerStep.applied others = LayerStep.applied steps) :
    (after others).layers.build = (after steps).layers.build := by
  have hconfig : (after others).layers.config = (after steps).layers.config :=
    Config.eq_of_value? fun setting => by rw [value?_config_after, value?_config_after, h]
  rw [SettingLayers.build, SettingLayers.build, hconfig]

/-- What a build leads to comes after what was built before. -/
theorem built_after_build (steps : List LayerStep) : (after (steps ++ [.build])).built =
    (after steps).built ++ [(after steps).layers.build] := by
  rw [after_concat, advance]

/-- The sources name the last layer that says something about a setting. -/
theorem mem_sources_after {steps : List LayerStep} {setting : Setting} {name : String} :
    (setting, name) ∈ (after steps).layers.sources ↔
      ∃ value, lastSaid? (LayerStep.applied steps) setting = some (value, name) := by
  rw [SettingLayers.mem_sources, (said_after steps setting).2]
  simp [Option.map_eq_some_iff]

/-- A layer that takes back what is out of range makes the next build succeed, also after one that
failed. -/
theorem build_after_repair {steps : List LayerStep} {repair : SettingSource} {name : String}
    (h : ∀ setting, ∀ value ∈ (repair.value? setting).or
      (effective? (LayerStep.applied steps) setting), setting.Allows value) :
    ∃ config, (after (steps ++ [.build, .apply repair name, .build])).built.getLast? =
        some (.ok config) ∧
      ∀ setting, config.value? setting =
        (repair.value? setting).or (effective? (LayerStep.applied steps) setting) := by
  have hsteps : steps ++ [.build, .apply repair name, .build] =
      (steps ++ [.build, .apply repair name]) ++ [.build] := by simp
  have happlied : LayerStep.applied (steps ++ [.build, .apply repair name]) =
      LayerStep.applied steps ++ [(repair, name)] := by simp [LayerStep.applied]
  rw [hsteps, built_after_build, List.getLast?_concat]
  have hcases := build_after_cases (steps ++ [.build, .apply repair name])
  simp only [happlied, effective?_concat] at hcases
  rcases hcases with ⟨config, hconfig, hvalues, -⟩ | ⟨setting, value, hvalue, hout, -⟩
  · exact ⟨config, by rw [hconfig], hvalues⟩
  · exact absurd (h setting value hvalue) hout

/-- What was built stays where it is. -/
theorem built_prefix_after (steps more : List LayerStep) :
    (after steps).built <+: (after (steps ++ more)).built := by
  induction more using List.reverseRecOn with
  | nil => simp
  | append_singleton more step ih =>
    rw [← List.append_assoc, after_concat]
    cases step with
    | apply source name => exact ih
    | build => exact ih.trans (List.prefix_append _ _)

/-- In a session with layers, the sources tell of each setting that a layer says something about,
once and with the name of the last such layer. A build depends on the layers applied before it
alone, and leaves them as they are: it succeeds if and only if each value that holds is in range,
its configuration has these values, and if it fails it tells of one that is out of range and that
was said by a layer. So it does not matter what a layer says that a later one takes back, and a
layer that takes back what is out of range makes the next build succeed, whether or not one failed
before. -/
theorem layer_session (steps : List LayerStep) :
    (∀ setting name, (setting, name) ∈ (after steps).layers.sources ↔
      ∃ value, lastSaid? (LayerStep.applied steps) setting = some (value, name)) ∧
    ((after steps).layers.sources.Pairwise fun a b => a.1.name < b.1.name) ∧
    (∃ result, (after (steps ++ [.build])).built = (after steps).built ++ [result] ∧
      ((∃ config, result = .ok config) ↔
        ∀ setting, ∀ value ∈ effective? (LayerStep.applied steps) setting, setting.Allows value) ∧
      (∀ config, result = .ok config →
        ∀ setting, config.value? setting = effective? (LayerStep.applied steps) setting) ∧
      ∀ fault, result = .error fault → ∃ setting value name,
        lastSaid? (LayerStep.applied steps) setting = some (value, name) ∧
          ¬ setting.Allows value ∧ setting.faultOf? value = some fault) ∧
    (after (steps ++ [.build])).layers = (after steps).layers ∧
    (∀ others, LayerStep.applied others = LayerStep.applied steps →
      (after (others ++ [.build])).built.getLast? = (after (steps ++ [.build])).built.getLast?) ∧
    (∀ more, (after steps).built <+: (after (steps ++ more)).built) ∧
    ∀ (repair : SettingSource) (name : String),
      (∀ setting, ∀ value ∈ (repair.value? setting).or
        (effective? (LayerStep.applied steps) setting), setting.Allows value) →
      ∃ config, (after (steps ++ [.build, .apply repair name, .build])).built.getLast? =
          some (.ok config) ∧
        ∀ setting, config.value? setting =
          (repair.value? setting).or (effective? (LayerStep.applied steps) setting) := by
  refine ⟨fun setting name => mem_sources_after, SettingLayers.pairwise_sources _,
    ⟨_, built_after_build steps, ?_⟩, ?_, fun others h => ?_, built_prefix_after steps,
    fun repair name => build_after_repair⟩
  · rcases build_after_cases steps with
      ⟨config, hconfig, hvalues, hrange⟩ | ⟨setting, value, hvalue, hout, fault, hfault, herror⟩
    · rw [hconfig]
      refine ⟨iff_of_true ⟨config, rfl⟩ hrange, ?_, ?_⟩
      · rintro _ ⟨⟩
        exact hvalues
      · rintro _ ⟨⟩
    · rw [herror]
      refine ⟨iff_of_false ?_ fun h => hout (h setting value hvalue), ?_, ?_⟩
      · rintro ⟨_, ⟨⟩⟩
      · rintro _ ⟨⟩
      · rintro _ ⟨⟩
        obtain ⟨name, hsaid⟩ := exists_lastSaid?_of_not_allows hvalue hout
        exact ⟨setting, value, name, hsaid, hout, hfault⟩
  · rw [after_concat, advance]
  · rw [built_after_build, built_after_build, List.getLast?_concat, List.getLast?_concat,
      build_after_congr h]

/-- An unknown level in the file makes a build fail, until the command line takes it back. What else
the file says still holds. -/
theorem layer_session_unknown_level :
    let file : SettingSource := { SettingSource.empty with level := "loud", maxBytes := some 0 }
    let command : SettingSource := { SettingSource.empty with level := "debug" }
    (after [.apply file "file", .build]).built = [.error (.unknownLevel "loud")] ∧
      ∃ config, (after [.apply file "file", .build, .apply command "command line",
          .build]).built.getLast? = some (.ok config) ∧
        config.value? .level = some "debug" ∧ config.value? .maxBytes = some 0 := by
  intro file command
  obtain ⟨config, hbuilt, hvalue⟩ :=
    (layer_session [.apply file "file"]).2.2.2.2.2.2 command "command line"
      (by intro setting; cases setting <;> decide)
  exact ⟨by decide, config, hbuilt, hvalue .level, hvalue .maxBytes⟩

end LayerSession

end DriverPolicy
