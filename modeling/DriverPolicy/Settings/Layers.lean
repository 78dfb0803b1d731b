import DriverPolicy.Settings.Config
import DriverPolicy.Settings.Source

/-!
# Layers of settings

Sources are laid over each other; for each setting the last one that says something wins, and
the name of that source is remembered. What no source says is as in the standard
configuration. Values are checked when the configuration is built, and not before.
-/

namespace DriverPolicy

/-- Sources laid over each other. -/
structure SettingLayers where
  /-- What the sources say together. -/
  values : SettingSource
  /-- The source that was the last to say something about a setting. -/
  origin : Setting → Option String

namespace SettingLayers

/-- No sources. -/
def empty : SettingLayers := ⟨.empty, fun _ => none⟩

/-- Lay a source with a name over the others. -/
def apply (layers : SettingLayers) (source : SettingSource) (name : String) : SettingLayers where
  values := source.above layers.values
  origin setting := if source.sets setting then some name else layers.origin setting

/-- The settings that some source says something about, with the source of each, in the order
of their names. -/
def sources (layers : SettingLayers) : List (Setting × String) :=
  Setting.byName.filterMap fun setting => (layers.origin setting).map (setting, ·)

/-- What holds, unchecked. -/
def config (layers : SettingLayers) : Config where
  logging := {
    level := layers.values.level.getD LoggingConfig.standard.level
    file := layers.values.file <|> LoggingConfig.standard.file
    format := layers.values.format.getD LoggingConfig.standard.format
    includeStderr := layers.values.includeStderr.getD LoggingConfig.standard.includeStderr
    maxBytes := layers.values.maxBytes.getD LoggingConfig.standard.maxBytes
    backupCount := layers.values.backupCount.getD LoggingConfig.standard.backupCount }
  namespaceName := layers.values.defaultNamespace.getD defaultNamespace

/-- The configuration, if all its values are in range. -/
def build (layers : SettingLayers) : Except SettingFault Config := layers.config.checked

end SettingLayers

end DriverPolicy
