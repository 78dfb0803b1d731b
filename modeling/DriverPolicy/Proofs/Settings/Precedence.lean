import DriverPolicy.Proofs.Settings.Documented
import DriverPolicy.Proofs.Settings.Layering
import DriverPolicy.Proofs.Settings.Request

/-!
# Which value prevails

A setting has the value that the caller gives it, else the one of its variable, else the one of its
key in the configuration file, else the standard one. Only the values that prevail are checked. So a
value in a lower layer makes no difference where a higher layer has one, not even if it is out of
range: requests under which the same values prevail have the same answer.
-/

namespace DriverPolicy

namespace Setting

/-- The variable of a setting, after how the names of settings begin. -/
def variableName : Setting → String
  | defaultNamespace => "DEFAULT_NAMESPACE"
  | level => "LOG_LEVEL"
  | file => "LOG_FILE"
  | format => "LOG_FORMAT"
  | includeStderr => "LOG_INCLUDE_STDERR"
  | maxBytes => "LOG_MAX_BYTES"
  | backupCount => "LOG_BACKUP_COUNT"

/-- The truth value that a word means, in any case of letters. -/
def truthOf? (text : String) : Option Bool :=
  if lowered text ∈ Environment.trueWords then some true
  else if lowered text ∈ Environment.falseWords then some false
  else none

/-- The value of a setting that a text is converted to, if it can be. -/
def ofText? : (setting : Setting) → String → Option setting.Value
  | defaultNamespace, text => some text
  | level, text => some text
  | file, text => some (.parse text)
  | format, text => some text
  | includeStderr, text => truthOf? text
  | maxBytes, text => readFreeInteger text.toList
  | backupCount, text => readFreeInteger text.toList

end Setting

namespace Environment

variable {environment : Environment} {key : String}

/-- The value of the variable of a setting. A blank one is none. -/
def valueOf? (environment : Environment) (setting : Setting) : Option setting.Value :=
  (environment.text? setting.variableName).bind setting.ofText?

/-- The variables for numbers and truth values can be converted. -/
def Converts (environment : Environment) : Prop :=
  ∀ setting : Setting, ∀ text ∈ environment.text? setting.variableName,
    (setting.ofText? text).isSome = true

/-- A variable names a path that begins with a tilde. -/
def NamesHome (environment : Environment) (key : String) : Prop :=
  ∃ text ∈ environment.text? key, (Path.parse text).BeginsWithTilde

/-- Unless it begins with a tilde, a path is the one that the text of its variable says. -/
theorem path?_eq (h : ¬ environment.NamesHome key) :
    environment.path? key = .ok ((environment.text? key).map Path.parse) := by
  rw [path?]
  cases htext : environment.text? key with
  | none => rfl
  | some text =>
    have htilde : ¬ (Path.parse text).BeginsWithTilde := fun hbegins => h ⟨text, htext, hbegins⟩
    simp only [expand, environment.homes.expand_of_not_tilde htilde]
    rfl

/-- An integer is read if the text of its variable is one. -/
theorem integer?_eq
    (h : ∀ text ∈ environment.text? key, (readFreeInteger text.toList).isSome = true) :
    environment.integer? key =
      .ok ((environment.text? key).bind fun text => readFreeInteger text.toList) := by
  rw [integer?]
  cases htext : environment.text? key with
  | none => rfl
  | some text =>
    obtain ⟨n, hread⟩ := Option.isSome_iff_exists.mp (h text htext)
    simp [hread]

/-- A truth value is read if the text of its variable means one. -/
theorem flag?_eq (h : ∀ text ∈ environment.text? key, (Setting.truthOf? text).isSome = true) :
    environment.flag? key = .ok ((environment.text? key).bind Setting.truthOf?) := by
  rw [flag?]
  cases htext : environment.text? key with
  | none => rfl
  | some text =>
    have hmeans := h text htext
    simp only [Option.bind_some, Setting.truthOf?, List.contains_iff_mem] at hmeans ⊢
    split
    · rfl
    · split
      · rfl
      · simp_all

end Environment

/-- If the variables can be converted and the log file does not begin with a tilde, the environment
says what the variables say. -/
theorem SettingSource.exists_ofEnvironment {environment : Environment} (h : environment.Converts)
    (htilde : ¬ environment.NamesHome "LOG_FILE") :
    ∃ source, ofEnvironment environment = .ok source ∧
      ∀ setting, source.value? setting = environment.valueOf? setting := by
  rw [ofEnvironment, Environment.path?_eq htilde,
    @Environment.flag?_eq _ "LOG_INCLUDE_STDERR" (h .includeStderr),
    @Environment.integer?_eq _ "LOG_MAX_BYTES" (h .maxBytes),
    @Environment.integer?_eq _ "LOG_BACKUP_COUNT" (h .backupCount)]
  refine ⟨_, rfl, fun setting => ?_⟩
  cases setting with
  | file => exact Option.map_eq_bind ..
  | defaultNamespace => exact (Option.bind_fun_some _).symm
  | level => exact (Option.bind_fun_some _).symm
  | format => exact (Option.bind_fun_some _).symm
  | _ => rfl

/-- A file shows a table: it is read and its document has the table, or it is missing and the table
is empty. -/
inductive FileTree.Shows (tree : FileTree) (path : Path) : TomlTable → Prop
  | read {bytes : ByteArray} {table : TomlTable} (hcontent : tree.content path = .ok bytes)
      (hdocument : documentOf? bytes = some (.ok table)) : Shows tree path table
  | missing (h : tree.modifiedIfPresent path = .ok none) : Shows tree path []

/-- A file that shows a table can be examined, and reading it gives the table. -/
theorem FileTree.Shows.read_eq {tree : FileTree} {path : Path} {table : TomlTable}
    (h : tree.Shows path table) (strict : Bool) :
    (tree.modifiedIfPresent path >>= fun _ => leniently strict (tree.tableIn path)) =
      .ok table := by
  cases h with
  | @read bytes _ hcontent hdocument =>
    cases hlook : tree.look path with
    | error fault =>
      rw [(modified_content_of_look_error hlook).2] at hcontent
      contradiction
    | ok node =>
      obtain ⟨⟨time, hmodified⟩, -⟩ := modified_content_of_look_ok hlook
      rw [tableIn_eq, modifiedIfPresent, hmodified, hcontent]
      dsimp only
      rw [hdocument]
      rfl
  | missing h =>
    rw [h, ok_bind, tableIn_of_missing h]
    rfl

namespace ConfigRequest

/-- The configuration file that is named: by the caller, else by its variable, else by the
fallback. -/
def namedPath (request : ConfigRequest) : Path :=
  request.path.getD (((request.environment.text? "CONFIG_PATH").map Path.parse).getD
    request.fallback)

/-- The value that prevails for a setting. Only the log file can be without one. -/
def prevailing? (request : ConfigRequest) (table : TomlTable) (setting : Setting) :
    Option setting.Value :=
  (request.overrides.value? setting).or ((request.environment.valueOf? setting).or
    (((table.valueOf? setting).bind setting.ofToml?).or (Config.standard.value? setting)))

/-- A request goes to a table if its file shows the table, of which nothing is remembered and which
is not faulty, its variables can be converted, and no path that is a text begins with a tilde. -/
structure GoesTo (request : ConfigRequest) (session : FileSession) (table : TomlTable) : Prop where
  /-- No file is remembered. -/
  empty : session.state.remembered = []
  /-- The file shows the table. -/
  shows : session.tree.Shows request.namedPath table
  /-- The documented keys of the table have values of their own types. -/
  sound : ¬ table.IsFaulty
  /-- The variables can be converted. -/
  converts : request.environment.Converts
  /-- The log file in the table does not begin with a tilde. -/
  tableTilde : ¬ table.NamesHome
  /-- Neither does the one in the environment. -/
  variableTilde : ¬ request.environment.NamesHome "LOG_FILE"
  /-- And neither does the configuration file in the environment. -/
  pathTilde : ¬ request.environment.NamesHome "CONFIG_PATH"

variable {request : ConfigRequest} {session : FileSession} {table : TomlTable}

/-- The file that is read is the one that is named. -/
theorem filePath_eq (h : ¬ request.environment.NamesHome "CONFIG_PATH") :
    request.filePath = .ok request.namedPath := by
  rw [filePath, namedPath]
  cases request.path with
  | some path => rfl
  | none =>
    dsimp only
    rw [configPath, Environment.path?_eq h]
    rfl

/-- A request is answered by checking the configuration of the values that prevail. -/
theorem GoesTo.answer_eq (h : request.GoesTo session table) :
    ∃ config : Config, request.answer session = config.checked.mapError .setting ∧
      ∀ setting, config.value? setting = request.prevailing? table setting := by
  have hnew : session.IsNew request.namedPath := by
    intro modified _
    rw [LoadingState.recall, h.empty]
    rfl
  obtain ⟨file, hfile, hfileValues⟩ :=
    SettingSource.exists_ofFile request.environment.homes h.tableTilde h.sound
  obtain ⟨said, hsaid, hsaidValues⟩ :=
    SettingSource.exists_ofEnvironment h.converts h.variableTilde
  refine ⟨(((SettingLayers.empty.apply file "file").apply said "env").apply
    request.overrides "cli").config, ?_, fun setting => ?_⟩
  · rw [ConfigRequest.answer_eq, filePath_eq h.pathTilde, ok_bind, FileSession.answer_of_isNew hnew,
      h.shows.read_eq, ok_bind, configGiven, hfile, ok_bind, hsaid, ok_bind]
    rfl
  · have hnothing : SettingLayers.empty.values.value? setting = none := by cases setting <;> rfl
    rw [SettingLayers.value?_config, SettingLayers.value?_apply, SettingLayers.value?_apply,
      SettingLayers.value?_apply, hnothing, hfileValues, hsaidValues, Option.or_none,
      Option.or_assoc, Option.or_assoc, prevailing?]

/-- The request reads the file that is named, by the caller before the environment. It has a faulty
setting if and only if a value that prevails is out of range, and otherwise gives the configuration
of the values that prevail. So requests under which the same values prevail, however different the
layers are that they come from, have the same answer. -/
theorem answer_of_goesTo (h : request.GoesTo session table) :
    request.filePath = .ok request.namedPath ∧
    ((∃ fault, request.answer session = .error (.setting fault)) ↔
      ∃ setting, ∃ value ∈ request.prevailing? table setting, ¬ setting.Allows value) ∧
    ((∀ setting, ∀ value ∈ request.prevailing? table setting, setting.Allows value) →
      ∃ config, request.answer session = .ok config ∧
        ∀ setting, config.value? setting = request.prevailing? table setting) ∧
    ∀ (other : ConfigRequest) (otherSession : FileSession) (otherTable : TomlTable),
      other.GoesTo otherSession otherTable →
      (∀ setting, other.prevailing? otherTable setting = request.prevailing? table setting) →
        other.answer otherSession = request.answer session := by
  obtain ⟨config, hanswer, hvalues⟩ := h.answer_eq
  refine ⟨filePath_eq h.pathTilde, ?_, fun hrange => ?_, fun other otherSession otherTable hother
    hsame => ?_⟩
  · rcases config.checked_cases with
      ⟨hok, hrange⟩ | ⟨setting, value, hvalue, hout, fault, -, hfault⟩
    · have hgiven : request.answer session = .ok config := by rw [hanswer, hok]; rfl
      refine iff_of_false (by simp [hgiven]) ?_
      rintro ⟨setting, value, hvalue, hout⟩
      exact hout (hrange setting value (hvalues setting ▸ hvalue))
    · exact iff_of_true ⟨fault, by rw [hanswer, hfault]; rfl⟩
        ⟨setting, value, hvalues setting ▸ hvalue, hout⟩
  · rcases config.checked_cases with ⟨hok, -⟩ | ⟨setting, value, hvalue, hout, -⟩
    · exact ⟨config, by rw [hanswer, hok]; rfl, hvalues⟩
    · exact absurd (hrange setting value (hvalues setting ▸ hvalue)) hout
  · obtain ⟨otherConfig, hotherAnswer, hotherValues⟩ := hother.answer_eq
    have hconfig : otherConfig = config := Config.eq_of_value? fun setting => by
      rw [hotherValues, hvalues, hsame]
    rw [hotherAnswer, hanswer, hconfig]

/-- A request for a missing file that the environment names, with a level from the caller. -/
def requestWith (values : List (String × String)) : ConfigRequest :=
  ⟨none, ⟨.root, ["other.toml"]⟩, { SettingSource.empty with level := some "debug" },
    ⟨("CONFIG_PATH", " /c.toml ") :: ("LOG_MAX_BYTES", " 0 ") :: values, "", ⟨⟨.root, []⟩, []⟩⟩,
    true⟩

/-- A level of an unknown name in the environment makes no difference if the caller gives
another. -/
theorem answer_of_goesTo_masked :
    (requestWith [("LOG_LEVEL", "loud")]).filePath = .ok ⟨.root, ["c.toml"]⟩ ∧
      (∃ config, (requestWith [("LOG_LEVEL", "loud")]).answer ⟨⟨[], []⟩, .empty⟩ = .ok config ∧
        config.value? .level = some "debug" ∧ config.value? .maxBytes = some 0) ∧
      (requestWith []).answer ⟨⟨[], []⟩, .empty⟩ =
        (requestWith [("LOG_LEVEL", "loud")]).answer ⟨⟨[], []⟩, .empty⟩ := by
  have hgoes {values : List (String × String)}
      (hpath : (requestWith values).environment.text? "CONFIG_PATH" = some "/c.toml")
      (hlog : (requestWith values).environment.text? "LOG_FILE" = none)
      (hconverts : (requestWith values).environment.Converts) :
      (requestWith values).GoesTo ⟨⟨[], []⟩, .empty⟩ [] := by
    have hnamed : (requestWith values).namedPath = ⟨.root, ["c.toml"]⟩ := by
      rw [namedPath, hpath]
      rfl
    refine ⟨rfl, hnamed ▸ .missing (by decide +kernel),
      TomlTable.not_isFaulty_iff.mpr ⟨by decide, fun _ => nofun⟩, hconverts, nofun, ?_, ?_⟩
    · rintro ⟨text, htext, -⟩
      rw [hlog] at htext
      contradiction
    · rintro ⟨text, htext, hbegins⟩
      obtain rfl := Option.some.inj (hpath.symm.trans htext)
      exact absurd hbegins.1 (by decide)
  have hloud := @hgoes [("LOG_LEVEL", "loud")] (by decide +kernel) (by decide +kernel)
    (by intro setting; cases setting <;> decide +kernel)
  have hquiet := @hgoes [] (by decide +kernel) (by decide +kernel)
    (by intro setting; cases setting <;> decide +kernel)
  obtain ⟨hfile, -, hgiven, hsame⟩ := answer_of_goesTo hloud
  obtain ⟨config, hconfig, hvalues⟩ := hgiven (by intro setting; cases setting <;> decide +kernel)
  refine ⟨hfile.trans (by decide +kernel), ⟨config, hconfig, ?_, ?_⟩, hsame _ _ _ hquiet ?_⟩
  · exact (hvalues .level).trans (by decide +kernel)
  · exact (hvalues .maxBytes).trans (by decide +kernel)
  · intro setting
    cases setting <;> decide +kernel

/-- A log file in the environment that does not begin with a tilde as a text, and does as a path. -/
theorem answer_tilde_below_point :
    "./~/x.log".toList.head? ≠ some '~' ∧
      Path.parse "./~/x.log" = ⟨.here, ["~", "x.log"]⟩ ∧
      ConfigRequest.answer ⟨some ⟨.root, ["c.toml"]⟩, ⟨.root, ["c.toml"]⟩, .empty,
          ⟨[("LOG_FILE", "./~/x.log")], "", ⟨⟨.root, ["home"]⟩, []⟩⟩, true⟩ ⟨⟨[], []⟩, .empty⟩ =
        .ok ⟨{ LoggingConfig.standard with file := some ⟨.root, ["home", "x.log"]⟩ },
          defaultNamespace⟩ := by
  refine ⟨by decide, by decide, ?_⟩
  decide +kernel

end ConfigRequest

end DriverPolicy
