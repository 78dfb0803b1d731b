import DriverPolicy.Proofs.Settings.Failure

/-!
# Requests for configurations

A request is answered with the configuration from a file, the environment and the caller's own
settings. It gives one, or fails in a way that is foreseen, unless it goes astray: over a home that
is not known, or over a file that cannot be examined. A request that is not strict ignores a file
that cannot be read.
-/

namespace DriverPolicy

namespace Loading

variable {α β : Type}

/-- Work goes on with what the work before gives, and in the state that it leaves. -/
theorem outcome_bind (work : Loading α) (next : α → Loading β) (state : LoadingState) :
    (work >>= next).outcome state =
      match work.outcome state with
      | (.ok a, after) => (next a).outcome after
      | (.error failure, after) => (.error failure, after) := by
  simp only [outcome, run_bind]
  rcases work.run.run state with ⟨_ | _, after⟩ <;> rfl

/-- Work goes on with the value of a result, and in the same state. -/
theorem outcome_ofExcept_bind (result : Except ConfigFailure α) (next : α → Loading β)
    (state : LoadingState) : (ofExcept result >>= next).outcome state =
      match result with
      | .ok a => (next a).outcome state
      | .error failure => (.error failure, state) := by
  rw [outcome_bind]
  cases result <;> rfl

/-- Work that goes through a list and never stops ends well. -/
theorem exists_outcome_forIn (items : List α) (body : α → PUnit → Loading (ForInStep PUnit))
    (h : ∀ item state, ∃ next, (body item ⟨⟩).outcome state = (.ok (.yield ⟨⟩), next))
    (state : LoadingState) :
    ∃ next, (forIn items ⟨⟩ body).outcome state = (.ok ⟨⟩, next) := by
  induction items generalizing state with
  | nil => exact ⟨state, rfl⟩
  | cons item items ih =>
    obtain ⟨middle, hitem⟩ := h item state
    obtain ⟨next, hrest⟩ := ih middle
    refine ⟨next, ?_⟩
    rw [List.forIn_cons, outcome_bind, hitem]
    exact hrest

end Loading

namespace ConfigRequest

/-- The configuration from the table of a file, the environment and the caller's own settings. -/
def configGiven (request : ConfigRequest) (table : TomlTable) : Except ConfigFailure Config := do
  let file ← SettingSource.ofFile request.environment.homes table
  let environment ← SettingSource.ofEnvironment request.environment
  let layers := ((SettingLayers.empty.apply file "file").apply environment "env").apply
    request.overrides "cli"
  layers.build.mapError .setting

/-- What a request comes to when files are remembered. -/
def answer (request : ConfigRequest) (session : FileSession) : Except ConfigFailure Config :=
  ((getConfig session.tree request).outcome session.state).1

variable {request : ConfigRequest} {session : FileSession} {table : TomlTable}

/-- The layers of a request give the configuration, whatever they report. -/
theorem outcome_layered (request : ConfigRequest) (table : TomlTable) (state : LoadingState) :
    ((request.layered table).outcome state).1 = request.configGiven table := by
  rw [layered, configGiven, Loading.outcome_ofExcept_bind]
  cases SettingSource.ofFile request.environment.homes table with
  | error failure => rfl
  | ok file =>
    rw [ok_bind]
    dsimp only
    rw [Loading.outcome_ofExcept_bind]
    cases SettingSource.ofEnvironment request.environment with
    | error failure => rfl
    | ok environment =>
      dsimp only
      rw [ok_bind, Loading.outcome_bind]
      obtain ⟨next, hreports⟩ := Loading.exists_outcome_forIn
        (((SettingLayers.empty.apply file "file").apply environment "env").apply
          request.overrides "cli").sources
        (fun item _ => do
          Loading.report (.settingFrom item.1.name item.2)
          return .yield ⟨⟩) (fun item state => ⟨_, rfl⟩) state
      rw [hreports]
      rfl

/-- A request is answered with the configuration from the table that loading its file answers. -/
theorem answer_eq (request : ConfigRequest) (session : FileSession) :
    request.answer session = request.filePath >>= fun path =>
      session.answer path request.strict >>= request.configGiven := by
  rw [answer, getConfig, Loading.outcome_ofExcept_bind]
  cases request.filePath with
  | error failure => rfl
  | ok path =>
    dsimp only
    rw [ok_bind, Loading.outcome_bind, FileSession.answer]
    generalize (loadConfigFile session.tree path request.strict).outcome session.state = ended
    obtain ⟨result, next⟩ := ended
    cases result with
    | error failure => rfl
    | ok loaded => exact outcome_layered request loaded.table next

/-- How a request can fail in a way that is not foreseen. -/
inductive GoesAstray (request : ConfigRequest) (session : FileSession) : Prop
  /-- The variable for the configuration file names the home of an unknown user. -/
  | configHome (hpath : request.path = none)
      (hnames : request.environment.NamesUnknownHome "CONFIG_PATH")
  /-- The configuration file cannot be examined, though it may be there. -/
  | unexaminable {path : Path} {fault : FileFault} (hpath : request.filePath = .ok path)
      (hlook : session.tree.look path = .error fault)
      (hproblem : fault.problem ≠ .notFound ∧ fault.problem ≠ .nullCharacter)
  /-- The configuration file names the home of an unknown user for the log file. -/
  | fileHome {path : Path} {table : TomlTable} (hpath : request.filePath = .ok path)
      (htable : session.answer path request.strict = .ok table)
      (hnames : SettingSource.NamesUnknownHome request.environment.homes table)
  /-- The variable for the log file names the home of an unknown user. -/
  | variableHome {path : Path} {table : TomlTable} {source : SettingSource}
      (hpath : request.filePath = .ok path)
      (htable : session.answer path request.strict = .ok table)
      (hsource : SettingSource.ofFile request.environment.homes table = .ok source)
      (hnames : request.environment.NamesUnknownHome "LOG_FILE")

/-- The configuration file has no path if the variable for it has a tilde that stands for no home:
for the home of an unknown user if and only if it names one. -/
theorem filePath_eq_error {failure : ConfigFailure} (h : request.filePath = .error failure) :
    request.path = none ∧
      (request.environment.NamesUnknownHome "CONFIG_PATH" ∧ failure = .unknownHome ∨
        failure = .noUserName) := by
  rw [filePath] at h
  split at h
  · contradiction
  · next hnone =>
    refine ⟨hnone, ?_⟩
    rw [configPath] at h
    rcases request.environment.path?_cases "CONFIG_PATH" with
      ⟨-, ⟨path, hpath⟩ | hpath⟩ | ⟨hnames, hpath⟩
    all_goals rw [hpath] at h
    · contradiction
    · exact Or.inr (Except.error.inj h).symm
    · exact Or.inl ⟨hnames, (Except.error.inj h).symm⟩

/-- The configuration file is not found below the home of an unknown user. -/
theorem filePath_of_unknownHome (hnone : request.path = none)
    (hnames : request.environment.NamesUnknownHome "CONFIG_PATH") :
    request.filePath = .error .unknownHome := by
  rcases request.environment.path?_cases "CONFIG_PATH" with ⟨hnot, -⟩ | ⟨-, hpath⟩
  · exact absurd hnames hnot
  · rw [filePath, hnone]
    dsimp only
    rw [configPath, hpath]
    rfl

/-- The layers fail in a way that is not foreseen if and only if the file names the home of an
unknown user, or it does not fail itself and the variable for the log file does. -/
theorem configGiven_unforeseen_iff :
    (∃ failure, request.configGiven table = .error failure ∧ ¬ failure.IsForeseen) ↔
      SettingSource.NamesUnknownHome request.environment.homes table ∨
        (∃ source, SettingSource.ofFile request.environment.homes table = .ok source) ∧
          request.environment.NamesUnknownHome "LOG_FILE" := by
  rw [configGiven, ← SettingSource.ofFile_eq_unknownHome_iff]
  constructor
  · rintro ⟨failure, hfailure, hunforeseen⟩
    rcases bind_eq_error_iff.mp hfailure with hfile | ⟨source, hsource, hrest⟩
    · rcases SettingSource.failsOnly_ofFile _ _ _ hfile with ⟨cause, rfl⟩ | ⟨fault, rfl⟩
      · cases cause with
        | unknownUser => exact Or.inl hfile
        | nullCharacter => exact absurd trivial hunforeseen
      · exact absurd trivial hunforeseen
    · refine Or.inr ⟨⟨source, hsource⟩, ?_⟩
      rcases SettingSource.ofEnvironment_cases request.environment with
        ⟨-, ⟨said, hsaid⟩ | hnone | ⟨fault, hfault, -⟩⟩ | ⟨hnames, -⟩
      · rw [hsaid, ok_bind] at hrest
        obtain ⟨fault, -, rfl⟩ := mapError_eq_error_iff.mp hrest
        exact absurd trivial hunforeseen
      · rw [hnone, error_bind] at hrest
        cases hrest
        exact absurd trivial hunforeseen
      · rw [hfault, error_bind] at hrest
        cases hrest
        exact absurd trivial hunforeseen
      · exact hnames
  · rintro (hfile | ⟨⟨source, hsource⟩, hnames⟩)
    · exact ⟨.unknownHome, by rw [hfile, error_bind], id⟩
    · rcases SettingSource.ofEnvironment_cases request.environment with ⟨hnot, -⟩ | ⟨-, hsaid⟩
      · exact absurd hnames hnot
      · exact ⟨.unknownHome, by rw [hsource, ok_bind, hsaid, error_bind], id⟩

/-- A request fails in a way that is not foreseen if and only if it goes astray. -/
theorem answer_unforeseen_iff :
    (∃ failure, request.answer session = .error failure ∧ ¬ failure.IsForeseen) ↔
      request.GoesAstray session := by
  rw [answer_eq]
  constructor
  · rintro ⟨failure, hfailure, hunforeseen⟩
    rcases bind_eq_error_iff.mp hfailure with hfilePath | ⟨path, hpath, hloaded⟩
    · rcases filePath_eq_error hfilePath with ⟨hnone, ⟨hnames, -⟩ | rfl⟩
      · exact .configHome hnone hnames
      · exact absurd trivial hunforeseen
    · rcases bind_eq_error_iff.mp hloaded with hload | ⟨table, htable, hgiven⟩
      · obtain ⟨fault, hlook, hproblem⟩ :=
          FileSession.answer_unforeseen_iff.mp ⟨failure, hload, hunforeseen⟩
        exact .unexaminable hpath hlook hproblem
      · rcases configGiven_unforeseen_iff.mp ⟨failure, hgiven, hunforeseen⟩ with
          hnames | ⟨⟨source, hsource⟩, hnames⟩
        · exact .fileHome hpath htable hnames
        · exact .variableHome hpath htable hsource hnames
  · -- a step fails after those before it succeeded
    have hgiven {path : Path} {table : TomlTable} (hpath : request.filePath = .ok path)
        (htable : session.answer path request.strict = .ok table) :
        (request.filePath >>= fun path =>
          session.answer path request.strict >>= request.configGiven) =
            request.configGiven table := by
      rw [hpath, ok_bind, htable, ok_bind]
    rintro (⟨hnone, hnames⟩ | ⟨hpath, hlook, hproblem⟩ | ⟨hpath, htable, hnames⟩ |
      ⟨hpath, htable, hsource, hnames⟩)
    · refine ⟨.unknownHome, ?_, id⟩
      rw [filePath_of_unknownHome hnone hnames, error_bind]
    · obtain ⟨failure, hfailure, hunforeseen⟩ :=
        (@FileSession.answer_unforeseen_iff _ _ request.strict).mpr ⟨_, hlook, hproblem⟩
      exact ⟨failure, by rw [hpath, ok_bind, hfailure, error_bind], hunforeseen⟩
    · rw [hgiven hpath htable]
      exact configGiven_unforeseen_iff.mpr (Or.inl hnames)
    · rw [hgiven hpath htable]
      exact configGiven_unforeseen_iff.mpr (Or.inr ⟨⟨_, hsource⟩, hnames⟩)

/-- The layers fail for a tilde that stands for no home or for a faulty setting. -/
theorem failsOnly_configGiven (request : ConfigRequest) (table : TomlTable) :
    FailsOnly (fun failure => (∃ cause : HomeFault, failure = cause.failure) ∨
      ∃ fault, failure = .setting fault) (request.configGiven table) :=
  .bind (SettingSource.failsOnly_ofFile _ _) fun _ =>
    .bind ((SettingSource.failsOnly_ofEnvironment _).mono fun _ h =>
      h.imp_right fun ⟨fault, heq, _⟩ => ⟨fault, heq⟩) fun _ =>
        .mapError fun fault _ => Or.inr ⟨fault, rfl⟩

/-- Without a file, the layers fail for a tilde that stands for no home or for a faulty setting, and
that is no integer with too many digits. -/
theorem failsOnly_configGiven_nil (request : ConfigRequest) :
    FailsOnly (fun failure => (∃ cause : HomeFault, failure = cause.failure) ∨
      ∃ fault, failure = .setting fault ∧ ∀ count, fault ≠ .tooManyDigits count)
      (request.configGiven []) := by
  refine .bind (.ok _) fun file => .bind (SettingSource.failsOnly_ofEnvironment _)
    fun environment => .mapError fun fault hfault => Or.inr ⟨fault, rfl, ?_⟩
  rcases Config.checked_cases _ with ⟨hok, -⟩ | ⟨setting, value, -, -, other, hother, hout⟩
  · exact absurd (hok.symm.trans hfault) nofun
  · obtain rfl := Except.error.inj (hout.symm.trans hfault)
    rintro count rfl
    cases setting <;> simp [Setting.faultOf?] at hother

/-- A request without strictness ignores a file that cannot be read, of which nothing is remembered,
if and only if the file can be examined or is missing, and no integer in it has too many digits. -/
theorem answer_ignores_iff {path : Path} (hstrict : request.strict = false)
    (hpath : request.filePath = .ok path) (hnew : session.IsNew path)
    (hunreadable : session.tree.promised path true = .error (.unreadable path)) :
    request.answer session = request.configGiven [] ↔
      session.tree.Examinable path ∧ ¬ session.tree.HoldsOverlong path := by
  have hlenient : session.tree.promised path false = .ok [] :=
    FileTree.promised_false_of_unreadable hunreadable
  rw [answer_eq, hpath, ok_bind, hstrict, ← FileTree.read_eq_promised_iff _ _ false, hlenient,
    ← FileSession.answer_of_isNew hnew]
  refine ⟨fun h => ?_, fun h => by rw [h, ok_bind]⟩
  rcases FileSession.answer_of_unreadable hnew hunreadable with
    hnil | ⟨fault, hfault⟩ | ⟨count, hcount⟩
  · exact hnil
  · rw [hfault, error_bind] at h
    rcases failsOnly_configGiven_nil request _ h.symm with ⟨cause, heq⟩ | ⟨other, heq, -⟩
    · cases cause <;> contradiction
    · contradiction
  · rw [hcount, error_bind] at h
    rcases failsOnly_configGiven_nil request _ h.symm with ⟨cause, heq⟩ | ⟨fault, heq, hshort⟩
    · cases cause <;> contradiction
    · exact absurd (ConfigFailure.setting.inj heq).symm (hshort count)

/-- A request without strictness does not fail for a file that cannot be read. -/
theorem answer_ne_unreadable (hstrict : request.strict = false) (place : Path) :
    request.answer session ≠ .error (.unreadable place) := by
  have h : FailsOnly (fun failure => ∀ place, failure ≠ .unreadable place)
      (request.answer session) := by
    rw [answer_eq, hstrict]
    refine .bind (fun failure hfailure => ?_) fun path => .bind
      (FileSession.failsOnly_answer_false session path) fun table =>
        (failsOnly_configGiven request table).mono ?_
    · rcases filePath_eq_error hfailure with ⟨-, ⟨-, rfl⟩ | rfl⟩ <;> exact fun _ => nofun
    · rintro failure (⟨cause, rfl⟩ | ⟨fault, rfl⟩)
      · cases cause <;> exact fun _ => nofun
      · exact fun _ => nofun
  exact fun hfailure => h _ hfailure place rfl

/-- A request gives a configuration or fails in a way that is foreseen, for a file that cannot be
read or for a faulty setting, if and only if it does not go astray. Without strictness it does not
fail for a file that cannot be read: if nothing is remembered of such a file, the configuration is
the one without it, if and only if the file can be examined or is missing, and no integer in it has
too many digits. -/
theorem answer_foreseen_iff (request : ConfigRequest) (session : FileSession) :
    ((∀ failure, request.answer session = .error failure → failure.IsForeseen) ↔
      ¬ request.GoesAstray session) ∧
    (request.strict = false →
      (∀ place, request.answer session ≠ .error (.unreadable place)) ∧
      ∀ path, request.filePath = .ok path → session.IsNew path →
        session.tree.promised path true = .error (.unreadable path) →
          (request.answer session = request.configGiven [] ↔
            session.tree.Examinable path ∧ ¬ session.tree.HoldsOverlong path)) := by
  refine ⟨?_, fun hstrict => ⟨answer_ne_unreadable hstrict, fun path hpath hnew hunreadable =>
    answer_ignores_iff hstrict hpath hnew hunreadable⟩⟩
  rw [← answer_unforeseen_iff]
  simp only [not_exists, not_and, not_not]

/-- A file whose bytes are no text is ignored without strictness. -/
theorem answer_foreseen_no_text :
    let path : Path := ⟨.root, ["config.toml"]⟩
    let session : FileSession := ⟨⟨[(["config.toml"], .file ⟨#[255]⟩ 1001)], []⟩, .empty⟩
    let request : ConfigRequest := ⟨some path, path, .empty, ⟨[], "", ⟨path, []⟩⟩, false⟩
    request.answer session = .ok .standard := by
  intro path session request
  have hcontent : session.tree.content path = .ok ⟨#[255]⟩ := by decide +kernel
  have hdocument : documentOf? ⟨#[255]⟩ = none :=
    Option.isNone_iff_eq_none.mp (by decide +kernel)
  have hunreadable : session.tree.promised path true = .error (.unreadable path) := by
    rw [FileTree.promised, hcontent]
    dsimp only
    rw [hdocument]
    rfl
  have hgiven : request.configGiven [] = .ok .standard := by decide +kernel
  refine ((((answer_foreseen_iff request session).2 rfl).2 path rfl (fun _ _ => rfl)
    hunreadable).mpr ⟨fun fault hlook => ?_, ?_⟩).trans hgiven
  · rw [(FileTree.modified_content_of_look_error hlook).2] at hcontent
    contradiction
  · rintro ⟨bytes, count, hbytes, hother⟩
    obtain rfl := Except.ok.inj (hcontent.symm.trans hbytes)
    rw [hdocument] at hother
    contradiction

/-- A strict request fails in ways that are not foreseen: for a path below a plain file, and for a
log file in the home of an unknown user, in the environment or in the table of the configuration
file. -/
theorem answer_not_foreseen :
    let path : Path := ⟨.here, ["plain", "c.toml"]⟩
    let request (values : List (String × String)) : ConfigRequest :=
      ⟨some path, path, .empty, ⟨values, "", ⟨path, []⟩⟩, true⟩
    (request []).answer ⟨⟨[(["plain"], .file ⟨#[]⟩ 1001)], []⟩, .empty⟩ =
        .error (.file ⟨.notADirectory, "plain/c.toml"⟩) ∧
      ¬ (ConfigFailure.file ⟨.notADirectory, "plain/c.toml"⟩).IsForeseen ∧
      (request [("LOG_FILE", "~nosuchuser/x.log")]).answer ⟨⟨[], []⟩, .empty⟩ =
        .error .unknownHome ∧
      (request []).configGiven [("logging", .table [("file", .text "~nosuchuser/x.log")])] =
        .error .unknownHome ∧
      ¬ ConfigFailure.unknownHome.IsForeseen := by
  intro path request
  refine ⟨?_, nofun, ?_, ?_, id⟩
  · decide +kernel
  · decide +kernel
  · decide +kernel

end ConfigRequest

end DriverPolicy
