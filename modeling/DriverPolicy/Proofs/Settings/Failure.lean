import DriverPolicy.Proofs.Settings.Caching
import DriverPolicy.Proofs.Settings.Range

/-!
# How configurations fail

Whoever asks for a configuration foresees that a file cannot be read and that a setting is faulty.
The sources of a configuration fail in these ways, and in two others: a path can name the home of an
unknown user, and a file that may be there cannot be examined.
-/

namespace DriverPolicy

/-- A failure that is foreseen: a faulty setting, a file that cannot be read, or a text that is no
path at all or does not even name a user. -/
def ConfigFailure.IsForeseen : ConfigFailure → Prop
  | setting _ => True
  | unreadable _ => True
  | noUserName => True
  | file fault => fault.problem = .nullCharacter
  | unknownHome => False

/-- A variable names a path in the home of an unknown user. -/
def Environment.NamesUnknownHome (environment : Environment) (key : String) : Prop :=
  ∃ text ∈ environment.text? key, environment.homes.expand (.parse text) = .error .unknownUser

namespace Environment

variable {environment : Environment} {key : String}

/-- Reading a path from a variable fails only for the home of an unknown user, or because the path
does not even name a user. -/
theorem path?_cases (environment : Environment) (key : String) :
    (¬ environment.NamesUnknownHome key ∧
      ((∃ path, environment.path? key = .ok path) ∨
        environment.path? key = .error .noUserName)) ∨
    environment.NamesUnknownHome key ∧ environment.path? key = .error .unknownHome := by
  rw [path?, NamesUnknownHome]
  cases environment.text? key with
  | none => exact Or.inl ⟨by simp, Or.inl ⟨_, rfl⟩⟩
  | some text =>
    simp only [Option.mem_def, Option.some.injEq, exists_eq_left', expand]
    cases environment.homes.expand (.parse text) with
    | error fault =>
      cases fault with
      | unknownUser => exact Or.inr ⟨rfl, rfl⟩
      | nullCharacter => exact Or.inl ⟨nofun, Or.inr rfl⟩
    | ok path => exact Or.inl ⟨nofun, Or.inl ⟨_, rfl⟩⟩

/-- Reading an integer from a variable fails only for a text that is none. -/
theorem integer?_eq_error {failure : ConfigFailure}
    (h : environment.integer? key = .error failure) :
    ∃ text, failure = .setting (.notAnInteger (environment.nameOf key) text) := by
  rw [integer?] at h
  split at h
  · contradiction
  · split at h
    · contradiction
    · exact ⟨_, (Except.error.inj h).symm⟩

/-- Reading a truth value from a variable fails only for a text that is none. -/
theorem flag?_eq_error {failure : ConfigFailure} (h : environment.flag? key = .error failure) :
    ∃ text, failure = .setting (.notAFlag (environment.nameOf key) text) := by
  rw [flag?] at h
  split at h
  · contradiction
  · split at h
    · contradiction
    · split at h
      · contradiction
      · exact ⟨_, (Except.error.inj h).symm⟩

end Environment

namespace SettingSource

/-- A file names a log file in the home of an unknown user, and what is read of the file before has
the types that it should have. -/
def NamesUnknownHome (homes : Homes) (file : TomlTable) : Prop :=
  ∃ resolver logging text, tableOf file "resolver" = .ok resolver ∧
    tableOf file "logging" = .ok logging ∧ textOf logging "logging" "file" = .ok (some text) ∧
    (∃ name, textOf resolver "resolver" "default_namespace" = .ok name) ∧
    (∃ level, textOf logging "logging" "level" = .ok level) ∧
    text ≠ "" ∧ homes.expand (.parse text) = .error .unknownUser

/-- What the environment says, or that a text cannot be converted, or that the path of the log file
names no user or the home of an unknown one. -/
theorem ofEnvironment_cases (environment : Environment) :
    (¬ environment.NamesUnknownHome "LOG_FILE" ∧
      ((∃ source, ofEnvironment environment = .ok source) ∨
        ofEnvironment environment = .error .noUserName ∨
        ∃ fault, ofEnvironment environment = .error (.setting fault) ∧
          ∀ count, fault ≠ .tooManyDigits count)) ∨
    environment.NamesUnknownHome "LOG_FILE" ∧
      ofEnvironment environment = .error .unknownHome := by
  rw [ofEnvironment]
  rcases environment.path?_cases "LOG_FILE" with
    ⟨hnames, ⟨path, hpath⟩ | hpath⟩ | ⟨hnames, hpath⟩
  · refine Or.inl ⟨hnames, ?_⟩
    rw [hpath, ok_bind]
    cases hflag : environment.flag? "LOG_INCLUDE_STDERR" with
    | error failure =>
      obtain ⟨text, rfl⟩ := Environment.flag?_eq_error hflag
      exact Or.inr (Or.inr ⟨_, rfl, fun _ => nofun⟩)
    | ok flag =>
      rw [ok_bind]
      cases hsize : environment.integer? "LOG_MAX_BYTES" with
      | error failure =>
        obtain ⟨text, rfl⟩ := Environment.integer?_eq_error hsize
        exact Or.inr (Or.inr ⟨_, rfl, fun _ => nofun⟩)
      | ok size =>
        rw [ok_bind]
        cases hcount : environment.integer? "LOG_BACKUP_COUNT" with
        | error failure =>
          obtain ⟨text, rfl⟩ := Environment.integer?_eq_error hcount
          exact Or.inr (Or.inr ⟨_, rfl, fun _ => nofun⟩)
        | ok count => exact Or.inl ⟨_, rfl⟩
  · exact Or.inl ⟨hnames, Or.inr (Or.inl (by rw [hpath, error_bind]))⟩
  · exact Or.inr ⟨hnames, by rw [hpath, error_bind]⟩

/-- What the environment says fails for a tilde that stands for no home or for a text that cannot be
converted. -/
theorem failsOnly_ofEnvironment (environment : Environment) :
    FailsOnly (fun failure => (∃ cause : HomeFault, failure = cause.failure) ∨
      ∃ fault, failure = .setting fault ∧ ∀ count, fault ≠ .tooManyDigits count)
      (ofEnvironment environment) := by
  rcases ofEnvironment_cases environment with
    ⟨-, ⟨said, hsaid⟩ | hnone | ⟨fault, hfault, hshort⟩⟩ | ⟨-, hhome⟩
  · rw [hsaid]
    exact .ok _
  · rw [hnone]
    exact .error (Or.inl ⟨.nullCharacter, rfl⟩)
  · rw [hfault]
    exact .error (Or.inr ⟨fault, rfl, hshort⟩)
  · rw [hhome]
    exact .error (Or.inl ⟨.unknownUser, rfl⟩)

/-- A fault of a setting is no other failure. -/
theorem failing_eq_error_iff {α : Type} {result : Except SettingFault α} {failure : ConfigFailure} :
    failing result = .error failure ↔ ∃ fault, result = .error fault ∧ .setting fault = failure :=
  mapError_eq_error_iff

/-- Without a fault of a setting there is a value. -/
theorem failing_eq_ok_iff {α : Type} {result : Except SettingFault α} {value : α} :
    failing result = .ok value ↔ result = .ok value :=
  mapError_eq_ok_iff

/-- What a text says of the log file. Its path fails if its tilde stands for no home. -/
def logPath (homes : Homes) : Option String → Except ConfigFailure (Option Path)
  | none | some "" => .ok none
  | some text => ((homes.expand (.parse text)).mapError HomeFault.failure).map some

/-- A text that is not empty says a path. -/
theorem logPath_some (homes : Homes) {text : String} (h : text ≠ "") :
    logPath homes (some text) =
      ((homes.expand (.parse text)).mapError HomeFault.failure).map some := by
  rw [logPath]
  rintro ⟨⟩
  exact h rfl

/-- The path fails if and only if the tilde of a text stands for no home. -/
theorem logPath_eq_error_iff {homes : Homes} {said : Option String} {failure : ConfigFailure} :
    logPath homes said = .error failure ↔ ∃ text ∈ said, text ≠ "" ∧
      ∃ cause, homes.expand (.parse text) = .error cause ∧ cause.failure = failure := by
  cases said with
  | none => simp [logPath]
  | some text =>
    by_cases hempty : text = ""
    · subst hempty
      simp [logPath]
    · rw [logPath_some homes hempty, map_eq_error_iff, mapError_eq_error_iff]
      simp [hempty]

/-- A file is read table by table and key by key. -/
theorem ofFile_eq (homes : Homes) (file : TomlTable) : ofFile homes file = do
    let resolver ← failing (tableOf file "resolver")
    let logging ← failing (tableOf file "logging")
    let fileText ← failing (textOf logging "logging" "file")
    let defaultNamespace ← failing (textOf resolver "resolver" "default_namespace")
    let level ← failing (textOf logging "logging" "level")
    let path ← logPath homes fileText
    let format ← failing (textOf logging "logging" "format")
    let includeStderr ← failing (booleanOf logging "logging" "include_stderr")
    let maxBytes ← failing (integerOf logging "logging" "max_bytes")
    let backupCount ← failing (integerOf logging "logging" "backup_count")
    return ⟨defaultNamespace, level, path, format, includeStderr, maxBytes, backupCount⟩ := by
  rw [ofFile]
  refine bind_congr fun resolver => bind_congr fun logging => bind_congr fun fileText =>
    bind_congr fun name => bind_congr fun level => ?_
  split
  · rfl
  · rfl
  · next text hempty =>
    rw [logPath_some homes hempty]
    rfl

/-- A file fails for a tilde that stands for no home if and only if its log file has one, and what is
read of the file before has the types that it should have. -/
theorem ofFile_eq_failure_iff {homes : Homes} {file : TomlTable} {cause : HomeFault} :
    ofFile homes file = .error cause.failure ↔
      ∃ resolver logging text, tableOf file "resolver" = .ok resolver ∧
        tableOf file "logging" = .ok logging ∧ textOf logging "logging" "file" = .ok (some text) ∧
        (∃ name, textOf resolver "resolver" "default_namespace" = .ok name) ∧
        (∃ level, textOf logging "logging" "level" = .ok level) ∧
        text ≠ "" ∧ homes.expand (.parse text) = .error cause := by
  have hsetting (fault : SettingFault) : ConfigFailure.setting fault ≠ cause.failure := by
    cases cause <;> exact nofun
  have hcause (other : HomeFault) : other.failure = cause.failure ↔ other = cause := by
    cases other <;> cases cause <;> decide
  simp only [ofFile_eq, bind_eq_error_iff, failing_eq_error_iff, failing_eq_ok_iff, hsetting,
    logPath_eq_error_iff, hcause, and_false, exists_false, false_or, or_false, pure_eq_ok,
    reduceCtorEq, exists_eq_right, Option.mem_def]
  constructor
  · rintro ⟨resolver, hresolver, logging, hlogging, fileText, hfile, name, hname, level, hlevel,
      text, rfl, hempty, hhome⟩
    exact ⟨resolver, logging, text, hresolver, hlogging, hfile, ⟨name, hname⟩, ⟨level, hlevel⟩,
      hempty, hhome⟩
  · rintro ⟨resolver, logging, text, hresolver, hlogging, hfile, ⟨name, hname⟩, ⟨level, hlevel⟩,
      hempty, hhome⟩
    exact ⟨resolver, hresolver, logging, hlogging, some text, hfile, name, hname, level, hlevel,
      text, rfl, hempty, hhome⟩

/-- A file fails for the home of an unknown user if and only if it names one. -/
theorem ofFile_eq_unknownHome_iff {homes : Homes} {file : TomlTable} :
    ofFile homes file = .error .unknownHome ↔ NamesUnknownHome homes file :=
  @ofFile_eq_failure_iff homes file .unknownUser

/-- A file fails for a tilde that stands for no home or for a faulty setting. -/
theorem failsOnly_ofFile (homes : Homes) (file : TomlTable) :
    FailsOnly (fun failure => (∃ cause : HomeFault, failure = cause.failure) ∨
      ∃ fault, failure = .setting fault) (ofFile homes file) := by
  have hfailing {α : Type} (result : Except SettingFault α) :
      FailsOnly (fun failure => (∃ cause : HomeFault, failure = cause.failure) ∨
        ∃ fault, failure = .setting fault) (failing result) :=
    .mapError fun fault _ => Or.inr ⟨fault, rfl⟩
  rw [ofFile_eq]
  refine .bind (hfailing _) fun resolver => .bind (hfailing _) fun logging =>
    .bind (hfailing _) fun fileText => .bind (hfailing _) fun name =>
      .bind (hfailing _) fun level => .bind (fun failure h => ?_) fun path =>
        .bind (hfailing _) fun format => .bind (hfailing _) fun flag =>
          .bind (hfailing _) fun size => .bind (hfailing _) fun count => .ok _
  obtain ⟨text, -, -, cause, -, rfl⟩ := logPath_eq_error_iff.mp h
  exact Or.inl ⟨cause, rfl⟩

end SettingSource

/-- Examining a file fails if it cannot be looked at and is not missing. -/
theorem FileTree.modifiedIfPresent_eq_error_iff {tree : FileTree} {path : Path}
    {failure : ConfigFailure} : tree.modifiedIfPresent path = .error failure ↔
      ∃ fault, tree.look path = .error fault ∧ fault.problem ≠ .notFound ∧
        .file fault = failure := by
  rw [modifiedIfPresent]
  cases hlook : tree.look path with
  | ok node =>
    obtain ⟨⟨time, hmodified⟩, -⟩ := modified_content_of_look_ok hlook
    simp [hmodified]
  | error fault =>
    rw [(modified_content_of_look_error hlook).1]
    by_cases hproblem : fault.problem = .notFound <;> simp [hproblem]

/-- Reading a file fails in no way that is not foreseen. -/
theorem FileTree.failsOnly_tableIn (tree : FileTree) (path : Path) :
    FailsOnly ConfigFailure.IsForeseen (tree.tableIn path) := by
  rw [tableIn_eq]
  split
  · split
    · exact .ok _
    · next hproblem => exact .error hproblem
    · exact .error trivial
  · split
    · exact .ok _
    · exact .error trivial
    · exact .error trivial

/-- A file that is ignored is no failure, and any other failure stays as it is. -/
theorem failsOnly_leniently {P : ConfigFailure → Prop} {result : Except ConfigFailure TomlTable}
    (strict : Bool) (h : FailsOnly P result) : FailsOnly P (leniently strict result) := by
  cases result with
  | ok table => exact h
  | error failure =>
    cases failure with
    | unreadable place => exact .ite h (.ok _)
    | _ => exact h

/-- Without strictness a file that cannot be read is ignored. -/
theorem failsOnly_leniently_false (result : Except ConfigFailure TomlTable) :
    FailsOnly (fun failure => ∀ place, failure ≠ .unreadable place) (leniently false result) := by
  cases result with
  | ok table => exact .ok _
  | error failure =>
    cases failure with
    | unreadable place => exact .ok _
    | _ => exact .error fun _ => nofun

namespace FileSession

variable {session : FileSession} {path : Path} {strict : Bool}

/-- Loading a file fails in a way that is not foreseen if and only if the file cannot be examined,
though its path is one and it is not missing. -/
theorem answer_unforeseen_iff :
    (∃ failure, session.answer path strict = .error failure ∧ ¬ failure.IsForeseen) ↔
      ∃ fault, session.tree.look path = .error fault ∧
        fault.problem ≠ .notFound ∧ fault.problem ≠ .nullCharacter := by
  rw [answer, (loadConfigFile_spec ..).1]
  constructor
  · rintro ⟨failure, hfailure, hunforeseen⟩
    rcases bind_eq_error_iff.mp hfailure with hmodified | ⟨modified, -, hread⟩
    · obtain ⟨fault, hlook, hmissing, rfl⟩ := FileTree.modifiedIfPresent_eq_error_iff.mp hmodified
      exact ⟨fault, hlook, hmissing, hunforeseen⟩
    · split at hread
      · contradiction
      · have hforeseen := failsOnly_leniently strict (session.tree.failsOnly_tableIn path)
        exact absurd (hforeseen _ hread) hunforeseen
  · rintro ⟨fault, hlook, hmissing, hnull⟩
    refine ⟨.file fault, ?_, hnull⟩
    rw [FileTree.modifiedIfPresent_eq_error_iff.mpr ⟨fault, hlook, hmissing, rfl⟩, error_bind]

/-- Without strictness a file that cannot be read is no failure. -/
theorem failsOnly_answer_false (session : FileSession) (path : Path) :
    FailsOnly (fun failure => ∀ place, failure ≠ .unreadable place)
      (session.answer path false) := by
  rw [answer, (loadConfigFile_spec ..).1]
  refine .bind (fun failure h => ?_) fun modified => ?_
  · obtain ⟨fault, -, -, rfl⟩ := FileTree.modifiedIfPresent_eq_error_iff.mp h
    intro place hplace
    contradiction
  · split
    · exact .ok _
    · exact failsOnly_leniently_false _

/-- Nothing is remembered of a file with its time of modification. -/
def IsNew (session : FileSession) (path : Path) : Prop :=
  ∀ modified, session.tree.modifiedIfPresent path = .ok modified →
    session.state.recall path modified = none

/-- Loading a file of which nothing is remembered is reading it. -/
theorem answer_of_isNew (hnew : session.IsNew path) :
    session.answer path strict = session.tree.modifiedIfPresent path >>= fun _ =>
      leniently strict (session.tree.tableIn path) := by
  rw [answer, (loadConfigFile_spec ..).1]
  cases hmodified : session.tree.modifiedIfPresent path with
  | error failure => rfl
  | ok modified => rw [ok_bind, ok_bind, hnew modified hmodified]

/-- Without strictness, a file that cannot be read and of which nothing is remembered is ignored,
unless it cannot be examined or comes to an integer with too many digits. -/
theorem answer_of_unreadable (hnew : session.IsNew path)
    (hunreadable : session.tree.promised path true = .error (.unreadable path)) :
    session.answer path false = .ok [] ∨
      (∃ fault, session.answer path false = .error (.file fault)) ∨
      ∃ count, session.answer path false = .error (.setting (.tooManyDigits count)) := by
  rw [answer_of_isNew hnew]
  cases hmodified : session.tree.modifiedIfPresent path with
  | error failure =>
    obtain ⟨fault, -, -, rfl⟩ := FileTree.modifiedIfPresent_eq_error_iff.mp hmodified
    exact Or.inr (Or.inl ⟨fault, rfl⟩)
  | ok modified =>
    rw [ok_bind, FileTree.tableIn_eq]
    rw [FileTree.promised] at hunreadable
    cases hcontent : session.tree.content path with
    | error fault =>
      rw [hcontent] at hunreadable
      dsimp only at hunreadable ⊢
      split
      · next hmissing => simp [hmissing] at hunreadable
      · exact Or.inr (Or.inl ⟨fault, rfl⟩)
      · exact Or.inl rfl
    | ok bytes =>
      rw [hcontent] at hunreadable
      dsimp only at hunreadable ⊢
      split
      · next htable => simp [htable] at hunreadable
      · next count _ => exact Or.inr (Or.inr ⟨count, rfl⟩)
      · exact Or.inl rfl

end FileSession

/-- A file that cannot be read is promised to count as an empty table without strictness. -/
theorem FileTree.promised_false_of_unreadable {tree : FileTree} {path : Path}
    (h : tree.promised path true = .error (.unreadable path)) :
    tree.promised path false = .ok [] := by
  rw [promised] at h ⊢
  split at h
  · split at h
    · contradiction
    · next hproblem => rw [if_neg hproblem, if_neg Bool.false_ne_true]
  · split at h
    · contradiction
    · rw [if_neg Bool.false_ne_true]

end DriverPolicy
