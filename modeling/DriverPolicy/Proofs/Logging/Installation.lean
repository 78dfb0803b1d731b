import DriverPolicy.Logging.Root
import DriverPolicy.Proofs.Settings.Range

/-!
# Configuring the root logger

A configuration is installed as a whole or not at all: it fails only over the path of its log file,
before any handler is touched. Otherwise the handlers of the configuration before make room for one
handler for the file that was opened, if one was, and one for the error output, if that is asked for
or no file was opened. Writing records never changes which handlers there are.
-/

namespace DriverPolicy

namespace LoggingConfig

variable {config : LoggingConfig} {files : FileTree}

/-- What opening the log file gives; none if there is no log file or it begins with a tilde that
stands for no home. -/
def opening? (config : LoggingConfig) (homes : Homes) (files : FileTree) (now : Instant) :
    Option (FileTree × Except FileFault Path) :=
  (config.file.bind fun file => (homes.expand file).toOption).map fun path =>
    LogState.openLog files path (now.microseconds.fdiv 1000000)

/-- The path of the log file from the root, if there is one and it can be opened. -/
def openedFile (config : LoggingConfig) (homes : Homes) (files : FileTree) (now : Instant) :
    Option Path :=
  match config.opening? homes files now with
  | some (_, .ok path) => some path
  | _ => none

/-- The log file, if there is one, has a path: its home is known and it holds no null character.
Whether it can be opened is another matter. -/
def HasPath (config : LoggingConfig) (homes : Homes) (files : FileTree) (now : Instant) : Prop :=
  ∀ file ∈ config.file, ∃ path, homes.expand file = .ok path ∧
    ∀ fault, (LogState.openLog files path (now.microseconds.fdiv 1000000)).2 = .error fault →
      fault.problem ≠ .nullCharacter

/-- A log file that is refused for anything but a null character has a path, and is not opened. -/
theorem hasPath_of_refused (config : LoggingConfig) (homes : Homes) (now : Instant)
    {file path : Path} {fault : FileFault} (hfile : config.file = some file)
    (hpath : homes.expand file = .ok path)
    (h : (LogState.openLog files path (now.microseconds.fdiv 1000000)).2 = .error fault)
    (hnull : fault.problem ≠ .nullCharacter) :
    config.HasPath homes files now ∧ config.openedFile homes files now = none := by
  constructor
  · rw [HasPath, hfile]
    rintro _ ⟨⟩
    refine ⟨path, hpath, fun other hother => ?_⟩
    rw [h] at hother
    cases hother
    exact hnull
  · rw [openedFile, opening?, hfile, Option.bind_some, hpath, Except.toOption, Option.map_some]
    split
    · next heq =>
      rw [Option.some.inj heq] at h
      contradiction
    · rfl

/-- Where lines go when a log file was opened or not: to the file that was, and to the error output
if that is asked for or there is no open file. -/
def targets (config : LoggingConfig) (opened : Option Path) : List LogTarget :=
  (opened.map fun path => .file path config.maxBytes config.backupCount).toList ++
    if config.includeStderr = true ∨ opened = none then [.errorOutput] else []

/-- A configuration in range names one of four levels, in any case of letters, and has it as its
least level. -/
theorem level_cases (h : config.check = .ok ()) :
    (lowered config.level, config.leastLevel) ∈
      [("debug", Level.debug), ("info", .info), ("warning", .warning), ("error", .error)] := by
  have hlevel : lowered config.level ∈ ["debug", "info", "warning", "error"] := by
    by_contra hout
    rw [check, if_pos (Level.isNone_ofName?.mpr hout)] at h
    contradiction
  simp only [List.mem_cons, List.not_mem_nil, or_false] at hlevel
  rcases hlevel with hlevel | hlevel | hlevel | hlevel <;>
    simp [leastLevel, Level.ofName?, hlevel]

/-- The least level of a configuration in range is the one that it names, in any case of letters. -/
theorem lowered_leastLevel (h : config.check = .ok ()) :
    lowered config.leastLevel.name = lowered config.level := by
  have hlevel := level_cases h
  revert hlevel
  generalize lowered config.level = name
  generalize config.leastLevel = level
  simp only [List.mem_cons, List.not_mem_nil, or_false, Prod.mk.injEq]
  rintro (⟨rfl, rfl⟩ | ⟨rfl, rfl⟩ | ⟨rfl, rfl⟩ | ⟨rfl, rfl⟩) <;> decide

/-- A configuration in range drops warnings if it names the level of errors, in any case of letters,
and not otherwise. -/
theorem warning_below_iff (h : config.check = .ok ()) :
    Level.warning.rank < config.leastLevel.rank ↔ lowered config.level = "error" := by
  have hlevel := level_cases h
  revert hlevel
  generalize lowered config.level = name
  generalize config.leastLevel = level
  simp only [List.mem_cons, List.not_mem_nil, or_false, Prod.mk.injEq]
  rintro (⟨rfl, rfl⟩ | ⟨rfl, rfl⟩ | ⟨rfl, rfl⟩ | ⟨rfl, rfl⟩) <;> decide

end LoggingConfig

namespace RootLogger

variable (root : RootLogger) (targets : List LogTarget) (level : Level) (format : LogFormat)

/-- The handlers that are installed go to the targets, in order. -/
theorem map_target_install :
    (root.install targets level format).installed.map (·.target) = targets :=
  List.ext_getElem (by simp [install]) (by simp [install])

/-- The handlers that are installed take the next numbers. -/
theorem map_number_install :
    (root.install targets level format).installed.map (·.number) =
      (List.range targets.length).map (root.made + ·) :=
  List.ext_getElem (by simp [install]) (by simp [install])

/-- The handlers that are installed have the level of the logger. -/
theorem level_of_mem_install {handler : LogHandler}
    (h : handler ∈ (root.install targets level format).installed) :
    handler.level = (root.install targets level format).level := by
  obtain ⟨_, _, rfl⟩ := List.mem_mapIdx.mp h
  rfl

/-- Of handlers from elsewhere around others those from elsewhere are kept. -/
theorem filter_around {keeps : RootHandler → Bool} {before behind : List String}
    {others : List LogHandler} (hothers : ∀ handler ∈ others, keeps (.own handler) = false)
    (hforeign : ∀ name, keeps (.foreign name) = true) :
    (before.map RootHandler.foreign ++ others.map RootHandler.own ++
      behind.map RootHandler.foreign).filter keeps = (before ++ behind).map .foreign := by
  have hnone : (others.map RootHandler.own).filter keeps = [] := by
    simpa [List.filter_eq_nil_iff] using hothers
  have hall (names : List String) : (names.map RootHandler.foreign).filter keeps =
      names.map .foreign := by
    simpa [List.filter_eq_self] using fun name _ => hforeign name
  rw [List.filter_append, List.filter_append, hnone, hall, hall, List.append_nil, List.map_append]

/-- The handlers from elsewhere stay in their order, and those that are installed come behind them
in the place of those that were. -/
theorem handlers_install {before behind : List String}
    (h : root.handlers =
      before.map .foreign ++ root.installed.map .own ++ behind.map .foreign) :
    (root.install targets level format).handlers = (before ++ behind).map .foreign ++
      (root.install targets level format).installed.map .own := by
  rw [install, h, filter_around (fun handler hmem => by simpa using hmem) fun _ => rfl]

end RootLogger

namespace LogState

variable (state : LogState)

/-- A log file cannot be opened if the directories on its way cannot be made. -/
theorem openLog_of_error {files made : FileTree} {path : Path} {time : Int} {fault : FileFault}
    (h : files.ensureDirectories path.parent = (made, .error fault)) :
    openLog files path time = (made, .error fault) := by
  rw [openLog, h]

/-- A log file below a plain file is refused. -/
theorem openLog_below_file :
    openLog ⟨[(["plain"], .file ⟨#[]⟩ 0)], []⟩ ⟨.here, ["plain", "x.log"]⟩ 0 =
      (⟨[(["plain"], .file ⟨#[]⟩ 0)], []⟩, .error ⟨.exists, "plain"⟩) := by
  refine openLog_of_error ?_
  rw [FileTree.ensureDirectories]
  rfl

/-- Logging a record leaves the root logger as it is. -/
@[simp] theorem root_log (context : Context) (record : LogRecord) :
    (state.log context record).root = state.root := by
  rw [log]
  split <;> rfl

/-- Logging what was reported leaves the root logger as it is. -/
@[simp] theorem root_reportAll (now : Instant) (entries : List Entry) :
    (state.reportAll now entries).root = state.root := by
  induction entries generalizing state with
  | nil => rfl
  | cons entry entries ih => exact (ih _).trans (root_log ..)

/-- The handlers that a configuration asks for are installed, and opening its log file has left some
files. -/
def equipped (config : LoggingConfig) (opened : Option Path) (files : FileTree) : LogState where
  root := state.root.install (config.targets opened) config.leastLevel config.lineFormat
  output := { state.output with files }

/-- What configuring comes to: the log file is looked at first, its home and then what opening it
leads to, and the handlers are installed for what was found. A log file that is refused is
reported. -/
theorem configureOpening_eq (homes : Homes) (config : LoggingConfig) (now : Instant)
    (opening : Path → FileTree × Except OpeningFault Path) :
    state.configureOpening homes config now opening =
      match config.file with
      | none => .ok (state.equipped config none state.output.files)
      | some file =>
        match homes.expand file with
        | .error fault => .error ⟨fault.failure, state.output.files⟩
        | .ok path =>
          match opening path with
          | (files, .ok full) => .ok (state.equipped config (some full) files)
          | (files, .error (.noPath text)) => .error ⟨.file ⟨.nullCharacter, text⟩, files⟩
          | (files, .error (.refused reason)) =>
            .ok ((state.equipped config none files).report now
              ⟨.clear, .logFileRefused file.text reason⟩) := by
  rw [configureOpening]
  cases config.file with
  | none => simp [equipped, LoggingConfig.targets]
  | some file =>
    dsimp only
    cases homes.expand file with
    | error fault => rfl
    | ok path =>
      dsimp only
      generalize opening path = opened
      obtain ⟨files, result⟩ := opened
      cases result with
      | ok full =>
        by_cases hstderr : config.includeStderr = true <;>
          simp [equipped, LoggingConfig.targets, hstderr]
      | error fault =>
        cases fault with
        | noPath text => rfl
        | refused reason => simp [equipped, LoggingConfig.targets]

/-- A configuration is installed if its log file has a path, and is a failure if not. Once it is
installed, records may be logged. -/
theorem configure_cases (homes : Homes) (config : LoggingConfig) (now : Instant) :
    (config.HasPath homes state.output.files now ∧
      ∃ files entries, state.configure homes config now = .ok (reportAll
        ⟨state.root.install (config.targets (config.openedFile homes state.output.files now))
            config.leastLevel config.lineFormat, { state.output with files }⟩ now entries)) ∨
    (¬ config.HasPath homes state.output.files now ∧
      ∃ failure, state.configure homes config now = .error failure) := by
  rw [configure, configureOpening_eq, LoggingConfig.openedFile, LoggingConfig.opening?,
    LoggingConfig.HasPath]
  cases config.file with
  | none => exact Or.inl ⟨by simp, state.output.files, [], rfl⟩
  | some file =>
    simp only [Option.mem_def, Option.some.injEq, forall_eq', Option.bind_some]
    cases homes.expand file with
    | error fault => exact Or.inr ⟨by simp, _, rfl⟩
    | ok path =>
      simp only [Except.ok.injEq, exists_eq_left', Except.toOption, Option.map_some]
      generalize openLog state.output.files path (now.microseconds.fdiv 1000000) = opened
      obtain ⟨files, result⟩ := opened
      cases result with
      | ok full => exact Or.inl ⟨by simp, files, [], rfl⟩
      | error fault =>
        obtain ⟨problem, text⟩ := fault
        cases problem with
        | nullCharacter => exact Or.inr ⟨by simp, _, rfl⟩
        | _ => exact Or.inl ⟨by simp, files, [⟨.clear, .logFileRefused file.text _⟩], rfl⟩

end LogState

end DriverPolicy
