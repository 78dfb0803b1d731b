import DriverPolicy.Proofs.Logging.Attributes
import DriverPolicy.Proofs.Logging.Messages
import DriverPolicy.Proofs.Logging.Session

/-!
# Log files that are refused

A log file can be refused for any reason that the system gives. The root logger is configured all
the same: its one new handler writes to the error output, and the first record that it is given is a
warning that names the file. Like any record the warning has to reach the level of the
configuration, and of the four levels only that of errors is above it.
-/

namespace DriverPolicy

/-- The line that reports an event outside of all contexts. -/
def Event.line (event : Event) (now : Instant) : LogFormat → String
  | .text => s!"{now.secondStamp} - {event.channel} - {event.level.name} - {event.message}"
  | .json =>
    (Json.object [("timestamp", .text now.fullStamp), ("level", .text event.level.name),
      ("message", .text event.message), ("logger", .text event.channel)]).compact

namespace LogRecord

/-- The line of text of a record without an exception. -/
theorem textLine_eq {record : LogRecord} {message : String} {time : Instant}
    (hmessage : record.message = .ok message) (htime : record.time = .ok time)
    (hexception : record.exceptionText = .ok none) :
    record.textLine = .ok (s!"{time.secondStamp} - {record.tag}{record.logger.display} - " ++
      s!"{record.levelName.display} - {message}") := by
  rw [textLine, hmessage, htime, hexception]
  simp [toString, String.append_assoc]

variable (event : Event) (now : Instant)

/-- Outside of all contexts the record of an event has the three attributes that a context sets, and
no value that is shown. -/
theorem inContext_clear_ofEvent : (ofEvent event now).inContext .clear =
    { ofEvent event now with
      attributes :=
        [("policy_family", .null), ("expression", .null), ("resolution_tag", .text "")] } :=
  inContext_eq _ _

/-- The record of an event is written as the line that reports it. -/
theorem line_ofEvent (format : LogFormat) :
    ((ofEvent event now).inContext .clear).line format = .ok (event.line now format) := by
  have hmessage : ((ofEvent event now).inContext .clear).message = .ok event.message :=
    message_ofEvent event now
  rw [inContext_clear_ofEvent] at hmessage ⊢
  cases format with
  | text =>
    rw [line, @textLine_eq _ event.message now hmessage rfl rfl]
    simp [Event.line, tag, attribute?, ofEvent, make, Json.display, toString, String.append_assoc]
  | json =>
    have hlogger : loggerPart (ofEvent event now) = [("logger", .text event.channel)] := by
      cases event <;> rfl
    rw [line, jsonLine, toJson_eq_ok_iff.mpr ⟨now, event.message, none, rfl, hmessage, rfl, rfl⟩,
      entry]
    change Except.ok
      (Json.compact (.object (_ ++ loggerPart (ofEvent event now) ++ _ ++ _ ++ _))) = _
    rw [hlogger]
    rfl

end LogRecord

/-- What reporting an event to the error output adds to it: its line, unless it is below a level. -/
def Event.added (event : Event) (now : Instant) (level : Level) (format : LogFormat) : String :=
  if event.level.rank < level.rank then "" else event.line now format ++ "\n"

/-- A handler for the error output writes the record of an event of its level or above. -/
theorem LogHandler.errors_handle_ofEvent {handler : LogHandler} (h : handler.target = .errorOutput)
    (event : Event) (now : Instant) (output : LogOutput) :
    (handler.handle .clear (.ofEvent event now) output).2.errors =
      output.errors ++ event.added now handler.level handler.format := by
  have hlevel : (LogRecord.ofEvent event now).level = event.level := rfl
  rw [handle, hlevel, Event.added]
  split
  · exact String.append_empty.symm
  · simp only [LogRecord.line_ofEvent, put, h, LogOutput.errors_write, LogPiece.text]

namespace LogState

/-- Handlers from elsewhere in front of the others do not matter to these. -/
theorem handleAll_foreign (context : Context) (names : List String) (rest : List RootHandler)
    (record : LogRecord) (output : LogOutput) :
    handleAll context (names.map .foreign ++ rest) record output =
      handleAll context rest record output := by
  induction names with
  | nil => rfl
  | cons name names ih => exact ih

/-- An event is reported by the one handler that is not from elsewhere, if that writes to the error
output. -/
theorem errors_report {state : LogState} {names : List String} {handler : LogHandler}
    (hhandlers : state.root.handlers = names.map .foreign ++ [.own handler])
    (htarget : handler.target = .errorOutput) (hlevel : handler.level = state.root.level)
    (now : Instant) (event : Event) : (state.report now ⟨.clear, event⟩).output.errors =
      state.output.errors ++ event.added now handler.level handler.format := by
  have hrank : (LogRecord.ofEvent event now).level = event.level := rfl
  rw [report, log, hrank, hlevel]
  split
  · next hbelow => rw [Event.added, if_pos hbelow, String.append_empty]
  · rw [hhandlers, handleAll_foreign, ← hlevel]
    exact LogHandler.errors_handle_ofEvent htarget event now state.output

/-- A log file that is refused is reported once the handlers are installed. -/
theorem configureOpening_eq_of_refused (state : LogState) {homes : Homes} {config : LoggingConfig}
    {file path : Path} (hfile : config.file = some file) (hpath : homes.expand file = .ok path)
    (now : Instant) {opening : Path → FileTree × Except OpeningFault Path} {files : FileTree}
    {reason : String} (hrefused : opening path = (files, .error (.refused reason))) :
    state.configureOpening homes config now opening =
      .ok ((state.equipped config none files).report now
        ⟨.clear, .logFileRefused file.text reason⟩) := by
  rw [configureOpening_eq, hfile]
  dsimp only
  rw [hpath]
  dsimp only
  rw [hrefused]

end LogState

namespace LogSession

/-- Whatever was done with the root logger before, it can be configured with a log file that the
system refuses to open, for whatever reason. One handler is installed, for the error output, and
handlers from elsewhere stay. A warning that names the file and tells the reason is the one line
that is written, unless the level is that of errors. -/
theorem configureOpening_of_refused (output : LogOutput) (steps : List LogStep)
    {config : LoggingConfig} (inRange : config.check = .ok ()) {homes : Homes} {file path : Path}
    (hfile : config.file = some file) (hpath : homes.expand file = .ok path) (now : Instant)
    {opening : Path → FileTree × Except OpeningFault Path} {reason : String}
    (hrefused : (opening path).2 = .error (.refused reason)) :
    ∃ next handler,
      (after output steps).state.configureOpening homes config now opening = .ok next ∧
      handler.target = .errorOutput ∧ next.root.installed = [handler] ∧
      next.root.handlers = (LogStep.foreign steps).map .foreign ++ [.own handler] ∧
      next.output.errors = (after output steps).state.output.errors ++
        if lowered config.level = "error" then ""
        else (Event.logFileRefused file.text reason).line now config.lineFormat ++ "\n" := by
  obtain ⟨before, behind, hforeign, hhandlers⟩ := (sound_after output steps).handlers
  generalize (after output steps).state = state at hhandlers
  rcases hopened : opening path with ⟨files, result⟩
  obtain rfl : result = .error (.refused reason) := by simpa [hopened] using hrefused
  have htargets : config.targets none = [.errorOutput] := by simp [LoggingConfig.targets]
  -- the handlers come from installing one target, and reporting leaves them as they are
  let handler : LogHandler := ⟨state.root.made, .errorOutput, config.leastLevel, config.lineFormat⟩
  have hinstalled : (state.equipped config none files).root.installed = [handler] := by
    rw [LogState.equipped, htargets]
    rfl
  have hequipped : (state.equipped config none files).root.handlers =
      (LogStep.foreign steps).map .foreign ++ [.own handler] := by
    rw [← hforeign, ← List.map_singleton, ← hinstalled]
    exact RootLogger.handlers_install state.root _ _ _ hhandlers
  refine ⟨_, handler, state.configureOpening_eq_of_refused hfile hpath now hopened, rfl,
    (congrArg _ (LogState.root_log ..)).trans hinstalled,
    (congrArg _ (LogState.root_log ..)).trans hequipped, ?_⟩
  rw [LogState.errors_report hequipped rfl rfl, Event.added]
  simp only [← LoggingConfig.warning_below_iff inRange]
  rfl

/-- Permission is denied: the one handler from elsewhere stays, and the error output shows why. -/
theorem configureOpening_of_denied :
    ∃ next handler, (after ⟨⟨[], []⟩, [], fun _ => ⟨"", ""⟩⟩
          [.addForeign "other"]).state.configureOpening
        ⟨⟨.root, []⟩, []⟩ ⟨"Info", some ⟨.root, ["var", "x.log"]⟩, "text", true, 0, 0⟩ ⟨0⟩
        (fun _ => (⟨[], []⟩, .error (.refused "[Errno 13] Permission denied: '/var/x.log'"))) =
          .ok next ∧
      handler.target = .errorOutput ∧ next.root.installed = [handler] ∧
      next.root.handlers = [.foreign "other", .own handler] ∧
      next.output.errors =
        "1970-01-01T00:00:00+0000 - cqlpolicy.logging.config - WARNING - Could not open log " ++
          "file /var/x.log, logging to stderr: [Errno 13] Permission denied: '/var/x.log'\n" := by
  have inRange : LoggingConfig.check
      ⟨"Info", some ⟨.root, ["var", "x.log"]⟩, "text", true, 0, 0⟩ = .ok () := by decide
  have hpath : Homes.expand ⟨⟨.root, []⟩, []⟩ ⟨.root, ["var", "x.log"]⟩ =
      .ok ⟨.root, ["var", "x.log"]⟩ := by decide
  obtain ⟨next, handler, hnext, htarget, hinstalled, hhandlers, herrors⟩ :=
    @configureOpening_of_refused ⟨⟨[], []⟩, [], fun _ => ⟨"", ""⟩⟩ [.addForeign "other"] _ inRange _
      _ _ rfl hpath ⟨0⟩
      (fun _ => (⟨[], []⟩, .error (.refused "[Errno 13] Permission denied: '/var/x.log'"))) _ rfl
  exact ⟨next, handler, hnext, htarget, hinstalled, hhandlers, herrors.trans (by decide +kernel)⟩

/-- The level of errors: the log file cannot be opened, and nothing says so. -/
theorem configure_silent_for_errors :
    (LogState.openLog ⟨[(["plain"], .file ⟨#[]⟩ 0)], []⟩ ⟨.here, ["plain", "x.log"]⟩ 0).2 =
        .error ⟨.exists, "plain"⟩ ∧
      ∃ next, (start ⟨⟨[(["plain"], .file ⟨#[]⟩ 0)], []⟩, [], fun _ => ⟨"", ""⟩⟩).state.configure
          ⟨⟨.root, []⟩, []⟩ ⟨"error", some ⟨.here, ["plain", "x.log"]⟩, "text", false, 0, 0⟩ ⟨0⟩ =
            .ok next ∧
        next.root.installed.map (·.target) = [.errorOutput] ∧ next.output.errors = "" := by
  have hrefused : (LogState.openLog ⟨[(["plain"], .file ⟨#[]⟩ 0)], []⟩ ⟨.here, ["plain", "x.log"]⟩
      0).map id (·.mapError FileFault.opening) = (⟨[(["plain"], .file ⟨#[]⟩ 0)], []⟩,
        .error (.refused (FileFault.message ⟨.exists, "plain"⟩))) := by
    rw [LogState.openLog_below_file]
    rfl
  refine ⟨congrArg Prod.snd LogState.openLog_below_file, _,
    LogState.configureOpening_eq_of_refused _ rfl rfl ⟨0⟩ hrefused, ?_, ?_⟩
  · rw [LogState.report, LogState.root_log]
    rfl
  · rw [LogState.report, LogState.log, if_pos (by decide)]
    rfl

end LogSession

end DriverPolicy
