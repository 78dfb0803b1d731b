import DriverPolicy.Proofs.Logging.Attributes
import DriverPolicy.Proofs.Logging.Installation
import DriverPolicy.Proofs.Logging.Messages
import DriverPolicy.Proofs.Logging.Written
import DriverPolicy.Proofs.Storage.Appending

/-!
# When records are lost

The record of an event can always be made a line, so it is only lost on the way to a log file. A log
file was appended to when it was opened, and appending leaves it so that more can be appended. So
nothing is lost unless a log file is rotated.
-/

namespace DriverPolicy

/-- A log file that was opened can be appended to. -/
theorem LogState.takes_of_openLog {tree files : FileTree} {path full : Path} {time : Int}
    (h : openLog tree path time = (files, .ok full)) : files.Takes full := by
  rw [openLog] at h
  split at h
  · exact absurd (congrArg Prod.snd h) nofun
  · dsimp only at h
    split at h
    · exact absurd (congrArg Prod.snd h) nofun
    · next happend =>
      obtain ⟨rfl, hfull⟩ := Prod.mk.inj h
      obtain rfl := Except.ok.inj hfull
      obtain ⟨place, content, hplace, hnode, -⟩ := FileTree.append_eq_ok happend
      exact FileTree.Takes.of_append ⟨place, hplace, hnode⟩ happend

/-- Nothing keeps a record from being made a line. -/
structure LogRecord.IsWritable (record : LogRecord) : Prop where
  /-- The template can be filled. -/
  message : ∃ message, record.message = .ok message
  /-- The time is known. -/
  time : ∃ time, record.time = .ok time
  /-- The exception, if there is one, can be shown. -/
  exceptionText : ∃ text, record.exceptionText = .ok text

namespace LogRecord

variable {record : LogRecord}

/-- The record of an event can be made a line. -/
theorem isWritable_ofEvent (event : Event) (now : Instant) : (ofEvent event now).IsWritable :=
  ⟨⟨_, message_ofEvent event now⟩, ⟨now, rfl⟩, ⟨none, rfl⟩⟩

/-- It does not matter what attributes filters and formatters put on a record. -/
theorem IsWritable.foldl_handled (h : record.IsWritable) (handlings : List Handling) :
    (handlings.foldl handled record).IsWritable := by
  rw [LogRecord.foldl_handled]
  exact ⟨h.message, h.time, h.exceptionText⟩

/-- A record that can be made a line is one in either form. -/
theorem IsWritable.exists_line (h : record.IsWritable) (format : LogFormat) :
    ∃ line, record.line format = .ok line := by
  obtain ⟨⟨message, hmessage⟩, ⟨time, htime⟩, ⟨text, htext⟩⟩ := h
  cases format with
  | text =>
    rw [line, textLine, hmessage, htime, htext]
    cases text <;> exact ⟨_, rfl⟩
  | json =>
    rw [line, jsonLine, toJson_eq_ok_iff.mpr ⟨time, message, text, htime, hmessage, htext, rfl⟩]
    exact ⟨_, rfl⟩

/-- It is one in every context. -/
theorem IsWritable.exists_line_inContext (h : record.IsWritable) (context : Context)
    (format : LogFormat) : ∃ line, (record.inContext context).line format = .ok line :=
  (h.foldl_handled [.filtered context]).exists_line format

end LogRecord

namespace LogTarget

/-- What goes to a target is only ever appended to what is there. -/
def NeverRotates : LogTarget → Prop
  | errorOutput => True
  | file _ maxBytes backupCount => maxBytes ≤ 0 ∨ backupCount ≤ 0

/-- Files that can take what goes to a target. -/
def IsOpenIn (files : FileTree) : LogTarget → Prop
  | errorOutput => True
  | file path _ _ => files.Takes path

end LogTarget

namespace LogFileWork

variable {path : Path} {line : String} {time : Int} {files : FileTree}

/-- A line is appended to a log file that can be appended to. -/
theorem exists_run_appendLine (h : files.Takes path) (line : String) (time : Int) :
    ∃ bytes after, files.append path bytes time = .ok after ∧
      (appendLine path line time).run.run files = (.ok (), after) := by
  obtain ⟨after, happend⟩ := h.exists_append (line ++ "\n").toUTF8 time
  refine ⟨_, after, happend, ?_⟩
  rw [appendLine, run_get_bind, happend]
  rfl

/-- Nothing comes before a line in a log file that is never rotated. -/
theorem run_writeLine {maxBytes backupCount : Int} (h : maxBytes ≤ 0 ∨ backupCount ≤ 0)
    (path : Path) (line : String) (time : Int) (files : FileTree) :
    (writeLine path maxBytes backupCount line time).run.run files =
      (appendLine path line time).run.run files := by
  rw [writeLine, run_get_bind]
  dsimp only
  split
  · next hreach =>
    have hbackups : ¬ 0 < backupCount := by
      simp only [FileTree.wouldReach, Bool.and_eq_true, decide_eq_true_eq] at hreach
      omega
    rw [rotate, if_neg hbackups]
    rfl
  · rfl

end LogFileWork

/-- On the way from an output to a later one nothing was lost, and where more could be appended it
still can be. -/
structure LogOutput.Keeps (before after : LogOutput) : Prop where
  /-- The lost records are those from before. -/
  lost : after.lost = before.lost
  /-- What can be appended to is what could be. -/
  takes : ∀ path, before.files.Takes path → after.files.Takes path

/-- The records that were lost could not be written to a log file. -/
def LogOutput.OnlyUnwritten (output : LogOutput) : Prop :=
  ∀ lost ∈ output.lost, ∃ fault, lost.reason = .writing fault

namespace LogOutput

variable {output before after next : LogOutput}

/-- Where nothing happens nothing is lost. -/
theorem Keeps.refl (output : LogOutput) : output.Keeps output := ⟨rfl, fun _ => id⟩

/-- Nothing is lost on two ways, one behind the other. -/
theorem Keeps.trans (h : before.Keeps after) (hnext : after.Keeps next) : before.Keeps next :=
  ⟨hnext.lost.trans h.lost, fun path hpath => hnext.takes path (h.takes path hpath)⟩

/-- What goes to a target can still be written. -/
theorem Keeps.isOpenIn (h : before.Keeps after) {target : LogTarget}
    (hopen : target.IsOpenIn before.files) : target.IsOpenIn after.files := by
  cases target with
  | errorOutput => trivial
  | file path maxBytes backupCount => exact h.takes path hopen

end LogOutput

/-- A handler hands on a record that can be made a line as one that can. -/
theorem LogRecord.IsWritable.handle {record : LogRecord} (h : record.IsWritable)
    (handler : LogHandler) (context : Context) (output : LogOutput) :
    (handler.handle context record output).1.IsWritable :=
  handler.record_handle context record output ▸ h.foldl_handled _

/-- A handler that never rotates its log file loses no record that can be made a line. -/
theorem LogHandler.keeps_handle {handler : LogHandler} {output : LogOutput}
    (hrotates : handler.target.NeverRotates) (hopen : handler.target.IsOpenIn output.files)
    {record : LogRecord} (h : record.IsWritable) (context : Context) :
    output.Keeps (handler.handle context record output).2 := by
  rw [handle]
  split
  · exact .refl output
  · obtain ⟨line, hline⟩ := h.exists_line_inContext context handler.format
    simp only [hline, put]
    split
    · exact ⟨by simp [LogPiece.lost?], fun _ => id⟩
    · next path maxBytes backupCount htarget =>
      rw [htarget] at hrotates hopen
      obtain ⟨bytes, after, happend, hrun⟩ :=
        LogFileWork.exists_run_appendLine hopen line (record.inContext context).second
      rw [LogFileWork.run_writeLine hrotates, hrun]
      exact ⟨rfl, fun other hother => hother.of_append happend⟩

/-- A handler loses a record that can be made a line only because it cannot write the line. -/
theorem LogHandler.onlyUnwritten_handle (handler : LogHandler) {output : LogOutput}
    (hbefore : output.OnlyUnwritten) {record : LogRecord} (h : record.IsWritable)
    (context : Context) : (handler.handle context record output).2.OnlyUnwritten := by
  rw [handle]
  split
  · exact hbefore
  · obtain ⟨line, hline⟩ := h.exists_line_inContext context handler.format
    simp only [hline, put]
    split
    · simpa [LogOutput.OnlyUnwritten, LogPiece.lost?] using hbefore
    · split
      next result files hrun =>
        cases result with
        | ok value => exact hbefore
        | error fault =>
          intro lost hlost
          simp only [LogOutput.lost_lose, List.mem_append, List.mem_singleton] at hlost
          rcases hlost with hold | rfl
          · exact hbefore lost hold
          · exact ⟨fault, rfl⟩

/-- No handler but those from elsewhere rotates its log file. -/
def RootLogger.NeverRotates (root : RootLogger) : Prop :=
  ∀ handler, .own handler ∈ root.handlers → handler.target.NeverRotates

namespace LogState

/-- The lines of all handlers can be written, except for those from elsewhere. -/
def IsOpen (state : LogState) : Prop :=
  ∀ handler, .own handler ∈ state.root.handlers → handler.target.IsOpenIn state.output.files

/-- Handlers that never rotate their log files lose no record that can be made a line. -/
theorem keeps_handleAll {handlers : List RootHandler} {output : LogOutput}
    (hrotates : ∀ handler, .own handler ∈ handlers → handler.target.NeverRotates)
    (hopen : ∀ handler, .own handler ∈ handlers → handler.target.IsOpenIn output.files)
    {record : LogRecord} (h : record.IsWritable) (context : Context) :
    output.Keeps (handleAll context handlers record output) :=
  handleAll_induction LogRecord.IsWritable output.Keeps (fun handler hmem _ _ hrecord hkeeps =>
    ⟨hrecord.handle handler context _, hkeeps.trans (LogHandler.keeps_handle
      (hrotates handler hmem) (hkeeps.isOpenIn (hopen handler hmem)) hrecord context)⟩) h (.refl output)

variable {state : LogState}

/-- A root logger loses an event only because its line cannot be written to a log file. -/
theorem onlyUnwritten_report (h : state.output.OnlyUnwritten) (now : Instant) (entry : Entry) :
    (state.report now entry).output.OnlyUnwritten := by
  rw [report, log]
  split
  · exact h
  · exact handleAll_induction LogRecord.IsWritable LogOutput.OnlyUnwritten
      (fun handler _ _ output hrecord houtput =>
        ⟨hrecord.handle handler _ output, handler.onlyUnwritten_handle houtput hrecord _⟩)
      (LogRecord.isWritable_ofEvent entry.event now) h

/-- A root logger whose log files are never rotated loses no event. -/
theorem keeps_report (hrotates : state.root.NeverRotates) (hopen : state.IsOpen) (now : Instant)
    (entry : Entry) : state.output.Keeps (state.report now entry).output := by
  rw [report, log]
  split
  · exact .refl _
  · exact keeps_handleAll hrotates hopen (LogRecord.isWritable_ofEvent entry.event now) _

/-- What was logged are lines and reports of lost records. If log files are never rotated, then none
was lost, and more can be logged. -/
structure IsSound (state : LogState) : Prop where
  /-- There are lines and reports of lost records. -/
  logged : state.output.IsLogged
  /-- A record that was lost could not be written to a log file. -/
  unwritten : state.output.OnlyUnwritten
  /-- Lines can be written unless a log file was rotated. -/
  opened : state.root.NeverRotates → state.IsOpen
  /-- None was lost unless a log file was rotated. -/
  kept : state.root.NeverRotates → state.output.lost = []

/-- A root logger without handlers loses nothing. -/
theorem isSound_fresh {output : LogOutput} (h : output.written = []) :
    IsSound ⟨.fresh, output⟩ where
  logged := by simp [LogOutput.IsLogged, h]
  unwritten := by simp [LogOutput.OnlyUnwritten, LogOutput.lost, h]
  opened _ _ hmem := by simp [RootLogger.fresh] at hmem
  kept _ := by simp [LogOutput.lost, h]

/-- Reporting an event goes well. -/
theorem IsSound.report (h : state.IsSound) (now : Instant) (entry : Entry) :
    (state.report now entry).IsSound := by
  have hroot : (state.report now entry).root = state.root := root_log ..
  have hkeeps (hrotates : (state.report now entry).root.NeverRotates) :
      state.output.Keeps (state.report now entry).output := by
    rw [hroot] at hrotates
    exact keeps_report hrotates (h.opened hrotates) now entry
  refine ⟨isLogged_log _ _ h.logged, onlyUnwritten_report h.unwritten now entry,
    fun hrotates handler hmem => ?_, fun hrotates => ?_⟩
  · rw [hroot] at hmem
    exact (hkeeps hrotates).isOpenIn (h.opened (hroot ▸ hrotates) handler hmem)
  · exact (hkeeps hrotates).lost.trans (h.kept (hroot ▸ hrotates))

/-- Reporting events goes well. -/
theorem IsSound.reportAll (h : state.IsSound) (now : Instant) (entries : List Entry) :
    (state.reportAll now entries).IsSound := by
  induction entries generalizing state with
  | nil => exact h
  | cons entry entries ih => exact ih (h.report now entry)

/-- Where lines of a configuration go is open if its log file can be appended to. -/
theorem isOpenIn_targets {config : LoggingConfig} {opened : Option Path} {files : FileTree}
    (h : ∀ path ∈ opened, files.Takes path) {target : LogTarget}
    (htarget : target ∈ config.targets opened) : target.IsOpenIn files := by
  rcases List.mem_append.mp htarget with hfile | herrors
  · obtain ⟨path, hpath, rfl⟩ := Option.map_eq_some_iff.mp (Option.mem_toList.mp hfile)
    exact h path hpath
  · split at herrors
    · rw [List.mem_singleton.mp herrors]
      trivial
    · contradiction

/-- The first handlers of a root logger lose nothing before they are given a record. -/
theorem IsSound.equipped (h : state.IsSound) (hfresh : state.root = .fresh)
    (config : LoggingConfig) {opened : Option Path} {files : FileTree}
    (hopened : ∀ path ∈ opened, files.Takes path) :
    (state.equipped config opened files).IsSound := by
  have hhandlers : (state.equipped config opened files).root.handlers =
      (state.equipped config opened files).root.installed.map .own :=
    @RootLogger.handlers_install state.root _ _ _ [] [] (by rw [hfresh]; rfl)
  refine ⟨h.logged, h.unwritten, fun _ handler hmem => ?_, fun _ => h.kept ?_⟩
  · rw [hhandlers, List.mem_map] at hmem
    obtain ⟨other, hother, hsame⟩ := hmem
    obtain rfl := RootHandler.own.inj hsame
    have htarget : other.target ∈
        (state.equipped config opened files).root.installed.map (·.target) :=
      List.mem_map_of_mem hother
    rw [LogState.equipped, RootLogger.map_target_install] at htarget
    exact isOpenIn_targets hopened htarget
  · rw [hfresh]
    intro handler hmem
    simp [RootLogger.fresh] at hmem

/-- The first configuration of a root logger loses nothing but to a log file that is rotated. -/
theorem IsSound.configure (h : state.IsSound) (hfresh : state.root = .fresh) {homes : Homes}
    {config : LoggingConfig} {now : Instant} {next : LogState}
    (hnext : state.configure homes config now = .ok next) : next.IsSound := by
  rw [LogState.configure, configureOpening_eq] at hnext
  split at hnext
  · obtain rfl := Except.ok.inj hnext
    exact h.equipped hfresh config fun path hnone => absurd hnone (Option.not_mem_none path)
  · split at hnext
    · contradiction
    · next path hpath =>
      generalize hopen : openLog state.output.files path _ = opening at hnext
      obtain ⟨files, result⟩ := opening
      cases result with
      | ok full =>
        obtain rfl := Except.ok.inj hnext
        refine h.equipped hfresh config ?_
        rintro _ ⟨⟩
        exact takes_of_openLog hopen
      | error fault =>
        obtain ⟨problem, text⟩ := fault
        cases problem with
        | nullCharacter => contradiction
        | _ =>
          obtain rfl := Except.ok.inj hnext
          refine IsSound.report ?_ _ _
          exact h.equipped hfresh config fun path hnone => absurd hnone (Option.not_mem_none path)

end LogState

end DriverPolicy
