import DriverPolicy.Logging.Root

/-!
# What logging writes

The logged part of the error output is made of lines of records and of reports that a record was
lost, however the root logger is configured and whatever is logged. So it has nothing but lines if
and only if no record was lost.
-/

namespace DriverPolicy

/-- A piece is the line of a record, or the report of one that was lost. -/
inductive LogPiece.Arises : LogPiece → Prop
  | line {record : LogRecord} {format : LogFormat} {text : String}
      (hline : record.line format = .ok text) : Arises (.line text)
  | lost (record : LostRecord) : Arises (.lost record)

namespace LogOutput

variable {output : LogOutput}

/-- What was written are lines of records and reports of those that were lost. -/
def IsLogged (output : LogOutput) : Prop := ∀ piece ∈ output.written, piece.Arises

/-- What was written are lines of records and nothing else. -/
def HasOnlyLines (output : LogOutput) : Prop :=
  ∀ piece ∈ output.written, ∃ (record : LogRecord) (format : LogFormat) (text : String),
    record.line format = .ok text ∧ piece = .line text

/-- There are only lines if no record was lost. -/
theorem IsLogged.hasOnlyLines_iff (h : output.IsLogged) :
    output.HasOnlyLines ↔ output.lost = [] := by
  rw [lost, List.filterMap_eq_nil_iff]
  constructor
  · intro hlines piece hpiece
    obtain ⟨record, format, text, -, rfl⟩ := hlines piece hpiece
    rfl
  · intro hlost piece hpiece
    cases h piece hpiece with
    | line hline => exact ⟨_, _, _, hline, rfl⟩
    | lost record => exact absurd (hlost _ hpiece) (Option.some_ne_none record)

/-- One more piece is written. -/
theorem IsLogged.write (h : output.IsLogged) {piece : LogPiece} (hpiece : piece.Arises) :
    (output.write piece).IsLogged := by
  intro other hother
  rcases List.mem_append.mp hother with hbefore | hlast
  · exact h other hbefore
  · rwa [List.mem_singleton.mp hlast]

end LogOutput

/-- Writing the line of a record adds it to what was logged or to a file, or reports that the record
is lost. -/
theorem LogHandler.isLogged_put {handler : LogHandler} {output : LogOutput} {record : LogRecord}
    {format : LogFormat} {line : String} (h : output.IsLogged)
    (hline : record.line format = .ok line) : (handler.put record line output).IsLogged := by
  rw [put]
  split
  · exact h.write (.line hline)
  · dsimp only
    split
    next result files hrun =>
      cases result with
      | ok value => exact h
      | error fault => exact LogOutput.IsLogged.write h (.lost _)

/-- Handing a record to a handler logs its line, that it is lost, or nothing. -/
theorem LogHandler.isLogged_handle {handler : LogHandler} {output : LogOutput} (context : Context)
    (record : LogRecord) (h : output.IsLogged) :
    (handler.handle context record output).2.IsLogged := by
  rw [handle]
  split
  · exact h
  · dsimp only
    split
    · next hline => exact LogHandler.isLogged_put h hline
    · exact h.write (.lost _)

namespace LogState

/-- What every handler preserves, of the record that it hands on and of the output, holds after all of
them. -/
theorem handleAll_induction (P : LogRecord → Prop) (Q : LogOutput → Prop) {context : Context}
    {handlers : List RootHandler}
    (hstep : ∀ handler, .own handler ∈ handlers → ∀ record output, P record → Q output →
      P (handler.handle context record output).1 ∧ Q (handler.handle context record output).2)
    {record : LogRecord} {output : LogOutput} (hrecord : P record) (houtput : Q output) :
    Q (handleAll context handlers record output) := by
  induction handlers generalizing record output with
  | nil => exact houtput
  | cons handler rest ih =>
    have hrest : ∀ other, .own other ∈ rest → .own other ∈ handler :: rest :=
      fun other hother => List.mem_cons_of_mem _ hother
    cases handler with
    | foreign name => exact ih (fun other hother => hstep other (hrest other hother)) hrecord houtput
    | own handler =>
      obtain ⟨hnext, hafter⟩ := hstep handler List.mem_cons_self record output hrecord houtput
      exact ih (fun other hother => hstep other (hrest other hother)) hnext hafter

variable {state : LogState}

/-- Logging a record logs lines of it, or that it is lost. -/
theorem isLogged_log (context : Context) (record : LogRecord) (h : state.output.IsLogged) :
    (state.log context record).output.IsLogged := by
  rw [log]
  split
  · exact h
  · exact handleAll_induction (fun _ => True) LogOutput.IsLogged (fun handler _ record _ _ houtput =>
      ⟨trivial, LogHandler.isLogged_handle context record houtput⟩) trivial h

end LogState

end DriverPolicy
