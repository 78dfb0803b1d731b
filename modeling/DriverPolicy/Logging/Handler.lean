import DriverPolicy.Logging.Line

/-!
# Log handlers

A handler writes the records of its level and above as lines, to the error output or to a log
file. A log file that would reach its size with the next line is rotated first: every
backup takes the number after its own, the last one is dropped, and the log file starts
empty. Without backups the file just grows.

A record that cannot be made a line, or whose line cannot be written to the log file, is lost. Then
the error output gets a report of it: why it was lost, the traces of the interpreter's stack that
show how this came about, and the message of the record as it was logged.
-/

namespace DriverPolicy

/-- Where the lines of a handler go. -/
inductive LogTarget where
  | errorOutput
  | file (path : Path) (maxBytes backupCount : Int)
deriving DecidableEq, Repr

/-- A handler. Its number tells it from every other one. -/
structure LogHandler where
  /-- The number. -/
  number : Nat
  /-- Where the lines go. -/
  target : LogTarget
  /-- The least level that is written. -/
  level : Level
  /-- The form of a line. -/
  format : LogFormat
deriving DecidableEq, Repr

/-- Why a line cannot be written to a log file. -/
inductive WritingFault where
  /-- The log file or a backup of it is not as it should be. -/
  | file (fault : FileFault)
  /-- The log file or a backup of it cannot be given the path of a backup. -/
  | moving (problem : FileProblem) (source target : Path)
deriving DecidableEq, Repr

namespace WritingFault

/-- A fault as a kind of error. -/
def kind : WritingFault → String
  | file fault => fault.problem.kind
  | moving problem _ _ => problem.kind

/-- A fault in words. -/
def message : WritingFault → String
  | file fault => fault.message
  | moving problem source target =>
    FileFault.message ⟨problem, source.text⟩ ++ " -> " ++ quoted target.text

end WritingFault

/-- Why a record is lost. -/
inductive LossReason where
  /-- The record cannot be made a line. -/
  | record (fault : RecordFault)
  /-- The line cannot be written to the log file. -/
  | writing (fault : WritingFault)
deriving DecidableEq, Repr

namespace LossReason

/-- A reason as a kind of error. -/
def kind : LossReason → String
  | record fault => fault.kind
  | writing fault => fault.kind

/-- A reason in words. -/
def message : LossReason → String
  | record fault => fault.message
  | writing fault => fault.message

/-- A reason on a line of its own. -/
def line (reason : LossReason) : String :=
  if reason.message = "" then reason.kind ++ "\n"
  else reason.kind ++ ": " ++ reason.message ++ "\n"

end LossReason

/-- The traces of the interpreter's stack that are shown with a record that is lost. -/
structure StackTraces where
  /-- The way to the failure. -/
  failure : String
  /-- The way to where the record was logged. -/
  call : String
deriving DecidableEq, Repr

/-- A record that was lost. -/
structure LostRecord where
  /-- Why it was lost. -/
  reason : LossReason
  /-- The template of its message. -/
  template : String
  /-- The values for the template. -/
  values : TemplateValues
  /-- The traces that are shown with it. -/
  traces : StackTraces

/-- The report of a record that was lost. -/
def LostRecord.report (lost : LostRecord) : String :=
  "--- Logging error ---\n" ++ lost.traces.failure ++ lost.reason.line ++
  "Call stack:\n" ++ lost.traces.call ++
  "Message: " ++ quoted lost.template ++ "\nArguments: " ++ lost.values.display ++ "\n"

/-- What logging writes to the error output: the line of a record, or that a record was lost. -/
inductive LogPiece where
  | line (text : String)
  | lost (record : LostRecord)

namespace LogPiece

/-- A piece as it is written. -/
def text : LogPiece → String
  | line text => text ++ "\n"
  | lost record => record.report

/-- The record that a piece reports as lost. -/
def lost? : LogPiece → Option LostRecord
  | line _ => none
  | lost record => some record

end LogPiece

/-- The files, and what logging has written to the error output. -/
structure LogOutput where
  /-- The files. -/
  files : FileTree
  /-- What was written to the error output, the first piece first. -/
  written : List LogPiece
  /-- The traces that the interpreter shows with a record that is lost, by the number of those that
  were lost before. -/
  traces : Nat → StackTraces

namespace LogOutput

/-- The error output. -/
def errors (output : LogOutput) : String := String.join (output.written.map LogPiece.text)

/-- The records that were lost, the first one first. -/
def lost (output : LogOutput) : List LostRecord := output.written.filterMap LogPiece.lost?

/-- Write to the error output. -/
def write (output : LogOutput) (piece : LogPiece) : LogOutput :=
  { output with written := output.written ++ [piece] }

/-- What is written comes behind what was written before. -/
@[simp] theorem errors_write (output : LogOutput) (piece : LogPiece) :
    (output.write piece).errors = output.errors ++ piece.text := by
  simp [errors, write]

/-- Only a piece that reports a lost record adds to those that were lost. -/
@[simp] theorem lost_write (output : LogOutput) (piece : LogPiece) :
    (output.write piece).lost = output.lost ++ piece.lost?.toList := by
  rw [lost, write, List.filterMap_append]
  cases piece <;> rfl

/-- Report that a record is lost. -/
def lose (output : LogOutput) (record : LogRecord) (reason : LossReason) : LogOutput :=
  output.write
    (.lost ⟨reason, record.template, record.values, output.traces output.lost.length⟩)

/-- A record that is lost comes behind those that were lost before. -/
@[simp] theorem lost_lose (output : LogOutput) (record : LogRecord) (reason : LossReason) :
    (output.lose record reason).lost = output.lost ++
      [⟨reason, record.template, record.values, output.traces output.lost.length⟩] :=
  output.lost_write _

end LogOutput

/-- The path of a backup of a log file. -/
def Path.backup (path : Path) (n : Nat) : Path := path.withEnding s!".{n}"

/-- Whether a line would bring a log file to its greatest size: the file counts in bytes, the
line in characters with its end. -/
def FileTree.wouldReach (tree : FileTree) (path : Path) (line : String) (maxBytes : Int) : Bool :=
  let size := match tree.content path with | .ok bytes => bytes.size | .error _ => 0
  !tree.isDirectory path && 0 < maxBytes && maxBytes ≤ size + line.length + 1

/-- Work on log files, which may fail; what it did before stays. -/
abbrev LogFileWork := ExceptT WritingFault (StateM FileTree)

namespace LogFileWork

/-- Remove the file at a path, if something stands there. -/
def clear (path : Path) : LogFileWork Unit := do
  let tree ← get
  if tree.holds path then
    match tree.remove path with
    | .ok tree => set tree
    | .error fault => throw (.file fault)

/-- Give a file another path. -/
def rename (source target : Path) : LogFileWork Unit := do
  match (← get).move source target with
  | .ok tree => set tree
  | .error problem => throw (.moving problem source target)

/-- Give each of the first `count` backups the number after its own, from the last one on. -/
def shiftBackups (path : Path) : Nat → LogFileWork Unit
  | 0 => return
  | count + 1 => do
    if (← get).holds (path.backup (count + 1)) then
      clear (path.backup (count + 2))
      rename (path.backup (count + 1)) (path.backup (count + 2))
    shiftBackups path count

/-- Rotate a log file: it becomes its first backup. -/
def rotate (path : Path) (backupCount : Int) : LogFileWork Unit := do
  if 0 < backupCount then
    shiftBackups path (backupCount.toNat - 1)
    clear (path.backup 1)
    if (← get).holds path then rename path (path.backup 1)

/-- Append a line to a log file. -/
def appendLine (path : Path) (line : String) (time : Int) : LogFileWork Unit := do
  match (← get).append path (line ++ "\n").toUTF8 time with
  | .ok tree => set tree
  | .error fault => throw (.file fault)

/-- Write a line to a log file, which is rotated first if the line would bring it to its
greatest size. -/
def writeLine (path : Path) (maxBytes backupCount : Int) (line : String) (time : Int) :
    LogFileWork Unit := do
  if (← get).wouldReach path line maxBytes then rotate path backupCount
  appendLine path line time

end LogFileWork

namespace LogHandler

/-- Write the line of a record to where a handler's lines go. The record is lost if it cannot be
written to the log file. -/
def put (handler : LogHandler) (record : LogRecord) (line : String) (output : LogOutput) :
    LogOutput :=
  match handler.target with
  | .errorOutput => output.write (.line line)
  | .file path maxBytes backupCount =>
    let work := LogFileWork.writeLine path maxBytes backupCount line record.second
    let (result, files) := work.run.run output.files
    match result with
    | .ok () => { output with files }
    | .error fault => { output with files }.lose record (.writing fault)

/-- Hand a record to a handler in a context: the record as it is afterwards, and the output. A
record below the handler's level is left alone, and one that cannot be made a line is lost. -/
def handle (handler : LogHandler) (context : Context) (record : LogRecord) (output : LogOutput) :
    LogRecord × LogOutput :=
  if record.level.rank < handler.level.rank then (record, output)
  else
    let record := record.inContext context
    let after := match handler.format with
      | .text => record.afterText
      | .json => record
    match record.line handler.format with
    | .ok line => (after, handler.put record line output)
    | .error fault => (after, output.lose record (.record fault))

end LogHandler

end DriverPolicy
