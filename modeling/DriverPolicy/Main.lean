import DriverPolicy.Command.Files
import Std.Time.DateTime.Timestamp

/-!
# The program

The outer layer of the command line: it takes over the files that a run needs from the disk,
runs the command line on them, puts the changed ones back, and prints what the run printed.
-/

open DriverPolicy

/-- The text of the path to a place. -/
def diskPath (place : Place) : String := (FileTree.pathTo place).text

/-- What stands at a place on the disk. -/
def nodeOnDisk (place : Place) : IO (Option FileNode) := do
  try
    return some (.file (← IO.FS.readBinFile (diskPath place)) 0)
  catch
    | .noFileOrDirectory .. => return none
    | _ => return some .directory

/-- Take over what leads to a path, and what stands there. -/
def takeOver (files : FileTree) (path : Path) : IO FileTree := do
  let place := (files.absolute path).names
  let mut files := files
  for n in List.range place.length do
    let step := place.take (n + 1)
    match ← nodeOnDisk step with
    | some node => files := files.put step node
    | none => return files
  return files

/-- Take over what stands at a place and below it, down to a depth. -/
def takeOverBelow (place : Place) (files : FileTree) : Nat → IO FileTree
  | 0 => return files
  | depth + 1 => do
    match ← nodeOnDisk place with
    | none => return files
    | some (.file bytes time) => return files.put place (.file bytes time)
    | some .directory =>
      let mut files := files.put place .directory
      for entry in ← ((← IO.currentDir) / diskPath place).readDir do
        files ← takeOverBelow (place ++ [entry.fileName]) files depth
      return files

/-- Take over what has the name of a log file with a point and more behind it, such as its
backups. -/
def takeOverBackups (files : FileTree) (path : Path) : IO FileTree := do
  let place := (files.absolute path).names
  let beside := place.dropLast
  let some .directory ← nodeOnDisk beside | return files
  let mut files := files
  for entry in ← ((← IO.currentDir) / diskPath beside).readDir do
    if entry.fileName.startsWith (place.getLastD "" ++ ".") then
      files ← takeOverBelow (beside ++ [entry.fileName]) files FileTree.longestPath
  return files

/-- Put the changes of a run back to the disk: first what is gone, each directory after what was
below it, then what is new. -/
def putBack (before after : FileTree) : IO Unit := do
  for (place, node) in before.nodes.reverse do
    match node, after.node? place with
    | .file .., some (.file ..) | .directory, some .directory => pure ()
    | .file .., _ => IO.FS.removeFile (diskPath place)
    | .directory, _ => IO.FS.removeDir (diskPath place)
  for (place, node) in after.nodes do
    match node, before.node? place with
    | .directory, some .directory => pure ()
    | .directory, _ => IO.FS.createDirAll (diskPath place)
    | .file bytes _, some (.file old _) =>
      if bytes.data ≠ old.data then IO.FS.writeBinFile (diskPath place) bytes
    | .file bytes _, _ => IO.FS.writeBinFile (diskPath place) bytes

/-- The environment variables that a run reads. -/
def readVariables : IO (List (String × String)) := do
  let values ← variableNames.mapM fun name => do return (name, ← IO.getEnv name)
  return values.filterMap fun (name, value) => value.map (name, ·)

/-- The current time. -/
def currentTime : IO Instant := do
  let now ← Std.Time.Timestamp.now
  return ⟨now.toNanosecondsSinceUnixEpoch.val.fdiv 1000⟩

/-- What runs of this program have for an interpreter: a stack for every result, and no traces. -/
def ownInterpreter : Interpreter := ⟨fun _ => true, fun _ => ⟨"", ""⟩⟩

def main (arguments : List String) : IO UInt32 := do
  let own := (← IO.getEnv "HOME").getD "/"
  let environment : Environment := ⟨← readVariables, Environment.standardLead, ⟨.parse own, []⟩⟩
  let here := (Path.parse (toString (← IO.currentDir))).names
  let now ← currentTime
  let mut files : FileTree := (⟨[], here⟩ : FileTree).withDirectories here
  let around (files : FileTree) : Surroundings := ⟨files, environment, now, none, ownInterpreter⟩
  if let some path := configFile? (around files) arguments then
    files ← takeOver files path
  if let some path := logFile? (around files) arguments then
    files ← takeOverBackups (← takeOver files path) path
  let (ending, state) := outcomeOf (around files) arguments
  putBack files state.log.output.files
  IO.print (standardOutput ending state)
  IO.eprint (errorOutput ending state)
  return UInt32.ofNat ending.number
