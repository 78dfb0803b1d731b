import DriverPolicy.Storage.Path
import DriverPolicy.Text.Quoted

/-!
# A tree of files

A file tree holds directories and files; a file has content and a time of modification. Every
operation follows a path from its start, and fails when a name on the way is missing, belongs
to a file or is too long, or when the place that it leads to is not as the operation needs it.
A path with a null character in it is refused before any of its names is looked at. Work in
several steps that fails in the middle leaves what the steps before did.
-/

namespace DriverPolicy

/-- What stands at a place. -/
inductive FileNode where
  | directory
  | file (content : ByteArray) (modified : Int)

/-- What is wrong with a place. -/
inductive FileProblem where
  | notFound
  | exists
  | notADirectory
  | isADirectory
  | nameTooLong
  | nullCharacter
deriving DecidableEq, Repr

namespace FileProblem

/-- The number of a problem; a path that is no path has none. -/
def code? : FileProblem → Option Nat
  | notFound => some 2
  | .exists => some 17
  | notADirectory => some 20
  | isADirectory => some 21
  | nameTooLong => some 36
  | nullCharacter => none

/-- A problem in words. -/
def description : FileProblem → String
  | notFound => "No such file or directory"
  | .exists => "File exists"
  | notADirectory => "Not a directory"
  | isADirectory => "Is a directory"
  | nameTooLong => "File name too long"
  | nullCharacter => "embedded null byte"

end FileProblem

/-- A problem as a kind of error. -/
def FileProblem.kind : FileProblem → String
  | notFound => "FileNotFoundError"
  | .exists => "FileExistsError"
  | notADirectory => "NotADirectoryError"
  | isADirectory => "IsADirectoryError"
  | nameTooLong => "OSError"
  | nullCharacter => "ValueError"

/-- A failed operation. -/
structure FileFault where
  /-- What is wrong. -/
  problem : FileProblem
  /-- The path as it was given. -/
  path : String
deriving DecidableEq, Repr

/-- The message of a failed operation. -/
def FileFault.message (fault : FileFault) : String :=
  match fault.problem.code? with
  | some code => s!"[Errno {code}] {fault.problem.description}: {quoted fault.path}"
  | none => fault.problem.description

/-- The names from the root to a place. -/
abbrev Place := List String

/-- Directories and files by their places, and the place where paths without a root start. -/
structure FileTree where
  /-- What stands where; the root is always a directory. -/
  nodes : List (Place × FileNode)
  /-- The place where one is. -/
  here : Place

namespace FileTree

/-- What stands at a place. -/
def node? (tree : FileTree) (place : Place) : Option FileNode :=
  if place = [] then some .directory else (tree.nodes.find? (·.1 = place)).map (·.2)

/-- A tree in which something stands at a place. -/
def put (tree : FileTree) (place : Place) (node : FileNode) : FileTree :=
  { tree with nodes := tree.nodes.filter (·.1 ≠ place) ++ [(place, node)] }

/-- A tree in which nothing stands at a place. -/
def erase (tree : FileTree) (place : Place) : FileTree :=
  { tree with nodes := tree.nodes.filter (·.1 ≠ place) }

/-- A tree with all directories on the way to a place. -/
def withDirectories (tree : FileTree) (place : Place) : FileTree :=
  (List.range place.length).foldl (fun t n => t.put (place.take (n + 1)) .directory) tree

/-- The greatest length of a name in bytes. -/
def longestName : Nat := 255

/-- The greatest length of a path in bytes. -/
def longestPath : Nat := 4095

/-- Follow names from a place. Every name but the last must lead to a directory. -/
def follow (tree : FileTree) (place : Place) : List String → Except FileProblem Place
  | [] => .ok place
  | name :: rest =>
    if name = ".." then tree.follow place.dropLast rest
    else
      let next := place ++ [name]
      if longestName < name.utf8ByteSize then .error .nameTooLong
      else if rest = [] then .ok next
      else
        match tree.node? next with
        | some .directory => tree.follow next rest
        | some (.file ..) => .error .notADirectory
        | none => .error .notFound

/-- The place where a path starts. -/
def startOf (tree : FileTree) (path : Path) : Place :=
  match path.start with
  | .here => tree.here
  | _ => []

/-- Whether a text can be a path at all. -/
def checkPath (text : String) : Except FileFault Unit :=
  if text.toList.contains '\x00' then .error ⟨.nullCharacter, text⟩
  else if longestPath < text.utf8ByteSize then .error ⟨.nameTooLong, text⟩
  else .ok ()

/-- The place that a path leads to; nothing needs to stand there. -/
def placeOf (tree : FileTree) (path : Path) : Except FileFault Place := do
  checkPath path.text
  (tree.follow (tree.startOf path) path.names).mapError (⟨·, path.text⟩)

/-- What a path leads to. -/
def look (tree : FileTree) (path : Path) : Except FileFault FileNode := do
  match tree.node? (← tree.placeOf path) with
  | some node => return node
  | none => throw ⟨.notFound, path.text⟩

/-- Whether a path leads to a directory. -/
def isDirectory (tree : FileTree) (path : Path) : Bool :=
  match tree.look path with
  | .ok .directory => true
  | _ => false

/-- The time of modification of what a path leads to; directories have none of their own. -/
def modified (tree : FileTree) (path : Path) : Except FileFault Int := do
  match ← tree.look path with
  | .file _ time => return time
  | .directory => return 0

/-- The content of a file. -/
def content (tree : FileTree) (path : Path) : Except FileFault ByteArray := do
  match ← tree.look path with
  | .file bytes _ => return bytes
  | .directory => throw ⟨.isADirectory, path.text⟩

/-- Write a file, new or not. -/
def write (tree : FileTree) (path : Path) (bytes : ByteArray) (time : Int) :
    Except FileFault FileTree := do
  let place ← tree.placeOf path
  match tree.node? place with
  | some .directory => throw ⟨.isADirectory, path.text⟩
  | _ => return tree.put place (.file bytes time)

/-- Append to a file, which is made if it is missing. -/
def append (tree : FileTree) (path : Path) (bytes : ByteArray) (time : Int) :
    Except FileFault FileTree := do
  let place ← tree.placeOf path
  match tree.node? place with
  | some .directory => throw ⟨.isADirectory, path.text⟩
  | some (.file old _) => return tree.put place (.file (old ++ bytes) time)
  | none => return tree.put place (.file bytes time)

/-- Remove a file. -/
def remove (tree : FileTree) (path : Path) : Except FileFault FileTree := do
  let place ← tree.placeOf path
  match tree.node? place with
  | some (.file ..) => return tree.erase place
  | some .directory => throw ⟨.isADirectory, path.text⟩
  | none => throw ⟨.notFound, path.text⟩

/-- Whether something stands where a path leads. -/
def holds (tree : FileTree) (path : Path) : Bool :=
  match tree.look path with
  | .ok _ => true
  | .error _ => false

/-- The place of something after everything at or below a place was moved to another. -/
def movedTo (source target place : Place) : Place :=
  if place.take source.length = source then target ++ place.drop source.length else place

/-- Give what a path leads to, with all below it, another path, at which nothing may stand. -/
def move (tree : FileTree) (source target : Path) : Except FileProblem FileTree := do
  let start ← (tree.placeOf source).mapError (·.problem)
  let finish ← (tree.placeOf target).mapError (·.problem)
  if (tree.node? finish).isSome then throw .exists
  else if (tree.node? start).isNone then throw .notFound
  else return { tree with nodes := tree.nodes.map fun (place, node) =>
    (movedTo start finish place, node) }

/-- Make one directory. -/
def makeDirectory (tree : FileTree) (path : Path) : Except FileFault FileTree := do
  let place ← tree.placeOf path
  match tree.node? place with
  | some _ => throw ⟨.exists, path.text⟩
  | none => return tree.put place .directory

/-- Make one directory unless it is there. -/
def ensureDirectory (tree : FileTree) (path : Path) : Except FileFault FileTree :=
  match tree.makeDirectory path with
  | .ok made => .ok made
  | .error fault => if tree.isDirectory path then .ok tree else .error fault

/-- Make a directory, and those that are missing on the way to it, unless it is there: the tree
afterwards, and what failed, if anything did. Directories that were made before stay. -/
def ensureDirectories (tree : FileTree) (path : Path) : FileTree × Except FileFault Unit :=
  match tree.makeDirectory path with
  | .ok made => (made, .ok ())
  | .error fault =>
    if fault.problem = .notFound then
      if _h : path.names = [] then (tree, .error fault)
      else
        match tree.ensureDirectories path.parent with
        | (before, .error fault) => (before, .error fault)
        | (before, .ok ()) =>
          match before.ensureDirectory path with
          | .ok made => (made, .ok ())
          | .error fault => (before, .error fault)
    else if tree.isDirectory path then (tree, .ok ())
    else (tree, .error fault)
termination_by path.names.length
decreasing_by
  have := List.length_pos_iff.mpr _h
  simp only [Path.parent, List.length_dropLast]
  omega

/-- The path to a place. -/
def pathTo (place : Place) : Path := ⟨.root, place⟩

/-- A path from the root that means the same as a path as long as no name on the way is
missing; names of two points are worked off against the names before them. -/
def absolute (tree : FileTree) (path : Path) : Path :=
  let step (place : Place) (name : String) : Place :=
    if name = ".." then place.dropLast else place ++ [name]
  { start := if path.start = .doubleRoot then .doubleRoot else .root,
    names := path.names.foldl step (tree.startOf path) }

/-- The files at or below a place, with their names from there. -/
def filesBelow (tree : FileTree) (place : Place) : List (Place × ByteArray) :=
  tree.nodes.filterMap fun (p, node) =>
    match node with
    | .file bytes _ =>
      if p.take place.length = place then some (p.drop place.length, bytes) else none
    | .directory => none

end FileTree

end DriverPolicy
