/-!
# Paths

A path is a sequence of names below the root, below a second kind of root that is written
with two slashes, or below wherever one is. Empty names and names of one point mean nothing
and are dropped; a name of two points is kept, since what it means depends on the tree. A
path that begins with a tilde can be expanded: the tilde alone stands for one's own home, a
tilde and a name for that user's.
-/

namespace DriverPolicy

/-- Where a path starts. -/
inductive PathStart where
  | here
  | root
  | doubleRoot
deriving DecidableEq, Repr

/-- A path. -/
structure Path where
  /-- Where the path starts. -/
  start : PathStart
  /-- The names on the way. -/
  names : List String
deriving DecidableEq, Repr

/-- The pieces of a text between slashes. -/
def splitAtSlashes : List Char → List (List Char)
  | [] => [[]]
  | c :: rest =>
    if c = '/' then [] :: splitAtSlashes rest
    else
      match splitAtSlashes rest with
      | piece :: pieces => (c :: piece) :: pieces
      | [] => [[c]]

namespace Path

/-- Whether a name leads anywhere. -/
def isStep (name : List Char) : Bool := name ≠ [] && name ≠ ['.']

/-- Where a text starts: exactly two slashes are a root of their own. -/
def startOf : List Char → PathStart
  | '/' :: '/' :: '/' :: _ => .root
  | '/' :: '/' :: _ => .doubleRoot
  | '/' :: _ => .root
  | _ => .here

/-- Read a path. -/
def parse (text : String) : Path :=
  ⟨startOf text.toList, ((splitAtSlashes text.toList).filter isStep).map String.ofList⟩

/-- The text of a start. -/
def startText : PathStart → String
  | .here => ""
  | .root => "/"
  | .doubleRoot => "//"

/-- The text of a path; a path that leads nowhere is a point. -/
def text (path : Path) : String :=
  if path.start = .here && path.names.isEmpty then "."
  else startText path.start ++ "/".intercalate path.names

/-- A path without its last name. -/
def parent (path : Path) : Path := { path with names := path.names.dropLast }

/-- A name below a path. -/
def child (path : Path) (name : String) : Path := { path with names := path.names ++ [name] }

/-- A path with something appended to its last name. -/
def withEnding (path : Path) (ending : String) : Path :=
  match path.names.getLast? with
  | some name => path.parent.child (name ++ ending)
  | none => path.child ending

end Path

/-- The home directories that a tilde can stand for. -/
structure Homes where
  /-- One's own home. -/
  own : Path
  /-- The homes of known users. -/
  users : List (String × Path)
deriving Repr

/-- Why a tilde with a name stands for no home. -/
inductive HomeFault where
  /-- There is no such user. -/
  | unknownUser
  /-- The name has a null character in it, so it is the name of no user. -/
  | nullCharacter
deriving DecidableEq, Repr

namespace Homes

/-- The home that a name with a tilde in front stands for. -/
def find (homes : Homes) (user : String) : Except HomeFault Path :=
  if user = "" then .ok homes.own
  else if user.toList.contains '\x00' then .error .nullCharacter
  else
    match homes.users.find? (·.1 = user) with
    | some (_, home) => .ok home
    | none => .error .unknownUser

/-- A path with a leading tilde replaced by the home that it stands for. -/
def expand (homes : Homes) (path : Path) : Except HomeFault Path :=
  match path.start, path.names with
  | .here, name :: rest =>
    match name.toList with
    | '~' :: user =>
      (homes.find (String.ofList user)).map fun home => { home with names := home.names ++ rest }
    | _ => .ok path
  | _, _ => .ok path

end Homes

end DriverPolicy
