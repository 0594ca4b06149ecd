import SpiceDeck.Device.Source

/-!
# File trees

Directories and files without links, and how a path is followed through them. `resolve` and `locate`
find what a path names, `create` makes or empties the file that it names, and `openSource` gives its
bytes to be read.
-/

namespace SpiceDeck

/-- The names on the way to a node, the innermost first; the root has none. -/
abbrev Location := List Text

inductive Node
  | file (contents : Bytes)
  | directory
  deriving DecidableEq

structure FileTree where
  nodes : List (Location × Node)
  /-- The directory in which relative paths start. -/
  working : Location
  deriving DecidableEq

namespace FileTree

/-- The root is a directory whatever the tree lists. -/
def node? (t : FileTree) : Location → Option Node
  | [] => some .directory
  | loc => t.nodes.lookup loc

def put (t : FileTree) (loc : Location) (node : Node) : FileTree :=
  { t with nodes := (loc, node) :: t.nodes.filter fun entry => entry.1 != loc }

/-- Leaves out a directory and all that is below it. -/
def remove (t : FileTree) (loc : Location) : FileTree :=
  { t with nodes := t.nodes.filter fun entry => !loc.isSuffixOf entry.1 }

/-- Makes the directories on the way to a location, and one there. -/
def makeDirectories (t : FileTree) : Location → FileTree
  | [] => t
  | name :: parent => (t.makeDirectories parent).put (name :: parent) .directory

def addFile (t : FileTree) (loc : Location) (contents : Bytes) : FileTree :=
  (t.makeDirectories loc.tail).put loc (.file contents)

/-! ## Following a path -/

def separator : Char := '/'

def here : Text := ['.']

def above : Text := ['.', '.']

/-- No name of a node has more bytes. -/
def longestName : Nat := 255

/-- Every path that is opened or looked up in one go has fewer bytes. -/
def pathLimit : Nat := 4096

def checkSpelling (path : Text) : Except Fault Unit :=
  if path.any (· == '\x00') then .error .nulInName
  else if path.isEmpty then .error .notFound
  else .ok ()

def checkPath (path : Text) : Except Fault Unit := do
  checkSpelling path
  if pathLimit ≤ (Utf8.encode path).length then .error .nameTooLong

def checkName (name : Text) : Except Fault Unit :=
  if longestName < (Utf8.encode name).length then .error .nameTooLong else .ok ()

/-- Whether a directory is at the location, and what is wrong if none is. -/
def checkDirectory (t : FileTree) (loc : Location) : Except Fault Unit :=
  match t.node? loc with
  | none => .error .notFound
  | some (.file _) => .error .notADirectory
  | some .directory => .ok ()

/-- Where one step leads from a directory. Above the root is the root. -/
def stepFrom (loc : Location) (name : Text) : Except Fault Location :=
  if name.isEmpty || name == here then .ok loc
  else if name == above then .ok loc.tail
  else do
    checkName name
    return name :: loc

/-- Each step needs a directory to start from; an empty step, between two separators or after the
last, leads nowhere else. -/
def walk (t : FileTree) (loc : Location) : List Text → Except Fault Location
  | [] => .ok loc
  | name :: rest => do
    t.checkDirectory loc
    t.walk (← stepFrom loc name) rest

def startOf (t : FileTree) (path : Text) : Location :=
  if path.head? = some separator then [] else t.working

/-- What a path names, found step by step, however long the path is. -/
def resolve (t : FileTree) (path : Text) : Except Fault (Location × Node) := do
  checkSpelling path
  let loc ← t.walk (t.startOf path) (path.splitOn separator)
  match t.node? loc with
  | none => .error .notFound
  | some node => .ok (loc, node)

/-- What a path names, if the path is not too long. -/
def locate (t : FileTree) (path : Text) : Except Fault (Location × Node) := do
  checkPath path
  t.resolve path

def pathExists (t : FileTree) (path : Text) : Bool := (t.locate path).isOk

/-! ## Reading and writing -/

/-- The source of what a path names. A directory can be opened, and then reading it fails. -/
def openSource (t : FileTree) (path : Text) : Except Fault Source := do
  match (← t.locate path).2 with
  | .file contents => return .ofBytes contents
  | .directory => return .ofAnswers [.failure .isADirectory]

def readText (t : FileTree) (path : Text) : Except Fault Text := do
  match (← t.locate path).2 with
  | .directory => .error .isADirectory
  | .file contents =>
    match Utf8.decode contents with
    | none => .error .invalidUtf8
    | some text => .ok text

/-- The location of the file that `create` makes or empties. Its directory has to be there. -/
def locateOutput (t : FileTree) (path : Text) : Except Fault Location := do
  checkPath path
  let steps := path.splitOn separator
  match steps.reverse.dropWhile List.isEmpty with
  | [] => .error .isADirectory
  | name :: before =>
    let parent ← t.walk (t.startOf path) before.reverse
    t.checkDirectory parent
    if name == here || name == above || steps.getLast? == some [] then .error .isADirectory
    checkName name
    match t.node? (name :: parent) with
    | some .directory => .error .isADirectory
    | _ => return name :: parent

def create (t : FileTree) (path : Text) : Except Fault (Location × FileTree) := do
  let loc ← t.locateOutput path
  return (loc, t.put loc (.file []))

def files (t : FileTree) : List (Location × Bytes) :=
  t.nodes.filterMap fun
    | (loc, .file contents) => some (loc, contents)
    | (_, .directory) => none

end FileTree

end SpiceDeck
