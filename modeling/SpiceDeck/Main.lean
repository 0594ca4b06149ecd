import SpiceDeck.Command.Run
import SpiceDeck.Text.Duration

/-!
# The program

Looks up the files that the arguments name, does the run on what was found, and writes out what the
run has changed.
-/

namespace SpiceDeck

namespace Program

def absolute (loc : Location) : String :=
  String.ofList (FileTree.separator :: [FileTree.separator].intercalate loc.reverse)

/-- Puts into the tree what is at a location; a link counts as what it leads to. -/
def look (tree : FileTree) (loc : Location) : IO FileTree := do
  let path := (← IO.currentDir) / absolute loc
  if ← path.isDir then return tree.put loc .directory
  else if ← path.pathExists then return tree.put loc (.file (← IO.FS.readBinFile path).toList)
  else return tree

/-- Looks at every location on the way of a path. -/
def lookAlong (tree : FileTree) (loc : Location) : List Text → IO FileTree
  | [] => return tree
  | name :: rest => do
    match FileTree.stepFrom loc name with
    | .error _ => return tree
    | .ok next => lookAlong (← look tree next) next rest

def lookAtPaths (paths : List Text) : IO FileTree := do
  let names := (toString (← IO.FS.realPath (← IO.currentDir))).toList.splitOn FileTree.separator
  let working := (names.filter fun name => !name.isEmpty).reverse
  let start := { nodes := [], working : FileTree }.makeDirectories working
  paths.foldlM (fun tree path =>
    lookAlong tree (tree.startOf path) (path.splitOn FileTree.separator)) start

partial def readToEnd (input : IO.FS.Stream) (done : ByteArray) : IO ByteArray := do
  let data ← input.read 65536
  if data.isEmpty then return done else readToEnd input (done ++ data)

def standardBytes (i : Command.Invocation) : IO Bytes := do
  if i.action.paths.head?.any Command.isStandardInput then
    return (← readToEnd (← IO.getStdin) ByteArray.empty).toList
  else return []

def bytesOf (data : Bytes) : ByteArray := ⟨data.toArray⟩

def writeChanges (old new : FileTree) : IO Unit :=
  new.files.forM fun (loc, data) =>
    match old.node? loc with
    | some (.file before) =>
      if before == data then return else IO.FS.writeBinFile (absolute loc) (bytesOf data)
    | _ => IO.FS.writeBinFile (absolute loc) (bytesOf data)

def gather (arguments : List Text) : IO Command.Surroundings := do
  match Command.readArguments arguments with
  | .ok i => return { stdin := ← standardBytes i, tree := ← lookAtPaths i.paths }
  | .error _ => return { tree := ← lookAtPaths [] }

def run (arguments : List Text) : IO UInt32 := do
  let started ← IO.monoNanosNow
  let found ← gather arguments
  let ended := Command.run found arguments
  writeChanges found.tree ended.tree
  let stdout ← IO.getStdout
  stdout.write (bytesOf ended.stdout)
  stdout.flush
  let passed := (← IO.monoNanosNow) - started
  (← IO.getStderr).putStr (String.ofList (ended.message (Duration.text passed)))
  return UInt32.ofNat ended.code

end Program

end SpiceDeck

def main (arguments : List String) : IO UInt32 := do
  try SpiceDeck.Program.run (arguments.map String.toList)
  catch error => do
    IO.eprintln ("Error: " ++ toString error)
    return 1
