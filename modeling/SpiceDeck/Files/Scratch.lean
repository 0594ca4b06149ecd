import SpiceDeck.Files.Tree

/-!
# Scratch files

A file written into a directory made for it, next to which an output can be put. When it is
discarded the whole directory goes.
-/

namespace SpiceDeck

structure ScratchFile where
  tree : FileTree
  place : Location
  deriving DecidableEq

namespace ScratchFile

def directory : Location := ["scratch".toList]

def write (path contents : Text) : Except Fault ScratchFile := do
  let empty : FileTree := { nodes := [(directory, .directory)], working := directory }
  -- the path has the directory in front, so an empty one names the directory
  let (place, tree) ← empty.create (here ++ path)
  return { tree := tree.put place (.file (Utf8.encode contents)), place }
where
  here : Text := ['.', FileTree.separator]

def name (f : ScratchFile) : Text := f.place.headD []

def contents (f : ScratchFile) : Bytes :=
  match f.tree.node? f.place with
  | some (.file data) => data
  | _ => []

def outputName (f : ScratchFile) : Text := f.name ++ ".out".toList

def outputExists (f : ScratchFile) : Bool := (f.tree.node? (f.outputName :: f.place.tail)).isSome

def discard (f : ScratchFile) : FileTree := f.tree.remove directory

end ScratchFile

end SpiceDeck
