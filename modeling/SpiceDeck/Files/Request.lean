import SpiceDeck.Deck.Transfer
import SpiceDeck.Files.Failure
import SpiceDeck.Files.Tree

/-!
# Requests

A request names where a deck comes from and where the result goes. Making the output file empties
it, so it must not be the input: both paths are compared before anything is opened.
-/

namespace SpiceDeck

inductive Input
  | path (path : Text)
  | bytes (data : Bytes)
  deriving DecidableEq

inductive Output
  | path (path : Text)
  | standard
  | sink (sink : Sink)
  deriving DecidableEq

def Output.display : Output → Text
  | path p => "Path(".toList ++ Quoted.display p ++ [')']
  | standard => "Stdout".toList
  | sink _ => "Writer(..)".toList

structure Request where
  layout : Layout
  options : Options
  input : Input
  output : Output
  deriving DecidableEq

structure Outcome where
  report : Except Failure Report
  /-- What the output has if it is no file. -/
  delivered : Bytes
  tree : FileTree

namespace Request

/-- An output that is not there yet cannot be the input. -/
def checkPaths (r : Request) (tree : FileTree) : Except Failure Unit :=
  match r.input, r.output with
  | .path input, .path output =>
    if tree.pathExists output then do
      let (source, _) ← (tree.resolve input).mapError .io
      let (target, _) ← (tree.resolve output).mapError .io
      if source = target then .error (.outputIsInput output)
    else .ok ()
  | _, _ => .ok ()

def openSource (r : Request) (tree : FileTree) : Except Failure Source :=
  match r.input with
  | .path path => (tree.openSource path).mapError .io
  | .bytes data => .ok (.ofBytes data)

/-- Compares the paths and opens the input. It changes nothing. -/
def prepare (r : Request) (tree : FileTree) : Except Failure Source := do
  r.checkPaths tree
  r.openSource tree

/-- Runs the transfer into a sink, which is no part of the tree. -/
def deliver (r : Request) (tree : FileTree) (source : Source) (sink : Sink) : Outcome :=
  let (report, sink) := transfer r.layout r.options source sink
  ⟨report.mapError .io, sink.contents, tree⟩

/-- Runs the transfer into a file, which takes all that is written. -/
def store (r : Request) (tree : FileTree) (source : Source) (path : Text) : Outcome :=
  match tree.create path with
  | .error fault => ⟨.error (.io fault), [], tree⟩
  | .ok (target, tree) =>
    let (report, sink) := transfer r.layout r.options source .unlimited
    ⟨report.mapError .io, [], tree.put target (.file sink.contents)⟩

/-- Carries the request out. What was written before a fault stays in the output. -/
def execute (r : Request) (tree : FileTree) : Outcome :=
  match r.prepare tree with
  | .error failure => ⟨.error failure, [], tree⟩
  | .ok source =>
    match r.output with
    | .path path => r.store tree source path
    | .standard => r.deliver tree source .unlimited
    | .sink sink => r.deliver tree source sink

end Request

end SpiceDeck
