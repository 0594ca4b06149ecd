import SpiceDeck.Device.LineFeed
import SpiceDeck.Statement.Assembly

/-!
# Reading statements

A `Reader` assembles the lines of a source. The first fault ends it: the statement in flight and the
comments that wait for it are not given any more.
-/

namespace SpiceDeck

structure Reader where
  feed : LineFeed
  assembly : Assembly
  failed : Bool := false

namespace Reader

def ofSource (options : Options) (source : Source) : Reader :=
  { feed := .ofSource source, assembly := .start options }

def counts (r : Reader) : Counts := r.assembly.counts

def linesRead (r : Reader) : Nat := r.feed.linesRead

/-- The next statement, or the fault that ends the reading; none at the end, and after a fault. -/
def next (r : Reader) : Option (Except Fault Text) × Reader :=
  if r.failed then (none, r)
  else
    match r.assembly.pop with
    | (some statement, assembly) => (some (.ok statement), { r with assembly })
    | (none, _) =>
      if r.assembly.finished then (none, r)
      else
        match _h : r.feed.next with
        | (.error fault, feed) => (some (.error fault), { r with feed, failed := true })
        | (.ok none, feed) =>
          let (statement, assembly) := r.assembly.finish.pop
          (statement.map .ok, { r with feed, assembly })
        | (.ok (some line), feed) => next { r with feed, assembly := r.assembly.push line }
termination_by r.feed.source.weight
decreasing_by exact LineFeed.next_weight _h

/-- What a source says from front to back. -/
structure Contents where
  statements : Array Text
  /-- The fault that ended the reading, if it did not come to the end. -/
  fault : Option Fault
  counts : Counts
  linesRead : Nat
  deriving DecidableEq

/-- Takes line after line; what is released goes to the end of `done` at once. -/
def collect (done : Array Text) (r : Reader) : Contents :=
  match _h : r.feed.next with
  | (.error fault, feed) => ⟨done, some fault, r.counts, feed.linesRead⟩
  | (.ok none, feed) =>
    let (released, assembly) := r.assembly.finish.drain
    ⟨done ++ released, none, assembly.counts, feed.linesRead⟩
  | (.ok (some line), feed) =>
    let (released, assembly) := (r.assembly.push line).drain
    collect (done ++ released) { r with feed, assembly }
termination_by r.feed.source.weight
decreasing_by exact LineFeed.next_weight _h

def readAll (options : Options) (source : Source) : Contents :=
  collect #[] (ofSource options source)

end Reader

end SpiceDeck
