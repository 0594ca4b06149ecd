import SpiceDeck.Statement.Assembly

/-!
# Statements of a sequence of lines

`Statements` is the lazy view: each `next` takes no more lines than the statement it returns needs.
`statements` is the whole list at once, and `assemble` gives the counts of the run with it.
-/

namespace SpiceDeck

structure Statements where
  assembly : Assembly
  /-- The lines not yet taken. -/
  lines : List Text
  deriving DecidableEq

namespace Statements

def ofLines (options : Options) (lines : List Text) : Statements :=
  { assembly := .start options, lines }

def counts (s : Statements) : Counts := s.assembly.counts

def pull (a : Assembly) : List Text → Option Text × Statements
  | [] =>
    let (statement, a) := (if a.ready.isEmpty then a.finish else a).pop
    (statement, ⟨a, []⟩)
  | line :: rest =>
    match a.pop with
    | (some s, a) => (some s, ⟨a, line :: rest⟩)
    | (none, a) => if a.finished then (none, ⟨a, line :: rest⟩) else pull (a.push line) rest

def next (s : Statements) : Option Text × Statements := pull s.assembly s.lines

end Statements

namespace Assembly

/-- Feeds the lines one by one and ends the deck; what is released goes to the end of `done` at
once. -/
def collect (done : Array Text) (a : Assembly) : List Text → Array Text × Assembly
  | [] =>
    let (released, a) := a.finish.drain
    (done ++ released, a)
  | line :: rest =>
    let (released, a) := (a.push line).drain
    collect (done ++ released) a rest

end Assembly

/-- The statements of a sequence of physical lines, and the counts of the run. -/
def assemble (options : Options) (lines : List Text) : List Text × Counts :=
  let (done, a) := Assembly.collect #[] (.start options) lines
  (done.toList, a.counts)

def statements (options : Options) (lines : List Text) : List Text := (assemble options lines).1

def statementsOfText (options : Options) (text : Text) : List Text :=
  statements options (Text.lines text)

end SpiceDeck
