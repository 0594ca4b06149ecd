import SpiceDeck.Statement.Marker

/-!
# Assembly of statements

A statement starts at a line that is no continuation and takes in every continuation that follows.
An `Assembly` keeps one statement in flight; `push` gives it a physical line, `finish` ends the
deck, and `pop` takes the finished statements out in order.

Under the policy `hold`, a comment that interrupts a run of continuations waits until the statement
in flight is done, so that later continuations still reach that statement.
-/

namespace SpiceDeck

/-- What a comment does in the middle of a run of continuations. -/
inductive CommentPolicy
  | split
  | hold
  deriving DecidableEq

/-- What a deck without statements stands for. -/
inductive EmptyDeck
  | emptyLine
  | nothing
  deriving DecidableEq

structure Options where
  comments : CommentPolicy := .split
  emptyDeck : EmptyDeck := .emptyLine
  deriving DecidableEq

/-- Counts of a run: non-blank lines taken, continuations among them, statements released, comments
that had to wait. -/
structure Counts where
  physical : Nat := 0
  continuation : Nat := 0
  logical : Nat := 0
  held : Nat := 0
  deriving DecidableEq

structure Assembly where
  options : Options
  /-- The statement in flight. -/
  pending : Option Text := none
  /-- Whether the statement in flight has a continuation already. -/
  continuing : Bool := false
  /-- Comments that wait for the end of the statement in flight. -/
  held : List Text := []
  /-- Statements released and not yet taken. -/
  ready : List Text := []
  counts : Counts := {}
  finished : Bool := false
  deriving DecidableEq

namespace Assembly

def start (options : Options) : Assembly := { options }

def queue (a : Assembly) (statements : List Text) : Assembly :=
  { a with
    ready := a.ready ++ statements
    counts := { a.counts with logical := a.counts.logical + statements.length } }

/-- Lets the statement in flight go, and after it the comments that waited. -/
def release (a : Assembly) : Assembly :=
  queue { a with pending := none, held := [] } (a.pending.toList ++ a.held)

def countLine (a : Assembly) : Assembly :=
  { a with counts := { a.counts with physical := a.counts.physical + 1 } }

/-- Joins a continuation to the statement in flight; one that comes first joins the empty one. -/
def join (a : Assembly) (line : Text) : Assembly :=
  { a with
    pending := some (a.pending.getD [] ++ joinSign :: continuationBody line)
    continuing := true
    counts := { a.counts with continuation := a.counts.continuation + 1 } }

def holdComment (a : Assembly) (line : Text) : Assembly :=
  { a with
    held := a.held ++ [line]
    counts := { a.counts with held := a.counts.held + 1 } }

def begin (a : Assembly) (line : Text) : Assembly :=
  { a.release with pending := some line, continuing := false }

def holds (a : Assembly) : Bool := a.continuing && a.options.comments == .hold

/-- Takes a trimmed line that is not blank. -/
def take (a : Assembly) (line : Text) : Assembly :=
  let a := a.countLine
  if continuesStatement line then a.join line
  else if a.holds && isCommentLine line then a.holdComment line
  else a.begin line

/-- Takes one physical line. Blank lines, and lines after the end, change nothing. -/
def push (a : Assembly) (line : Text) : Assembly :=
  let line := Text.trim line
  if line.isEmpty || a.finished then a else a.take line

/-- Ends the deck. Only the first call counts. -/
def finish (a : Assembly) : Assembly :=
  if a.finished then a
  else
    let a := { a with finished := true }
    if a.pending.isNone && a.options.emptyDeck == .emptyLine then a.queue [[]] else a.release

def pop (a : Assembly) : Option Text × Assembly :=
  match a.ready with
  | [] => (none, a)
  | s :: rest => (some s, { a with ready := rest })

/-- Everything released so far, with the queue left empty. -/
def drain (a : Assembly) : List Text × Assembly := (a.ready, { a with ready := [] })

end Assembly

end SpiceDeck
