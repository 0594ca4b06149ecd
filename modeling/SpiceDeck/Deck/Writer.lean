import SpiceDeck.Device.Sink
import SpiceDeck.Layout.Reflow

/-!
# Writing statements

A `Writer` puts statements into a sink, one line each or wrapped, and keeps count. A physical line
counts as written only after its newline is.
-/

namespace SpiceDeck

/-- Statements accepted, physical lines written, lines wider than allowed, and bytes written. -/
structure Metrics where
  logical : Nat := 0
  physical : Nat := 0
  overlong : Nat := 0
  bytes : Nat := 0
  deriving DecidableEq

structure Writer where
  sink : Sink
  layout : Layout
  metrics : Metrics := {}
  deriving DecidableEq

namespace Writer

def ofSink (layout : Layout) (sink : Sink) : Writer := { sink, layout }

def newline : Bytes := [0x0A]

def countLine (w : Writer) (size : Nat) : Writer :=
  { w with
    metrics := { w.metrics with
      physical := w.metrics.physical + 1
      bytes := w.metrics.bytes + size } }

/-- Writes a line and then its newline. -/
def writeLine (w : Writer) (line : Text) : Option Fault × Writer :=
  let data := Utf8.encode line
  match w.sink.write data with
  | (some fault, sink) => (some fault, { w with sink })
  | (none, sink) =>
    match sink.write newline with
    | (some fault, sink) => (some fault, { w with sink })
    | (none, sink) => (none, { w with sink }.countLine (data.length + 1))

def noteWidth (w : Writer) (line : Text) : Writer :=
  if w.layout.overlong line then
    { w with metrics := { w.metrics with overlong := w.metrics.overlong + 1 } }
  else w

/-- Writes lines until one fails. -/
def writeLines (w : Writer) : List Text → Option Fault × Writer
  | [] => (none, w)
  | line :: rest =>
    match (w.noteWidth line).writeLine line with
    | (some fault, w) => (some fault, w)
    | (none, w) => w.writeLines rest

/-- Writes a statement; it counts as accepted whether or not the sink takes it. -/
def write (w : Writer) (statement : Text) : Option Fault × Writer :=
  { w with metrics := { w.metrics with logical := w.metrics.logical + 1 } }.writeLines
    (w.layout.lines statement)

/-- Writes statements until one fails. -/
def writeAll (w : Writer) : List Text → Option Fault × Writer
  | [] => (none, w)
  | statement :: rest =>
    match w.write statement with
    | (some fault, w) => (some fault, w)
    | (none, w) => w.writeAll rest

def finish (w : Writer) : Option Fault := w.sink.flush

end Writer

end SpiceDeck
