import SpiceDeck.Deck.Reader
import SpiceDeck.Deck.Writer

/-!
# From source to sink

`unwrap` writes each statement of a source on one line, `reflow` wraps it to a width. Both stop at
the first fault; a fault of the sink comes before one of the source, since a source is read no
further than the sink has followed. The sink is flushed once, after all is written.
-/

namespace SpiceDeck

/-- The account of a transfer that succeeded. -/
structure Report where
  linesRead : Nat
  counts : Counts
  metrics : Metrics
  deriving DecidableEq

def transfer (layout : Layout) (options : Options) (source : Source) (sink : Sink) :
    Except Fault Report × Sink :=
  let contents := Reader.readAll options source
  match (Writer.ofSink layout sink).writeAll contents.statements.toList with
  | (some fault, w) => (.error fault, w.sink)
  | (none, w) =>
    match contents.fault <|> w.finish with
    | some fault => (.error fault, w.sink)
    | none => (.ok ⟨contents.linesRead, contents.counts, w.metrics⟩, w.sink)

def unwrap : Options → Source → Sink → Except Fault Report × Sink := transfer .oneLine

def reflow (width : LineWidth) : Options → Source → Sink → Except Fault Report × Sink :=
  transfer (.wrapped width)

end SpiceDeck
