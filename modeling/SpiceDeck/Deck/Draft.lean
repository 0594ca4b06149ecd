import SpiceDeck.Statement.Marker

/-!
# Drafts

A deck put together from lines that say what they are meant to be. What they say as part of a deck
is up to their text: a blank statement is a blank line.
-/

namespace SpiceDeck

inductive DraftLine
  | statement (text : Text)
  | continuation (text : Text)
  | commentContinuation (text : Text)
  | comment (text : Text)
  | blank
  deriving DecidableEq

namespace DraftLine

def render : DraftLine → Text
  | statement text => text
  | continuation text => Marker.plain.indent ++ text
  | commentContinuation text => Marker.comment.indent ++ text
  | comment text => Marker.commentSign :: ' ' :: text
  | blank => []

end DraftLine

abbrev Draft := List DraftLine

namespace Draft

def lines (d : Draft) : List Text := d.map DraftLine.render

/-- The lines with newlines between, and one newline at the end even if there are no lines. -/
def text (d : Draft) : Text := Text.joinLines d.lines ++ ['\n']

end Draft

end SpiceDeck
