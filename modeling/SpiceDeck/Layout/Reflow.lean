import SpiceDeck.Statement.Marker
import SpiceDeck.Layout.Packing

/-!
# Reflow of a statement

A statement is laid out in lines of a given width: the first one without indent, the others behind
the continuation marker that the statement calls for.
-/

namespace SpiceDeck

/-- A line width: at least one column. -/
structure LineWidth where
  columns : Nat
  positive : 0 < columns
  deriving DecidableEq

namespace LineWidth

def standard : LineWidth := ⟨80, by decide⟩

def ofNat? (columns : Nat) : Option LineWidth :=
  if h : 0 < columns then some ⟨columns, h⟩ else none

end LineWidth

/-- The physical lines of a statement; none if it has no words. -/
def wrapStatement (width : LineWidth) (statement : Text) : List Text :=
  wrapWords statement width.columns [] (Marker.ofStatement statement).indent

/-- The physical lines as one text. -/
def wrapToText (width : LineWidth) (statement : Text) : Text :=
  Text.joinLines (wrapStatement width statement)

/-- How statements are laid out: each on one line as it is, or wrapped. -/
inductive Layout
  | oneLine
  | wrapped (width : LineWidth)
  deriving DecidableEq

namespace Layout

def lines : Layout → Text → List Text
  | oneLine, statement => [statement]
  | wrapped width, statement => wrapStatement width statement

/-- Whether a line is wider than the layout allows. -/
def overlong : Layout → Text → Bool
  | oneLine, _ => false
  | wrapped width, line => width.columns < Text.columns line

end Layout

end SpiceDeck
