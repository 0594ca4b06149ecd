import SpiceDeck.Text.Columns

/-!
# Packing words into lines

First fit: a word joins the current line as long as the line stays within its limit, else it starts
the next line. The first line has a limit of its own. A word is never cut, so a word wider than its
limit stands alone.
-/

namespace SpiceDeck

/-- Cuts `words` behind a line that takes `used` columns already, a space after its last word
included: the words that go on that line, and the lines after it. -/
def flow (later limit used : Nat) : List Text → List Text × List (List Text)
  | [] => ([], [])
  | w :: ws =>
    if used + Text.columns w ≤ limit then
      let (line, rest) := flow later limit (used + Text.columns w + 1) ws
      (w :: line, rest)
    else
      let (line, rest) := flow later later (Text.columns w + 1) ws
      ([], (w :: line) :: rest)

/-- The lines of a list of words, each a list of at least one word. -/
def pack (first later : Nat) : List Text → List (List Text)
  | [] => []
  | w :: ws =>
    let (line, rest) := flow later first (Text.columns w + 1) ws
    (w :: line) :: rest

/-- Puts the indents in front and single spaces between. -/
def indentLines (initial subsequent : Text) : List (List Text) → List Text
  | [] => []
  | line :: rest =>
    (initial ++ Text.joinWords line) :: rest.map fun ws => subsequent ++ Text.joinWords ws

/-- Fills lines of `width` columns, indents included, with the words of a text. An indent wider than
the line leaves no room, and then every word has a line of its own. -/
def wrapWords (text : Text) (width : Nat) (initial subsequent : Text) : List Text :=
  indentLines initial subsequent <|
    pack (width - Text.columns initial) (width - Text.columns subsequent) (Text.words text)

end SpiceDeck
