import SpiceDeck.Text.Basic

/-!
# Search among tokens
-/

namespace SpiceDeck

/-- The position of the first item that holds `s`. Every item holds the empty text. -/
def firstContaining (s : Text) (items : List Text) : Option Nat := items.findIdx? (Text.contains s)

end SpiceDeck
