import SpiceDeck.Text.Basic
import SpiceDeck.Text.ColumnTable

/-!
# Columns

How many columns a text takes on a screen. Each character counts by itself, and terminal escape
sequences count nothing: `Escape` says where in a sequence the reading stands.
-/

namespace SpiceDeck

namespace Text

/-- The columns of a character outside an escape sequence. U+17D8 is drawn as three signs. -/
def charColumns (c : Char) : Nat :=
  let n := c.toNat
  if Ranges.zeroColumns.covers n then 0
  else if Ranges.twoColumns.covers n then 2
  else if n = 0x17D8 then 3
  else 1

/-- Where a reading stands: in plain text, after an escape character, in a control sequence (which a
character from `@` to `~` ends), or in a command (which a bell ends, or an escape character and a
backslash; `last` is the character before). -/
inductive Escape
  | outside
  | opened
  | control
  | command (last : Char)
  deriving DecidableEq

def escapeSign : Char := '\x1b'

/-- Where the reading stands after a character, and the columns that the character takes. -/
def Escape.step : Escape → Char → Escape × Nat
  | .outside, c => if c = escapeSign then (.opened, 0) else (.outside, charColumns c)
  | .opened, c =>
    if c = '[' then (.control, 0) else if c = ']' then (.command c, 0) else (.outside, 0)
  | .control, c => if '@' ≤ c && c ≤ '~' then (.outside, 0) else (.control, 0)
  | .command last, c =>
    if c = '\x07' || (c = '\\' && last = escapeSign) then (.outside, 0) else (.command c, 0)

def columnsFrom : Escape → Text → Nat
  | _, [] => 0
  | e, c :: t => (e.step c).2 + columnsFrom (e.step c).1 t

/-- The columns of a whole text. -/
def columns (t : Text) : Nat := columnsFrom .outside t

end Text

end SpiceDeck
