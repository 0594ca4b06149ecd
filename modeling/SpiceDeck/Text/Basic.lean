/-!
# Texts

A text is the list of its characters. Here are the blanks of Unicode's White_Space property, the
words a text holds between them, and the two ways the library ends a line: `lines` cuts at newlines
and drops the carriage return before one, `trim` removes blanks at both ends.
-/

namespace SpiceDeck

abbrev Text := List Char

namespace Text

/-- The property White_Space: space, the controls from tab to carriage return, next line, and the
separators of the general punctuation and CJK blocks. -/
def isBlank (c : Char) : Bool :=
  let n := c.toNat
  (0x9 ≤ n && n ≤ 0xD) || n == 0x20 || n == 0x85 || n == 0xA0 || n == 0x1680 ||
    (0x2000 ≤ n && n ≤ 0x200A) || n == 0x2028 || n == 0x2029 || n == 0x202F || n == 0x205F ||
    n == 0x3000

def trimLeft (t : Text) : Text := t.dropWhile isBlank

def trimRight (t : Text) : Text := (t.reverse.dropWhile isBlank).reverse

def trim (t : Text) : Text := trimRight (trimLeft t)

/-- The longest pieces of a text that hold no blank. -/
def words (t : Text) : List Text := (t.splitOnP isBlank).filter fun w => !w.isEmpty

def joinWords (ws : List Text) : Text := [' '].intercalate ws

/-- Each run of blanks becomes one space, and none is left at the ends. -/
def normalize (t : Text) : Text := joinWords (words t)

/-! ## Lines -/

def dropReturn (t : Text) : Text :=
  if t.getLast? = some '\r' then t.dropLast else t

/-- A line ends at a newline and loses one carriage return before it. What follows the last newline
is a line only if it is not empty, and keeps its carriage return. -/
def lines (t : Text) : List Text :=
  let pieces := t.splitOn '\n'
  let last := pieces.getLastD []
  pieces.dropLast.map dropReturn ++ if last.isEmpty then [] else [last]

def joinLines (ls : List Text) : Text := ['\n'].intercalate ls

/-- Lines with their blank ends removed, the blank ones left out. -/
def trimmedLines (ls : List Text) : List Text := (ls.map trim).filter fun l => !l.isEmpty

/-- The first of them, and the lines not yet looked at. -/
def nextTrimmed : List Text → Option Text × List Text
  | [] => (none, [])
  | l :: rest =>
    let line := trim l
    if line.isEmpty then nextTrimmed rest else (some line, rest)

/-! ## Search -/

/-- Whether `s` stands in `t` as a run of neighbouring characters. -/
def contains (s : Text) : Text → Bool
  | [] => s.isEmpty
  | c :: t => s.isPrefixOf (c :: t) || contains s t

end Text

end SpiceDeck
