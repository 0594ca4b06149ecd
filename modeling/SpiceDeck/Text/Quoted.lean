import SpiceDeck.Text.Digits
import SpiceDeck.Text.HiddenTable

/-!
# Quoted texts

Two written forms of a text between double quotes: `json` for documents, which escapes only what it
must, and `display` for messages, which escapes every character that shows nothing.
-/

namespace SpiceDeck

namespace Quoted

def quote (escape : Char → Text) (t : Text) : Text := '"' :: t.flatMap escape ++ ['"']

/-- The control characters that have a letter of their own. -/
def letter? : Char → Option Char
  | '\t' => some 't'
  | '\n' => some 'n'
  | '\r' => some 'r'
  | _ => none

def jsonEscape (c : Char) : Text :=
  if c = '"' ∨ c = '\\' then ['\\', c]
  else if c = '\x08' then ['\\', 'b']
  else if c = '\x0c' then ['\\', 'f']
  else if c.toNat < 0x20 then
    match letter? c with
    | some l => ['\\', l]
    | none =>
      ['\\', 'u', '0', '0'] ++ (if c.toNat < 0x10 then ['0'] else []) ++
        Digits.hexadecimal c.toNat
  else [c]

def json (t : Text) : Text := quote jsonEscape t

/-- Controls, blanks other than the space, and the characters and code points of the tables. -/
def isHidden (c : Char) : Bool :=
  let n := c.toNat
  n < 0x20 || (0x7F ≤ n && n < 0xA0) || (Text.isBlank c && c != ' ') ||
    [Ranges.extenders, Ranges.formats, Ranges.fillers, Ranges.privateUse, Ranges.unassigned].any
      fun table => table.covers n

def displayEscape (c : Char) : Text :=
  if c = '"' ∨ c = '\\' then ['\\', c]
  else if c = '\x00' then ['\\', '0']
  else
    match letter? c with
    | some l => ['\\', l]
    | none =>
      if isHidden c then ['\\', 'u', '\x7b'] ++ Digits.hexadecimal c.toNat ++ ['\x7d']
      else [c]

def display (t : Text) : Text := quote displayEscape t

end Quoted

end SpiceDeck
