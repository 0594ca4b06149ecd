import SpiceDeck.Text.Basic

/-!
# Hierarchy paths

An instance path names one level of the hierarchy per piece between slashes, empty pieces included.
A `PathCursor` goes through the prefixes from the top down; it keeps the path and how many bytes of
it are passed.
-/

namespace SpiceDeck

def byteSize : Text → Nat
  | [] => 0
  | c :: t => c.utf8Size + byteSize t

/-- Cuts a text behind its first `n` bytes, if a character ends there. -/
def cutAtByte : Text → Nat → Option (Text × Text)
  | t, 0 => some ([], t)
  | [], _ + 1 => none
  | c :: t, n + 1 =>
    if c.utf8Size ≤ n + 1 then
      (cutAtByte t (n + 1 - c.utf8Size)).map fun (before, rest) => (c :: before, rest)
    else none

structure PathCursor where
  path : Text
  /-- The bytes passed, the slash behind the last prefix included; none after the whole path. -/
  position : Option Nat := some 0
  deriving DecidableEq

namespace PathCursor

def separator : Char := '/'

/-- The next longer prefix; none after the whole path. -/
def next (c : PathCursor) : Option Text × PathCursor :=
  match c.position with
  | none => (none, c)
  | some start =>
    match cutAtByte c.path start with
    | none => (none, { c with position := none })
    | some (before, ahead) =>
      let piece := ahead.takeWhile (· != separator)
      if piece.length < ahead.length then
        (some (before ++ piece), { c with position := some (start + byteSize piece + 1) })
      else (some c.path, { c with position := none })

/-- The answers of at most `n` calls, up to the first that is none. -/
def take (c : PathCursor) : Nat → List Text
  | 0 => []
  | n + 1 =>
    match c.next with
    | (none, _) => []
    | (some level, c) => level :: c.take n

end PathCursor

/-- All prefixes of a path that end before a slash, and the path itself. -/
def hierarchy (path : Text) : List Text := (PathCursor.mk path (some 0)).take (path.length + 1)

end SpiceDeck
