import SpiceDeck.Text.Digits

/-!
# Lexemes of TOML

A document is cut into signs, bare words and quoted texts. Blanks only separate; line ends and
comments stay, since a statement ends with its line. `ofText` gives none if something in the
document is no lexeme.
-/

namespace SpiceDeck

namespace Toml

inductive Lexeme
  | newline
  | comment
  | equals
  | period
  | comma
  | leftBrace
  | rightBrace
  /-- A bracket is doubled if the same one stands right behind it. -/
  | leftBracket (doubled : Bool)
  | rightBracket (doubled : Bool)
  /-- A run of letters, digits, underscores and hyphens. -/
  | bare (text : Text)
  /-- A bare run behind a plus sign: a number only. -/
  | positive (text : Text)
  /-- Only one on a single line is a key. -/
  | quoted (text : Text) (multiline : Bool)
  deriving DecidableEq

namespace Lexeme

/-! ## Characters -/

def isBare (c : Char) : Bool := c.isAlphanum || c == '-' || c == '_'

def isGap (c : Char) : Bool := c == ' ' || c == '\t'

def inComment (c : Char) : Bool := c == '\t' || 0x20 ≤ c.toNat

def isPlain (c : Char) : Bool := c == '\t' || (0x20 ≤ c.toNat && c.toNat != 0x7F)

/-- A carriage return before a newline is part of the line end. -/
def foldLineEnds : Text → Text
  | '\r' :: '\n' :: t => '\n' :: foldLineEnds t
  | c :: t => c :: foldLineEnds t
  | [] => []

/-! ## Quoted texts

Each reader gets what follows the opening quotes and gives the text and what follows the closing
quotes.
-/

abbrev Reading := Option (Text × Text)

def Reading.push (c : Char) (r : Reading) : Reading := r.map fun (t, rest) => (c :: t, rest)

/-- What a quote in a text on several lines closes: three in a row end it, and up to two more before
its end belong to the text. -/
def closeLong (quote : Char) (rest : Text) : Reading :=
  if (rest.take 2) == [quote, quote] then
    let extra := ((rest.drop 2).take 2).takeWhile (· == quote)
    some (extra, (rest.drop 2).drop extra.length)
  else none

def close (quote : Char) (multiline : Bool) (rest : Text) : Reading :=
  if multiline then closeLong quote rest else some ([], rest)

def mayHold (multiline : Bool) (c : Char) : Bool := isPlain c || (multiline && c == '\n')

/-- A text in apostrophes, without escapes. -/
def literal (multiline : Bool) : Text → Reading
  | [] => none
  | c :: rest =>
    if c = '\'' then
      match close c multiline rest with
      | some done => some done
      | none => (literal multiline rest).push c
    else if mayHold multiline c then (literal multiline rest).push c
    else none

def escaped? : Char → Option Char
  | '"' => some '"'
  | '\\' => some '\\'
  | 'b' => some '\x08'
  | 'f' => some '\x0c'
  | 'n' => some '\n'
  | 'r' => some '\r'
  | 't' => some '\t'
  | _ => none

/-- Where the reading of a text with escapes stands: among plain characters, after a backslash, in a
code with some digits to come, between a backslash and the line end that it hides, or among the
blanks after that line end. -/
inductive Escape
  | plain
  | opened
  | code (left value : Nat)
  | hiding
  | hidden
  deriving DecidableEq

def basic (multiline : Bool) : Escape → Text → Reading
  | _, [] => none
  | .opened, c :: rest =>
    if c = 'u' then basic multiline (.code 4 0) rest
    else if c = 'U' then basic multiline (.code 8 0) rest
    else if multiline && isGap c then basic multiline .hiding rest
    else if multiline && c == '\n' then basic multiline .hidden rest
    else
      match escaped? c with
      | some d => (basic multiline .plain rest).push d
      | none => none
  | .code left value, c :: rest =>
    match Digits.value? 16 c with
    | none => none
    | some d =>
      let value := value * 16 + d
      if 1 < left then basic multiline (.code (left - 1) value) rest
      else if value.isValidChar then (basic multiline .plain rest).push (Char.ofNat value)
      else none
  | .hiding, c :: rest =>
    if isGap c then basic multiline .hiding rest
    else if c = '\n' then basic multiline .hidden rest
    else none
  | escape, c :: rest =>
    if escape = .hidden && (isGap c || c == '\n') then basic multiline .hidden rest
    else if c = '\\' then basic multiline .opened rest
    else if c = '"' then
      match close c multiline rest with
      | some done => some done
      | none => (basic multiline .plain rest).push c
    else if mayHold multiline c then (basic multiline .plain rest).push c
    else none

/-- A line end right behind three opening quotes is no part of the text. -/
def dropNewline : Text → Text
  | '\n' :: t => t
  | t => t

/-- Reads a quoted text behind its first quote: two quotes alone are the empty text, three open a
text on several lines. -/
def quotedFrom (quote : Char) (body : Bool → Text → Reading) (rest : Text) :
    Option (Lexeme × Text) :=
  if rest.take 2 == [quote, quote] then
    (body true (dropNewline (rest.drop 2))).map fun (t, rest) => (.quoted t true, rest)
  else (body false rest).map fun (t, rest) => (.quoted t false, rest)

/-! ## All lexemes -/

def sign? : Char → Option Lexeme
  | '\n' => some .newline
  | '=' => some .equals
  | '.' => some .period
  | ',' => some .comma
  | '{' => some .leftBrace
  | '}' => some .rightBrace
  | _ => none

def next (c : Char) (rest : Text) : Option (Lexeme × Text) :=
  if c = '#' then some (.comment, rest.dropWhile inComment)
  else if c = '\'' then quotedFrom c literal rest
  else if c = '"' then quotedFrom c (fun multiline => basic multiline .plain) rest
  else if isBare c then some (.bare (c :: rest.takeWhile isBare), rest.dropWhile isBare)
  else if c = '+' then
    let digits := rest.takeWhile isBare
    if digits.isEmpty then none else some (.positive digits, rest.dropWhile isBare)
  else if c = '[' then some (.leftBracket (rest.head? == some c), rest)
  else if c = ']' then some (.rightBracket (rest.head? == some c), rest)
  else (sign? c).map fun s => (s, rest)

/-- No more than `n` lexemes and blanks are read. -/
def readFrom : Nat → Text → Option (List Lexeme)
  | _, [] => some []
  | 0, _ :: _ => none
  | n + 1, c :: rest =>
    if isGap c then readFrom n rest
    else do
      let (lexeme, rest) ← next c rest
      return lexeme :: (← readFrom n rest)

def byteOrderMark : Char := '\ufeff'

def dropMark : Text → Text
  | c :: t => if c = byteOrderMark then t else c :: t
  | [] => []

def ofText (t : Text) : Option (List Lexeme) :=
  let t := foldLineEnds (dropMark t)
  readFrom t.length t

end Lexeme

end Toml

end SpiceDeck
