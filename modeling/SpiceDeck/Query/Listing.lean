import SpiceDeck.Query.Search
import SpiceDeck.Text.Quoted

/-!
# Listings of a search

For each statement of a deck, the first of its words that holds a text. A listing is written as
lines of text, position and statement with a tab between, or as a JSON array.
-/

namespace SpiceDeck

structure Finding where
  /-- The number of the statement, from zero. -/
  number : Nat
  statement : Text
  position : Option Nat
  deriving DecidableEq

namespace Finding

def ofStatement (s : Text) (number : Nat) (statement : Text) : Finding :=
  ⟨number, statement, firstContaining s (Text.words statement)⟩

/-- The word that was found. -/
def token (f : Finding) : Option Text := f.position.bind fun i => (Text.words f.statement)[i]?

/-- The position, or -1 if there is none. -/
def positionText (f : Finding) : Text :=
  match f.position with
  | some i => Digits.decimal i
  | none => ['-', '1']

def line (f : Finding) : Text := f.positionText ++ '\t' :: f.statement ++ ['\n']

def jsonFields (f : Finding) : List (Text × Text) :=
  [("statement".toList, Digits.decimal f.number),
    ("index".toList, f.positionText),
    ("token".toList, match f.token with | some t => Quoted.json t | none => "null".toList),
    ("line".toList, Quoted.json f.statement)]

/-- An object, one field a line, indented by four spaces inside and two outside. -/
def json (f : Finding) : Text :=
  let fields := f.jsonFields.map fun (key, value) =>
    "    ".toList ++ Quoted.json key ++ ": ".toList ++ value
  "  \x7b\n".toList ++ [',', '\n'].intercalate fields ++ "\n  \x7d".toList

end Finding

/-- What is found in each statement, in order. -/
def findings (s : Text) (statements : List Text) : List Finding :=
  statements.zipIdx.map fun (statement, number) => .ofStatement s number statement

inductive ListingFormat
  | text
  | json
  deriving DecidableEq

namespace ListingFormat

def name : ListingFormat → Text
  | text => "text".toList
  | json => "json".toList

def ofName? (t : Text) : Option ListingFormat := [text, json].find? fun f => f.name == t

end ListingFormat

def listingText (fs : List Finding) : Text := fs.flatMap Finding.line

def listingJson (fs : List Finding) : Text :=
  if fs.isEmpty then "[]\n".toList
  else "[\n".toList ++ [',', '\n'].intercalate (fs.map Finding.json) ++ "\n]\n".toList

end SpiceDeck
