import SpiceDeck.Files.Failure
import SpiceDeck.Files.Tree
import SpiceDeck.Layout.Reflow
import SpiceDeck.Statement.Assembly
import SpiceDeck.Toml.Document

/-!
# Settings

The settings a run can be given, by flags or by a file, each present or absent. The file is a TOML
document with the tables `unwrap` (`comment_policy`, `empty_input`) and `wrap` (`width`). Flags come
before the file, and the file before the defaults, setting by setting. `toToml` writes the document
that states given settings.
-/

namespace SpiceDeck

structure Settings where
  comments : Option CommentPolicy := none
  emptyDeck : Option EmptyDeck := none
  width : Option Nat := none
  deriving DecidableEq

namespace CommentPolicy

def name : CommentPolicy → Text
  | split => "split".toList
  | hold => "hold".toList

def ofName? (t : Text) : Option CommentPolicy := [split, hold].find? fun p => p.name == t

end CommentPolicy

namespace EmptyDeck

def name : EmptyDeck → Text
  | emptyLine => "emit-empty-line".toList
  | nothing => "emit-nothing".toList

def ofName? (t : Text) : Option EmptyDeck := [emptyLine, nothing].find? fun e => e.name == t

end EmptyDeck

namespace Settings

/-- What `first` leaves open is taken from `second`. -/
def orElse (first second : Settings) : Settings where
  comments := first.comments <|> second.comments
  emptyDeck := first.emptyDeck <|> second.emptyDeck
  width := first.width <|> second.width

def options (s : Settings) : Options where
  comments := s.comments.getD .split
  emptyDeck := s.emptyDeck.getD .emptyLine

/-- The width in force, which must not be zero. -/
def widthInForce (s : Settings) : Except Failure LineWidth :=
  match s.width with
  | none => .ok .standard
  | some columns =>
    match LineWidth.ofNat? columns with
    | some width => .ok width
    | none => .error (.invalidWidth columns)

/-! ## The file -/

def unwrapTable : Text := "unwrap".toList
def wrapTable : Text := "wrap".toList
def commentsKey : Text := "comment_policy".toList
def emptyDeckKey : Text := "empty_input".toList
def widthKey : Text := "width".toList

/-- Whether the entries have different keys, all of them known. -/
def wellKeyed (known : List Text) (entries : Toml.Entries) : Bool :=
  let given := entries.map fun entry => entry.1
  decide given.Nodup && given.all known.contains

/-- The values of the keys in order. An array gives them by position. -/
def fields (known : List Text) : Option Toml.Value → Option (List (Option Toml.Value))
  | none => some (known.map fun _ => none)
  | some (.table entries _) =>
    if wellKeyed known entries then some (known.map fun key => entries.lookup key) else none
  | some (.array items) =>
    if items.length ≤ known.length then
      some (items.map some ++ List.replicate (known.length - items.length) none)
    else none
  | some _ => none

/-- Reads a value that may be absent; none if it is there and cannot be read. -/
def optional {α : Type} (read : Toml.Value → Option α) : Option Toml.Value → Option (Option α)
  | none => some none
  | some v => (read v).map some

/-- A name is given as a text, or as the key of an empty table that stands alone in a closed one. -/
def named {α : Type} (ofName? : Text → Option α) : Toml.Value → Option α
  | .text t => ofName? t
  | .table [(t, .table [] _)] false => ofName? t
  | _ => none

def natural : Toml.Value → Option Nat
  | .integer i => i.toNat?
  | _ => none

/-- All tables by name: what stands at the top, and the sections, whose names are single keys. -/
def tables : List Toml.Section → Option Toml.Entries
  | [] => some []
  | ⟨[], _, entries⟩ :: rest => do return entries ++ (← tables rest)
  | ⟨[name], false, entries⟩ :: rest => do return (name, .table entries false) :: (← tables rest)
  | _ => none

/-- A header of two keys or more gives the setting that they begin with its last key for a name. -/
def headerEntry (table key : Text) (more : List Text) : Text × Toml.Value :=
  let name := more.getLastD key
  (table, .table [(key, .table [(name, .table [] false)] false)] false)

/-- The entries of a document. One that is nothing but a header may give a setting by it. -/
def entriesOf : List Toml.Section → Option Toml.Entries
  | [⟨[], _, []⟩, ⟨table :: key :: more, _, []⟩] => some [headerEntry table key more]
  | sections => tables sections

def ofSections (sections : List Toml.Section) : Option Settings := do
  match ← fields [unwrapTable, wrapTable] (some (.table (← entriesOf sections) false)) with
  | [unwrap, wrap] =>
    match ← fields [commentsKey, emptyDeckKey] unwrap, ← fields [widthKey] wrap with
    | [comments, emptyDeck], [width] =>
      return {
        comments := ← optional (named CommentPolicy.ofName?) comments
        emptyDeck := ← optional (named EmptyDeck.ofName?) emptyDeck
        width := ← optional natural width }
    | _, _ => none
  | _ => none

/-- The settings of a document, none if it is not TOML or says anything else. -/
def ofToml (t : Text) : Option Settings := Toml.read t >>= ofSections

/-- A line that gives a key its value, if there is one. -/
def tomlEntry (key : Text) (value : Option Text) : Text :=
  match value with
  | some v => key ++ " = ".toList ++ v ++ ['\n']
  | none => []

def tomlHeader (table : Text) : Text := '[' :: table ++ [']', '\n']

/-- The document that states the settings, both tables included. -/
def toToml (s : Settings) : Text :=
  tomlHeader unwrapTable ++
    tomlEntry commentsKey (s.comments.map fun p => Quoted.json p.name) ++
    tomlEntry emptyDeckKey (s.emptyDeck.map fun e => Quoted.json e.name) ++
  tomlHeader wrapTable ++
    tomlEntry widthKey (s.width.map Digits.decimal)

/-- The settings of a file, or no settings where no file is named. -/
def load (tree : FileTree) : Option Text → Except Failure Settings
  | none => .ok {}
  | some path =>
    match tree.readText path with
    | .error fault =>
      .error (.said ("reading config ".toList ++ path ++ " failed: ".toList ++ fault.text.toList))
    | .ok t =>
      match ofToml t with
      | some settings => .ok settings
      | none => .error .invalidSettings

end Settings

end SpiceDeck
