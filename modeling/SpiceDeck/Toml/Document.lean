import SpiceDeck.Toml.Lexeme

/-!
# TOML documents

A document is a list of sections, each with a name and entries; the first has the empty name and
holds what stands before any header. Of the values only those are read that a setting can be made
of: texts, integers, arrays and inline tables.
-/

namespace SpiceDeck

namespace Toml

inductive Value
  | text (text : Text)
  | integer (value : Int)
  | array (items : List Value)
  /-- A table is open if dotted keys made it; only then can further keys be added. -/
  | table (entries : List (Text × Value)) (isOpen : Bool)

abbrev Entries := List (Text × Value)

structure Section where
  name : List Text
  /-- Two brackets on each side of the header make the section an item of an array. -/
  isItem : Bool
  entries : Entries

def Section.top : Section := ⟨[], false, []⟩

/-! ## Numbers -/

/-- Digits with single underscores between them. -/
def magnitude (base : Nat) (t : Text) : Option Nat :=
  let groups := t.splitOn '_'
  if groups.any List.isEmpty then none else Digits.read base groups.flatten

/-- No decimal number but zero itself begins with a zero. -/
def decimal (t : Text) : Option Nat :=
  if t.head? = some '0' && t.length != 1 then none else magnitude 10 t

/-- Integers fit into 64 bits with a sign. -/
def bounded (value : Int) : Option Int :=
  if -0x8000000000000000 ≤ value ∧ value < 0x8000000000000000 then some value else none

/-- An integer, in base 16, 8 or 2 if it begins with `0x`, `0o` or `0b`. -/
def integer (t : Text) : Option Int := do
  match t with
  | '0' :: 'x' :: digits => bounded (← magnitude 16 digits)
  | '0' :: 'o' :: digits => bounded (← magnitude 8 digits)
  | '0' :: 'b' :: digits => bounded (← magnitude 2 digits)
  | '-' :: digits => bounded (-(← decimal digits))
  | digits => bounded (← decimal digits)

/-! ## Keys -/

def Lexeme.key? : Lexeme → Option Text
  | .bare t => some t
  | .quoted t false => some t
  | _ => none

def keys : List Lexeme → Option (List Text × List Lexeme)
  | k :: .period :: rest => do
    let (more, rest) ← keys rest
    return ((← k.key?) :: more, rest)
  | k :: rest => do return ([← k.key?], rest)
  | [] => none

/-- Puts a value in at the end of a way of keys. -/
def insert (entries : Entries) (value : Value) : List Text → Option Entries
  | [] => none
  | [key] => some (entries ++ [(key, value)])
  | key :: rest =>
    match entries.lookup key with
    | none => do return entries ++ [(key, .table (← insert [] value rest) true)]
    | some (.table inner true) => do
      let table := Value.table (← insert inner value rest) true
      return entries.map fun entry => if entry.1 = key then (key, table) else entry
    | some _ => none

/-! ## Values -/

def skipLines (ls : List Lexeme) : List Lexeme :=
  ls.dropWhile fun l => l == .newline || l == .comment

mutual

/-- Reads a value no deeper and no longer than `n` steps. -/
def value : Nat → List Lexeme → Option (Value × List Lexeme)
  | _ + 1, .quoted t _ :: rest => some (.text t, rest)
  | _ + 1, .bare t :: rest => do return (.integer (← integer t), rest)
  | _ + 1, .positive t :: rest => do return (.integer (← integer t), rest)
  | n + 1, .leftBracket _ :: rest => do
    let (items, rest) ← items n rest
    return (.array items, rest)
  | _ + 1, .leftBrace :: .rightBrace :: rest => some (.table [] false, rest)
  | n + 1, .leftBrace :: rest => do
    let (entries, rest) ← inlineEntries n [] rest
    return (.table entries false, rest)
  | _, _ => none

/-- The items of an array up to its end. They may stand on lines of their own, and a comma may
follow the last one. -/
def items : Nat → List Lexeme → Option (List Value × List Lexeme)
  | 0, _ => none
  | n + 1, ls =>
    match skipLines ls with
    | .rightBracket _ :: rest => some ([], rest)
    | ls => do
      let (item, ls) ← value n ls
      match skipLines ls with
      | .comma :: rest => do
        let (more, rest) ← items n rest
        return (item :: more, rest)
      | .rightBracket _ :: rest => some ([item], rest)
      | _ => none

/-- The entries of an inline table up to its end, all on one line. -/
def inlineEntries : Nat → Entries → List Lexeme → Option (Entries × List Lexeme)
  | 0, _, _ => none
  | n + 1, done, ls => do
    let (way, ls) ← keys ls
    match ls with
    | .equals :: ls => do
      let (v, ls) ← value n ls
      let done ← insert done v way
      match ls with
      | .comma :: ls => inlineEntries n done ls
      | .rightBrace :: ls => some (done, ls)
      | _ => none
    | _ => none

end

/-! ## Lines -/

def endLine : List Lexeme → Option (List Lexeme)
  | [] => some []
  | .newline :: rest => some rest
  | [.comment] => some []
  | .comment :: .newline :: rest => some rest
  | _ => none

/-- A header between brackets, the first of them read already, begins a section. -/
def header (doubled : Bool) (ls : List Lexeme) : Option (Section × List Lexeme) := do
  let (name, ls) ← keys (if doubled then ls.tail else ls)
  match doubled, ls with
  | false, .rightBracket _ :: rest => return (⟨name, false, []⟩, ← endLine rest)
  | true, .rightBracket true :: _ :: rest => return (⟨name, true, []⟩, ← endLine rest)
  | _, _ => none

/-- An entry takes a line. -/
def entry (ls : List Lexeme) : Option (List Text × Value × List Lexeme) := do
  match ← keys ls with
  | (way, .equals :: rest) =>
    let (v, rest) ← value (2 * rest.length + 1) rest
    return (way, v, ← endLine rest)
  | _ => none

/-- Reads at most `n` lines; `current` is the section that entries go to. -/
def sections : Nat → Section → List Lexeme → Option (List Section)
  | _, current, [] => some [current]
  | 0, _, _ :: _ => none
  | n + 1, current, .newline :: rest => sections n current rest
  | n + 1, current, .comment :: rest => sections n current rest
  | n + 1, current, .leftBracket doubled :: rest => do
    let (next, rest) ← header doubled rest
    return current :: (← sections n next rest)
  | n + 1, current, ls => do
    let (way, v, rest) ← entry ls
    let entries ← insert current.entries v way
    sections n { current with entries } rest

def read (t : Text) : Option (List Section) := do
  let ls ← Lexeme.ofText t
  sections ls.length .top ls

end Toml

end SpiceDeck
