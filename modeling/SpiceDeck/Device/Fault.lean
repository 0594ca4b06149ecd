import SpiceDeck.Text.Quoted

/-!
# Faults of input and output

What can go wrong when a deck is read or written, and the words for it. A device may also fail with
a kind and a message of its own.
-/

namespace SpiceDeck

inductive Fault
  | notFound
  | notADirectory
  | isADirectory
  | nameTooLong
  | nulInName
  | invalidUtf8
  /-- A sink takes nothing of what is offered. -/
  | nothingTaken
  | sinkFull
  | flushFailed
  | device (kind message : String)
  deriving DecidableEq

namespace Fault

/-- The number the operating system gives a fault of its own. -/
def number? : Fault → Option Nat
  | notFound => some 2
  | notADirectory => some 20
  | isADirectory => some 21
  | nameTooLong => some 36
  | _ => none

def kind : Fault → String
  | notFound => "NotFound"
  | notADirectory => "NotADirectory"
  | isADirectory => "IsADirectory"
  | nameTooLong => "InvalidFilename"
  | nulInName => "InvalidInput"
  | invalidUtf8 => "InvalidData"
  | nothingTaken => "WriteZero"
  | sinkFull => "StorageFull"
  | flushFailed => "Other"
  | device kind _ => kind

def message : Fault → String
  | notFound => "No such file or directory"
  | notADirectory => "Not a directory"
  | isADirectory => "Is a directory"
  | nameTooLong => "File name too long"
  | nulInName => "file name contained an unexpected NUL byte"
  | invalidUtf8 => "stream did not contain valid UTF-8"
  | nothingTaken => "failed to write whole buffer"
  | sinkFull => "sink full"
  | flushFailed => "flush failed"
  | device _ message => message

def text (f : Fault) : String :=
  match f.number? with
  | some n => f.message ++ " (os error " ++ toString n ++ ")"
  | none => f.message

/-- The form that shows how the fault is made up. -/
def display (f : Fault) : Text :=
  let quoted := Quoted.display f.message.toList
  match f.number? with
  | some n =>
    "Os \x7b code: ".toList ++ Digits.decimal n ++ ", kind: ".toList ++ f.kind.toList ++
      ", message: ".toList ++ quoted ++ " \x7d".toList
  | none =>
    "Error \x7b kind: ".toList ++ f.kind.toList ++ ", message: ".toList ++ quoted ++ " \x7d".toList

end Fault

end SpiceDeck
