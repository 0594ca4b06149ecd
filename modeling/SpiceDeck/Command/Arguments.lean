import SpiceDeck.Query.Listing
import SpiceDeck.Settings

/-!
# Command-line arguments

What the words of a command line ask for. Words are read from left to right, and the first one that
is wrong, or that asks for help or the version, decides.
-/

namespace SpiceDeck

namespace Command

/-! ## Vocabulary -/

inductive Flag
  | config
  | output
  | width
  | comments
  | emptyDeck
  | substring
  | format
  | progress
  | help
  | version
  deriving DecidableEq

namespace Flag

def long : Flag → Text
  | config => "config".toList
  | output => "output".toList
  | width => "width".toList
  | comments => "comment-policy".toList
  | emptyDeck => "empty-input".toList
  | substring => "substring".toList
  | format => "format".toList
  | progress => "progress".toList
  | help => "help".toList
  | version => "version".toList

def short? : Flag → Option Char
  | output => some 'o'
  | width => some 'w'
  | substring => some 's'
  | help => some 'h'
  | version => some 'V'
  | _ => none

def takesValue : Flag → Bool
  | progress | help | version => false
  | _ => true

end Flag

/-- What a command line does; each takes one operand. -/
inductive Verb
  | unwrap
  | reflow
  | find
  | hier
  deriving DecidableEq

namespace Verb

def ofName? (t : Text) : Option Verb :=
  [("unwrap".toList, unwrap), ("reflow".toList, reflow), ("wrap".toList, reflow),
    ("find".toList, find), ("hier".toList, hier)].lookup t

def readsDeck : Verb → Bool
  | hier => false
  | _ => true

def flags : Verb → List Flag
  | unwrap => [.config, .help, .output, .comments, .emptyDeck, .progress]
  | reflow => [.config, .help, .output, .width, .comments, .emptyDeck, .progress]
  | find => [.config, .help, .substring, .format, .comments, .emptyDeck]
  | hier => [.config, .help]

end Verb

def leadingFlags : List Flag := [.config, .help, .version]

inductive UsageError
  | noVerb
  | noOperand
  | missing (flag : Flag)
  | unknown (word : Text)
  | repeated (flag : Flag)
  | noValue (flag : Flag)
  | unneededValue (flag : Flag)
  | badValue (flag : Flag) (value : Text)
  | emptyOperand
  deriving DecidableEq

/-- Why the reading of a command line ends without anything to do. -/
inductive Stop
  | usage (error : UsageError)
  | help
  | version
  deriving DecidableEq

/-! ## Flags -/

structure Given where
  config : Option Text := none
  output : Option Text := none
  substring : Option Text := none
  format : Option ListingFormat := none
  settings : Settings := {}
  progress : Option Unit := none
  deriving DecidableEq

/-- Every width that can be given is smaller: it fits into 64 bits. -/
def widthLimit : Nat := 0x10000000000000000

/-- A number of columns: digits, with or without a plus sign. -/
def readWidth (t : Text) : Option Nat :=
  let digits := match t with
    | '+' :: digits => digits
    | digits => digits
  (Digits.read 10 digits).filter (· < widthLimit)

/-- Gives a place its value; it must not have one already. -/
def once {α : Type} (flag : Flag) (value : Text) (read : Text → Option α) (place : Option α) :
    Except Stop (Option α) :=
  match read value, place with
  | none, _ => .error (.usage (.badValue flag value))
  | some _, some _ => .error (.usage (.repeated flag))
  | some v, none => .ok (some v)

def readPath (t : Text) : Option Text := if t.isEmpty then none else some t

def Given.set (g : Given) (flag : Flag) (value : Text) : Except Stop Given :=
  match flag with
  | .config => do return { g with config := ← once flag value readPath g.config }
  | .output => do return { g with output := ← once flag value readPath g.output }
  | .substring => do return { g with substring := ← once flag value some g.substring }
  | .format => do return { g with format := ← once flag value ListingFormat.ofName? g.format }
  | .progress => do return { g with progress := ← once flag value (fun _ => some ()) g.progress }
  | .width => do
    let width ← once flag value readWidth g.settings.width
    return { g with settings := { g.settings with width } }
  | .comments => do
    let comments ← once flag value CommentPolicy.ofName? g.settings.comments
    return { g with settings := { g.settings with comments } }
  | .emptyDeck => do
    let emptyDeck ← once flag value EmptyDeck.ofName? g.settings.emptyDeck
    return { g with settings := { g.settings with emptyDeck } }
  | .help => .error .help
  | .version => .error .version

inductive Word
  | flag (flag : Flag) (attached : Option Text)
  | operand
  deriving DecidableEq

/-- Whether a word of its own can be a value or an operand: `-` can, other words with a hyphen in
front cannot. -/
def isOperand (word : Text) : Bool := word == ['-'] || word.head? != some '-'

def flagsEnd : Text := ['-', '-']

/-- Cuts a text behind the first equals sign. -/
def cutValue (t : Text) : Text × Option Text :=
  match t.dropWhile (· != '=') with
  | [] => (t, none)
  | _ :: value => (t.takeWhile (· != '='), some value)

/-- A flag has the form `--long`, `--long=value`, `-s`, `-svalue` or `-s=value`. -/
def readWord (flags : List Flag) (word : Text) : Except Stop Word :=
  match word with
  | '-' :: '-' :: body =>
    let (name, attached) := cutValue body
    match flags.find? fun f => f.long == name with
    | some flag => .ok (.flag flag attached)
    | none => .error (.usage (.unknown word))
  | '-' :: c :: body =>
    match flags.find? fun f => f.short? == some c with
    | none => .error (.usage (.unknown word))
    | some flag =>
      if flag.takesValue then
        match body with
        | [] => .ok (.flag flag none)
        | '=' :: value => .ok (.flag flag (some value))
        | value => .ok (.flag flag (some value))
      else .ok (.flag flag none)
  | _ => .ok .operand

/-- Takes flags as long as they come, and gives the words from the first operand on. -/
def readFlags (flags : List Flag) (g : Given) : List Text → Except Stop (Given × List Text)
  | [] => .ok (g, [])
  | word :: rest =>
    if word = flagsEnd then .ok (g, word :: rest)
    else do
      match ← readWord flags word with
      | .operand => return (g, word :: rest)
      | .flag flag (some value) =>
        if flag.takesValue then readFlags flags (← g.set flag value) rest
        else .error (.usage (.unneededValue flag))
      | .flag flag none =>
        if flag.takesValue then
          match rest with
          | value :: rest =>
            if isOperand value then readFlags flags (← g.set flag value) rest
            else .error (.usage (.noValue flag))
          | [] => .error (.usage (.noValue flag))
        else readFlags flags (← g.set flag []) rest

/-- The operand of a verb; the path of a deck has characters. -/
def Verb.operand (verb : Verb) (word : Text) : Except Stop Text :=
  if verb.readsDeck && word.isEmpty then .error (.usage .emptyOperand) else .ok word

/-- Takes the flags and the one operand of a verb, in any order. Behind `--` there are no flags. -/
def readOperand (verb : Verb) (words : List Text) : Except Stop (Given × Text) := do
  let (g, words) ← readFlags verb.flags {} words
  match words with
  | [] => .error (.usage .noOperand)
  | word :: rest =>
    if word = flagsEnd then
      match rest with
      | [] => .error (.usage .noOperand)
      | [word] => return (g, ← verb.operand word)
      | _ :: extra :: _ => .error (.usage (.unknown extra))
    else
      let operand ← verb.operand word
      let (g, rest) ← readFlags verb.flags g rest
      match rest with
      | [] => return (g, operand)
      | extra :: more =>
        if extra = flagsEnd && more.isEmpty then return (g, operand)
        else .error (.usage (.unknown extra))

/-! ## Whole command lines -/

inductive Action
  | unwrap (input : Text) (output : Option Text)
  | reflow (input : Text) (output : Option Text)
  | find (input substring : Text) (format : ListingFormat)
  | hier (path : Text)
  deriving DecidableEq

structure Invocation where
  config : Option Text
  settings : Settings
  action : Action
  deriving DecidableEq

def Action.paths : Action → List Text
  | unwrap input output | reflow input output => input :: output.toList
  | find input _ _ => [input]
  | hier _ => []

def Invocation.paths (i : Invocation) : List Text := i.config.toList ++ i.action.paths

def Verb.action (verb : Verb) (g : Given) (operand : Text) : Except Stop Action :=
  match verb with
  | unwrap => .ok (.unwrap operand g.output)
  | reflow => .ok (.reflow operand g.output)
  | hier => .ok (.hier operand)
  | find =>
    match g.substring with
    | some s => .ok (.find operand s (g.format.getD .text))
    | none => .error (.usage (.missing .substring))

/-- The words behind `help` name at most one verb. -/
def readHelp : List Text → Stop
  | [] => .help
  | [name] =>
    if name = Flag.help.long || (Verb.ofName? name).isSome then .help else .usage (.unknown name)
  | _ :: extra :: _ => .usage (.unknown extra)

/-- A configuration file named behind the verb comes before one named in front. -/
def readArguments (words : List Text) : Except Stop Invocation := do
  let (leading, words) ← readFlags leadingFlags {} words
  match words with
  | [] => .error (.usage .noVerb)
  | name :: rest =>
    match Verb.ofName? name with
    | some verb => do
      let (g, operand) ← readOperand verb rest
      return ⟨g.config <|> leading.config, g.settings, ← verb.action g operand⟩
    | none => .error (if name = Flag.help.long then readHelp rest else .usage (.unknown name))

end Command

end SpiceDeck
