import SpiceDeck.Command.Arguments
import SpiceDeck.Files.Request
import SpiceDeck.Query.Hierarchy

/-!
# Runs of the command line

A run is a function of the arguments, standard input and the file tree. It comes to an end with an
exit code, the bytes for standard output, a message, and the tree as it is then. The configuration
is read first, then the width is checked, and only then are the deck and the output touched. How
long a run took is no part of it: the closing message is a function of that text.
-/

namespace SpiceDeck

namespace Command

structure Surroundings where
  stdin : Bytes := []
  tree : FileTree
  deriving DecidableEq

structure Ended where
  code : Nat
  stdout : Bytes
  /-- The message for standard error, given the time that has passed. -/
  message : Text → Text
  tree : FileTree

/-! ## Messages -/

def programVersion : Text := "spicewrap 0.1.0\n".toList

def helpLines : List String :=
  ["Unwrap and reflow SPICE netlist continuation lines",
    "",
    "Usage: spicewrap [--config FILE] COMMAND",
    "",
    "Commands:",
    "  unwrap INPUT [-o FILE] [--progress]",
    "  reflow INPUT [-o FILE] [-w N] [--progress]",
    "  find INPUT -s TEXT [--format text|json]",
    "  hier PATH",
    "",
    "Of unwrap, reflow and find:",
    "  --comment-policy split|hold",
    "  --empty-input emit-empty-line|emit-nothing",
    "",
    "INPUT is a file, or - for standard input."]

def helpText : Text := helpLines.flatMap fun line => line.toList ++ ['\n']

def UsageError.message : UsageError → Text
  | noVerb => "a command is required".toList
  | noOperand => "an argument is required".toList
  | missing flag => "--".toList ++ flag.long ++ " is required".toList
  | unknown word => "unexpected argument ".toList ++ Quoted.display word
  | repeated flag => "--".toList ++ flag.long ++ " cannot be given twice".toList
  | noValue flag => "--".toList ++ flag.long ++ " needs a value".toList
  | unneededValue flag => "--".toList ++ flag.long ++ " takes no value".toList
  | badValue flag value =>
    "--".toList ++ flag.long ++ " cannot be ".toList ++ Quoted.display value
  | emptyOperand => "the path of a deck cannot be empty".toList

/-- A part of a closing message that is left out when the count is zero. -/
def countNote (label : String) (n : Nat) : Text :=
  if n = 0 then [] else ", ".toList ++ label.toList ++ ": ".toList ++ Digits.decimal n

def unwrapMessage (input : Text) (r : Report) (elapsed : Text) : Text :=
  "Unwrapped ".toList ++ input ++ " (physical: ".toList ++ Digits.decimal r.counts.physical ++
    ", continuations: ".toList ++ Digits.decimal r.counts.continuation ++
    ", logical: ".toList ++ Digits.decimal r.counts.logical ++ ", elapsed: ".toList ++ elapsed ++
    countNote "held comments" r.counts.held ++ ")\n".toList

def reflowMessage (input : Text) (width : LineWidth) (r : Report) (elapsed : Text) : Text :=
  "Reflowed ".toList ++ input ++ " (statements: ".toList ++ Digits.decimal r.counts.logical ++
    ", lines written: ".toList ++ Digits.decimal r.metrics.physical ++
    ", width: ".toList ++ Digits.decimal width.columns ++ ", elapsed: ".toList ++ elapsed ++
    countNote "lines over width" r.metrics.overlong ++ ")\n".toList

def failureMessage (f : Failure) : Text := "Error: ".toList ++ f.display ++ ['\n']

/-! ## Commands -/

def fail (tree : FileTree) (stdout : Bytes) (failure : Failure) : Ended :=
  ⟨1, stdout, fun _ => failureMessage failure, tree⟩

def succeed (tree : FileTree) (stdout : Bytes) : Ended := ⟨0, stdout, fun _ => [], tree⟩

def standardInput : Text := ['-']

/-- Whether a path is that of standard input; steps that lead nowhere else may follow. -/
def isStandardInput (path : Text) : Bool :=
  match path.splitOn FileTree.separator with
  | first :: rest =>
    first == standardInput && rest.all fun name => name.isEmpty || name == FileTree.here
  | [] => false

def inputOf (stdin : Bytes) (path : Text) : Input :=
  if isStandardInput path then .bytes stdin else .path path

def outputOf : Option Text → Output
  | some path => .path path
  | none => .standard

def runRequest (s : Surroundings) (r : Request) (message : Report → Text → Text) : Ended :=
  let outcome := r.execute s.tree
  match outcome.report with
  | .ok report => ⟨0, outcome.delivered, message report, outcome.tree⟩
  | .error failure => fail outcome.tree outcome.delivered failure

def openDeck (s : Surroundings) (input : Text) : Except Failure Source :=
  if isStandardInput input then .ok (.ofBytes s.stdin)
  else
    (s.tree.openSource input).mapError fun fault =>
      .said ("opening ".toList ++ input ++ " failed: ".toList ++ fault.text.toList)

/-- Lists what is found. A listing in JSON needs the whole deck; one in text goes as far as the deck
can be read. -/
def listFindings (s : Surroundings) (options : Options) (input substring : Text)
    (format : ListingFormat) : Ended :=
  match openDeck s input with
  | .error failure => fail s.tree [] failure
  | .ok source =>
    let contents := Reader.readAll options source
    let found := findings substring contents.statements.toList
    match format, contents.fault with
    | .text, none => succeed s.tree (Utf8.encode (listingText found))
    | .text, some fault => fail s.tree (Utf8.encode (listingText found)) (.io fault)
    | .json, none => succeed s.tree (Utf8.encode (listingJson found))
    | .json, some fault => fail s.tree [] (.io fault)

def hierarchyText (path : Text) : Text := (hierarchy path).flatMap fun level => level ++ ['\n']

def perform (s : Surroundings) (settings : Settings) : Action → Ended
  | .unwrap input output =>
    runRequest s ⟨.oneLine, settings.options, inputOf s.stdin input, outputOf output⟩
      (unwrapMessage input)
  | .reflow input output =>
    match settings.widthInForce with
    | .error failure => fail s.tree [] failure
    | .ok width =>
      runRequest s ⟨.wrapped width, settings.options, inputOf s.stdin input, outputOf output⟩
        (reflowMessage input width)
  | .find input substring format => listFindings s settings.options input substring format
  | .hier path => succeed s.tree (Utf8.encode (hierarchyText path))

def invoke (s : Surroundings) (i : Invocation) : Ended :=
  match Settings.load s.tree i.config with
  | .error failure => fail s.tree [] failure
  | .ok file => perform s (i.settings.orElse file) i.action

/-- Runs a command line. Exit code 2 says that the arguments are wrong; then nothing is touched. -/
def run (s : Surroundings) (arguments : List Text) : Ended :=
  match readArguments arguments with
  | .ok invocation => invoke s invocation
  | .error .help => succeed s.tree (Utf8.encode helpText)
  | .error .version => succeed s.tree (Utf8.encode programVersion)
  | .error (.usage error) => ⟨2, [], fun _ => "error: ".toList ++ error.message ++ ['\n'], s.tree⟩

end Command

end SpiceDeck
