import SpiceDeck.Device.Fault

/-!
# Failures of a request

Why a request gave no result, and the two texts for it: a sentence for a reader, and the form that
shows how the failure is made up.
-/

namespace SpiceDeck

inductive Failure
  | invalidWidth (columns : Nat)
  | invalidSettings
  | outputIsInput (path : Text)
  | io (fault : Fault)
  /-- A failure for which there are only words. -/
  | said (message : Text)
  deriving DecidableEq

namespace Failure

def message : Failure → Text
  | invalidWidth columns =>
    "Invalid width: ".toList ++ Digits.decimal columns ++ " (must be > 0)".toList
  | invalidSettings => "Invalid configuration".toList
  | outputIsInput path => "Output would overwrite input: ".toList ++ path
  | io fault => "I/O error: ".toList ++ fault.text.toList
  | said message => message

def display : Failure → Text
  | invalidWidth columns => "InvalidWidth(".toList ++ Digits.decimal columns ++ [')']
  | invalidSettings => "InvalidConfig".toList
  | outputIsInput path => "OutputIsInput(".toList ++ Quoted.display path ++ [')']
  | io fault => "Io(".toList ++ fault.display ++ [')']
  | said message => Quoted.display message

end Failure

end SpiceDeck
