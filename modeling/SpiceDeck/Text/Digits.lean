import SpiceDeck.Text.Basic

/-!
# Numbers in digits

Natural numbers as texts of ASCII digits in a base up to sixteen.
-/

namespace SpiceDeck

namespace Digits

def value? (base : Nat) (c : Char) : Option Nat :=
  let n :=
    if '0' ≤ c ∧ c ≤ '9' then c.toNat - '0'.toNat
    else if 'a' ≤ c ∧ c ≤ 'f' then c.toNat - 'a'.toNat + 10
    else if 'A' ≤ c ∧ c ≤ 'F' then c.toNat - 'A'.toNat + 10
    else base
  if n < base then some n else none

def readFrom (base n : Nat) : Text → Option Nat
  | [] => some n
  | c :: t => do readFrom base (n * base + (← value? base c)) t

/-- The number that one or more digits say; leading zeros are read. -/
def read (base : Nat) (t : Text) : Option Nat := if t.isEmpty then none else readFrom base 0 t

def decimal (n : Nat) : Text := Nat.toDigits 10 n

def hexadecimal (n : Nat) : Text := Nat.toDigits 16 n

end Digits

end SpiceDeck
