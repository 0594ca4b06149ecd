import SpiceDeck.Text.Digits

/-!
# Durations

A time in nanoseconds as a number with two decimals and the largest unit that is not longer.
-/

namespace SpiceDeck

namespace Duration

/-- Two decimals, a half rounded up. -/
def inUnit (nanoseconds unit : Nat) (sign : String) : Text :=
  let hundredths := (nanoseconds * 100 + unit / 2) / unit
  let decimals := hundredths % 100
  Digits.decimal (hundredths / 100) ++ '.' :: (if decimals < 10 then ['0'] else []) ++
    Digits.decimal decimals ++ sign.toList

def text (nanoseconds : Nat) : Text :=
  if 1000000000 ≤ nanoseconds then inUnit nanoseconds 1000000000 "s"
  else if 1000000 ≤ nanoseconds then inUnit nanoseconds 1000000 "ms"
  else if 1000 ≤ nanoseconds then inUnit nanoseconds 1000 "µs"
  else inUnit nanoseconds 1 "ns"

end Duration

end SpiceDeck
