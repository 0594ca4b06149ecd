import SpiceDeck.Device.Fault
import SpiceDeck.Text.Utf8

/-!
# Sinks

A sink takes bytes up to a limit. What does not fit is cut off, and the write that brought it fails.
-/

namespace SpiceDeck

structure Sink where
  /-- How many bytes it takes in all; none means that there is no limit. -/
  limit : Option Nat := none
  /-- The fault of a write for which there is no room. -/
  refusal : Fault := .sinkFull
  flushFails : Bool := false
  taken : Array UInt8 := #[]
  deriving DecidableEq

namespace Sink

def unlimited : Sink := {}

def contents (s : Sink) : Bytes := s.taken.toList

def accept (s : Sink) (data : Bytes) : Sink :=
  match s.limit with
  | none => { s with taken := s.taken ++ data }
  | some limit => { s with taken := s.taken ++ data.take (limit - s.taken.size) }

def fits (s : Sink) (data : Bytes) : Bool :=
  match s.limit with
  | none => true
  | some limit => data.length ≤ limit - s.taken.size

/-- Writes all the data, or what fits of it before the fault. Writing nothing never fails. -/
def write (s : Sink) (data : Bytes) : Option Fault × Sink :=
  (if s.fits data then none else some s.refusal, s.accept data)

def flush (s : Sink) : Option Fault := if s.flushFails then some .flushFailed else none

end Sink

end SpiceDeck
