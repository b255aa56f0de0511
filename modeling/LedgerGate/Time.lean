/-
  Points in time, in seconds since the epoch, as ledgers stamp them on blocks.
-/
import LedgerGate.Json.Record

namespace LedgerGate

/-- Seconds since the epoch. -/
structure Timestamp where
  seconds : UInt64
  deriving DecidableEq, Repr, Inhabited

namespace Timestamp

/-- The time from this point to a later one; none has passed if it is earlier. -/
def elapsed (start now : Timestamp) : UInt64 :=
  if start.seconds ≤ now.seconds then now.seconds - start.seconds else 0

def display (t : Timestamp) : String := toString t.seconds.toNat ++ "s"

def isEpoch (t : Timestamp) : Bool := t.seconds == 0

/-- Negative, zero or positive as the first point is earlier, equal or later. -/
def order (a b : Timestamp) : Int :=
  if a.seconds < b.seconds then -1 else if a.seconds = b.seconds then 0 else 1

def toJson (t : Timestamp) : Json := .ofUInt64 t.seconds

def ofJson? (j : Json) : Option Timestamp := j.uint64?.map Timestamp.mk

end Timestamp

/-- A block and the time stamped on it. -/
structure BlockTime where
  block : UInt64
  time : Timestamp
  deriving DecidableEq, Repr, Inhabited

namespace BlockTime

def toJson (b : BlockTime) : Json :=
  .object [("block", .ofUInt64 b.block), ("time", b.time.toJson)]

def ofJson? (j : Json) : Option BlockTime := do
  let r ← j.record? ["block", "time"]
  return ⟨← r.required "block" Json.uint64?, ← r.required "time" Timestamp.ofJson?⟩

end BlockTime

end LedgerGate
