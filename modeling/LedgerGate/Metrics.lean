/-
  Meters: counters, which only grow, and gauges, which hold the last value set.

  * `Meter` names each with its help text;
  * `Meters.observe` records a notice of a tracker;
  * `Meters.report` is what is exported of a meter.
-/
import LedgerGate.Receipt.Tracker

namespace LedgerGate

/-- Something that is measured. -/
inductive Meter where
  | routed
  | unroutable
  | scans
  | skipped
  | confirmations
  | transportErrors
  | dispatched
  | pending
  | unclaimed
  deriving DecidableEq, Repr

namespace Meter

/-- All meters in the order of their names. -/
def all : List Meter :=
  [dispatched, confirmations, pending, routed, unroutable, skipped, scans, transportErrors,
    unclaimed]

def name : Meter → String
  | routed => "xledger_requests_routed_total"
  | unroutable => "xledger_routing_failures_total"
  | scans => "xledger_scans_total"
  | skipped => "xledger_scans_skipped_total"
  | confirmations => "xledger_confirmations_total"
  | transportErrors => "xledger_transport_errors_total"
  | dispatched => "xledger_callbacks_dispatched_total"
  | pending => "xledger_pending_work"
  | unclaimed => "xledger_unclaimed_receipts"

def help : Meter → String
  | routed => "Requests dispatched to a delegate"
  | unroutable => "Requests rejected by principal resolution or delegate matching"
  | scans => "Receipt scans run"
  | skipped => "Receipt scans dropped because one was already running"
  | confirmations => "Confirmations obtained from ledgers"
  | transportErrors => "Failed confirmation queries"
  | dispatched => "Receipt callbacks handed to the worker pool"
  | pending => "Submitted work awaiting confirmation"
  | unclaimed => "Confirmations waiting for a callback"

def isGauge : Meter → Bool
  | pending => true
  | unclaimed => true
  | _ => false

end Meter

/-- The values of all meters. Counters have 64 bits and start over behind the last. -/
structure Meters where
  routed : UInt64 := 0
  unroutable : UInt64 := 0
  scans : UInt64 := 0
  skipped : UInt64 := 0
  confirmations : UInt64 := 0
  transportErrors : UInt64 := 0
  dispatched : UInt64 := 0
  pending : Int := 0
  unclaimed : Int := 0
  deriving DecidableEq, Repr, Inhabited

namespace Meters

def read (m : Meters) : Meter → Int
  | .routed => m.routed.toNat
  | .unroutable => m.unroutable.toNat
  | .scans => m.scans.toNat
  | .skipped => m.skipped.toNat
  | .confirmations => m.confirmations.toNat
  | .transportErrors => m.transportErrors.toNat
  | .dispatched => m.dispatched.toNat
  | .pending => m.pending
  | .unclaimed => m.unclaimed

/-- What is exported of a meter: doubles, so only numbers of up to 53 bits are exact, and
    none is beyond the signed range. -/
def report (m : Meters) (n : Meter) : Int :=
  (Float.ofInt (m.read n)).toInt64.toInt

/-- Lets a counter grow; a gauge does not. -/
def grow (m : Meters) (amount : UInt64) : Meter → Meters
  | .routed => { m with routed := m.routed + amount }
  | .unroutable => { m with unroutable := m.unroutable + amount }
  | .scans => { m with scans := m.scans + amount }
  | .skipped => { m with skipped := m.skipped + amount }
  | .confirmations => { m with confirmations := m.confirmations + amount }
  | .transportErrors => { m with transportErrors := m.transportErrors + amount }
  | .dispatched => { m with dispatched := m.dispatched + amount }
  | .pending => m
  | .unclaimed => m

/-- Sets a gauge; a counter cannot be set. -/
def set (m : Meters) (value : Int) : Meter → Meters
  | .pending => { m with pending := value }
  | .unclaimed => { m with unclaimed := value }
  | _ => m

/-- Records what happened in a tracker. -/
def observe {H : Type} (m : Meters) : Receipt.Notice H → Meters
  | .pendingCount n => m.set n .pending
  | .unclaimedCount n => m.set n .unclaimed
  | .scanBegun => m.grow 1 .scans
  | .scanSkipped => m.grow 1 .skipped
  | .confirmed => m.grow 1 .confirmations
  | .queryFailed => m.grow 1 .transportErrors
  | .dispatched _ _ => m.grow 1 .dispatched

def observeAll {H : Type} (m : Meters) (notices : List (Receipt.Notice H)) : Meters :=
  notices.foldl observe m

end Meters

end LedgerGate
