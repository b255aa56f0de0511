/-
  Building a gateway from its configuration.

  Everything that can be wrong is found out here, in one order: the configuration
  itself, the directories, then ledger by ledger its client and its escrow, and
  last the delegates.

  * `Fittings`: what a gateway is built from beside its configuration;
  * `build`.
-/
import LedgerGate.Gateway.Basic

namespace LedgerGate

/-- A way to make the clients of ledgers of one brand, which may fail. -/
abbrev Factory : Type := LedgerSettings → Except Fault Unit

/-- What a gateway is built from beside its configuration: whether there are
    directories and a store, the factories of clients, and the delegates of the
    embedder. -/
structure Fittings where
  hasDirectories : Bool
  hasStore : Bool
  factory : Brand → Option Factory
  delegates : List Delegate

namespace Fittings

/-- Makes the client of a ledger. -/
def connect (f : Fittings) (l : LedgerSettings) : Except Fault Unit :=
  match f.factory l.brand with
  | some create => create l
  | none =>
    .error (.config
      ("no client factory for brand " ++ l.brand.name ++ " (ledger " ++ l.id ++ ")"))

/-- The bootstrap of a ledger's escrow, if it is to have one. -/
def escrowOf (f : Fittings) (l : LedgerSettings) : Except Fault (Option Escrow.Bootstrap) :=
  match l.escrowFee with
  | none => .ok none
  | some fee =>
    if f.hasStore then .ok (some (.new (.standard l.brand l.id fee.toNat)))
    else .error (.config ("ledger " ++ l.id ++ " hosts an escrow but no store is configured"))

/-- The desk of a ledger. -/
def desk (f : Fittings) (c : Config) (l : LedgerSettings) : Except Fault Desk :=
  match f.connect l with
  | .error e => .error e
  | .ok _ => (f.escrowOf l).map (Desk.new l.id c.recentReceipts.toNat c.recentBlockLifetime.toNat)

/-- The desks of all ledgers, in their order. -/
def desks (f : Fittings) (c : Config) : List LedgerSettings → Except Fault (List Desk)
  | [] => .ok []
  | l :: ls =>
    match f.desk c l with
    | .error e => .error e
    | .ok d => (f.desks c ls).map (d :: ·)

end Fittings

/-- The entry of a configured ledger. -/
def LedgerSettings.entry (l : LedgerSettings) : LedgerEntry :=
  ⟨l.id, l.brand, .outside l.escrowFee.isSome⟩

namespace Gateway

variable {W : Type}

/-- A gateway of parts that fit together, before its start. -/
def ofParts (c : Config) (ledgers : LedgerTable) (delegates : Assignments Delegate)
    (desks : List Desk) (outside : W) : Gateway W where
  config := c
  ledgers := ledgers
  delegates := delegates
  desks := desks
  meters := {}
  shutdown := .new
  leases := .empty
  started := false
  scanner := none
  now := 0
  timers := .empty
  ready := []
  tickets := 0
  errands := []
  events := #[]
  held := false
  delays := []
  outside := outside

/-- Builds a gateway. -/
def build (c : Config) (f : Fittings) (outside : W) : Except Fault (Gateway W) := do
  c.validate
  if !f.hasDirectories then
    throw (.config "address and token directories are required")
  let desks ← f.desks c c.ledgers
  let ledgers ← LedgerTable.ofList (c.ledgers.map LedgerSettings.entry) (some c.defaultLedgerId)
  let delegates ← Assignments.ofList Delegate.key
    (standardDelegates ledgers.brands ++ f.delegates)
  return ofParts c ledgers delegates desks outside

/-- Subscribes the transport to shutdown. -/
def subscribeTransport (g : Gateway W) : Gateway W :=
  { g with shutdown := g.shutdown.subscribe .transport }

end Gateway

end LedgerGate
