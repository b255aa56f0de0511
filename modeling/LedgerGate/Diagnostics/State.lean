/-
  What diagnostics show of a gateway: where requests go, what scans found, what the
  meters read, how escrows stand, and what was seen from outside.
-/
import LedgerGate.Diagnostics.Failure
import LedgerGate.Escrow.Fleet
import LedgerGate.Gateway.Basic

namespace LedgerGate

/-! ## Routing -/

def Principal.toJson : Principal → Json
  | anyone => .text "public"
  | ledger ledgerId => .object [("ledger", .ofOption .text ledgerId)]
  | address a => .object [("address", .text a)]
  | token symbol => .object [("token", .text symbol)]
  | wallet walletId ledgerId =>
    .object [("wallet", .integer walletId.toInt), ("ledger", .ofOption .text ledgerId)]

def Store.Lookup.display : Store.Lookup → String
  | .address a => "address:" ++ a
  | .token symbol => "token:" ++ symbol

def Candidate.toJson (c : Candidate) : Json :=
  .object [("valid", .bool c.valid), ("ledgerId", .ofOption .text c.ledgerId),
    ("walletId", .text c.wallet.display)]

def Route.toJson (r : Route Delegate) : Json :=
  .object [("candidate", r.candidate.toJson), ("ledger", .text r.ledger.id),
    ("delegate", .text r.delegate.key.display)]

/-! ## Scans and meters -/

def Receipt.Report.toJson : Receipt.Report → Json
  | .skipped => .text "skipped"
  | .completed checked confirmed errors =>
    .object [("checked", .ofNat checked), ("confirmed", .ofNat confirmed),
      ("errors", .ofNat errors)]

def Meters.toJson (m : Meters) : Json :=
  .object [("routed", .ofUInt64 m.routed), ("unroutable", .ofUInt64 m.unroutable),
    ("scans", .ofUInt64 m.scans), ("skipped", .ofUInt64 m.skipped),
    ("confirmations", .ofUInt64 m.confirmations),
    ("transportErrors", .ofUInt64 m.transportErrors), ("dispatched", .ofUInt64 m.dispatched), ("pending", .integer m.pending),
    ("unclaimed", .integer m.unclaimed)]

/-! ## Escrows -/

namespace Escrow

def Identity.toJson (i : Identity) : Json :=
  .object [("contractAddress", .text i.contractAddress), ("publicKey", .text i.publicKey.toHex)]

def State.toJson : State → Json
  | uninitialised => .text "UNINITIALISED"
  | initialising => .text "INITIALISING"
  | ready i => .object [("READY", i.toJson)]
  | failed reason => .object [("FAILED", .text reason)]

def Member.toJson (m : Member) : Json :=
  .object [("state", m.state.toJson), ("settled", .bool m.state.isSettled),
    ("ledger", .text m.bootstrap.settings.ledgerId), ("pending", .ofNat m.tracker.pending.length),
    ("shutdown", .bool m.shutdown.triggered), ("reason", .ofOption .text m.shutdown.reason)]

end Escrow

/-! ## Events -/

/-- An event under the names that were given to it; a response is no diagnostic. -/
def Event.toJson? : Event → Option Json
  | response _ => none
  | delivered messageId sent =>
    some (.object [("messageId", .text messageId), ("sent", .ofOutcome .ofUInt32 sent)])
  | replied name (.ok (output, pending)) =>
    some (.object [("name", .text name), ("reply", .object [("ok", output.toJson)]),
      ("pending", .bool pending)])
  | replied name (.error f) => some (.object [("name", .text name), ("reply", f.toJson)])
  | ended name outcome =>
    some (.object [("name", .text name), ("terminal", .ofOutcome Output.toJson outcome)])
  | outcomeSeen name r => some (.object [("handler", .text name), ("result", r.toJson)])
  | confirmationSeen name c => some (.object [("handler", .text name), ("confirmation", c.toJson)])
  | scanned name report => some (.object [("scan", .text name), ("report", report.toJson)])

/-! ## Gateways -/

namespace Gateway

variable {W : Type}

/-- What a gateway was built as. -/
def toJson (g : Gateway W) : Json :=
  let names := fun (xs : List String) => Json.list (xs.map .text)
  .object [("brands", names (g.ledgers.brands.map Brand.name)),
    ("configured", names (g.ledgers.configured.map (·.id))),
    ("default", .text g.ledgers.defaultId),
    ("delegates", names (g.delegates.keys.map RouteKey.display)),
    ("escrows", names (g.ledgers.escrows.map (·.id))), ("maxDepth", .ofUInt32 g.config.maxDepth)]

/-- Why the gateway was shut down, if it was. -/
def shutdownJson (g : Gateway W) : Json :=
  if g.shutdown.triggered then .list [.ofOption .text g.shutdown.reason] else .null

/-- The escrow of the ledger that a name stands for, if it hosts one. -/
def escrowJson (g : Gateway W) (name : String) : Json :=
  Json.ofOption (fun b : Escrow.Bootstrap =>
    .object [("state", b.phase.state.toJson),
      ("identity", .ofOutcome Escrow.Identity.toJson b.identity)])
    (g.escrow? name)

end Gateway

end LedgerGate
