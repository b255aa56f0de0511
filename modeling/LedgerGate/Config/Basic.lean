/-
  The configuration of a gateway.

  * `Config` and its `LedgerSettings`; what is not said has a standard value;
  * `Config.validate` refuses ambiguous ledgers and limits that make no sense;
  * `Config.defaultLedgerId`: the ledger of requests that name none.
-/
import LedgerGate.Fault
import LedgerGate.Toml.Value

namespace LedgerGate

/-! ## Log format -/

/-- How log lines look. -/
inductive LogFormat where
  | human
  | json
  deriving DecidableEq, Repr, Inhabited

namespace LogFormat

def name : LogFormat → String
  | human => "human"
  | json => "json"

/-- The format of an exact name. -/
def ofName? (s : String) : Option LogFormat := [human, json].find? (·.name == s)

/-- The format of a name in any letter case. -/
def parse (s : String) : Except Fault LogFormat :=
  match ofName? s.toLower with
  | some f => .ok f
  | none => .error (.config ("unknown log format: " ++ s.toLower))

end LogFormat

/-- The fault of setting up the log of a process a second time. -/
def logAlreadySet : Fault := .config "logging already initialised"

/-! ## Settings -/

/-- A ledger of the gateway. One with a fee hosts an escrow and must charge that
    fee; `params` are for the client of its brand. -/
structure LedgerSettings where
  id : String
  brand : Brand
  isDefault : Bool := false
  escrowFee : Option UInt64 := none
  params : List (String × Toml) := []
  deriving Inhabited

/-- The configuration of a gateway, times in milliseconds. -/
structure Config where
  logFormat : LogFormat := .human
  logLevel : String := "info"
  dataDir : String := "./xledger_data"
  scanInterval : UInt64 := 3600
  callbackWorkers : UInt64 := 8
  recentBlockLifetime : UInt64 := 10000
  maxDepth : UInt32 := 4
  recentReceipts : UInt64 := 1024
  ledgers : List LedgerSettings := []
  deriving Inhabited

namespace Config

/-! ## Checks -/

/-- Checks the ids of ledgers, those that came before being `seen`. -/
def checkIds (seen : List String) : List LedgerSettings → Except Fault Unit
  | [] => .ok ()
  | l :: ls =>
    if l.id.isEmpty then .error (.config "ledger id must not be empty")
    else if l.id = internalLedger then
      .error (.config ("ledger id " ++ internalLedger ++ " is reserved"))
    else if seen.contains l.id then .error (.config ("ledger " ++ l.id ++ " configured twice"))
    else checkIds (l.id :: seen) ls

/-- The ids of the ledgers that claim to be the default one. -/
def defaultIds (c : Config) : List String := (c.ledgers.filter (·.isDefault)).map (·.id)

/-- Refuses a configuration that is ambiguous or has limits of zero. -/
def validate (c : Config) : Except Fault Unit :=
  match checkIds [] c.ledgers with
  | .error f => .error f
  | .ok _ =>
    if 1 < c.defaultIds.length then
      .error (.config ("more than one default ledger: " ++ String.intercalate ", " c.defaultIds))
    else if c.scanInterval = 0 then .error (.config "scan_interval_ms must be positive")
    else if c.maxDepth = 0 then .error (.config "max_continuation_depth must be at least 1")
    else .ok ()

/-- The ledger of requests that name none: the one that claims it, else the first,
    else the internal one. -/
def defaultLedgerId (c : Config) : String :=
  match (c.ledgers.find? (·.isDefault)).or c.ledgers.head? with
  | some l => l.id
  | none => internalLedger

end Config

end LedgerGate
