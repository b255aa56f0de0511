/-
  The ledgers of a gateway as routing sees them.

  The configured ledgers stand in the order they were configured. The internal
  ledger is always there beside them; it has no client, tracks no receipts and
  hosts no escrow.

  * `Facilities`: what a ledger has, each by itself;
  * `LedgerTable.ofList` refuses ids that cannot be told apart;
  * `LedgerTable.find?`: no id, or an empty one, means the default ledger.
-/
import LedgerGate.Fault

namespace LedgerGate

/-! ## Ledgers -/

/-- What a ledger has: a client to ask it, a tracker of its receipts, an escrow. -/
structure Facilities where
  client : Bool
  tracker : Bool
  escrow : Bool
  deriving DecidableEq, Repr, Inhabited

namespace Facilities

def none : Facilities := ⟨false, false, false⟩

/-- Those of a ledger outside: a client, the tracker that asks through it, and perhaps an
    escrow. -/
def outside (escrow : Bool) : Facilities := ⟨true, true, escrow⟩

/-- Of a ledger outside only the escrow is to be told. -/
instance : Coe Bool Facilities := ⟨outside⟩

end Facilities

/-- A ledger that requests can be sent to. -/
structure LedgerEntry where
  id : String
  brand : Brand
  facilities : Facilities
  deriving DecidableEq, Repr, Inhabited

namespace LedgerEntry

def internal : LedgerEntry := ⟨internalLedger, .none, .none⟩

def hostsEscrow (l : LedgerEntry) : Bool := l.facilities.escrow

def isInternal (l : LedgerEntry) : Bool := l.id == internalLedger

/-- Refuses a ledger that cannot be asked anything. -/
def requireClient (l : LedgerEntry) : Except Fault Unit :=
  if l.facilities.client then .ok () else .error (.own ("ledger " ++ l.id ++ " has no client"))

/-- Refuses a ledger whose work is not tracked. -/
def requireTracker (l : LedgerEntry) : Except Fault Unit :=
  if l.facilities.tracker then .ok ()
  else .error (.own ("ledger " ++ l.id ++ " tracks no receipts"))

/-- Refuses a ledger without an escrow. -/
def requireEscrow (l : LedgerEntry) : Except Fault Unit :=
  if l.hostsEscrow then .ok () else .error (.config ("ledger " ++ l.id ++ " hosts no escrow"))

end LedgerEntry

/-! ## Tables -/

/-- The configured ledgers, and the id of the default one. -/
structure LedgerTable where
  configured : List LedgerEntry
  defaultId : String
  deriving Inhabited

namespace LedgerTable

/-- Checks the ids of ledgers, those that came before being `seen`. -/
def checkEntries (seen : List String) : List LedgerEntry → Except Fault Unit
  | [] => .ok ()
  | l :: ls =>
    if l.id.isEmpty ∨ l.id = internalLedger then
      .error (.config ("invalid ledger id \"" ++ l.id ++ "\""))
    else if seen.contains l.id then .error (.config ("ledger " ++ l.id ++ " configured twice"))
    else checkEntries (l.id :: seen) ls

/-- The default among some ledgers: the one that is asked for, which must be there,
    else the first, else the internal one. -/
def pickDefault (ledgers : List LedgerEntry) : Option String → Except Fault String
  | some id =>
    if id = internalLedger ∨ ledgers.any (·.id == id) then .ok id
    else .error (.config ("default ledger " ++ id ++ " is not configured"))
  | none =>
    match ledgers with
    | l :: _ => .ok l.id
    | [] => .ok internalLedger

/-- The table of some ledgers. -/
def ofList (ledgers : List LedgerEntry) (defaultId : Option String) :
    Except Fault LedgerTable :=
  match checkEntries [] ledgers with
  | .error f => .error f
  | .ok _ => (pickDefault ledgers defaultId).map fun id => ⟨ledgers, id⟩

/-- The ledger with an id. -/
def get? (t : LedgerTable) (id : String) : Option LedgerEntry :=
  if id = internalLedger then some .internal else t.configured.find? (·.id == id)

/-- The ledger that a request names; without a name it is the default one. -/
def find? (t : LedgerTable) : Option String → Option LedgerEntry
  | none => t.get? t.defaultId
  | some id => if id.isEmpty then t.get? t.defaultId else t.get? id

/-- The brands of the configured ledgers, each once. -/
def brands (t : LedgerTable) : List Brand := (t.configured.map (·.brand)).eraseDups

/-- The configured ledgers that host an escrow. -/
def escrows (t : LedgerTable) : List LedgerEntry := t.configured.filter (·.hostsEscrow)

end LedgerTable

end LedgerGate
