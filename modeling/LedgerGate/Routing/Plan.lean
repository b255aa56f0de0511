/-
  Where a request goes.

  The first valid principal decides the ledger, and the ledger's brand the
  delegate. Only that principal counts: if its ledger is not configured the
  request fails, even if a later one would do.
-/
import LedgerGate.Routing.Assignments
import LedgerGate.Routing.Ledgers
import LedgerGate.Routing.Principal

namespace LedgerGate

/-- Where a request goes. -/
structure Route (D : Type) where
  candidate : Candidate
  ledger : LedgerEntry
  delegate : D

namespace Route

variable {D : Type}

/-- The route of a request on whose behalf a candidate acts. -/
def ofCandidate (ledgers : LedgerTable) (delegates : Assignments D) (operation : String)
    (input : Option Input) (candidate : Candidate) : Except Fault (Route D) :=
  match ledgers.find? candidate.ledgerId with
  | none => .error (.noSuchLedger (candidate.ledgerId.getD ledgers.defaultId))
  | some ledger =>
    let key : RouteKey := ⟨operation, Input.shapeOf input, ledger.brand⟩
    match delegates.find? key with
    | none => .error (.noImplementation key)
    | some delegate => .ok ⟨candidate, ledger, delegate⟩

/-- The route of a request; it asks the directories who may act. -/
def plan (ledgers : LedgerTable) (delegates : Assignments D) (operation : String)
    (input : Option Input) : Store.Inquiry (Except Fault (Route D)) :=
  (firstValid input).bind fun
    | .error f => .done (.error f)
    | .ok none => .done (.error (.accessDenied operation))
    | .ok (some candidate) =>
      .done (ofCandidate ledgers delegates operation input candidate)

end Route

end LedgerGate
