/-
  On whose behalf a request is made.

  An input names its principals in the order in which they are tried. Resolving a
  principal asks the directories and gives a candidate: valid or not, with the
  ledger and the wallet that it selects.

  * `Input.principals`: who is named;
  * `Principal.resolve`: what a principal selects;
  * `firstValid`: the first valid candidate, looking nothing up behind it.
-/
import LedgerGate.Fault
import LedgerGate.Store.Directory

namespace LedgerGate

/-- A party on whose behalf a request may be made. -/
inductive Principal where
  | anyone
  | ledger (ledgerId : Option String)
  | address (address : String)
  | token (symbol : String)
  | wallet (walletId : Int32) (ledgerId : Option String)
  deriving DecidableEq, Repr

/-- The principals that an input names. -/
def Input.principals : Input → List Principal
  | ping _ => [.anyone]
  | ledgerScope ledgerId => [.ledger ledgerId]
  | transactionQuery ledgerId _ => [.ledger ledgerId]
  | blockForTime symbol _ => [.token symbol]
  | address a _ => [.address a]
  | call a _ _ => [.address a]
  | token symbol (some a) _ => [.address a, .token symbol]
  | token symbol none _ => [.token symbol]
  | wallet walletId ledgerId _ => [.wallet walletId ledgerId]

/-- The principals of a request; without an input anyone on the default ledger. -/
def principalsOf : Option Input → List Principal
  | some i => i.principals
  | none => [.ledger none]

/-! ## Candidates -/

/-- What a principal selects; no ledger means the default one. -/
structure Candidate where
  valid : Bool
  ledgerId : Option String
  wallet : WalletId
  deriving DecidableEq, Repr, Inhabited

namespace Candidate

def invalid : Candidate := ⟨false, none, .notApplicable⟩

def accepted (ledgerId : Option String) (wallet : WalletId) : Candidate :=
  ⟨true, ledgerId, wallet⟩

/-- The candidate of an address, if it is known. -/
def ofAddress : Option Store.AddressRecord → Candidate
  | some r => accepted r.ledgerId r.wallet
  | none => invalid

end Candidate

/-! ## Resolution -/

/-- Looks an address up. -/
def addressCandidate (address : String) : Store.Inquiry (Except Fault Candidate) :=
  .ask (.address address) fun
    | .error e => .done (.error (.ofStore e))
    | .ok r => .done (.ok (.ofAddress r))

/-- What a principal selects. A token is acted for by its controller. -/
def Principal.resolve : Principal → Store.Inquiry (Except Fault Candidate)
  | anyone => .done (.ok (.accepted (some internalLedger) .notApplicable))
  | ledger ledgerId => .done (.ok (.accepted ledgerId .notApplicable))
  | address a => addressCandidate a
  | token symbol =>
    .ask (.token symbol) fun
      | .error e => .done (.error (.ofStore e))
      | .ok none => .done (.ok .invalid)
      | .ok (some t) => addressCandidate t.controller
  | wallet walletId ledgerId =>
    .done (.ok (.accepted (some (ledgerId.getD internalLedger)) (.id walletId)))

/-- The first valid candidate; an error on the way ends the search. -/
def firstValidOf : List Principal → Store.Inquiry (Except Fault (Option Candidate))
  | [] => .done (.ok none)
  | p :: ps => p.resolve.bind fun
    | .error e => .done (.error e)
    | .ok c => if c.valid then .done (.ok (some c)) else firstValidOf ps

/-- The first valid candidate of a request. -/
def firstValid (input : Option Input) : Store.Inquiry (Except Fault (Option Candidate)) :=
  firstValidOf (principalsOf input)

end LedgerGate
