/-
  What a store of texts can be asked.

  * `Query` and its answers: the whole interface to a store, so that a
    computation over a store can be suspended at every access;
  * `escrowKey`: where the record of a ledger's escrow is kept.
-/
import LedgerGate.Brand
import LedgerGate.Store.Error

namespace LedgerGate.Store

/-- A request to a store of texts. `putIfAbsent` checks and writes in one step. -/
inductive Query where
  | get (key : String)
  | put (key value : String)
  | putIfAbsent (key value : String)
  | delete (key : String)
  deriving DecidableEq

/-- The answer to a request. -/
abbrev Query.Answer : Query → Type
  | get _ => Except Error (Option String)
  | put _ _ => Except Error Unit
  | putIfAbsent _ _ => Except Error Bool
  | delete _ => Except Error Unit

/-- The key of the record of a ledger's escrow. -/
def escrowKey (brand : Brand) (ledgerId : String) : String :=
  brand.name ++ ":" ++ ledgerId ++ ":escrow:contract-address"

end LedgerGate.Store
