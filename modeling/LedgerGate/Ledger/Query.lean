/-
  What a ledger can be asked.

  * `Call`: what the gateway asks a ledger to execute;
  * `Query` and its answers: the whole interface to one ledger, so that a
    computation over a ledger is a `Dialogue` of queries.
-/
import LedgerGate.Crypto.Key
import LedgerGate.Dialogue
import LedgerGate.Ledger.Confirmation
import LedgerGate.Ledger.Error
import LedgerGate.Time

namespace LedgerGate.Ledger

/-- A call for a ledger to execute. -/
inductive Call where
  | deployEscrow (owner : Crypto.Key)
  | invoke (sender : String) (data : List UInt8)
  deriving DecidableEq

def Call.kind : Call → String
  | deployEscrow _ => "deploy-escrow"
  | invoke _ _ => "invoke"

/-- A question to a ledger. -/
inductive Query where
  | submit (call : Call)
  | confirmationOf (workId : WorkId)
  | isKnown (workId : WorkId)
  | blockNumber
  | latestBlock
  | blockTime (block : UInt64)
  | feePolicy

/-- The answer to a question. -/
abbrev Query.Answer : Query → Type
  | submit _ => Except Error WorkId
  | confirmationOf _ => Except Error (Option Confirmation)
  | isKnown _ => Except Error Bool
  | blockNumber => Except Error UInt64
  | latestBlock => Except Error BlockTime
  | blockTime _ => Except Error BlockTime
  | feePolicy => Except Error Nat

/-- A computation over a ledger. -/
abbrev Conversation (α : Type) : Type := Dialogue Query.Answer α

end LedgerGate.Ledger
