/-
  What lies outside: ledgers, the store, the directories, a clock and a source of
  secrets.

  Whatever is outside answers questions and changes as it does; nothing else of it
  is known here.
-/
import LedgerGate.Ledger.Query
import LedgerGate.Store.Directory
import LedgerGate.Store.Query

namespace LedgerGate

/-- A world outside that answers questions. -/
class Outside (W : Type) where
  /-- The answer of the ledger with an id. -/
  ledger : (ledgerId : String) → (q : Ledger.Query) → W → q.Answer × W
  /-- The answer of the store. -/
  store : (q : Store.Query) → W → q.Answer × W
  /-- The answer of the directories. -/
  lookup : (l : Store.Lookup) → W → l.Answer
  /-- A fresh secret for a key pair. -/
  draw : W → Except Crypto.KeyError Crypto.Key × W
  /-- The time in milliseconds since the epoch. -/
  clock : W → Nat

end LedgerGate
