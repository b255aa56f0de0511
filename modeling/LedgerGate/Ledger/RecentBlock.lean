/-
  A memory of a ledger's latest block number.

  A number is fresh for a while; a stale one is asked for again, and when the
  ledger gives no answer the stale one still serves. Times are milliseconds on
  any clock that does not run backwards.
-/
import LedgerGate.Ledger.Query

namespace LedgerGate.Ledger

/-- The latest block number seen, and when it was asked for. -/
structure RecentBlock where
  lifetime : Nat
  seen : Option (UInt64 × Nat)
  deriving Inhabited

namespace RecentBlock

def new (lifetime : Nat) : RecentBlock := ⟨lifetime, none⟩

/-- The number last seen, fresh or stale. -/
def peek (r : RecentBlock) : Option UInt64 := r.seen.map (·.1)

/-- The number while it is fresh. -/
def fresh? (r : RecentBlock) (now : Nat) : Option UInt64 :=
  match r.seen with
  | some (block, since) => if now - since < r.lifetime then some block else none
  | none => none

/-- What an answer of the ledger leaves in memory. -/
def learn (r : RecentBlock) (now : Nat) : Except Error UInt64 → RecentBlock
  | .ok block => { r with seen := some (block, now) }
  | .error _ => r

/-- The latest block number, asked for unless a fresh one is remembered. -/
def get (r : RecentBlock) (now : Nat) : Conversation (Option UInt64 × RecentBlock) :=
  match r.fresh? now with
  | some block => .done (some block, r)
  | none => .ask .blockNumber fun answer => .done ((r.learn now answer).peek, r.learn now answer)

end RecentBlock

end LedgerGate.Ledger
