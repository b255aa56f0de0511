/-
  A stage: a world outside in memory, for rehearsals.

  Its ledgers are looked up by id; one that is not there answers nothing. Its clock
  stands still.
-/
import LedgerGate.Crypto.Secrets
import LedgerGate.Ledger.Rehearsal
import LedgerGate.Outside
import LedgerGate.Store.Memory

namespace LedgerGate

/-- Ledgers, a store, directories and secrets in memory. -/
structure Stage where
  ledgers : List (String × Ledger.Rehearsal)
  store : Store.Memory
  directory : Store.Directory
  secrets : Crypto.Secrets
  deriving Inhabited

namespace Stage

def empty : Stage := ⟨[], .empty, .empty, .ofSeed []⟩

/-- The ledger with an id. -/
def ledger? (s : Stage) (ledgerId : String) : Option Ledger.Rehearsal :=
  Entries.find? s.ledgers ledgerId

/-- The ledger with an id, or a new one. -/
def ledgerOf (s : Stage) (ledgerId : String) : Ledger.Rehearsal := (s.ledger? ledgerId).getD .new

def setLedger (s : Stage) (ledgerId : String) (r : Ledger.Rehearsal) : Stage :=
  { s with ledgers := Entries.insert s.ledgers ledgerId r }

instance : Outside Stage where
  ledger ledgerId q s :=
    let answer := (s.ledgerOf ledgerId).answer q
    (answer.1, s.setLedger ledgerId answer.2)
  store q s :=
    let answer := s.store.answer q
    (answer.1, { s with store := answer.2 })
  lookup l s := s.directory.answer l
  draw s :=
    let drawn := s.secrets.draw
    (drawn.1, { s with secrets := drawn.2 })
  clock _ := 0

end Stage

end LedgerGate
