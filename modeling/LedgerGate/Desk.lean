/-
  Desks: what is kept at hand for one ledger.

  A desk has the tracker of the ledger's receipts, a memory of its latest block
  and, if the ledger hosts an escrow, the escrow's bootstrap.

  * `Waiter`: who waits for a receipt;
  * `Desk.prepare`: work is tracked and its receipt is waited for, unless it is at
    hand already.
-/
import LedgerGate.Escrow.Bootstrap
import LedgerGate.Ledger.RecentBlock
import LedgerGate.Receipt.Tracker

namespace LedgerGate

/-! ## Waiters -/

/-- What a watcher of a receipt looks at: the outcome, the confirmation itself, or
    nothing, because it breaks down. -/
inductive View where
  | outcome
  | confirmation
  | nothing
  deriving DecidableEq, Repr

/-- Who waits for a receipt. -/
inductive Waiter where
  | watcher (name : String) (view : View)
  | ticket (n : Nat)
  | escrow
  deriving DecidableEq, Repr

/-! ## Bootstraps -/

/-- The bootstrap of an escrow: what it is told, where it stands, and whether it was
    stopped from outside. -/
structure Escrow.Bootstrap where
  settings : Escrow.Settings
  phase : Escrow.Phase
  halted : Bool
  deriving Inhabited

namespace Escrow.Bootstrap

def new (s : Settings) : Bootstrap := ⟨s, .idle, false⟩

/-- Whether it was started and has not come to an end. -/
def isRunning (b : Bootstrap) : Bool :=
  !b.halted && match b.phase with
    | .idle => false
    | .ready _ => false
    | .failed _ => false
    | _ => true

/-- The bootstrap after news; one that was stopped takes none. -/
def hear (b : Bootstrap) (news : Phase → Phase) : Bootstrap :=
  if b.halted then b else { b with phase := news b.phase }

/-- Why a bootstrap that failed asks for shutdown. -/
def alarmText (s : Settings) (reason : String) : String :=
  "escrow bootstrap failed on ledger " ++ s.ledgerId ++ ": " ++ reason

def identity (b : Bootstrap) : Except Fault Identity := b.phase.identity b.settings

def keyPair (b : Bootstrap) : Except Fault Crypto.KeyPair := b.phase.keyPair b.settings

end Escrow.Bootstrap

/-! ## Desks -/

/-- What is kept at hand for one ledger. `audience` is who wants to hear of the scan
    that is under way. -/
structure Desk where
  ledgerId : String
  tracker : Receipt.Tracker Waiter
  audience : Option String
  recent : Ledger.RecentBlock
  escrow : Option Escrow.Bootstrap
  deriving Inhabited

namespace Desk

/-- A desk with nothing on it that remembers some receipts and, for a while, the
    latest block. -/
def new (ledgerId : String) (receipts blockLifetime : Nat) (escrow : Option Escrow.Bootstrap) :
    Desk :=
  ⟨ledgerId, .new receipts, none, .new blockLifetime, escrow⟩

/-- The receipt that notices hand to a waiter. -/
def receiptFor? (w : Waiter) (notices : List (Receipt.Notice Waiter)) : Option Confirmation :=
  notices.findSome? fun n =>
    match n.dispatch? with
    | some (v, c) => if v = w then some c else none
    | none => none

/-- What a waiter has to look forward to that a tracker let wait for work: the receipt, if
    it was among the notices, and nothing if it does not wait there. -/
def prospect (w : Waiter) (workId : WorkId) (t : Receipt.Tracker Waiter)
    (notices : List (Receipt.Notice Waiter)) : Receipt.Prospect :=
  match receiptFor? w notices with
  | some c => .atHand c
  | none => if (t.handlersOf workId).contains w then .awaited else .dropped

/-- Tracks work and lets a waiter wait for its receipt; says what to look forward to. -/
def prepare (d : Desk) (workId : WorkId) (w : Waiter) :
    Desk × List (Receipt.Notice Waiter) × Receipt.Prospect :=
  let prepared := d.tracker.prepare workId w
  ({ d with tracker := prepared.1 }, prepared.2, prospect w workId prepared.1 prepared.2)

/-- The desk after news to its escrow. -/
def tellEscrow (d : Desk) (news : Escrow.Phase → Escrow.Phase) : Desk :=
  { d with escrow := d.escrow.map (·.hear news) }

/-- The identity of the ledger's escrow. -/
def escrowIdentity (d : Desk) : Except Fault Escrow.Identity :=
  match d.escrow with
  | some b => b.identity
  | none => .error (.config ("ledger " ++ d.ledgerId ++ " hosts no escrow"))

end Desk

end LedgerGate
