/-
  Replies: an output, and for work that is not decided yet what follows it.

  * `Reply.done`, `result` and `pending` are the ways to make one; none of them
    makes a reply that is pending and has no sequel;
  * `Reply.follow` looks one step ahead, `Reply.terminal` follows a chain of
    replies to its end, but no further than a limit;
  * `Sequel`: a reply that is known already or that a receipt will bring.
-/
import LedgerGate.Fault
import LedgerGate.Ledger.Confirmation

namespace LedgerGate

/-! ## Replies -/

/-- A reply whose sequel, if there is one, is named by a `κ`. -/
structure Reply (κ : Type) where
  output : Output
  next : Option κ
  deriving Inhabited

namespace Reply

variable {κ : Type}

/-- A reply that nothing follows. A pending result would promise a sequel, so it
    is reported as unknown. -/
def done : Output → Reply κ
  | .transaction r =>
    if r.isPending then
      ⟨.transaction { r with
        status := .unknown, note := some "no continuation for pending result" }, none⟩
    else ⟨.transaction r, none⟩
  | o => ⟨o, none⟩

/-- A result that nothing follows; a pending one is refused. -/
def result (r : TransactionResult) : Except Fault (Reply κ) :=
  if r.isPending then
    .error (.own ("pending result for " ++ r.workId ++ " without continuation"))
  else .ok ⟨.transaction r, none⟩

/-- A pending result and what follows it. -/
def pending (r : TransactionResult) (next : κ) : Reply κ :=
  ⟨.transaction { r with status := .pending }, some next⟩

def isPending (r : Reply κ) : Bool := r.next.isSome

/-! ## Chains of replies -/

/-- The fault of a chain that goes on beyond the limit. -/
def tooLong (limit : Nat) : Fault :=
  .own ("continuation chain longer than " ++ toString limit)

/-- One step along a chain: its end, or the sequel to wait for and how many may
    follow that one. -/
inductive Ahead (κ : Type) where
  | settled (outcome : Except Fault Output)
  | await (next : κ) (remaining : Nat)

/-- Looks one step ahead when `remaining` sequels of `limit` may still be followed. -/
def follow (limit remaining : Nat) (r : Reply κ) : Ahead κ :=
  match r.next, remaining with
  | none, _ => .settled (.ok r.output)
  | some _, 0 => .settled (.error (tooLong limit))
  | some next, remaining + 1 => .await next remaining

/-- Follows a chain whose sequels are all known. -/
def terminalFrom (resolve : κ → Except Fault (Reply κ)) (limit : Nat) :
    Nat → Reply κ → Except Fault Output
  | 0, r =>
    match r.next with
    | none => .ok r.output
    | some _ => .error (tooLong limit)
  | remaining + 1, r =>
    match r.next with
    | none => .ok r.output
    | some next => (resolve next).bind (terminalFrom resolve limit remaining)

/-- The output at the end of a chain of at most `limit` sequels. -/
def terminal (resolve : κ → Except Fault (Reply κ)) (limit : Nat) (r : Reply κ) :
    Except Fault Output :=
  terminalFrom resolve limit limit r

end Reply

/-! ## Sequels -/

/-- What follows a pending reply: an outcome that is known, or the one that the
    receipt awaited under a ticket brings. -/
inductive Sequel where
  | known (outcome : Except Fault (Reply Sequel))
  | receipt (ticket : Nat)

namespace Sequel

instance : Inhabited Sequel := ⟨.receipt 0⟩

/-- A sequel that will never come. -/
def abandoned : Sequel := .known (.error (.own "continuation abandoned"))

/-- The outcome that a receipt brings. -/
def ofReceipt (c : Confirmation) : Except Fault (Reply Sequel) := Reply.result c.result

mutual

/-- How many sequels come after one, as far as they are known. -/
def reach : Sequel → Nat
  | known outcome => reachOf outcome
  | receipt _ => 0

/-- How many sequels follow an outcome, as far as they are known. -/
def reachOf : Except Fault (Reply Sequel) → Nat
  | .error _ => 0
  | .ok r => reachAfter r

def reachAfter : Reply Sequel → Nat
  | ⟨_, next⟩ => reachNext next

def reachNext : Option Sequel → Nat
  | none => 0
  | some next => next.reach + 1

end

end Sequel

end LedgerGate
