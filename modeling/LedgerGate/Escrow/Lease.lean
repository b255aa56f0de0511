/-
  Leases: for every key at most one holder at a time, the others wait in line.

  The table says which lease belongs to a key. A claim first fetches the lease of
  its key, making one if there is none, and then locks it; between the two the
  table may change, but a lease that somebody has fetched is not forgotten.

  * `fetch` and `lock` are the two halves of `acquire`;
  * `drop` gives a lease up or stops waiting for it, and the next in line gets it;
  * `cleanup` forgets the leases that nobody has fetched.
-/
namespace LedgerGate.Escrow

/-- How far a claim has come. -/
inductive ClaimStage where
  | fetched
  | waiting
  | holding
  deriving DecidableEq, Repr

/-- A claim of a party to a lease. -/
structure Claim (N : Type) where
  name : N
  lease : Nat
  stage : ClaimStage

/-- The lease of every key, the number of leases made so far, and the claims, those
    who lock earlier first. -/
structure Leases (N : Type) where
  table : List (String × Nat)
  made : Nat
  claims : List (Claim N)

namespace Leases

variable {N : Type} [DecidableEq N]

def empty : Leases N := ⟨[], 0, []⟩

instance : Inhabited (Leases N) := ⟨empty⟩

def size (l : Leases N) : Nat := l.table.length

/-- The lease of a key. -/
def leaseOf? (l : Leases N) (key : String) : Option Nat :=
  (l.table.find? (·.1 == key)).map (·.2)

/-- Whether somebody has fetched a lease. -/
def isFetched (l : Leases N) (lease : Nat) : Bool := l.claims.any (·.lease == lease)

/-- Whether somebody holds a lease. -/
def isHeld (l : Leases N) (lease : Nat) : Bool :=
  l.claims.any fun c => c.lease == lease && c.stage == .holding

/-- The parties that hold a lease. -/
def holders (l : Leases N) : List N :=
  (l.claims.filter (·.stage == .holding)).map (·.name)

/-! ## Acquiring -/

/-- Fetches the lease of a key, making one if there is none. -/
def fetch (l : Leases N) (key : String) (name : N) : Leases N :=
  match l.leaseOf? key with
  | some lease => { l with claims := l.claims ++ [⟨name, lease, .fetched⟩] }
  | none =>
    { table := l.table ++ [(key, l.made)]
      made := l.made + 1
      claims := l.claims ++ [⟨name, l.made, .fetched⟩] }

/-- Locks the lease that a party has fetched, or goes to the end of its line. -/
def lock (l : Leases N) (name : N) : Leases N :=
  match l.claims.find? fun c => c.name == name && c.stage == .fetched with
  | none => l
  | some c =>
    let others := l.claims.eraseP fun c => c.name == name && c.stage == .fetched
    let stage := if l.isHeld c.lease then .waiting else .holding
    { l with claims := others ++ [{ c with stage }] }

/-- Takes the lease of a key, or waits for it in line. -/
def acquire (l : Leases N) (key : String) (name : N) : Leases N := (l.fetch key name).lock name

/-! ## Giving up -/

/-- Hands a lease to the first claim that waits for it. -/
def promote (lease : Nat) : List (Claim N) → List (Claim N)
  | [] => []
  | c :: cs =>
    if c.lease = lease ∧ c.stage = .waiting then { c with stage := .holding } :: cs
    else c :: promote lease cs

/-- Ends the first claim of a party; a lease that it held goes to the next in
    line. -/
def drop (l : Leases N) (name : N) : Leases N :=
  match l.claims.find? (·.name == name) with
  | none => l
  | some c =>
    let others := l.claims.eraseP (·.name == name)
    { l with claims := if c.stage = .holding then promote c.lease others else others }

/-- Ends the claim of a party that holds its lease; any other changes nothing. -/
def release (l : Leases N) (name : N) : Leases N :=
  if l.holders.contains name then l.drop name else l

/-- Forgets the leases that nobody has fetched. -/
def cleanup (l : Leases N) : Leases N :=
  { l with table := l.table.filter fun e => l.isFetched e.2 }

end Leases

end LedgerGate.Escrow
