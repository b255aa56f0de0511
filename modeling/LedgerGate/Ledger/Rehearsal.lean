/-
  A ledger in memory, for rehearsals.

  Its chain, its decisions and its failures are set from outside. Submitted work
  gets ids counted from one and stays undecided until a confirmation is put in.

  * `Rehearsal.answer` answers every query;
  * `Method` names what can be made to fail.
-/
import LedgerGate.Entries
import LedgerGate.Ledger.Query

namespace LedgerGate.Ledger

/-- A kind of query, or the queries for one unit of work. -/
inductive Method where
  | submit
  | confirmationOf
  | confirmationOfWork (workId : WorkId)
  | isKnown
  | blockNumber
  | latestBlock
  | blockTime
  | feePolicy
  deriving DecidableEq

/-- A ledger in memory. -/
structure Rehearsal where
  times : Array UInt64
  fee : Nat
  blockOverride : Option UInt64
  submitted : Array (WorkId × Call)
  confirmations : List (String × Confirmation)
  answers : List (String × Confirmation)
  announced : List WorkId
  asked : List (String × Nat)
  submitsFail : Bool
  confirmationsFail : Bool
  blocksFail : Bool
  failures : List (Method × Error)
  deriving Inhabited

namespace Rehearsal

/-! ## Setting the scene -/

/-- Blocks 0 to 100, one every ten seconds from second 1000. -/
def standardTimes : Array UInt64 := ((List.range 101).map fun b => UInt64.ofNat (1000 + 10 * b)).toArray

/-- A ledger with the standard chain, no fee, and nothing submitted. -/
def new : Rehearsal where
  times := standardTimes
  fee := 0
  blockOverride := none
  submitted := #[]
  confirmations := []
  answers := []
  announced := []
  asked := []
  submitsFail := false
  confirmationsFail := false
  blocksFail := false
  failures := []

/-- Decides the work that a confirmation is about. -/
def confirm (r : Rehearsal) (c : Confirmation) : Rehearsal :=
  { r with confirmations := Entries.insert r.confirmations c.workId c }

/-- Answers queries for an id with a confirmation, whatever work it is about. -/
def setAnswer (r : Rehearsal) (workId : WorkId) (c : Confirmation) : Rehearsal :=
  { r with answers := Entries.insert r.answers workId c }

/-- Makes work known and leaves it undecided. -/
def announce (r : Rehearsal) (workId : WorkId) : Rehearsal :=
  { r with announced := workId :: r.announced }

/-- Makes a method fail with an error, or stops that. -/
def setFailure (r : Rehearsal) (m : Method) (e : Option Error) : Rehearsal :=
  let others := r.failures.filter (·.1 != m)
  { r with failures := match e with
    | some e => (m, e) :: others
    | none => others }

/-- The error that a method was made to fail with. -/
def failure? (r : Rehearsal) (m : Method) : Option Error :=
  (r.failures.find? (·.1 == m)).map (·.2)

/-- How often the confirmation of an id was asked for. -/
def timesAsked (r : Rehearsal) (workId : WorkId) : Nat := (Entries.find? r.asked workId).getD 0

/-! ## Answers -/

/-- An id counted from one, as 32 bytes in hexadecimal. -/
def nthWorkId (n : Nat) : WorkId :=
  let digits := Text.hexNat n
  "0x" ++ String.ofList (List.replicate (64 - digits.length) '0') ++ digits

def submit (r : Rehearsal) (call : Call) : Except Error WorkId × Rehearsal :=
  match r.failure? .submit with
  | some e => (.error e, r)
  | none =>
    if r.submitsFail then (.error (.transport "simulated submit failure"), r)
    else
      let workId := nthWorkId (r.submitted.size + 1)
      (.ok workId, { r with submitted := r.submitted.push (workId, call) })

/-- What is known of the decision about an id, once its query is counted. -/
def decision (r : Rehearsal) (workId : WorkId) : Except Error (Option Confirmation) :=
  if r.confirmationsFail then .error (.transport "simulated confirmation failure")
  else
    match (r.failure? (.confirmationOfWork workId)).or (r.failure? .confirmationOf) with
    | some e => .error e
    | none =>
      .ok ((Entries.find? r.answers workId).or (Entries.find? r.confirmations workId))

def isKnown (r : Rehearsal) (workId : WorkId) : Except Error Bool :=
  match r.failure? .isKnown with
  | some e => .error e
  | none =>
    if r.confirmationsFail then .error (.transport "simulated lookup failure")
    else .ok (r.announced.contains workId || Entries.contains r.confirmations workId ||
      r.submitted.any (·.1 == workId))

/-- An answer about blocks, unless the method or all block queries fail. -/
def aboutBlocks {α : Type} (r : Rehearsal) (m : Method) (value : Except Error α) :
    Except Error α :=
  match r.failure? m with
  | some e => .error e
  | none => if r.blocksFail then .error (.transport "simulated block query failure") else value

/-- The number of the last block of the chain. -/
def lastBlock (r : Rehearsal) : Nat := r.times.size - 1

def blockNumber (r : Rehearsal) : Except Error UInt64 :=
  r.aboutBlocks .blockNumber (.ok (r.blockOverride.getD (UInt64.ofNat r.lastBlock)))

def latestBlock (r : Rehearsal) : Except Error BlockTime :=
  r.aboutBlocks .latestBlock <|
    match r.times[r.lastBlock]? with
    | some t => .ok ⟨UInt64.ofNat r.lastBlock, ⟨t⟩⟩
    | none => .error (.malformed "empty chain")

def blockTime (r : Rehearsal) (block : UInt64) : Except Error BlockTime :=
  r.aboutBlocks .blockTime <|
    match r.times[block.toNat]? with
    | some t => .ok ⟨block, ⟨t⟩⟩
    | none => .error (.malformed ("no block " ++ toString block.toNat))

def feePolicy (r : Rehearsal) : Except Error Nat :=
  match r.failure? .feePolicy with
  | some e => .error e
  | none => .ok r.fee

/-- The answer to a query, and the ledger after it. -/
def answer (q : Query) (r : Rehearsal) : q.Answer × Rehearsal :=
  match q with
  | .submit call => r.submit call
  | .confirmationOf workId =>
    let counted := { r with asked := Entries.insert r.asked workId (r.timesAsked workId + 1) }
    (counted.decision workId, counted)
  | .isKnown workId => (r.isKnown workId, r)
  | .blockNumber => (r.blockNumber, r)
  | .latestBlock => (r.latestBlock, r)
  | .blockTime block => (r.blockTime block, r)
  | .feePolicy => (r.feePolicy, r)

end Rehearsal

end LedgerGate.Ledger
