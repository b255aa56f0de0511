/-
  Tracking of receipts: polling a ledger for the outcome of submitted work, and
  handing each outcome to the handlers registered for it.

  For any id, either its handlers get the receipt or the receipt is kept for a
  handler that comes later. A scan asks about one id after the other and can be
  interrupted at every question; while it runs, no other scan starts.

  Every operation gives the tracker after it and notices of what happened, in
  order. A notice `dispatched` hands a receipt to a handler, once and for all.

  * `track`, `register`, `prepare`;
  * `lost`: the handlers that an operation would drop;
  * `beginScan` and `answered` take a scan from question to question;
  * `scan` runs one through without interruption.
-/
import LedgerGate.Ledger.Error
import LedgerGate.Receipt.Recent

namespace LedgerGate.Receipt

/-! ## Notices and reports -/

/-- Something that happened in a tracker with handlers of type `H`. -/
inductive Notice (H : Type) where
  | pendingCount (n : Nat)
  | unclaimedCount (n : Nat)
  | scanBegun
  | scanSkipped
  | confirmed
  | queryFailed
  | dispatched (handler : H) (c : Confirmation)

/-- The handler and the receipt of a notice that hands one out. -/
def Notice.dispatch? {H : Type} : Notice H → Option (H × Confirmation)
  | dispatched h c => some (h, c)
  | _ => none

/-- What a scan did: nothing beside a running one, or how many ids it asked about,
    how many were confirmed and how many questions failed. -/
inductive Report where
  | skipped
  | completed (checked confirmed errors : Nat)
  deriving DecidableEq, Repr

/-- What somebody who waits for a receipt has to look forward to: it is at hand, or it is
    still to come, or nobody has the handler any more that was to bring it. -/
inductive Prospect where
  | atHand (c : Confirmation)
  | awaited
  | dropped

/-- A scan that waits for the answer about `current`, which it has counted. -/
structure Scan where
  current : WorkId
  rest : List WorkId
  checked : Nat
  confirmed : Nat
  errors : Nat

/-! ## Trackers -/

/-- A tracker: ids that are polled for with the attempts made, handlers that wait,
    receipts that nobody has claimed, receipts handed out lately, and the scan
    that is under way. -/
structure Tracker (H : Type) where
  pending : List (String × Nat)
  waiting : List (String × List H)
  unclaimed : List (String × Confirmation)
  recent : Recent
  scan : Option Scan

namespace Tracker

variable {H : Type}

def new (capacity : Nat) : Tracker H := ⟨[], [], [], .new capacity, none⟩

instance : Inhabited (Tracker H) := ⟨new 0⟩

def pendingIds (t : Tracker H) : List WorkId := t.pending.map (·.1)

/-- The attempts made for an id that is polled for. -/
def attempts? (t : Tracker H) (workId : WorkId) : Option Nat := Entries.find? t.pending workId

/-- The handlers that wait for an id. -/
def handlersOf (t : Tracker H) (workId : WorkId) : List H :=
  (Entries.find? t.waiting workId).getD []

/-- All handlers that wait. -/
def handlers (t : Tracker H) : List H := t.waiting.flatMap fun e => t.handlersOf e.1

/-- The handlers that waited before an operation, and after it neither wait nor have got
    their receipt. Nobody has them any more, so they are dropped. -/
def lost [DecidableEq H] (before after : Tracker H) (notices : List (Notice H)) : List H :=
  before.handlers.filter fun h =>
    !(after.handlers ++ (notices.filterMap Notice.dispatch?).map (·.1)).contains h

/-! ## Tracking and registering -/

/-- Starts polling for an id; one that is polled for already keeps its attempts. -/
def track (t : Tracker H) (workId : WorkId) : Tracker H × List (Notice H) :=
  let pending :=
    if Entries.contains t.pending workId then t.pending else Entries.insert t.pending workId 0
  ({ t with pending }, [.pendingCount pending.length])

/-- Gives a handler the receipt of an id: the one that is kept or remembered, or
    else the one that a scan will find. A handler that is done is turned away. -/
def register (t : Tracker H) (workId : WorkId) (handler : H) (isDone : Bool) :
    Tracker H × List (Notice H) :=
  if isDone then (t, [])
  else
    match Entries.find? t.unclaimed workId with
    | some c =>
      let unclaimed := Entries.erase t.unclaimed workId
      ({ t with unclaimed, recent := t.recent.insert c },
        [.unclaimedCount unclaimed.length, .dispatched handler c])
    | none =>
      match t.recent.find? workId with
      | some c => (t, [.dispatched handler c])
      | none =>
        ({ t with waiting := Entries.insert t.waiting workId (t.handlersOf workId ++ [handler]) },
          [])

/-- Polls for submitted work and registers the handler of its receipt. -/
def prepare (t : Tracker H) (workId : WorkId) (handler : H) :
    Tracker H × List (Notice H) :=
  let tracked := t.track workId
  let registered := tracked.1.register workId handler false
  (registered.1, tracked.2 ++ registered.2)

/-! ## Scanning -/

/-- A receipt arrives: those who wait for it get it, or it is kept. -/
def arrive (t : Tracker H) (c : Confirmation) : Tracker H × List (Notice H) :=
  match Entries.find? t.waiting c.workId with
  | some handlers =>
    ({ t with waiting := Entries.erase t.waiting c.workId, recent := t.recent.insert c },
      handlers.map fun h => .dispatched h c)
  | none =>
    let unclaimed := Entries.insert t.unclaimed c.workId c
    ({ t with unclaimed }, [.unclaimedCount unclaimed.length])

/-- Stops polling for an id. -/
def untrack (t : Tracker H) (workId : WorkId) : Tracker H × List (Notice H) :=
  let pending := Entries.erase t.pending workId
  ({ t with pending }, [.pendingCount pending.length])

/-- Goes on to the next of some ids that is still polled for, and counts the
    attempt; without one the scan is over. -/
def visit (t : Tracker H) (checked confirmed errors : Nat) :
    List WorkId → Tracker H × Option Report
  | [] => ({ t with scan := none }, some (.completed checked confirmed errors))
  | workId :: rest =>
    match t.attempts? workId with
    | some n =>
      ({ t with
          pending := Entries.insert t.pending workId (n + 1)
          scan := some ⟨workId, rest, checked + 1, confirmed, errors⟩ }, none)
    | none => visit t checked confirmed errors rest

/-- Starts a scan over some ids, unless one is under way. -/
def beginScanOf (t : Tracker H) (workIds : List WorkId) :
    Tracker H × List (Notice H) × Option Report :=
  match t.scan with
  | some _ => (t, [.scanSkipped], some .skipped)
  | none =>
    let visited := t.visit 0 0 0 workIds
    (visited.1, [.scanBegun], visited.2)

/-- Starts a scan over all ids that are polled for. -/
def beginScan (t : Tracker H) : Tracker H × List (Notice H) × Option Report :=
  t.beginScanOf t.pendingIds

/-- The answer to the question of a scan. The receipt carries the id that was
    asked about, whatever id the ledger put into it. -/
def answered (t : Tracker H) (answer : Except Ledger.Error (Option Confirmation)) :
    Tracker H × List (Notice H) × Option Report :=
  match t.scan with
  | none => (t, [], none)
  | some s =>
    match answer with
    | .ok none =>
      let visited := t.visit s.checked s.confirmed s.errors s.rest
      (visited.1, [], visited.2)
    | .error _ =>
      let visited := t.visit s.checked s.confirmed (s.errors + 1) s.rest
      (visited.1, [.queryFailed], visited.2)
    | .ok (some c) =>
      let untracked := t.untrack s.current
      let arrived := untracked.1.arrive { c.readable with workId := s.current }
      let visited := arrived.1.visit s.checked (s.confirmed + 1) s.errors s.rest
      (visited.1, untracked.2 ++ [.confirmed] ++ arrived.2, visited.2)

/-- Answers at most `fuel` questions of the scan under way. -/
def runScan {σ : Type} (ask : WorkId → σ → Except Ledger.Error (Option Confirmation) × σ) :
    Nat → Tracker H → σ → Tracker H × List (Notice H) × Option Report × σ
  | 0, t, s => (t, [], none, s)
  | fuel + 1, t, s =>
    match t.scan with
    | none => (t, [], none, s)
    | some scan =>
      let answer := ask scan.current s
      match t.answered answer.1 with
      | (t, notices, some report) => (t, notices, some report, answer.2)
      | (t, notices, none) =>
        let rest := runScan ask fuel t answer.2
        (rest.1, notices ++ rest.2.1, rest.2.2)

/-- A whole scan without interruption. Each question leaves fewer ids to ask
    about, so their number bounds the questions. -/
def scanAll {σ : Type} (ask : WorkId → σ → Except Ledger.Error (Option Confirmation) × σ)
    (t : Tracker H) (s : σ) : Tracker H × List (Notice H) × Report × σ :=
  match t.beginScan with
  | (t, notices, some report) => (t, notices, report, s)
  | (t, notices, none) =>
    let rest := runScan ask t.pending.length t s
    (rest.1, notices ++ rest.2.1, rest.2.2.1.getD .skipped, rest.2.2.2)

end Tracker

end LedgerGate.Receipt
