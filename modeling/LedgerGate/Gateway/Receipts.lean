/-
  Receipts and replies in a gateway: who gets what, and what follows it.

  * `conclude` hands the outcome of a request on, as far as it is known;
  * `absorb` takes note of what happened in a tracker, `abandonAll` of the handlers that
    it has lost;
  * `track`, `register` and `scan` are the work of a tracker in a gateway.
-/
import LedgerGate.Gateway.Basic

namespace LedgerGate.Gateway

variable {W : Type}

/-! ## Outcomes -/

/-- The fault of a sink that takes no responses. -/
def sinkClosed : Fault := .own "response channel closed"

/-- Sends responses to the caller of a delivery. -/
def send (g : Gateway W) (responses : List Response) : Gateway W :=
  responses.foldl (fun g r => g.tell (.response r)) g

/-- Hands an outcome on and goes along its chain, at most `fuel` links, as far as the
    sequels are known. -/
def concludeWithin : Nat → Errand → Except Fault (Reply Sequel) → Gateway W → Gateway W
  | 0, _, _, g => g
  | fuel + 1, .delivery d accepting, outcome, g =>
    if accepting then
      match d.step g.maxDepth outcome with
      | .finish responses =>
        (g.send responses).tell (.delivered d.inReplyTo.messageId (.ok (d.sent responses)))
      | .follow response (.known next) after =>
        concludeWithin fuel (.delivery after true) next (g.send [response])
      | .follow response (.receipt ticket) after =>
        (g.send [response]).awaitTicket ticket (.delivery after true)
    else g.tell (.delivered d.inReplyTo.messageId (.error sinkClosed))
  | _ + 1, .call name _, .error f, g => g.tell (.replied name (.error f))
  | fuel + 1, .call name limit, .ok r, g =>
    let told := g.tell (.replied name (.ok (r.output, r.isPending)))
    if r.isPending then concludeWithin fuel (.chain name limit limit) (.ok r) told else told
  | _ + 1, .chain name _ _, .error f, g => g.tell (.ended name (.error f))
  | fuel + 1, .chain name limit remaining, .ok r, g =>
    match r.follow limit remaining with
    | .settled outcome => g.tell (.ended name outcome)
    | .await (.known next) remaining => concludeWithin fuel (.chain name limit remaining) next g
    | .await (.receipt ticket) remaining => g.awaitTicket ticket (.chain name limit remaining)

/-- Hands an outcome on as far as it is known. There is one link for the outcome and one
    for every sequel; a call takes one more, before it becomes a chain. -/
def conclude (g : Gateway W) (e : Errand) (outcome : Except Fault (Reply Sequel)) : Gateway W :=
  concludeWithin (Sequel.reachOf outcome + 2) e outcome g

/-! ## Receipts -/

/-- Hands a receipt to who waited for it. -/
def handOver (g : Gateway W) (ledgerId : String) (w : Waiter) (c : Confirmation) : Gateway W :=
  match w with
  | .watcher name .outcome => g.tell (.outcomeSeen name c.result)
  | .watcher name .confirmation => g.tell (.confirmationSeen name c)
  | .watcher _ .nothing => g
  | .ticket n =>
    match g.errand? n with
    | some e => (g.dropErrand n).conclude e (Sequel.ofReceipt c)
    | none => g
  | .escrow =>
    (g.updateDesk ledgerId (·.tellEscrow (Escrow.Phase.received c))).enqueue
      (.bootstrap ledgerId)

/-- The fault of a handler that was dropped before it got its receipt. -/
def handlerDropped : Fault := .own "receipt handler dropped"

/-- Tells who waited for a receipt that its handler was dropped. -/
def abandon (g : Gateway W) (ledgerId : String) (w : Waiter) : Gateway W :=
  match w with
  | .watcher _ _ => g
  | .ticket n =>
    match g.errand? n with
    | some e => (g.dropErrand n).conclude e (.error handlerDropped)
    | none => g
  | .escrow =>
    (g.updateDesk ledgerId (·.tellEscrow Escrow.Phase.dropped)).enqueue (.bootstrap ledgerId)

/-- Tells all whose handlers the tracker of a ledger has lost. -/
def abandonAll (g : Gateway W) (ledgerId : String) (lost : List Waiter) : Gateway W :=
  lost.foldl (fun g w => g.abandon ledgerId w) g

/-- Takes note of what happened in the tracker of a ledger. -/
def absorb (g : Gateway W) (ledgerId : String) (notices : List (Receipt.Notice Waiter)) :
    Gateway W :=
  (notices.filterMap Receipt.Notice.dispatch?).foldl
    (fun g handed => g.handOver ledgerId handed.1 handed.2)
    { g with meters := g.meters.observeAll notices }

/-- Applies an operation of a tracker that gives notices. -/
def withTracker (g : Gateway W) (ledgerId : String)
    (f : Receipt.Tracker Waiter → Receipt.Tracker Waiter × List (Receipt.Notice Waiter)) :
    Gateway W :=
  let changed := g.withDesk ledgerId ([], []) fun d =>
    let result := f d.tracker
    ((result.2, d.tracker.lost result.1 result.2), { d with tracker := result.1 })
  (changed.2.absorb ledgerId changed.1.1).abandonAll ledgerId changed.1.2

/-- Polls for a unit of work. -/
def track (g : Gateway W) (ledgerId : String) (workId : WorkId) : Gateway W :=
  g.withTracker ledgerId (·.track workId)

/-- Lets a watcher wait for a receipt; one that is done already does not. -/
def register (g : Gateway W) (ledgerId : String) (workId : WorkId) (w : Waiter)
    (isDone : Bool) : Gateway W :=
  g.withTracker ledgerId (·.register workId w isDone)

/-! ## Scans -/

/-- The question of a scan put to a ledger. -/
def askOutside [Outside W] (ledgerId : String) (workId : WorkId) (w : W) :
    Except Ledger.Error (Option Confirmation) × W :=
  Outside.ledger ledgerId (.confirmationOf workId) w

/-- Tells of the end of a scan. -/
def reportScan (g : Gateway W) (audience : Option String) (report : Receipt.Report) :
    Gateway W :=
  match audience with
  | some name => g.tell (.scanned name report)
  | none => g

/-- Takes the scan that is under way on a desk to its end. -/
def finishScan [Outside W] (g : Gateway W) (ledgerId : String) :
    Option Receipt.Report × Gateway W :=
  match g.desk? ledgerId with
  | none => (none, g)
  | some d =>
    match d.tracker.scan with
    | none => (none, g)
    | some s =>
      let (tracker, notices, report, outside) :=
        d.tracker.runScan (askOutside ledgerId) (s.rest.length + 1) g.outside
      let g := { g with outside }
      let g := g.updateDesk ledgerId fun d => { d with tracker, audience := none }
      let g := g.absorb ledgerId notices
      let g := g.abandonAll ledgerId (d.tracker.lost tracker notices)
      match report with
      | some r => (some r, g.reportScan d.audience r)
      | none => (none, g)

/-- Scans a ledger, unless a scan is under way; gives the report if the scan is over,
    which it is not while answers are held back. -/
def scan [Outside W] (g : Gateway W) (ledgerId : String) (audience : Option String) :
    Option Receipt.Report × Gateway W :=
  match g.desk? ledgerId with
  | none => (none, g)
  | some d =>
    match d.tracker.beginScan with
    | (tracker, notices, some report) =>
      let g := g.updateDesk ledgerId fun d => { d with tracker }
      let g := g.absorb ledgerId notices
      let g := g.abandonAll ledgerId (d.tracker.lost tracker notices)
      (some report, g.reportScan audience report)
    | (tracker, notices, none) =>
      let g := g.updateDesk ledgerId fun d => { d with tracker, audience }
      let g := g.absorb ledgerId notices
      let g := g.abandonAll ledgerId (d.tracker.lost tracker notices)
      if g.held then (none, g) else g.finishScan ledgerId

/-- Scans every ledger once, in their order. -/
def scanAll [Outside W] (g : Gateway W) : List Receipt.Report × Gateway W :=
  g.desks.foldl (fun (reports, g) d =>
    match g.scan d.ledgerId none with
    | (some report, g) => (reports ++ [report], g)
    | (none, g) => (reports, g)) ([], g)

/-- Holds the answers of ledgers to scans back. -/
def hold (g : Gateway W) : Gateway W := { g with held := true }

/-- Lets the answers through, so that every scan under way ends. -/
def letThrough [Outside W] (g : Gateway W) : Gateway W :=
  g.desks.foldl (fun g d => (g.finishScan d.ledgerId).2) { g with held := false }

end LedgerGate.Gateway
