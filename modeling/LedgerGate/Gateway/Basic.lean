/-
  The gateway: its desks, its tables, and everything that is under way.

  Nothing here waits: what has to wait is written down as an errand, a timer or a
  job, and taken up again when its time has come.

  * `Errand`: who gets the outcome of a request;
  * `Job`: work that is ready to be done; `Event`: what can be seen from outside;
  * `Gateway`, with the access to its parts.
-/
import LedgerGate.Config.Basic
import LedgerGate.Delegate.Basic
import LedgerGate.Delivery
import LedgerGate.Desk
import LedgerGate.Escrow.Lease
import LedgerGate.Metrics
import LedgerGate.Outside
import LedgerGate.Routing.Plan
import LedgerGate.Shutdown
import LedgerGate.Timers

namespace LedgerGate

/-! ## What is under way -/

/-- Who gets the outcome of a request: a caller, response by response, as long as its
    sink accepts any; or somebody who hears of the first reply and, if more follows,
    of the end of the chain. -/
inductive Errand where
  | delivery (d : Delivery) (accepting : Bool)
  | call (name : String) (limit : Nat)
  | chain (name : String) (limit remaining : Nat)

/-- Whether an outcome goes to a caller, response by response. -/
def Errand.isDelivery : Errand → Bool
  | .delivery _ _ => true
  | _ => false

/-- Work that is ready to be done. -/
inductive Job where
  | plan (e : Errand) (operation : String) (input : Option Input)
  | apply (e : Errand) (route : Route Delegate) (input : Option Input)
  | scan (ledgerId : String) (audience : Option String)
  | scanner
  | bootstrap (ledgerId : String)
  | wake (ledgerId : String)
  | answer (ledgerId : String)
  | shutdown

/-- Whether a job is part of a delivery. -/
def Job.isDelivery : Job → Bool
  | .plan e _ _ => e.isDelivery
  | .apply e _ _ => e.isDelivery
  | _ => false

/-- What can be seen from outside. -/
inductive Event where
  | response (r : Response)
  | delivered (messageId : String) (sent : Except Fault UInt32)
  | replied (name : String) (reply : Except Fault (Output × Bool))
  | ended (name : String) (outcome : Except Fault Output)
  | outcomeSeen (name : String) (r : TransactionResult)
  | confirmationSeen (name : String) (c : Confirmation)
  | scanned (name : String) (report : Receipt.Report)

/-- Who is told about shutdown. -/
inductive Listener where
  | scanner
  | transport
  deriving DecidableEq, Repr

/-! ## Gateways -/

/-- A gateway in a world outside. Times are milliseconds since it was built.
    `scanner` is when the next periodic scan is due, while there is one; `errands`
    wait for the receipt of a ticket; answers of ledgers to scans may be `held` back
    for a while; `delays` says how long ledgers take for their next answers to
    bootstraps. -/
structure Gateway (W : Type) where
  config : Config
  ledgers : LedgerTable
  delegates : Assignments Delegate
  desks : List Desk
  meters : Meters
  shutdown : Shutdown Listener
  leases : Escrow.Leases String
  started : Bool
  scanner : Option Nat
  now : Nat
  timers : Timers Job
  ready : List Job
  tickets : Nat
  errands : List (Nat × Errand)
  events : Array Event
  held : Bool
  delays : List (String × List Nat)
  outside : W

namespace Gateway

variable {W : Type}

/-- The longest chain of sequels that a delivery follows, -/
def maxDepth (g : Gateway W) : UInt32 := g.config.maxDepth

/-- as a number of sequels for who follows a chain to its end. -/
def depth (g : Gateway W) : Nat := g.maxDepth.toNat

/-! ## Desks -/

/-- The desk of a ledger. -/
def desk? (g : Gateway W) (ledgerId : String) : Option Desk :=
  g.desks.find? (·.ledgerId == ledgerId)

/-- The escrow of the ledger that a name stands for, if it hosts one. -/
def escrow? (g : Gateway W) (name : String) : Option Escrow.Bootstrap :=
  ((g.ledgers.find? (some name)).bind fun l => g.desk? l.id).bind (·.escrow)

/-- Changes the desk of a ledger. -/
def updateDesk (g : Gateway W) (ledgerId : String) (f : Desk → Desk) : Gateway W :=
  { g with desks := g.desks.map fun d => if d.ledgerId = ledgerId then f d else d }

/-- Changes the desk of a ledger if it has one, with a result. -/
def withDesk {α : Type} (g : Gateway W) (ledgerId : String) (missing : α)
    (f : Desk → α × Desk) : α × Gateway W :=
  match g.desk? ledgerId with
  | some d =>
    let changed := f d
    (changed.1, g.updateDesk ledgerId fun _ => changed.2)
  | none => (missing, g)

/-! ## Events, jobs and errands -/

def tell (g : Gateway W) (e : Event) : Gateway W := { g with events := g.events.push e }

def enqueue (g : Gateway W) (j : Job) : Gateway W := { g with ready := g.ready ++ [j] }

/-- Leaves an errand waiting for the receipt of a ticket. -/
def awaitTicket (g : Gateway W) (ticket : Nat) (e : Errand) : Gateway W :=
  { g with errands := g.errands ++ [(ticket, e)] }

/-- The errand that waits for a ticket. -/
def errand? (g : Gateway W) (ticket : Nat) : Option Errand :=
  (g.errands.find? (·.1 == ticket)).map (·.2)

/-- Without the errand that waits for a ticket. -/
def dropErrand (g : Gateway W) (ticket : Nat) : Gateway W :=
  { g with errands := g.errands.eraseP (·.1 == ticket) }

/-- How many deliveries are under way: there is a job for each, ready or set for later,
    or an errand that waits. -/
def underway (g : Gateway W) : Nat :=
  g.ready.countP Job.isDelivery + g.timers.entries.countP (·.2.isDelivery) +
    g.errands.countP (·.2.isDelivery)

/-! ## Shutdown -/

/-- Lets the scanner notice a change of the shutdown signal. -/
def withShutdown (g : Gateway W) (s : Shutdown Listener) : Gateway W :=
  let rouse := s.triggered && !g.shutdown.triggered && g.scanner.isSome
  { g with shutdown := s, ready := if rouse then g.ready ++ [.scanner] else g.ready }

/-- Gives the shutdown signal. -/
def triggerShutdown (g : Gateway W) : Gateway W := g.withShutdown g.shutdown.trigger

/-- Gives the shutdown signal with a reason. -/
def requestShutdown (g : Gateway W) (reason : String) : Gateway W :=
  g.withShutdown (g.shutdown.request reason)

end Gateway

end LedgerGate
