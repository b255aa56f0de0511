/-
  Requests in a gateway: they are planned, and then a delegate works on them.

  * `plan` finds the route of a request and counts what cannot be routed;
  * `apply` lets the delegate of a route work and prepares submitted work;
  * `handle` takes a request that is answered with responses, `call` one whose
    outcome somebody else hears of.
-/
import LedgerGate.Delegate.Standard
import LedgerGate.Gateway.Receipts

namespace LedgerGate.Gateway

variable {W : Type}

/-! ## Planning -/

/-- The route of a request. -/
def plan [Outside W] (g : Gateway W) (operation : String) (input : Option Input) :
    Except Fault (Route Delegate) × Gateway W :=
  match (Route.plan g.ledgers g.delegates operation input).interrogate
      fun l => Outside.lookup l g.outside with
  | (.ok route, _) => (.ok route, g)
  | (.error f, _) => (.error f, { g with meters := g.meters.grow 1 .unroutable })

/-- Plans a request; one that has a route is worked on next. -/
def planJob [Outside W] (g : Gateway W) (e : Errand) (operation : String)
    (input : Option Input) : Gateway W :=
  match g.plan operation input with
  | (.error f, g) => g.conclude e (.error f)
  | (.ok route, g) =>
    { g with meters := g.meters.grow 1 .routed }.enqueue (.apply e route input)

/-! ## Working -/

/-- The latest block of a ledger as its desk remembers it or learns it now. -/
def recentBlock [Outside W] (g : Gateway W) (ledgerId : String) : Option UInt64 × Gateway W :=
  match g.desk? ledgerId with
  | none => (none, g)
  | some d =>
    let ((block, recent), outside) :=
      (d.recent.get (Outside.clock g.outside)).run (Outside.ledger ledgerId) g.outside
    (block, { g with outside }.updateDesk ledgerId fun d => { d with recent })

/-- The answer to a question of a delegate that works on a ledger. -/
def consult [Outside W] (ledgerId : String) (q : Delegate.Question) (g : Gateway W) :
    q.Answer × Gateway W :=
  match q with
  | .ledger q =>
    let answer := Outside.ledger ledgerId q g.outside
    (answer.1, { g with outside := answer.2 })
  | .lookup l => (Outside.lookup l g.outside, g)
  | .recentBlock => g.recentBlock ledgerId
  | .escrow =>
    match g.desk? ledgerId with
    | some d => (d.escrowIdentity, g)
    | none => (.error (.config ("ledger " ++ ledgerId ++ " hosts no escrow")), g)
  | .clock => (⟨UInt64.ofNat (Outside.clock g.outside / 1000)⟩, g)

/-- Tracks submitted work. Its reply is the receipt itself or, if the id is enough,
    a pending result that the receipt follows; a handler that was dropped brings a
    fault in place of the receipt. -/
def prepare (g : Gateway W) (e : Errand) (ledgerId : String) (mode : ReplyMode)
    (workId : WorkId) (recent : Option UInt64) : Gateway W :=
  let ticket := g.tickets
  let prepared := g.withDesk ledgerId ([], .awaited) fun d =>
    let (d, notices, prospect) := d.prepare workId (.ticket ticket)
    ((notices, prospect), d)
  let g := { prepared.2 with
    tickets := ticket + 1
    meters := prepared.2.meters.observeAll prepared.1.1 }
  match mode, prepared.1.2 with
  | .result, .atHand c => g.conclude e (Sequel.ofReceipt c)
  | .result, .awaited => g.awaitTicket ticket e
  | .result, .dropped => g.conclude e (.error handlerDropped)
  | .id, .atHand c =>
    g.conclude e (.ok (.pending (.pending workId recent) (.known (Sequel.ofReceipt c))))
  | .id, .awaited => g.conclude e (.ok (.pending (.pending workId recent) (.receipt ticket)))
  | .id, .dropped =>
    g.conclude e (.ok (.pending (.pending workId recent) (.known (.error handlerDropped))))

/-- Lets the delegate of a route work. -/
def applyJob [Outside W] (g : Gateway W) (e : Errand) (route : Route Delegate)
    (input : Option Input) : Gateway W :=
  let ledgerId := route.ledger.id
  match (route.delegate.apply route.ledger input).run (consult ledgerId) g with
  | (.settled outcome, g) => g.conclude e outcome
  | (.submitted mode workId recent, g) => g.prepare e ledgerId mode workId recent

/-! ## Taking requests -/

/-- Takes a request whose responses go to a sink. -/
def handle (g : Gateway W) (r : Request) (accepting : Bool) : Gateway W :=
  g.enqueue (.plan (.delivery (.ofRequest r) accepting) r.operation r.input)

/-- Takes a request whose first reply, and the end of whose chain, are told under a
    name. -/
def call (g : Gateway W) (name operation : String) (input : Option Input) (limit : Nat) :
    Gateway W :=
  g.enqueue (.plan (.call name limit) operation input)

end LedgerGate.Gateway
