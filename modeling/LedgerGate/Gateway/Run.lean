/-
  The run of a gateway: jobs, timers, start and stop.

  Time passes only when it is told to. At one point in time all jobs are done that
  can be, those first that were ready first.

  * `settle` does what is ready; `advance` lets time pass in one leap;
  * `start`: the escrow bootstraps and then the periodic scan;
  * `stop` gives the signal and waits a while for what is under way.
-/
import LedgerGate.Gateway.Escrows
import LedgerGate.Gateway.Requests

namespace LedgerGate.Gateway

variable {W : Type}

/-! ## The periodic scan -/

/-- How late a tick may come before those that were missed are left out. -/
def tickTolerance : Nat := 5

/-- When the tick after one is due: a period later, or at the next multiple of the
    period if the tick came late. -/
def nextTick (period due now : Nat) : Nat :=
  if due + tickTolerance < now then now + period - (now - due) % period else due + period

/-- Does the ticks that are due, at most `fuel`, and sets the timer of the next. -/
def tick : Nat → Nat → Gateway W → Gateway W
  | 0, _, g => g
  | fuel + 1, due, g =>
    if g.now < due then { g with scanner := some due, timers := g.timers.set due .scanner }
    else
      tick fuel (nextTick g.config.scanInterval.toNat due g.now)
        { g with ready := g.ready ++ g.desks.map fun d => .scan d.ledgerId none }

/-- Lets the scanner go on: it ends if shutdown was signalled, else it ticks. -/
def runScanner (g : Gateway W) : Gateway W :=
  match g.scanner with
  | none => g
  | some due =>
    match g.shutdown.receive .scanner with
    | (true, shutdown) => { g with shutdown, scanner := none }
    | (false, _) => tick (tickTolerance + 3) due g

/-! ## Jobs -/

/-- Does a job. -/
def perform [Outside W] (g : Gateway W) : Job → Gateway W
  | .plan e operation input => g.planJob e operation input
  | .apply e route input => g.applyJob e route input
  | .scan ledgerId audience => (g.scan ledgerId audience).2
  | .scanner =>
    { g with timers := g.timers.discard fun
        | .scanner => true
        | _ => false }.runScanner
  | .bootstrap ledgerId => g.runEscrow ledgerId
  | .wake ledgerId => g.wakeEscrow ledgerId
  | .answer ledgerId => g.answerEscrow ledgerId
  | .shutdown => g.triggerShutdown

/-- Does at most `fuel` jobs. -/
def settleWithin [Outside W] : Nat → Gateway W → Gateway W
  | 0, g => g
  | fuel + 1, g =>
    match g.ready with
    | [] => g
    | job :: rest => settleWithin fuel ({ g with ready := rest }.perform job)

/-- How many jobs can come of those that are ready: a request is planned and worked
    on, a tick scans every ledger, and whatever comes of that moves a bootstrap on. -/
def workload (g : Gateway W) : Nat := (g.ready.length + 1) * (8 * g.desks.length + 8)

/-- Does all that is ready and all that comes of it. -/
def settle [Outside W] (g : Gateway W) : Gateway W := settleWithin g.workload g

/-! ## Time -/

/-- Lets time pass to a point in one leap. -/
def leapTo [Outside W] (g : Gateway W) (time : Nat) : Gateway W :=
  settle { g with
    now := time
    ready := g.ready ++ g.timers.due time
    timers := g.timers.after time }

/-- Lets some time pass. -/
def advance [Outside W] (g : Gateway W) (duration : Nat) : Gateway W :=
  g.leapTo (g.now + duration)

/-- Lets time pass from timer to timer, up to a limit, until a condition is met; says
    whether it was. At most `fuel` timers go off. -/
def waitUntil [Outside W] (met : Gateway W → Bool) (limit : Nat) :
    Nat → Gateway W → Bool × Gateway W
  | 0, g => (met g, g)
  | fuel + 1, g =>
    if met g then (true, g)
    else
      match g.timers.next? with
      | some time =>
        if time ≤ limit then waitUntil met limit fuel (g.leapTo (max g.now time))
        else (false, { g with now := limit })
      | none => (false, { g with now := limit })

/-! ## Start and stop -/

/-- Starts the bootstraps and the scanner, once. The scanner subscribes to shutdown
    before a bootstrap can ask for it. -/
def start (g : Gateway W) : Gateway W :=
  if g.started then g
  else
    let g := { g with started := true, shutdown := g.shutdown.subscribe .scanner }
    let g := g.desks.foldl startEscrow g
    { g with scanner := some g.now }.enqueue .scanner

/-- Whether nothing that was started is under way. -/
def isIdle (g : Gateway W) : Bool := !g.hasRunningEscrow && g.scanner.isNone

/-- How long a stop waits for what is under way. -/
def patience : Nat := 5000

/-- Gives the shutdown signal after a while, or at once. -/
def shutdownAfter (g : Gateway W) (duration : Nat) : Gateway W :=
  if duration = 0 then g.triggerShutdown
  else { g with timers := g.timers.set (g.now + duration) .shutdown }

/-- Ends what is under way where it stands. -/
def abort (g : Gateway W) : Gateway W :=
  let halted := g.haltEscrows
  { halted with
    scanner := none
    timers := halted.timers.discard fun
      | .scanner => true
      | _ => false }

/-- Gives the shutdown signal, waits for what is under way, and ends what takes too
    long. -/
def stop [Outside W] (g : Gateway W) : Gateway W :=
  let signalled := g.triggerShutdown.settle
  match waitUntil isIdle (signalled.now + patience - 1) (2 * patience) signalled with
  | (true, g) => g
  | (false, g) => { g with now := signalled.now + patience }.abort

end LedgerGate.Gateway
