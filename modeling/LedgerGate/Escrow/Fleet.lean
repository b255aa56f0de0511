/-
  A fleet: bootstraps side by side, as of several processes.

  They share the world outside, its ledger and its store above all. Each has a
  tracker and a shutdown signal of its own; those of one group, which are in one
  process, share their leases.

  * `Fleet.start`, `Fleet.scan`: the only ways to move a member on;
  * `Fleet.advance` lets time pass; `Fleet.waitSettled` until a member has come to
    its end.
-/
import LedgerGate.Desk
import LedgerGate.Escrow.Lease
import LedgerGate.Metrics
import LedgerGate.Outside
import LedgerGate.Shutdown
import LedgerGate.Timers

namespace LedgerGate.Escrow

/-- A bootstrap with the tracker and the shutdown signal of its process. -/
structure Member where
  name : String
  group : String
  bootstrap : Bootstrap
  tracker : Receipt.Tracker Waiter
  shutdown : Shutdown Unit
  deriving Inhabited

/-- What can move a member on: it is ready to run, or a nap is over. -/
inductive Call where
  | run (name : String)
  | wake (name : String)

/-- Bootstraps in a world outside, with the leases of every group. -/
structure Fleet (W : Type) where
  members : List Member
  leases : List (String × Leases String)
  now : Nat
  timers : Timers Call
  ready : List Call
  outside : W

namespace Member

/-- A member before its start, that remembers some receipts. -/
def new (name group : String) (s : Settings) (receipts : Nat) : Member :=
  ⟨name, group, .new s, .new receipts, .new⟩

/-- The member after news to its bootstrap. -/
def hear (m : Member) (news : Phase → Phase) : Member :=
  { m with bootstrap := m.bootstrap.hear news }

/-- The member after its bootstrap asked for shutdown. -/
def alarm (m : Member) (reason : String) : Member :=
  let text := Bootstrap.alarmText m.bootstrap.settings reason
  { m with shutdown := m.shutdown.request text }

def state (m : Member) : State := m.bootstrap.phase.state

end Member

namespace Fleet

variable {W : Type}

/-- A fleet of some members. -/
def ofList (members : List Member) (outside : W) : Fleet W :=
  ⟨members, [], 0, .empty, [], outside⟩

def member? (f : Fleet W) (name : String) : Option Member := f.members.find? (·.name == name)

/-- Changes a member. -/
def update (f : Fleet W) (name : String) (g : Member → Member) : Fleet W :=
  { f with members := f.members.map fun m => if m.name = name then g m else m }

def enqueue (f : Fleet W) (c : Call) : Fleet W := { f with ready := f.ready ++ [c] }

/-! ## Leases -/

/-- The leases of a group. -/
def leasesOf (f : Fleet W) (group : String) : Leases String :=
  (Entries.find? f.leases group).getD .empty

def setLeases (f : Fleet W) (group : String) (l : Leases String) : Fleet W :=
  { f with leases := Entries.insert f.leases group l }

/-- Takes a lease for a member, or waits for it in line. -/
def takeLease (f : Fleet W) (m : Member) (key : String) : Bool × Fleet W :=
  let leases := (f.leasesOf m.group).acquire key m.name
  (leases.holders.contains m.name, f.setLeases m.group leases)

/-- Lets a member go on that waited for a lease and has it now. -/
def grant (f : Fleet W) (name : String) : Fleet W :=
  match f.member? name with
  | some m =>
    match m.bootstrap.phase with
    | .leasing =>
      (f.update name (·.hear (Phase.granted m.bootstrap.settings f.now))).enqueue (.run name)
    | _ => f
  | none => f

/-- Gives the lease of a member up. -/
def giveUpLease (f : Fleet W) (m : Member) : Fleet W :=
  let leases := ((f.leasesOf m.group).drop m.name).cleanup
  leases.holders.foldl grant (f.setLeases m.group leases)

/-! ## Running -/

/-- How the steps of a member are carried out. -/
def surroundings [Outside W] (m : Member) : Surroundings (Fleet W) where
  now f := f.now
  lease f := f.takeLease m m.bootstrap.settings.key
  unlease f := f.giveUpLease m
  store q f :=
    let answer := Outside.store q f.outside
    (answer.1, { f with outside := answer.2 })
  ledger q f :=
    let answer := Outside.ledger m.bootstrap.settings.ledgerId q f.outside
    (some answer.1, { f with outside := answer.2 })
  draw f :=
    let drawn := Outside.draw f.outside
    (drawn.1, { f with outside := drawn.2 })
  sleep duration f := { f with timers := f.timers.set (f.now + duration) (.wake m.name) }
  track workId f :=
    match f.member? m.name with
    | some m =>
      let (tracker, notices) := m.tracker.prepare workId .escrow
      (Desk.prospect .escrow workId tracker notices, f.update m.name fun m => { m with tracker })
    | none => (.awaited, f)
  alarm reason f := f.update m.name (·.alarm reason)

/-- Lets a member go on until it has to wait. -/
def run [Outside W] (f : Fleet W) (name : String) : Fleet W :=
  match f.member? name with
  | some m =>
    let (phase, f) :=
      drive (surroundings m) m.bootstrap.settings stretch m.bootstrap.phase f
    f.update name (·.hear fun _ => phase)
  | none => f

def perform [Outside W] (f : Fleet W) : Call → Fleet W
  | .run name => f.run name
  | .wake name => (f.update name (·.hear Phase.awake)).run name

/-- Answers at most `fuel` calls. -/
def settleWithin [Outside W] : Nat → Fleet W → Fleet W
  | 0, f => f
  | fuel + 1, f =>
    match f.ready with
    | [] => f
    | call :: rest => settleWithin fuel ({ f with ready := rest }.perform call)

/-- Lets everybody go on until all have to wait. A member that ends lets at most
    every other one go on. -/
def settle [Outside W] (f : Fleet W) : Fleet W :=
  settleWithin ((f.ready.length + 1) * (f.members.length + 1)) f

/-! ## Moving on -/

/-- Starts a member that was not started; says whether it did. -/
def start [Outside W] (f : Fleet W) (name : String) : Bool × Fleet W :=
  match (f.member? name).bind (·.bootstrap.phase.start?) with
  | some phase =>
    (true, ((f.update name (·.hear fun _ => phase)).enqueue (.run name)).settle)
  | none => (false, f)

/-- Brings news of the receipt of its deployment to a member: the receipt itself, or that
    its handler was dropped. -/
def inform (name : String) (f : Fleet W) (news : Phase → Phase) : Fleet W :=
  (f.update name (·.hear news)).enqueue (.run name)

/-- Lets the tracker of a member scan the ledger. -/
def scan [Outside W] (f : Fleet W) (name : String) : Option Receipt.Report × Fleet W :=
  match f.member? name with
  | some m =>
    let (tracker, notices, report, outside) :=
      m.tracker.scanAll
        (fun workId w =>
          Outside.ledger m.bootstrap.settings.ledgerId (.confirmationOf workId) w) f.outside
    let f := { f with outside }.update name fun m => { m with tracker }
    let receipts := (notices.filterMap Receipt.Notice.dispatch?).map fun d =>
      Phase.received d.2
    let losses := (m.tracker.lost tracker notices).map fun _ => Phase.dropped
    (some report, ((receipts ++ losses).foldl (inform name) f).settle)
  | none => (none, f)

/-! ## Time -/

/-- Lets time pass to a point in one leap. -/
def leapTo [Outside W] (f : Fleet W) (time : Nat) : Fleet W :=
  settle { f with
    now := time
    ready := f.ready ++ f.timers.due time
    timers := f.timers.after time }

/-- Lets some time pass. -/
def advance [Outside W] (f : Fleet W) (duration : Nat) : Fleet W := f.leapTo (f.now + duration)

/-- Whether a member has come to its end. -/
def isSettled (f : Fleet W) (name : String) : Bool :=
  (f.member? name).all (·.state.isSettled)

/-- Lets time pass from timer to timer until a member has come to its end; at most
    `fuel` timers go off. -/
def waitSettled [Outside W] (name : String) : Nat → Fleet W → Fleet W
  | 0, f => f
  | fuel + 1, f =>
    if f.isSettled name then f
    else
      match f.timers.next? with
      | some time => waitSettled name fuel (f.leapTo (max f.now time))
      | none => f

end Fleet

end LedgerGate.Escrow
