/-
  The daemon at work: it serves requests until the input ends or it is to shut
  down, and stops.

  * `Service.launch`: the gateway with everything started;
  * `Service.conclude`: how the daemon ends once serving is over;
  * `Service.execute`: a whole invocation, with its input at hand.
-/
import LedgerGate.Daemon.Host
import LedgerGate.Daemon.Invocation
import LedgerGate.Daemon.World
import LedgerGate.Transport

namespace LedgerGate.Service

/-- How the daemon ends: well, or with a failure. -/
inductive Exit where
  | clean
  | help
  | misused (e : UsageError)
  | failed (f : Fault)
  | unreadable
  | unfinished
  | stopped (reason : String)

/-- The code with which the daemon ends. -/
def Exit.code : Exit → UInt32
  | clean => 0
  | help => 0
  | misused _ => 2
  | failed _ => 1
  | unreadable => 1
  | unfinished => 1
  | stopped _ => 1

/-- What the daemon says at its end when all is not well. -/
def Exit.message : Exit → String
  | clean => ""
  | help => ""
  | misused _ => Invocation.usage
  | failed f => "Error: " ++ f.message ++ "\n"
  | unreadable => "Error: input is no text\n"
  | unfinished => "Error: deliveries do not end\n"
  | stopped reason => "Error: stopped: " ++ reason ++ "\n"

/-! ## Serving -/

/-- A gateway in a world, with the transport listening and everything started. -/
def launch (c : Config) (w : World) : Except Fault (Gateway World) :=
  (Gateway.build c World.fittings (w.connect c.ledgers)).map fun g => g.subscribeTransport.start

/-- Stops a gateway that has served, and says how the daemon ends. -/
def conclude (ending : Transport.Ending) (g : Gateway World) : Exit × Gateway World :=
  let stopped := g.stop
  match ending, stopped.shutdown.reason with
  | .unreadable, _ => (.unreadable, stopped)
  | .unfinished, _ => (.unfinished, stopped)
  | .served, some reason => (.stopped reason, stopped)
  | .served, none => (.clean, stopped)

/-! ## Invocations -/

/-- What an invocation leaves: how it ended, what it printed, and where it opened a
    store. -/
structure Outcome where
  exit : Exit
  printed : String
  opened : Option Position

/-- An invocation that ended before it did anything. -/
def Outcome.early (e : Exit) : Outcome := ⟨e, "", none⟩

/-- How long serving may take, in milliseconds: a day. -/
def patience : Nat := 86400000

/-- The fault of a directory that can hold no store. -/
def noStore (c : Config) : Fault := .store ("opening store at " ++ c.dataDir)

/-- Serves an input that is at hand, with the store in a directory of the host. -/
def run (h : Host) (c : Config) (w : World) (input : List UInt8) : Outcome :=
  match h.directory? c.dataDir with
  | none => .early (.failed (noStore c))
  | some place =>
    match launch c w with
    | .error f => ⟨.failed f, "", some place⟩
    | .ok g =>
      let (ending, g) := Transport.serve g input patience
      let (exit, g) := conclude ending g
      let printed := String.join ((Transport.responses g.events).map Transport.line)
      ⟨exit, printed, some place⟩

/-- Prints a configuration. -/
def print (c : Config) : Outcome :=
  match c.toToml? with
  | some text => ⟨.clean, text, none⟩
  | none => .early (.failed (.config "a number has no written form"))

/-- A whole invocation. -/
def execute (args : List String) (h : Host) (w : World) (input : List UInt8) : Outcome :=
  match Invocation.ofArgs args h.env with
  | .error .help => ⟨.help, Invocation.usage, none⟩
  | .error e => .early (.misused e)
  | .ok i =>
    match i.config h.text? with
    | .error f => .early (.failed f)
    | .ok c =>
      match i.command with
      | .config => print c
      | .run => run h c w input

end LedgerGate.Service
