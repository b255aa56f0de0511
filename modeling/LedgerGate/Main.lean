/-
  The daemon as a program: arguments, environment, files and streams.

  Requests are answered while the input is open. The store is read at the start and
  written at the end. This program has no way to reach a node over the network, so
  every query of a ledger fails as a failure of transport.
-/
import LedgerGate.Daemon.Service
import LedgerGate.Store.Format
import Std.Time.DateTime.Timestamp

namespace LedgerGate.Program

/-- The text of a file, if it can be read. -/
def readText (path : String) : IO (Option String) := do
  try return some (← IO.FS.readFile path) catch _ => return none

/-- The file of the store in a directory. -/
def storeFile (dir : String) : String := dir ++ "/data.mdb"

/-- Opens the store in a directory, making both if they are not there. -/
def openStore (dir : String) : IO (Option Store.Durable) := do
  try
    IO.FS.createDirAll dir
    match ← readText (storeFile dir) with
    | some text => return Store.Durable.ofText? text
    | none =>
      IO.FS.writeFile (storeFile dir) ""
      return some .empty
  catch _ => return none

/-- Prints the responses among the events so far. -/
def flush (output : IO.FS.Stream) (g : Gateway World) : IO (Gateway World) := do
  for r in Transport.responses g.events do
    output.putStr (Transport.line r)
  output.flush
  return { g with events := #[] }

/-- The time in milliseconds since the epoch. -/
def timeOfDay : IO Nat := do
  return (← Std.Time.Timestamp.now).toMillisecondsSinceUnixEpoch.val.toNat

/-- Lets the time that has passed since the start pass in the gateway. -/
def catchUp (start : Nat) (g : Gateway World) : IO (Gateway World) := do
  let elapsed := (← IO.monoMsNow) - start
  let time ← timeOfDay
  let g := { g with outside := { g.outside with time } }
  return g.leapTo (max g.now elapsed)

/-- Reads the next line beside everything else. -/
def nextLine (input : IO.FS.Stream) : IO (Task (Except IO.Error String)) :=
  IO.asTask input.getLine .dedicated

/-- How long to wait before looking again, in milliseconds. -/
def pause : UInt32 := 5

/-- Waits until no delivery holds the way out any more. -/
partial def drain (output : IO.FS.Stream) (start : Nat) (g : Gateway World) :
    IO (Gateway World) := do
  let g ← flush output (← catchUp start g)
  if Transport.isDrained g then return g
  IO.sleep pause
  drain output start g

/-- Answers requests until the input ends or shutdown is signalled. -/
partial def serve (input output : IO.FS.Stream) (start : Nat) (g : Gateway World)
    (line : Task (Except IO.Error String)) : IO (Transport.Ending × Gateway World) := do
  let g ← flush output (← catchUp start g)
  let (stopping, shutdown) := g.shutdown.receive .transport
  let g := { g with shutdown }
  if stopping then return (.served, ← drain output start g)
  if ← IO.hasFinished line then
    match line.get with
    | .error _ => return (.unreadable, g)
    | .ok text =>
      if text.isEmpty then return (.served, ← drain output start g)
      serve input output start (Transport.takeText g text) (← nextLine input)
  else
    IO.sleep pause
    serve input output start g line

/-- Runs the daemon with a configuration. -/
def run (c : Config) : IO Service.Exit := do
  match ← openStore c.dataDir with
  | none => return .failed (Service.noStore c)
  | some store =>
    let seed := (← IO.getRandomBytes 32).toList
    let world : World := ⟨Rpc.unreachable, [], store, .ofSeed seed, ← timeOfDay⟩
    match Service.launch c world with
    | .error f => return .failed f
    | .ok g =>
      let input ← IO.getStdin
      let output ← IO.getStdout
      let (ending, g) ← serve input output (← IO.monoMsNow) g.settle (← nextLine input)
      let (exit, g) := Service.conclude ending g
      IO.FS.writeFile (storeFile c.dataDir) g.outside.store.toJson.compact
      return exit

/-- Does what an invocation says. -/
def obey (i : Invocation) (c : Config) : IO Service.Exit := do
  match i.command with
  | .run => run c
  | .config =>
    let outcome := Service.print c
    IO.print outcome.printed
    return outcome.exit

/-- The values of the environment variables that stand in for options. -/
def environment : IO (List (String × String)) := do
  let pairs ← CommandOption.all.mapM fun o => return (o.variableName, ← IO.getEnv o.variableName)
  return pairs.filterMap fun (name, value) => value.map fun v => (name, v)

end LedgerGate.Program

open LedgerGate in
/-- The daemon. -/
def main (args : List String) : IO UInt32 := do
  let env ← Program.environment
  let exit ← match Invocation.ofArgs args (fun name => (env.find? (·.1 == name)).map (·.2)) with
    | .error .help => IO.print Invocation.usage; pure Service.Exit.help
    | .error e => pure (.misused e)
    | .ok i =>
      let path := Invocation.value? i.values .config
      let text ← match path with
        | some p => Program.readText p
        | none => pure none
      match i.config fun _ => text with
      | .error f => pure (.failed f)
      | .ok c => Program.obey i c
  IO.eprint exit.message
  return exit.code
