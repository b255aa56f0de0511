/-
  The world of the daemon: nodes behind JSON-RPC, a store on disk that holds the
  directories too, a source of secrets and a clock.

  Ledgers of brand BESU are reached over JSON-RPC; there are no clients for other
  brands.

  * `Rpc.Settings.ofLedger`: the connection of a configured ledger;
  * `World.fittings`: what a gateway in this world is built from.
-/
import LedgerGate.Crypto.Secrets
import LedgerGate.Gateway.Build
import LedgerGate.Rpc.Client
import LedgerGate.Store.Durable

namespace LedgerGate

/-- A parameter of a ledger as a field: a point in time counts as its text. -/
def LedgerSettings.paramField : String × Toml → String × Json
  | (k, .moment m) => (k, .text m.display)
  | (k, v) => (k, v.toJson)

/-- The connection that the parameters of a ledger describe. -/
def Rpc.Settings.ofLedger (l : LedgerSettings) : Except Fault Rpc.Settings :=
  match Rpc.Settings.ofJson? (.object (l.params.map LedgerSettings.paramField)) with
  | some s => .ok s
  | none => .error (.config ("ledger " ++ l.id ++ ": invalid params"))

/-- The world outside the daemon. -/
structure World where
  post : Rpc.Post
  clients : List (String × Rpc.Client)
  store : Store.Durable
  secrets : Crypto.Secrets
  time : Nat

namespace World

instance : Outside World where
  ledger ledgerId q w :=
    match Entries.find? w.clients ledgerId with
    | some client =>
      let (answer, client) := client.answer w.post q
      (answer, { w with clients := Entries.insert w.clients ledgerId client })
    | none => (Rpc.Client.failed (.transport ("no client for ledger " ++ ledgerId)) q, w)
  store q w :=
    let (answer, store) := w.store.answer q
    (answer, { w with store })
  lookup l w :=
    match l with
    | .address a => w.store.addressOf a
    | .token symbol => w.store.tokenOf symbol
  draw w :=
    let (secret, secrets) := w.secrets.draw
    (secret, { w with secrets })
  clock w := w.time

/-- The factory of clients for a brand. -/
def factory (b : Brand) : Option Factory :=
  if b = .besu then some fun l => (Rpc.Settings.ofLedger l).map fun _ => () else none

/-- What a gateway in this world is built from. -/
def fittings : Fittings := ⟨true, true, factory, []⟩

/-- The world with a client for every ledger that can have one. -/
def connect (w : World) (ledgers : List LedgerSettings) : World :=
  let clients := ledgers.filterMap fun l =>
    (Rpc.Settings.ofLedger l).toOption.map fun s => (l.id, Rpc.Client.new s)
  { w with clients := Entries.ofList clients }

end World

end LedgerGate
