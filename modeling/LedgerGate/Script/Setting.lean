/-
  Settings of scripts: the ledgers, the directories and the store that a script
  starts with.
-/
import LedgerGate.Ledger.Chain
import LedgerGate.Script.Failure
import LedgerGate.Stage

namespace LedgerGate.Script

/-! ## Ledgers -/

/-- A number, or its decimal text. -/
def number (j : Json) : Nat :=
  match j with
  | .integer n => n.toNat
  | _ => j.asText.toNat?.getD 0

/-- A ledger in memory; what is not said of it is standard. -/
def ledger (j : Json) : Ledger.Rehearsal :=
  let standard := Ledger.Rehearsal.new
  let times := match j.field "blockTimes" with
    | .list times => (times.map Json.asWord).toArray
    | _ => standard.times
  { standard with
    times
    fee := number (j.field "fee")
    blockOverride := if j.has "block" then some (j.wordAt "block") else none }

/-- A stretch of a chain. -/
def segment (j : Json) : Ledger.Segment :=
  ⟨j.natAt "from", j.natAt "start", j.natAt "period", j.natAt "every"⟩

/-- A chain for searches. -/
def chain (j : Json) : Ledger.Chain where
  times :=
    if j.has "segments" then .segments ((j.itemsAt "segments").map segment)
    else .table (j.natAt "first") ((j.itemsAt "times").map Json.asWord)
  latest :=
    let latest := j.field "latest"
    if latest.has "error" then .error (ledgerError (latest.field "error"))
    else .ok (latest.wordAt "block", (latest.field "time").uint64?)
  errors := (j.fieldsAt "errors").map fun (block, e) => (block.toNat?.getD 0, ledgerError e)

/-! ## Directories and stores -/

/-- The lookup with a name such as `token:BND`. -/
def lookup (name : String) : Store.Lookup :=
  match name.splitOn ":" with
  | "address" :: rest => .address (":".intercalate rest)
  | _ :: rest => .token (":".intercalate rest)
  | [] => .token name

/-- The directories in memory. -/
def directory (j : Json) : Store.Directory :=
  let addresses := (j.itemsAt "addresses").filterMap Store.AddressRecord.ofJson?
  let tokens := (j.itemsAt "tokens").filterMap Store.TokenRecord.ofJson?
  let d := addresses.foldl Store.Directory.putAddress .empty
  let d := tokens.foldl (fun d t => d.putToken t.symbol t) d
  { d with failures := (j.fieldsAt "errors").map fun (name, e) => (lookup name, storeError e) }

/-- A store in memory; its first values count as writes. -/
def store (j : Json) : Store.Memory :=
  let empty := { Store.Memory.empty with rival := (j.field "rival").text? }
  (j.fieldsAt "values").foldl (fun m (key, value) => m.write key value.asText) empty

end LedgerGate.Script
