/-
  Steps of scripts: what happens on a stage, and what is asked of it.

  A step gives what it says, if it says anything, as JSON, and the stage after it.
  A step of another kind is no step of a stage.

  * `onLedger`: a ledger decides, fails, or tells what it was asked;
  * `onStore`: the store is changed from outside, or fails;
  * `onStage`: either.
-/
import LedgerGate.Diagnostics.Failure
import LedgerGate.Script.Setting

namespace LedgerGate.Script

/-- What a step says that only changes something. -/
def done : Json := .text "done"

/-! ## Ledgers -/

def confirmation (j : Json) : Confirmation := (Confirmation.ofJson? j).getD default

/-- The bytes of hexadecimal text. -/
def bytes (s : String) : List UInt8 := (Text.decodeHex s).toOption.getD []

/-- The kind of query with a name such as `confirmation_of:0x1`. -/
def method (name : String) : Ledger.Method :=
  match name.splitOn ":" with
  | ["submit"] => .submit
  | ["confirmation_of"] => .confirmationOf
  | ["is_known"] => .isKnown
  | ["block_number"] => .blockNumber
  | ["latest_block"] => .latestBlock
  | ["block_time"] => .blockTime
  | ["fee_policy"] => .feePolicy
  | _ :: rest => .confirmationOfWork (":".intercalate rest)
  | [] => .submit

/-- Makes a kind of query fail, or stops that. -/
def switch (r : Ledger.Rehearsal) (what : String) (on : Bool) : Ledger.Rehearsal :=
  match what with
  | "submits" => { r with submitsFail := on }
  | "confirmations" => { r with confirmationsFail := on }
  | _ => { r with blocksFail := on }

/-- A submission as a ledger tells of it. -/
def submissionJson (workId : WorkId) (call : Ledger.Call) : Json :=
  let contents := match call with
    | .invoke sender data => [("from", Json.text sender), ("data", .text (Text.encodeHex data))]
    | .deployEscrow _ => []
  .object ([("workId", .text workId), ("kind", .text call.kind)] ++ contents)

/-- A step on a ledger. -/
def onLedger (r : Ledger.Rehearsal) (s : Json) : Option (Json × Ledger.Rehearsal) :=
  let workId := s.textAt "id"
  match s.textAt "do" with
  | "confirm" => some (done, r.confirm (confirmation (s.field "confirmation")))
  | "confirmSuccess" =>
    let extra := (Bag.ofJson? (s.field "extra")).getD .empty
    some (done, r.confirm (.succeeded workId (s.wordAt "block") extra))
  | "answer" => some (done, r.setAnswer workId (confirmation (s.field "confirmation")))
  | "announce" => some (done, r.announce workId)
  | "fail" => some (done, switch r (s.textAt "what") (s.flagAt "on"))
  | "failWith" =>
    some (done, r.setFailure (method (s.textAt "method")) (orEnd ledgerError (s.field "with")))
  | "fee" => some (done, { r with fee := number (s.field "fee") })
  | "block" => some (done, { r with blockOverride := some (s.wordAt "block") })
  | "submit" =>
    let (answer, r) := r.submit (.invoke (s.textAt "from") (bytes (s.textAt "data")))
    some (.ofExcept Ledger.Error.toJson .text answer, r)
  | "queries" => some (.ofNat (r.timesAsked workId), r)
  | "submitted" => some (.list (r.submitted.toList.map fun (w, c) => submissionJson w c), r)
  | _ => none

/-! ## Stores and stages -/

/-- The kind of request with a name. -/
def request (name : String) : Store.Method :=
  match name with
  | "get" => .get
  | "put" => .put
  | "put_if_absent" => .putIfAbsent
  | _ => .delete

/-- A step on the store. -/
def onStore (m : Store.Memory) (s : Json) : Option (Json × Store.Memory) :=
  let key := s.textAt "key"
  match s.textAt "do" with
  | "storePut" => some (done, m.write key (s.textAt "value"))
  | "storeDelete" => some (done, m.erase key)
  | "storeFail" =>
    some (done, m.setFailure (request (s.textAt "method")) (orEnd storeError (s.field "with")))
  | "storeFailReads" => some (done, { m with readsFail := s.flagAt "on" })
  | _ => none

/-- A step on the store or on the ledger with an id. -/
def onStage (w : Stage) (ledgerId : String) (s : Json) : Option (Json × Stage) :=
  match onStore w.store s with
  | some (said, store) => some (said, { w with store })
  | none => (onLedger (w.ledgerOf ledgerId) s).map fun (said, r) => (said, w.setLedger ledgerId r)

end LedgerGate.Script
