/-
  Confirmations: a ledger's answer about submitted work.

  * `readable` puts an encoded failure reason into words;
  * `result` is the outcome that callers see; it takes from the bag of the
    confirmation only what callers are promised.
-/
import LedgerGate.Ledger.Revert
import LedgerGate.Work

namespace LedgerGate

/-- A ledger's answer about one unit of work. -/
structure Confirmation where
  workId : WorkId
  success : Bool
  block : UInt64
  reason : Option String
  extra : Bag
  deriving Inhabited

namespace Confirmation

/-- Work that succeeded. -/
def succeeded (workId : WorkId) (block : UInt64) (extra : Bag) : Confirmation :=
  ⟨workId, true, block, none, extra⟩

/-- With an encoded failure reason put into words; any other is kept. -/
def readable (c : Confirmation) : Confirmation :=
  match c.reason.bind Ledger.Revert.decode? with
  | some text => { c with reason := some text }
  | none => c

/-- The reason given to callers for work that failed. -/
def failureText (c : Confirmation) : String := c.reason.getD "transaction failed"

/-- The outcome as callers see it. -/
def result (c : Confirmation) : TransactionResult :=
  if c.success then
    let extra := ((Bag.empty.copy c.extra "blockHash").copy c.extra "contractAddress").insert
      "blockNumber" (.ofUInt64 c.block)
    ⟨c.workId, some c.block, .success, extra, none⟩
  else
    let extra := ((Bag.empty.copy c.extra "blockHash").copy c.extra "status").insert
      "failureReason" (.text c.failureText)
    ⟨c.workId, some c.block, .failure, extra, some c.failureText⟩

/-! ## JSON -/

def toJson (c : Confirmation) : Json :=
  .object <| [("workId", .text c.workId), ("success", .bool c.success),
      ("block", .ofUInt64 c.block)] ++
    Json.optional "failureReason" (c.reason.map Json.text) ++ [("extra", c.extra.toJson)]

def ofJson? (j : Json) : Option Confirmation := do
  let r ← j.record? ["workId", "success", "block", "failureReason", "extra"]
  let workId ← r.required "workId" Json.text?
  let success ← r.required "success" Json.bool?
  let block ← r.required "block" Json.uint64?
  let reason ← r.withDefault "failureReason" (Json.orNull? Json.text?) none
  let extra ← r.withDefault "extra" Bag.ofJson? .empty
  return ⟨workId, success, block, reason, extra⟩

end Confirmation

end LedgerGate
