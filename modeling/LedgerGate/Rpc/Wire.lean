/-
  Messages on the wire to a node: requests, responses, receipts and blocks.

  * `Request.toJson` is the body of a request;
  * `Response.result`: an error wins over a result beside it;
  * `Receipt.confirmation` and `Block.blockTime` read what a result says.
-/
import LedgerGate.Ledger.Confirmation
import LedgerGate.Rpc.Quantity
import LedgerGate.Time

namespace LedgerGate.Json

mutual

/-- A value with the fields of every object in the order of their names; of two
    fields with one name the last stays. -/
def sorted : Json → Json
  | .list xs => .list (sortedItems xs)
  | .object fs => .object (sortedFields fs [])
  | j => j

def sortedItems : List Json → List Json
  | [] => []
  | x :: xs => sorted x :: sortedItems xs

def sortedFields : List (String × Json) → List (String × Json) → List (String × Json)
  | [], acc => acc
  | (k, v) :: fs, acc => sortedFields fs (Entries.insert acc k (sorted v))

end

/-- A whole value kept as it is, with sorted names; every part must denote one. -/
def whole? (j : Json) : Option Json := if j.sound then some j.sorted else none

end LedgerGate.Json

namespace LedgerGate.Rpc

/-! ## Requests and responses -/

/-- A request to a node. -/
structure Request where
  id : UInt64
  method : String
  params : Json

def Request.toJson (r : Request) : Json :=
  .object [("jsonrpc", .text "2.0"), ("id", .ofUInt64 r.id), ("method", .text r.method),
    ("params", r.params.sorted)]

/-- An error that a node reports. -/
structure Rejection where
  code : Int64
  text : String

def Rejection.ofJson? (j : Json) : Option Rejection := do
  let r ← j.record? ["code", "message"]
  let code ← r.required "code" fun c =>
    (c.intBetween? Int64.minValue.toInt Int64.maxValue.toInt).map Int64.ofInt
  return ⟨code, ← r.required "message" Json.text?⟩

/-- A response of a node. -/
structure Response where
  value : Json
  rejection : Option Rejection

namespace Response

def ofJson? (j : Json) : Option Response := do
  let r ← j.record? ["result", "error"]
  let value ← r.withDefault "result" Json.whole? .null
  let rejection ← r.withDefault "error" (Json.orNull? Rejection.ofJson?) none
  return ⟨value, rejection⟩

/-- What a response says: an error wins over a result. -/
def result (r : Response) : Except Ledger.Error Json :=
  match r.rejection with
  | some e => .error (.rejected e.code e.text)
  | none => .ok r.value

end Response

/-! ## Receipts -/

/-- The receipt of a transaction. -/
structure Receipt where
  transactionHash : String
  blockNumber : String
  blockHash : Option String
  status : Option String
  contractAddress : Option String
  gasUsed : Option String
  sender : Option String
  receiver : Option String
  revertReason : Option String

namespace Receipt

def ofJson? (j : Json) : Option Receipt := do
  let r ← j.record? ["transactionHash", "blockNumber", "blockHash", "status",
    "contractAddress", "gasUsed", "from", "to", "revertReason"]
  let text? := fun name => r.withDefault name (Json.orNull? Json.text?) none
  let transactionHash ← r.required "transactionHash" Json.text?
  let blockNumber ← r.required "blockNumber" Json.text?
  return ⟨transactionHash, blockNumber, ← text? "blockHash", ← text? "status",
    ← text? "contractAddress", ← text? "gasUsed", ← text? "from", ← text? "to",
    ← text? "revertReason"⟩

def isSuccess (r : Receipt) : Bool := r.status == some "0x1"

/-- The bag of a receipt whose block number is known. -/
def extra (r : Receipt) (block : UInt64) : Bag :=
  let text := BagValue.ofOption BagValue.text
  if r.isSuccess then
    .ofList [("blockHash", text r.blockHash), ("blockNumber", .ofUInt64 block),
      ("contractAddress", text r.contractAddress), ("gasUsed", text r.gasUsed),
      ("from", text r.sender), ("to", text r.receiver),
      ("transactionHash", .text r.transactionHash)]
  else .ofList [("blockHash", text r.blockHash), ("status", text r.status)]

/-- What a receipt confirms; its block number must be readable. -/
def confirmation (r : Receipt) : Except Ledger.Error Confirmation :=
  (Quantity.parseWord r.blockNumber).map fun block =>
    ⟨r.transactionHash, r.isSuccess, block, if r.isSuccess then none else r.revertReason,
      r.extra block⟩

end Receipt

/-! ## Blocks -/

/-- The head of a block. -/
structure Block where
  number : String
  timestamp : String

namespace Block

def ofJson? (j : Json) : Option Block := do
  let r ← j.record? ["number", "timestamp"]
  return ⟨← r.required "number" Json.text?, ← r.required "timestamp" Json.text?⟩

/-- The number and time of a block; both must be readable. -/
def blockTime (b : Block) : Except Ledger.Error BlockTime :=
  (Quantity.parseWord b.number).bind fun n =>
    (Quantity.parseWord b.timestamp).map fun t => ⟨n, ⟨t⟩⟩

end Block

end LedgerGate.Rpc
