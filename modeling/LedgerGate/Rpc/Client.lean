/-
  A ledger behind a node that speaks JSON-RPC over HTTP.

  * `Post`: one exchange with a node, and `unreachable`, where there is none;
  * `Client.request`: the request that a query becomes, with the error of a query
    that needs settings that are not there;
  * `Client.read`: what the result of a request says about its query;
  * `Client.answer` puts the two around one exchange. Requests are numbered from
    one.
-/
import LedgerGate.Ledger.Query
import LedgerGate.Rpc.Settings
import LedgerGate.Rpc.Wire

namespace LedgerGate.Rpc

/-- A node's reply to a posted body. -/
structure Reply where
  status : Nat
  statusText : String
  body : String

/-- A way to post a body to an address: a reply, or why there is none. -/
abbrev Post : Type := (address body : String) → Except String Reply

/-- The post of a place from which no node can be reached. An address without a path is
    written with the root path. -/
def unreachable : Post := fun address _ =>
  let shown := if (address.splitOn "/").length = 3 then address ++ "/" else address
  .error ("error sending request for url (" ++ shown ++ ")")

/-- A connection to one node. -/
structure Client where
  settings : Settings
  nextId : UInt64

namespace Client

def new (settings : Settings) : Client := ⟨settings, 1⟩

/-! ## Requests -/

/-- The creation code of the escrow contract with its owner behind it, and who
    pays for it. -/
def deployment (s : Settings) (owner : Crypto.Key) : Except Ledger.Error (String × String) :=
  match s.sender, s.escrowBytecode with
  | none, _ => .error (.unsupported "escrow deployment needs a configured sender")
  | some _, none => .error (.unsupported "escrow deployment needs configured bytecode")
  | some sender, some code =>
    .ok (sender, "0x" ++ String.ofList (Crypto.Key.dropMark code.toList) ++ owner.toHex)

/-- The parameters that name a block. -/
def blockParams (tag : String) : Json := .list [.text tag, .bool false]

/-- The method and parameters of a query. -/
def request (s : Settings) : Ledger.Query → Except Ledger.Error (String × Json)
  | .submit (.deployEscrow owner) =>
    (deployment s owner).map fun (sender, data) =>
      ("eth_sendTransaction", .list [.object [("from", .text sender), ("data", .text data)]])
  | .submit (.invoke _ data) =>
    .ok ("eth_sendRawTransaction", .list [.text ("0x" ++ Text.encodeHex data)])
  | .confirmationOf workId => .ok ("eth_getTransactionReceipt", .list [.text workId])
  | .isKnown workId => .ok ("eth_getTransactionByHash", .list [.text workId])
  | .blockNumber => .ok ("eth_blockNumber", .list [])
  | .latestBlock => .ok ("eth_getBlockByNumber", blockParams "latest")
  | .blockTime block => .ok ("eth_getBlockByNumber", blockParams (Quantity.render block))
  | .feePolicy => .ok ("eth_gasPrice", .list [])

/-! ## Results -/

/-- A result of the wanted type; one of another type is blamed on its method. -/
def typed {α : Type} (method : String) (read : Json → Option α) (j : Json) :
    Except Ledger.Error α :=
  match read j with
  | some a => .ok a
  | none => .error (.malformed method)

/-- The block of a result; null says that there is none. -/
def readBlock (tag : String) (j : Json) : Except Ledger.Error BlockTime :=
  (typed "eth_getBlockByNumber" (Json.orNull? Block.ofJson?) j).bind fun
    | none => .error (.malformed ("block " ++ tag ++ " not found"))
    | some b => b.blockTime

/-- What a result says about the query it belongs to. -/
def read (j : Json) : (q : Ledger.Query) → q.Answer
  | .submit (.deployEscrow _) => typed "eth_sendTransaction" Json.text? j
  | .submit (.invoke _ _) => typed "eth_sendRawTransaction" Json.text? j
  | .confirmationOf _ =>
    (typed "eth_getTransactionReceipt" (Json.orNull? Receipt.ofJson?) j).bind fun
      | none => .ok none
      | some r => r.confirmation.map some
  | .isKnown _ =>
    .ok (match j with
      | .null => false
      | _ => true)
  | .blockNumber => (typed "eth_blockNumber" Json.text? j).bind Quantity.parseWord
  | .latestBlock => readBlock "latest" j
  | .blockTime block => readBlock (Quantity.render block) j
  | .feePolicy => (typed "eth_gasPrice" Json.text? j).bind Quantity.parse

/-- The answer that stands for a failure. -/
def failed (e : Ledger.Error) : (q : Ledger.Query) → q.Answer
  | .submit _ => .error e
  | .confirmationOf _ => .error e
  | .isKnown _ => .error e
  | .blockNumber => .error e
  | .latestBlock => .error e
  | .blockTime _ => .error e
  | .feePolicy => .error e

/-! ## Exchanges -/

/-- The result in a reply: a status other than success, or a body that is no
    response, is a failure of transport. -/
def resultOf (address : String) (r : Reply) : Except Ledger.Error Json :=
  if 200 ≤ r.status ∧ r.status < 300 then
    match (Json.ofText? r.body).bind Response.ofJson? with
    | some response => response.result
    | none => .error (.transport "error decoding response body")
  else .error (.transport ("HTTP " ++ r.statusText ++ " from " ++ address))

/-- The answer to a query after one exchange, and the client after it. -/
def answer (post : Post) (q : Ledger.Query) (c : Client) : q.Answer × Client :=
  match request c.settings q with
  | .error e => (failed e q, c)
  | .ok (method, params) =>
    let body := (Request.mk c.nextId method params).toJson.compact
    let result : Except Ledger.Error Json := match post c.settings.address body with
      | .error text => .error (.transport text)
      | .ok reply => resultOf c.settings.address reply
    let next := { c with nextId := c.nextId + 1 }
    match result with
    | .error e => (failed e q, next)
    | .ok j => (read j q, next)

end Client

end LedgerGate.Rpc
