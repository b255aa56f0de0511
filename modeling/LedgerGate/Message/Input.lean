/-
  What a request brings along.

  * `Input` and its `Shape`: the shape of an input is one part of the key by which
    work is assigned;
  * `Input.ofJson?` and `Input.toJson`: the tag `shape` says which fields follow.
-/
import LedgerGate.Work

namespace LedgerGate

/-! ## Modes -/

/-- When a submission is answered: once it is decided, or at once with its id. -/
inductive ReplyMode where
  | result
  | id
  deriving DecidableEq, Repr, Inhabited

namespace ReplyMode

def name : ReplyMode → String
  | result => "RETURN_RESULT"
  | id => "RETURN_ID"

def ofName? (s : String) : Option ReplyMode := [result, id].find? (·.name == s)

def toJson (m : ReplyMode) : Json := .text m.name

end ReplyMode

/-! ## Shapes -/

/-- The shape of an input; `empty` is no input at all. -/
inductive Shape where
  | empty
  | ping
  | ledgerScope
  | transactionQuery
  | blockForTime
  | address
  | token
  | wallet
  | call
  deriving DecidableEq, Repr, Inhabited

namespace Shape

def all : List Shape :=
  [empty, ping, ledgerScope, transactionQuery, blockForTime, address, token, wallet, call]

def name : Shape → String
  | empty => "EMPTY"
  | ping => "PING"
  | ledgerScope => "LEDGER_SCOPE"
  | transactionQuery => "TRANSACTION_QUERY"
  | blockForTime => "BLOCK_FOR_TIME"
  | address => "ADDRESS"
  | token => "TOKEN"
  | wallet => "WALLET"
  | call => "CALL"

/-- The place of a shape in the order of shapes. -/
def rank : Shape → Nat
  | empty => 0
  | ping => 1
  | ledgerScope => 2
  | transactionQuery => 3
  | blockForTime => 4
  | address => 5
  | token => 6
  | wallet => 7
  | call => 8

def ofName? (s : String) : Option Shape := all.find? (·.name == s)

def toJson (s : Shape) : Json := .text s.name

end Shape

/-! ## Inputs -/

/-- The input of a request. Where a ledger may be left out, none means the
    default ledger; for a wallet it means the internal one. -/
inductive Input where
  | ping (message : String)
  | ledgerScope (ledgerId : Option String)
  | transactionQuery (ledgerId : Option String) (workId : WorkId)
  | blockForTime (symbol : String) (epochSecond : UInt64)
  | address (address : String) (params : Bag)
  | token (symbol : String) (address : Option String) (params : Bag)
  | wallet (walletId : Int32) (ledgerId : Option String) (params : Bag)
  | call (address callData : String) (mode : ReplyMode)
  deriving Inhabited

namespace Input

def shape : Input → Shape
  | ping _ => .ping
  | ledgerScope _ => .ledgerScope
  | transactionQuery _ _ => .transactionQuery
  | blockForTime _ _ => .blockForTime
  | address _ _ => .address
  | token _ _ _ => .token
  | wallet _ _ _ => .wallet
  | call _ _ _ => .call

/-- The shape of what a request brings, if anything. -/
def shapeOf : Option Input → Shape
  | some i => i.shape
  | none => .empty

/-! ## JSON -/

def fields : Input → List (String × Json)
  | ping message => [("message", .text message)]
  | ledgerScope ledgerId => [("ledgerId", .ofOption .text ledgerId)]
  | transactionQuery ledgerId workId =>
    [("ledgerId", .ofOption .text ledgerId), ("transactionId", .text workId)]
  | blockForTime symbol epochSecond =>
    [("symbol", .text symbol), ("epochSecond", .ofUInt64 epochSecond)]
  | address a params => [("address", .text a), ("params", params.toJson)]
  | token symbol a params =>
    [("symbol", .text symbol), ("address", .ofOption .text a), ("params", params.toJson)]
  | wallet walletId ledgerId params =>
    [("walletId", .integer walletId.toInt), ("ledgerId", .ofOption .text ledgerId),
      ("params", params.toJson)]
  | call a callData mode =>
    [("address", .text a), ("callData", .text callData), ("mode", mode.toJson)]

def toJson (i : Input) : Json := .object (("shape", i.shape.toJson) :: i.fields)

/-- The ledger field, which may be missing. -/
def ledgerField (r : Json.Record) : Option (Option String) :=
  r.withDefault "ledgerId" (Json.orNull? Json.text?) none

def paramsField (r : Json.Record) : Option Bag := r.withDefault "params" Bag.ofJson? .empty

/-- The input of a shape in its fields. -/
def ofFields? (shape : Shape) (j : Json) : Option Input :=
  match shape with
  | .empty => none
  | .ping => do
    let r ← j.record? ["message"]
    return .ping (← r.required "message" Json.text?)
  | .ledgerScope => do
    let r ← j.record? ["ledgerId"]
    return .ledgerScope (← ledgerField r)
  | .transactionQuery => do
    let r ← j.record? ["ledgerId", "transactionId"]
    return .transactionQuery (← ledgerField r) (← r.required "transactionId" Json.text?)
  | .blockForTime => do
    let r ← j.record? ["symbol", "epochSecond"]
    return .blockForTime (← r.required "symbol" Json.text?)
      (← r.required "epochSecond" Json.uint64?)
  | .address => do
    let r ← j.record? ["address", "params"]
    return .address (← r.required "address" Json.text?) (← paramsField r)
  | .token => do
    let r ← j.record? ["symbol", "address", "params"]
    return .token (← r.required "symbol" Json.text?)
      (← r.withDefault "address" (Json.orNull? Json.text?) none) (← paramsField r)
  | .wallet => do
    let r ← j.record? ["walletId", "ledgerId", "params"]
    return .wallet (← r.required "walletId" Json.int32?) (← ledgerField r) (← paramsField r)
  | .call => do
    let r ← j.record? ["address", "callData", "mode"]
    return .call (← r.required "address" Json.text?) (← r.required "callData" Json.text?)
      (← r.withDefault "mode" (fun m => m.heldChoice?.bind ReplyMode.ofName?) .id)

/-- An input out of JSON. The fields are kept whole until the tag is known, so
    all of them must denote values. -/
def ofJson? (j : Json) : Option Input := do
  let (tag, rest) ← j.tagged? "shape"
  let shape ← Shape.ofName? tag
  if rest.sound then ofFields? shape rest else none

end Input

end LedgerGate
