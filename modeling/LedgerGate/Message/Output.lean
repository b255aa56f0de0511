/-
  What a request is answered with.

  * `Output`: the result of a request that succeeded;
  * `ErrorDetails`: what callers learn of a failure.
-/
import LedgerGate.Time
import LedgerGate.Work

namespace LedgerGate

/-! ## Results -/

/-- The result of a request. -/
inductive Output where
  | pong (message : String) (time : Timestamp)
  | blockNumber (ledgerId : String) (block : UInt64)
  | transaction (r : TransactionResult)
  | escrowIdentity (ledgerId contractAddress publicKey : String)
  | data (b : Bag)
  deriving Inhabited

namespace Output

/-- Whether more is to come. -/
def isPending : Output → Bool
  | transaction r => r.isPending
  | _ => false

def fields : Output → List (String × Json)
  | pong message time =>
    [("type", .text "PONG"), ("message", .text message), ("time", time.toJson)]
  | blockNumber ledgerId block =>
    [("type", .text "BLOCK_NUMBER"), ("ledgerId", .text ledgerId), ("block", .ofUInt64 block)]
  | transaction r => ("type", .text "TRANSACTION") :: r.fields
  | escrowIdentity ledgerId contractAddress publicKey =>
    [("type", .text "ESCROW_IDENTITY"), ("ledgerId", .text ledgerId),
      ("contractAddress", .text contractAddress), ("publicKey", .text publicKey)]
  | data b => ("type", .text "DATA") :: BagValue.toJsonFields b.entries

def toJson (o : Output) : Json := .object o.fields

/-- The result with a tag in the fields beside it. -/
def ofFields? (tag : String) (j : Json) : Option Output :=
  match tag with
  | "PONG" => do
    let r ← j.record? ["message", "time"]
    return .pong (← r.required "message" Json.text?) (← r.required "time" Timestamp.ofJson?)
  | "BLOCK_NUMBER" => do
    let r ← j.record? ["ledgerId", "block"]
    return .blockNumber (← r.required "ledgerId" Json.text?) (← r.required "block" Json.uint64?)
  | "TRANSACTION" => (TransactionResult.ofJsonWith? Json.heldChoice? j).map .transaction
  | "ESCROW_IDENTITY" => do
    let r ← j.record? ["ledgerId", "contractAddress", "publicKey"]
    return .escrowIdentity (← r.required "ledgerId" Json.text?)
      (← r.required "contractAddress" Json.text?) (← r.required "publicKey" Json.text?)
  | "DATA" => (Bag.ofJson? j).map .data
  | _ => none

/-- A result out of JSON. The fields are kept whole until the tag is known, so
    all of them must denote values. -/
def ofJson? (j : Json) : Option Output := do
  let (tag, rest) ← j.tagged? "type"
  if rest.sound then ofFields? tag rest else none

end Output

/-! ## Failures -/

/-- What callers learn of a failure. -/
structure ErrorDetails where
  code : String
  message : String
  parameters : Bag
  deriving Inhabited

namespace ErrorDetails

def display (d : ErrorDetails) : String := d.code ++ ": " ++ d.message

def toJson (d : ErrorDetails) : Json :=
  .object <| [("code", .text d.code), ("message", .text d.message)] ++
    (if d.parameters.isEmpty then [] else [("parameters", d.parameters.toJson)])

def ofJson? (j : Json) : Option ErrorDetails := do
  let r ← j.record? ["code", "message", "parameters"]
  return ⟨← r.required "code" Json.text?, ← r.required "message" Json.text?,
    ← r.withDefault "parameters" Bag.ofJson? .empty⟩

end ErrorDetails

end LedgerGate
