/-
  Failures in scripts: a script says by name which error is to occur, and with
  which text.

  * `ledgerError`, `storeError`, `keyError` for the parts of a gateway;
  * `fault` for the gateway itself, also as it results from an error of a part.
-/
import LedgerGate.Fault
import LedgerGate.Json.Access

namespace LedgerGate.Script

/-! ## Errors of parts -/

def ledgerError (j : Json) : Ledger.Error :=
  let text := j.textAt "message"
  match j.textAt "kind" with
  | "Transport" => .transport text
  | "Rpc" => .rejected (Int64.ofInt (j.intAt "code")) text
  | "Unsupported" => .unsupported text
  | _ => .malformed text

def storeError (j : Json) : Store.Error :=
  let text := j.textAt "message"
  match j.textAt "kind" with
  | "Backend" => .backend text
  | "Serialization" => .serialization text
  | _ => .corruption text

def keyError (j : Json) : Crypto.KeyError :=
  let text := j.textAt "message"
  match j.textAt "kind" with
  | "Random" => .random text
  | "InvalidHex" => .invalidHex text
  | _ => .invalidLength (j.natAt "expected") (j.natAt "actual")

/-- An error, or null for the end of an error. -/
def orEnd {E : Type} (read : Json → E) (j : Json) : Option E :=
  if j.isNull then none else some (read j)

/-! ## Keys and faults -/

def brand (j : Json) : Brand := (Brand.ofJson? j).getD .none

def routeKey (operation shape : String) (j : Json) : RouteKey :=
  ⟨operation, (Shape.ofName? shape).getD .empty, brand j⟩

/-- The key in the fields of an object. -/
def routeKeyIn (j : Json) : RouteKey :=
  routeKey (j.textAt "operation") (j.textAt "shape") (j.field "brand")

/-- The kind under which a chain of errors is reported. -/
def chainKind : String := "driver::Chain"

/-- The text that a broken piece of work leaves, if it is one. -/
def payload? (j : Json) : Option String :=
  if ["str", "string"].contains (j.textAt "payload") then some (j.textAt "message") else none

def fault (j : Json) : Fault :=
  let text := j.textAt "message"
  match j.textAt "kind" with
  | "AccessDenied" => .accessDenied (j.textAt "operation")
  | "NoSuchLedger" => .noSuchLedger (j.textAt "ledgerId")
  | "NoDelegateImplementation" => .noImplementation (routeKeyIn j)
  | "DuplicateDelegate" => .duplicateImplementation (routeKeyIn j)
  | "Transport" => .transport text
  | "InvalidInput" => .invalidInput text
  | "UnknownToken" => .unknownToken text
  | "Store" => .store text
  | "Config" => .config text
  | "MalformedConfirmation" => .malformedConfirmation (j.textAt "workId") (j.textAt "reason")
  | "NotReady" => .notReady (j.textAt "what")
  | "Internal" => .internal (j.textAt "type") text (j.textAt "trace")
  | "FromPanic" => .breakdown (payload? j)
  | "FromLedger" => .ofLedger (ledgerError (j.field "of"))
  | "FromStore" => .ofStore (storeError (j.field "of"))
  | "FromCrypto" => .ofKey (keyError (j.field "of"))
  | "FromChain" =>
    let texts := (j.itemsAt "texts").map Json.asText
    .wrapped chainKind (texts.headD "") texts.tail
  | _ => .own text

end LedgerGate.Script
