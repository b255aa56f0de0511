/-
  Failures of the gateway.

  * `Fault`: what went wrong, as a cause;
  * `Fault.code` is stable and visible to callers, `Fault.message` is the wording,
    `Fault.details` are both with the parameters of the cause;
  * `Fault.ofLedger`, `ofStore`, `ofKey`: failures of the parts the gateway stands
    on.
-/
import LedgerGate.Brand
import LedgerGate.Crypto.Key
import LedgerGate.Ledger.Error
import LedgerGate.Message.Input
import LedgerGate.Message.Output
import LedgerGate.Store.Error

namespace LedgerGate

/-! ## Keys -/

/-- The key under which work is assigned: an operation on one shape of input for
    one brand of ledger. -/
structure RouteKey where
  operation : String
  shape : Shape
  brand : Brand
  deriving DecidableEq, Repr, Inhabited

namespace RouteKey

def display (k : RouteKey) : String := k.operation ++ "/" ++ k.shape.name ++ "/" ++ k.brand.name

/-- The same key for ledgers of every brand. -/
def anyBrand (k : RouteKey) : RouteKey := { k with brand := .none }

/-- Whether a key comes before another: by operation, then shape, then brand. -/
def precedes (a b : RouteKey) : Bool :=
  if a.operation = b.operation then
    if a.shape = b.shape then a.brand.rank < b.brand.rank else a.shape.rank < b.shape.rank
  else a.operation < b.operation

end RouteKey

/-! ## Faults -/

/-- Why the gateway could not do what it was asked. -/
inductive Fault where
  | accessDenied (operation : String)
  | noSuchLedger (ledgerId : String)
  | noImplementation (key : RouteKey)
  | duplicateImplementation (key : RouteKey)
  | transport (text : String)
  | malformedConfirmation (workId : WorkId) (reason : String)
  | notReady (component : String)
  | invalidInput (text : String)
  | unknownToken (symbol : String)
  | store (text : String)
  | config (text : String)
  | internal (kind text trace : String)
  deriving DecidableEq, Repr, Inhabited

namespace Fault

/-- A fault that the gateway itself noticed. -/
def own (text : String) : Fault := .internal "GatewayError" text ""

/-- A piece of work that broke down, with the text it left if there is one. -/
def breakdown (text : Option String) : Fault :=
  .internal "panic" (text.getD "task panicked") ""

/-- An error of another part, with the texts of the errors that caused it. -/
def wrapped (kind text : String) (causes : List String) : Fault :=
  .internal kind text (String.intercalate "\n" (causes.map ("caused by: " ++ ·)))

def message : Fault → String
  | accessDenied operation => "access denied for operation " ++ operation
  | noSuchLedger ledgerId => "no such ledger: " ++ ledgerId
  | noImplementation key => "no delegate implementation for " ++ key.display
  | duplicateImplementation key => "two delegates registered for " ++ key.display
  | transport text => "ledger transport error: " ++ text
  | malformedConfirmation workId reason =>
    "malformed confirmation for " ++ workId ++ ": " ++ reason
  | notReady component => component ++ " is not ready yet"
  | invalidInput text => "invalid input: " ++ text
  | unknownToken symbol => "unknown token: " ++ symbol
  | store text => "store error: " ++ text
  | config text => "config error: " ++ text
  | internal _ text _ => "internal error: " ++ text

/-- The code that callers may rely on. -/
def code : Fault → String
  | accessDenied _ => "gateway:access-denied"
  | noSuchLedger _ => "gateway:no-such-ledger"
  | noImplementation _ => "gateway:no-delegate-implementation"
  | duplicateImplementation _ => "gateway:duplicate-delegate"
  | transport _ => "gateway:transport-error"
  | malformedConfirmation _ _ => "gateway:malformed-confirmation"
  | notReady _ => "gateway:not-ready"
  | invalidInput _ => "gateway:invalid-input"
  | unknownToken _ => "gateway:unknown-token"
  | store _ => "gateway:store-error"
  | config _ => "gateway:config-error"
  | internal _ _ _ => "gateway:internal-error"

/-- The parameters of a key. -/
def keyParameters (key : RouteKey) : Bag :=
  .ofList [("operation", .text key.operation), ("inputShape", .text key.shape.name),
    ("chainBrand", .text key.brand.name)]

/-- What callers learn beside the code and the wording. -/
def parameters (f : Fault) : Bag :=
  match f with
  | accessDenied operation => .ofList [("operation", .text operation)]
  | noSuchLedger ledgerId => .ofList [("ledgerId", .text ledgerId)]
  | noImplementation key => keyParameters key
  | duplicateImplementation key => keyParameters key
  | malformedConfirmation workId reason =>
    .ofList [("workId", .text workId), ("reason", .text reason)]
  | notReady component => .ofList [("component", .text component)]
  | unknownToken symbol => .ofList [("symbol", .text symbol)]
  | internal kind text trace =>
    .ofList [("kind", .text kind), ("message", .text text), ("description", .text f.message),
      ("trace", .text trace)]
  | transport _ => .empty
  | invalidInput _ => .empty
  | store _ => .empty
  | config _ => .empty

def details (f : Fault) : ErrorDetails := ⟨f.code, f.message, f.parameters⟩

/-! ## Failures of other parts -/

/-- The kind under which a ledger's failure is reported. -/
def ledgerKind : String := "xledger_ledger::error::LedgerError"

/-- The kind under which a failure of key material is reported. -/
def keyKind : String := "xledger_crypto::error::CryptoError"

/-- A ledger's failure: one that may pass is a failure of transport. -/
def ofLedger (e : Ledger.Error) : Fault :=
  if e.isTransient then .transport e.message else .internal ledgerKind e.message ""

def ofStore (e : Store.Error) : Fault := .store e.message

def ofKey (e : Crypto.KeyError) : Fault := .internal keyKind e.message ""

end Fault

end LedgerGate
