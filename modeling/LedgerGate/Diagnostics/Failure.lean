/-
  Failures as diagnostics show them: by kind or code, with their wording.
-/
import LedgerGate.Fault

namespace LedgerGate

/-! ## Errors of parts -/

def Ledger.Error.kind : Ledger.Error → String
  | .transport _ => "Transport"
  | .rejected _ _ => "Rpc"
  | .unsupported _ => "Unsupported"
  | .malformed _ => "Malformed"

def Ledger.Error.toJson (e : Ledger.Error) : Json :=
  .object [("error", .text e.kind), ("message", .text e.message), ("transient", .bool e.isTransient)]

def Store.Error.kind : Store.Error → String
  | .backend _ => "Backend"
  | .serialization _ => "Serialization"
  | .corruption _ => "Corruption"

def Store.Error.toJson (e : Store.Error) : Json :=
  .object [("error", .text e.kind), ("message", .text e.message)]

def Crypto.KeyError.kind : Crypto.KeyError → String
  | .random _ => "Random"
  | .invalidHex _ => "InvalidHex"
  | .invalidLength _ _ => "InvalidLength"

def Crypto.KeyError.toJson (e : Crypto.KeyError) : Json :=
  .object [("error", .text e.kind), ("message", .text e.message)]

/-! ## Faults and outcomes -/

def Fault.toJson (f : Fault) : Json :=
  .object [("error", .text f.code), ("message", .text f.message),
    ("parameters", f.parameters.toJson)]

/-- A value, or the error in its place. -/
def Json.ofExcept {E α : Type} (failure : E → Json) (success : α → Json) : Except E α → Json
  | .ok a => .object [("ok", success a)]
  | .error e => failure e

/-- A value, or the fault in its place. -/
def Json.ofOutcome {α : Type} (success : α → Json) (outcome : Except Fault α) : Json :=
  .ofExcept Fault.toJson success outcome

end LedgerGate
