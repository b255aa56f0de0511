/-
  Failures of a store.
-/
namespace LedgerGate.Store

/-- Why a store did not do what it was asked. -/
inductive Error where
  | backend (text : String)
  | serialization (text : String)
  | corruption (text : String)
  deriving DecidableEq, Repr

def Error.message : Error → String
  | backend text => "store backend failed: " ++ text
  | serialization text => "stored record cannot be decoded: " ++ text
  | corruption text => "inconsistent store: " ++ text

end LedgerGate.Store
