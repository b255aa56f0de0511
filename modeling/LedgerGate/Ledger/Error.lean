/-
  Failures of a ledger as its client sees them.
-/
namespace LedgerGate.Ledger

/-- Why a ledger gave no answer. -/
inductive Error where
  | transport (text : String)
  | rejected (code : Int64) (text : String)
  | unsupported (text : String)
  | malformed (text : String)
  deriving DecidableEq

namespace Error

def message : Error → String
  | transport text => "transport error: " ++ text
  | rejected code text =>
    "ledger rejected request (" ++ toString code.toInt ++ "): " ++ text
  | unsupported text => "operation not supported by this ledger client: " ++ text
  | malformed text => "malformed ledger response: " ++ text

/-- Whether asking again later may help. -/
def isTransient : Error → Bool
  | transport _ => true
  | rejected _ _ => true
  | _ => false

end Error

end LedgerGate.Ledger
