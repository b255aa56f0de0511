/-
  Quantities: whole numbers as `0x` and hexadecimal digits.

  * `Quantity.parse` reads a number of 128 bits, `parseWord` one of 64; after
    `0x` a plus sign is allowed;
  * `Quantity.render` writes without leading zeros.
-/
import LedgerGate.Ledger.Error
import LedgerGate.Text.Hex

namespace LedgerGate.Rpc.Quantity

/-- The digits after `0x`. -/
def digits? (s : String) : Option (List Char) :=
  match s.toList with
  | '0' :: 'x' :: cs => some cs
  | _ => none

/-- A quantity below `2^128`. -/
def parse (s : String) : Except Ledger.Error Nat :=
  match digits? s with
  | none => .error (.malformed ("quantity without 0x prefix: " ++ s))
  | some [] => .error (.malformed "empty quantity")
  | some cs =>
    match Text.readNat 16 (Nat.pow 2 128 - 1) cs with
    | .ok n => .ok n
    | .error e => .error (.malformed ("bad quantity " ++ s ++ ": " ++ e.message))

/-- A quantity below `2^64`. -/
def parseWord (s : String) : Except Ledger.Error UInt64 :=
  match parse s with
  | .error e => .error e
  | .ok n =>
    if n < UInt64.size then .ok (UInt64.ofNat n)
    else .error (.malformed ("quantity out of range: " ++ s))

/-- The text of a quantity. -/
def render (n : UInt64) : String := "0x" ++ Text.hexNat n.toNat

end LedgerGate.Rpc.Quantity
