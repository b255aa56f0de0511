/-
  Values that their compact text says everything about.

  * `Plain`: neither doubles nor marks of what denotes no value, and integers that fit 64 bits;
  * `depth`: how deep the containers of a value are nested.
-/
import LedgerGate.Proofs.Json.Integers

namespace LedgerGate.Json

mutual

/-- The text of a value says everything about it. -/
def Plain : Json → Prop
  | .integer n => InRange n
  | .double _ => False
  | .invalid => False
  | .list xs => PlainItems xs
  | .object fs => PlainFields fs
  | _ => True

def PlainItems : List Json → Prop
  | [] => True
  | x :: xs => Plain x ∧ PlainItems xs

def PlainFields : List (String × Json) → Prop
  | [] => True
  | (_, v) :: fs => Plain v ∧ PlainFields fs

end

mutual

/-- How deep the containers of a value are nested. -/
def depth : Json → Nat
  | .list xs => depthItems xs + 1
  | .object fs => depthFields fs + 1
  | _ => 0

def depthItems : List Json → Nat
  | [] => 0
  | x :: xs => max (depth x) (depthItems xs)

def depthFields : List (String × Json) → Nat
  | [] => 0
  | (_, v) :: fs => max (depth v) (depthFields fs)

end

end LedgerGate.Json
