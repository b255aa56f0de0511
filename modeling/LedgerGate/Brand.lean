/-
  Brands: which distributed-ledger technology a ledger runs on. `none` is no
  technology; what is registered under it serves every brand.

  * `Brand.name` and `Brand.ofName?`: the exact name;
  * `Brand.parse`: the name in any letter case.
-/
import LedgerGate.Json.Record

namespace LedgerGate

/-- A ledger technology. -/
inductive Brand where
  | besu
  | corda
  | daml
  | fabric
  | none
  | setl
  | sync
  deriving DecidableEq, Repr, Inhabited

/-- The id of the ledger that serves public and wallet requests. It is always
    there, has brand `none` and no client. -/
def internalLedger : String := "$INTERNAL$"

namespace Brand

def all : List Brand := [besu, corda, daml, fabric, none, setl, sync]

def name : Brand → String
  | besu => "BESU"
  | corda => "CORDA"
  | daml => "DAML"
  | fabric => "FABRIC"
  | none => "NONE"
  | setl => "SETL"
  | sync => "SYNC"

/-- The place of a brand in the order of brands. -/
def rank : Brand → Nat
  | besu => 0
  | corda => 1
  | daml => 2
  | fabric => 3
  | none => 4
  | setl => 5
  | sync => 6

/-- The brand of an exact name. -/
def ofName? (s : String) : Option Brand := all.find? (·.name == s)

/-- The text that names no brand. -/
structure UnknownBrand where
  text : String
  deriving DecidableEq, Repr

def UnknownBrand.message (e : UnknownBrand) : String := "unknown ledger brand: " ++ e.text

/-- The brand of a name in any letter case; letters beyond ASCII have none. -/
def parse (s : String) : Except UnknownBrand Brand :=
  match all.find? (fun b => b.name.toLower == s.toLower) with
  | some b => .ok b
  | Option.none => .error ⟨s⟩

def toJson (b : Brand) : Json := .text b.name

def ofJson? (j : Json) : Option Brand := j.choice?.bind ofName?

end Brand

end LedgerGate
