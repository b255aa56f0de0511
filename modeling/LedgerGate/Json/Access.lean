/-
  Loose access to JSON that people write by hand: what is missing, or of another
  kind, has a standard value.

  * `field` is null for a field that is not there;
  * `asText`, `asNat` and their kin read a value, `textAt`, `natAt` and their kin a
    field.
-/
import LedgerGate.Json.Record

namespace LedgerGate.Json

/-! ## Values -/

/-- The value of a field, null if it is not there. -/
def field (j : Json) (name : String) : Json :=
  match j with
  | .object fs => ((fs.find? (·.1 == name)).map (·.2)).getD .null
  | _ => .null

def isNull : Json → Bool
  | .null => true
  | _ => false

def asText (j : Json) : String := j.text?.getD ""

def asInt : Json → Int
  | .integer n => n
  | _ => 0

def asNat (j : Json) : Nat := j.asInt.toNat

def asWord (j : Json) : UInt64 := UInt64.ofNat j.asNat

def asItems : Json → List Json
  | .list xs => xs
  | _ => []

def asFields : Json → List (String × Json)
  | .object fs => fs
  | _ => []

/-! ## Fields -/

def has (j : Json) (name : String) : Bool := j.asFields.any (·.1 == name)

def textAt (j : Json) (name : String) : String := (j.field name).asText

def intAt (j : Json) (name : String) : Int := (j.field name).asInt

def natAt (j : Json) (name : String) : Nat := (j.field name).asNat

def wordAt (j : Json) (name : String) : UInt64 := (j.field name).asWord

def flagAt (j : Json) (name : String) : Bool := (j.field name).bool?.getD false

def itemsAt (j : Json) (name : String) : List Json := (j.field name).asItems

def fieldsAt (j : Json) (name : String) : List (String × Json) := (j.field name).asFields

/-- A text with a standard of its own. -/
def textAtOr (j : Json) (name standard : String) : String := (j.field name).text?.getD standard

/-- A number with a standard of its own. -/
def natAtOr (j : Json) (name : String) (standard : Nat) : Nat :=
  match j.field name with
  | .integer n => n.toNat
  | _ => standard

end LedgerGate.Json
