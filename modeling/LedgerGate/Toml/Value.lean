/-
  Values of TOML documents.

  * `Toml.toJson` and `Toml.ofJson?`: the same data as JSON. JSON has no points in
    time, so one is an object that starts with a reserved field.
-/
import LedgerGate.Entries
import LedgerGate.Json.Record
import LedgerGate.Toml.Moment

namespace LedgerGate

/-- A value. The entries of a table are in the order of the document, or in the order of
    their keys. -/
inductive Toml where
  | text (s : String)
  | integer (n : Int64)
  | double (d : Double)
  | bool (b : Bool)
  | moment (m : Toml.Moment)
  | list (items : List Toml)
  | table (entries : List (String × Toml))
  deriving Inhabited

namespace Toml

/-- The field of the object that stands for a point in time. -/
def momentField : String := "$__toml_private_datetime"

mutual

def toJson : Toml → Json
  | text s => .text s
  | integer n => .integer n.toInt
  | double d => .double d
  | bool b => .bool b
  | moment m => .object [(momentField, .text m.display)]
  | list xs => .list (toJsonItems xs)
  | table es => .object (toJsonFields es)

def toJsonItems : List Toml → List Json
  | [] => []
  | x :: xs => toJson x :: toJsonItems xs

def toJsonFields : List (String × Toml) → List (String × Json)
  | [] => []
  | (k, v) :: es => (k, toJson v) :: toJsonFields es

end

mutual

/-- The value of a JSON value, with the entries of its tables in the order of their
    keys: null has none, and an integer must fit 64 bits with its sign. A key may stand
    once in a table. A `lenient` reader passes over what follows the reserved field. -/
def ofJson? (lenient : Bool) : Json → Option Toml
  | .null => none
  | .bool b => some (.bool b)
  | .integer n =>
    if Int64.minValue.toInt ≤ n ∧ n ≤ Int64.maxValue.toInt then some (.integer (Int64.ofInt n))
    else none
  | .double d => some (.double d)
  | .text s => some (.text s)
  | .list xs => (ofItems? lenient xs).map .list
  | .object fs =>
    match momentIn? lenient fs with
    | some m => m.map .moment
    | none => if Json.repeats (fs.map (·.1)) then none else (ofFields? lenient fs []).map .table
  | .invalid => none

/-- The point in time that the fields of an object stand for, if they do. -/
def momentIn? (lenient : Bool) : List (String × Json) → Option (Option Moment)
  | (k, v) :: rest =>
    if k = momentField then
      match v with
      | .text s => some (if lenient || rest.isEmpty then Moment.parse? s.toList else none)
      | _ => some none
    else none
  | [] => none

def ofItems? (lenient : Bool) : List Json → Option (List Toml)
  | [] => some []
  | x :: xs => (ofJson? lenient x).bind fun v => (ofItems? lenient xs).map (v :: ·)

def ofFields? (lenient : Bool) :
    List (String × Json) → List (String × Toml) → Option (List (String × Toml))
  | [], acc => some acc
  | (k, x) :: fs, acc =>
    (ofJson? lenient x).bind fun v => ofFields? lenient fs (Entries.insert acc k v)

end

/-- The entries of a table in JSON; of two fields with one name the last counts. -/
def tableOfJson? (lenient : Bool) : Json → Option (List (String × Toml))
  | .object fs => ofFields? lenient fs []
  | _ => none

end Toml

end LedgerGate
