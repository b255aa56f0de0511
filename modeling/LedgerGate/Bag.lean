/-
  Bags: named values of seven kinds, carried by confirmations, results, error
  details and request parameters. A bag is open on its names and closed on the
  kinds of its values.

  * `BagValue` and `Bag`, with the getters of each kind;
  * `BagValue.ofUInt64`: a number beyond the signed range is kept as its decimal
    text;
  * `BagValue.ofJson?`, `Bag.ofJson?`, `toJson`: values carry no tag, the kind is
    read off the shape. An integer beyond the signed range becomes a double.
-/
import LedgerGate.Entries
import LedgerGate.Json.Reader
import LedgerGate.Json.Record

namespace LedgerGate

/-- A value in a bag. The entries of a map are in the order of their names. -/
inductive BagValue where
  | null
  | bool (b : Bool)
  | integer (n : Int64)
  | double (d : Double)
  | text (s : String)
  | list (items : List BagValue)
  | map (entries : List (String × BagValue))
  deriving Inhabited

namespace BagValue

/-! ## Getters -/

def text? : BagValue → Option String
  | text s => some s
  | _ => none

def integer? : BagValue → Option Int64
  | integer n => some n
  | _ => none

def bool? : BagValue → Option Bool
  | bool b => some b
  | _ => none

def isNull : BagValue → Bool
  | null => true
  | _ => false

/-! ## Making values -/

/-- An unsigned number: beyond the signed range it is kept as its decimal text. -/
def ofUInt64 (n : UInt64) : BagValue :=
  if n.toNat < Nat.pow 2 63 then .integer (Int64.ofNat n.toNat) else .text (toString n.toNat)

/-- A value, or null for none. -/
def ofOption {α : Type} (f : α → BagValue) : Option α → BagValue
  | some a => f a
  | none => .null

/-! ## JSON -/

/-- The value of an integer: a double beyond the signed range. -/
def ofInt (n : Int) : BagValue :=
  if Int64.minValue.toInt ≤ n ∧ n ≤ Int64.maxValue.toInt then .integer (Int64.ofInt n)
  else .double (Double.ofFloat (UInt64.ofNat n.toNat).toFloat)

mutual

/-- The value of a JSON value; of two fields with one name the last counts. -/
def ofJson? : Json → Option BagValue
  | .null => some .null
  | .bool b => some (.bool b)
  | .integer n => some (ofInt n)
  | .double d => some (.double d)
  | .text s => some (.text s)
  | .list xs => (ofItems? xs).map .list
  | .object fs => (ofFields? fs []).map .map
  | .invalid => none

def ofItems? : List Json → Option (List BagValue)
  | [] => some []
  | x :: xs => (ofJson? x).bind fun v => (ofItems? xs).map (v :: ·)

def ofFields? : List (String × Json) → List (String × BagValue) →
    Option (List (String × BagValue))
  | [], acc => some acc
  | (k, x) :: fs, acc => (ofJson? x).bind fun v => ofFields? fs (Entries.insert acc k v)

end

mutual

def toJson : BagValue → Json
  | null => .null
  | bool b => .bool b
  | integer n => .integer n.toInt
  | double d => .double d
  | text s => .text s
  | list xs => .list (toJsonItems xs)
  | map es => .object (toJsonFields es)

def toJsonItems : List BagValue → List Json
  | [] => []
  | x :: xs => toJson x :: toJsonItems xs

def toJsonFields : List (String × BagValue) → List (String × Json)
  | [] => []
  | (k, v) :: es => (k, toJson v) :: toJsonFields es

end

end BagValue

/-- A bag: entries in the order of their names. -/
structure Bag where
  entries : List (String × BagValue)
  deriving Inhabited

namespace Bag

/-! ## Operations -/

def empty : Bag := ⟨[]⟩

def isEmpty (b : Bag) : Bool := b.entries.isEmpty

def size (b : Bag) : Nat := b.entries.length

def find? (b : Bag) (name : String) : Option BagValue := Entries.find? b.entries name

def insert (b : Bag) (name : String) (value : BagValue) : Bag :=
  ⟨Entries.insert b.entries name value⟩

def erase (b : Bag) (name : String) : Bag := ⟨Entries.erase b.entries name⟩

def contains (b : Bag) (name : String) : Bool := Entries.contains b.entries name

/-- Copies every entry of another bag. -/
def extend (b other : Bag) : Bag := ⟨Entries.extend b.entries other.entries⟩

def text? (b : Bag) (name : String) : Option String := (b.find? name).bind BagValue.text?

def integer? (b : Bag) (name : String) : Option Int64 :=
  (b.find? name).bind BagValue.integer?

def ofList (pairs : List (String × BagValue)) : Bag := ⟨Entries.ofList pairs⟩

/-- Copies one entry of another bag, if it is there. -/
def copy (b : Bag) (source : Bag) (name : String) : Bag :=
  match source.find? name with
  | some v => b.insert name v
  | none => b

/-! ## JSON -/

def ofJson? : Json → Option Bag
  | .object fs => (BagValue.ofFields? fs []).map Bag.mk
  | _ => none

def toJson (b : Bag) : Json := .object (BagValue.toJsonFields b.entries)

end Bag

end LedgerGate
