/-
  Reading typed values out of JSON.

  A record is an object with named fields or a list of its fields in order. In
  an object a known name may stand once, unknown names are passed over, and an
  optional field may be missing; in a list only the fields with a default may be
  missing, and only at the end.

  * `Json.record?` opens a record; `required`, `optional` and `withDefault` read
    its fields;
  * `Json.choice?` reads the name of a case without contents.
-/
import LedgerGate.Json.Basic

namespace LedgerGate.Json

/-! ## Values without parts -/

def bool? : Json → Option Bool
  | .bool b => some b
  | _ => none

def text? : Json → Option String
  | .text s => some s
  | _ => none

/-- An integer between two bounds. -/
def intBetween? (low high : Int) : Json → Option Int
  | .integer n => if low ≤ n ∧ n ≤ high then some n else none
  | _ => none

def uint64? (j : Json) : Option UInt64 :=
  (j.intBetween? 0 (UInt64.size - 1)).map fun n => UInt64.ofNat n.toNat

def uint32? (j : Json) : Option UInt32 :=
  (j.intBetween? 0 (UInt32.size - 1)).map fun n => UInt32.ofNat n.toNat

def uint8? (j : Json) : Option UInt8 :=
  (j.intBetween? 0 (UInt8.size - 1)).map fun n => UInt8.ofNat n.toNat

def int32? (j : Json) : Option Int32 :=
  (j.intBetween? Int32.minValue.toInt Int32.maxValue.toInt).map Int32.ofInt

/-- A list, item by item. -/
def listOf? {α : Type} (read : Json → Option α) : Json → Option (List α)
  | .list xs => xs.mapM read
  | _ => none

/-- A value, or null for none. -/
def orNull? {α : Type} (read : Json → Option α) : Json → Option (Option α)
  | .null => some none
  | j => (read j).map some

/-- The name of a case without contents: a text, or an object whose one field has
    that name and holds null. -/
def choice? : Json → Option String
  | .text s => some s
  | .object [(name, .null)] => some name
  | _ => none

/-- Likewise inside a value that was kept whole before its type was known: the
    field may also hold an empty object. -/
def heldChoice? : Json → Option String
  | .text s => some s
  | .object [(name, .null)] => some name
  | .object [(name, .object [])] => some name
  | _ => none

/-! ## Records -/

/-- The fields of a record. -/
structure Record where
  byPosition : Bool
  fields : List (String × Json)

/-- The value of a field. -/
def Record.find? (r : Record) (name : String) : Option Json :=
  (r.fields.find? (·.1 == name)).map (·.2)

/-- Whether some name stands twice. -/
def repeats : List String → Bool
  | [] => false
  | x :: xs => xs.contains x || repeats xs

/-- Opens a record with the given field names. -/
def record? (names : List String) : Json → Option Record
  | .object fields =>
    let known := fields.filter fun f => names.contains f.1
    if repeats (known.map (·.1)) then none else some ⟨false, known⟩
  | .list items => if items.length ≤ names.length then some ⟨true, names.zip items⟩ else none
  | _ => none

/-- A field that must be there. -/
def Record.required {α : Type} (r : Record) (name : String) (read : Json → Option α) :
    Option α :=
  (r.find? name).bind read

/-- A field that may be null, or missing among named fields. -/
def Record.optional {α : Type} (r : Record) (name : String) (read : Json → Option α) :
    Option (Option α) :=
  match r.find? name with
  | some j => orNull? read j
  | none => if r.byPosition then none else some none

/-- A field that has a value when it is missing. -/
def Record.withDefault {α : Type} (r : Record) (name : String) (read : Json → Option α)
    (value : α) : Option α :=
  match r.find? name with
  | some j => read j
  | none => some value

/-! ## Tagged records -/

/-- The tag of a tagged value and the value without it: an object with one field
    of the tag's name, or a list that starts with it. -/
def tagged? (tagName : String) : Json → Option (String × Json)
  | .object fields =>
    match fields.filter (·.1 == tagName) with
    | [(_, .text tag)] => some (tag, .object (fields.filter (·.1 != tagName)))
    | _ => none
  | .list (.text tag :: items) => some (tag, .list items)
  | _ => none

mutual

/-- Whether every part of a value denotes one; a value that is kept whole before
    its type is known must. -/
def sound : Json → Bool
  | .invalid => false
  | .list xs => soundItems xs
  | .object fs => soundFields fs
  | _ => true

def soundItems : List Json → Bool
  | [] => true
  | x :: xs => sound x && soundItems xs

def soundFields : List (String × Json) → Bool
  | [] => true
  | (_, v) :: fs => sound v && soundFields fs

end

end LedgerGate.Json
