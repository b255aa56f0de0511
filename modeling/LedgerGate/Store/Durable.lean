/-
  A store on disk: values, addresses and tokens in three tables.

  The tables take keys of 1 to 511 bytes. An empty key is refused by every
  request; a longer one is refused when a value is written under it and is
  otherwise a key that is not there.

  A token is written under its own symbol only.
-/
import LedgerGate.Entries
import LedgerGate.Store.Query
import LedgerGate.Store.Records

namespace LedgerGate.Store

/-- A store on disk. -/
structure Durable where
  values : List (String × String)
  addresses : List (String × AddressRecord)
  tokens : List (String × TokenRecord)
  deriving Inhabited

namespace Durable

def empty : Durable := ⟨[], [], []⟩

/-! ## Keys -/

/-- The longest key in bytes. -/
def keyLimit : Nat := 511

/-- The refusal of a key. -/
def badKey : Error :=
  .backend "MDB_BAD_VALSIZE: Unsupported size of key/DB name/data, or wrong DUPFIXED size"

/-- Looks a key up in a table. -/
def find {α : Type} (table : List (String × α)) (key : String) : Except Error (Option α) :=
  if key.isEmpty then .error badKey else .ok (Entries.find? table key)

/-- Sets the value of a key in a table. -/
def set {α : Type} (table : List (String × α)) (key : String) (value : α) :
    Except Error (List (String × α)) :=
  if key.isEmpty ∨ keyLimit < key.utf8ByteSize then .error badKey
  else .ok (Entries.insert table key value)

/-! ## Values -/

def get (d : Durable) (key : String) : Except Error (Option String) := find d.values key

def put (d : Durable) (key value : String) : Except Error Durable :=
  (set d.values key value).map fun values => { d with values }

/-- Writes a key unless it is there; says whether it did. -/
def putIfAbsent (d : Durable) (key value : String) : Except Error (Bool × Durable) :=
  (find d.values key).bind fun
    | some _ => .ok (false, d)
    | none => (d.put key value).map fun d => (true, d)

def delete (d : Durable) (key : String) : Except Error Durable :=
  if key.isEmpty then .error badKey else .ok { d with values := Entries.erase d.values key }

/-- The answer to a request, and the store after it. -/
def answer (q : Query) (d : Durable) : q.Answer × Durable :=
  match q with
  | .get key => (d.get key, d)
  | .put key value =>
    match d.put key value with
    | .ok next => (.ok (), next)
    | .error e => (.error e, d)
  | .putIfAbsent key value =>
    match d.putIfAbsent key value with
    | .ok (written, next) => (.ok written, next)
    | .error e => (.error e, d)
  | .delete key =>
    match d.delete key with
    | .ok next => (.ok (), next)
    | .error e => (.error e, d)

/-! ## Directories -/

def addressOf (d : Durable) (address : String) : Except Error (Option AddressRecord) :=
  find d.addresses address

def putAddress (d : Durable) (r : AddressRecord) : Except Error Durable :=
  (set d.addresses r.address r).map fun addresses => { d with addresses }

def tokenOf (d : Durable) (symbol : String) : Except Error (Option TokenRecord) :=
  find d.tokens symbol

/-- Writes a token, which must have the symbol it is written under. -/
def putToken (d : Durable) (symbol : String) (r : TokenRecord) : Except Error Durable :=
  if r.symbol = symbol then (set d.tokens symbol r).map fun tokens => { d with tokens }
  else .error (.corruption
    ("token record for '" ++ r.symbol ++ "' stored under '" ++ symbol ++ "'"))

end Durable

end LedgerGate.Store
