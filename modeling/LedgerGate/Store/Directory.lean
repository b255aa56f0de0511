/-
  Directories: which addresses and tokens are known.

  * `Lookup` and its answers: the interface to the directories;
  * `Directory`: both in memory; a lookup can be made to fail.
-/
import LedgerGate.Dialogue
import LedgerGate.Entries
import LedgerGate.Store.Error
import LedgerGate.Store.Records

namespace LedgerGate.Store

/-- A question to the directories. -/
inductive Lookup where
  | address (address : String)
  | token (symbol : String)
  deriving DecidableEq, Repr

/-- The answer to a question; nothing if the name is not known. -/
abbrev Lookup.Answer : Lookup → Type
  | address _ => Except Error (Option AddressRecord)
  | token _ => Except Error (Option TokenRecord)

/-- A computation over the directories. -/
abbrev Inquiry (α : Type) : Type := Dialogue Lookup.Answer α

/-- The directories in memory. A record is found under the name it was put under. -/
structure Directory where
  addresses : List (String × AddressRecord)
  tokens : List (String × TokenRecord)
  failures : List (Lookup × Error)
  deriving Inhabited

namespace Directory

def empty : Directory := ⟨[], [], []⟩

def putAddress (d : Directory) (r : AddressRecord) : Directory :=
  { d with addresses := Entries.insert d.addresses r.address r }

def putToken (d : Directory) (symbol : String) (r : TokenRecord) : Directory :=
  { d with tokens := Entries.insert d.tokens symbol r }

/-- The error that a lookup was made to fail with. -/
def failure? (d : Directory) (l : Lookup) : Option Error :=
  (d.failures.find? (·.1 == l)).map (·.2)

def answer (d : Directory) (l : Lookup) : l.Answer :=
  match l with
  | .address a =>
    match d.failure? (.address a) with
    | some e => .error e
    | none => .ok (Entries.find? d.addresses a)
  | .token s =>
    match d.failure? (.token s) with
    | some e => .error e
    | none => .ok (Entries.find? d.tokens s)

end Directory

end LedgerGate.Store
