/-
  A store of texts in memory.

  It counts the writes that took place, deletions aside, and its requests can be
  made to fail. A rival writer may come first with a value of its own whenever a
  key is to be written only if it is absent.
-/
import LedgerGate.Entries
import LedgerGate.Store.Query

namespace LedgerGate.Store

/-- A kind of request. -/
inductive Method where
  | get
  | put
  | putIfAbsent
  | delete
  deriving DecidableEq

/-- A store in memory. -/
structure Memory where
  values : List (String × String)
  writes : Nat
  readsFail : Bool
  failures : List (Method × Error)
  rival : Option String
  deriving Inhabited

namespace Memory

def empty : Memory := ⟨[], 0, false, [], none⟩

/-- Makes a kind of request fail with an error, or stops that. -/
def setFailure (m : Memory) (method : Method) (e : Option Error) : Memory :=
  let others := m.failures.filter (·.1 != method)
  { m with failures := match e with
    | some e => (method, e) :: others
    | none => others }

/-- The error that a kind of request was made to fail with. -/
def failure? (m : Memory) (method : Method) : Option Error :=
  (m.failures.find? (·.1 == method)).map (·.2)

/-- Sets a value, which counts as a write. -/
def write (m : Memory) (key value : String) : Memory :=
  { m with values := Entries.insert m.values key value, writes := m.writes + 1 }

/-- Writes a key unless it is there; says whether it did. -/
def writeIfAbsent (m : Memory) (key value : String) : Bool × Memory :=
  if Entries.contains m.values key then (false, m) else (true, m.write key value)

def erase (m : Memory) (key : String) : Memory :=
  { m with values := Entries.erase m.values key }

/-- What a read finds, made to fail or not. -/
def read (m : Memory) (key : String) : Except Error (Option String) :=
  if m.readsFail then .error (.backend "simulated read failure")
  else .ok (Entries.find? m.values key)

/-- The store once the rival has come first. -/
def overtaken (m : Memory) (key : String) : Memory :=
  match m.rival with
  | some value => (m.writeIfAbsent key value).2
  | none => m

/-- The answer to a request, and the store after it. -/
def answer (q : Query) (m : Memory) : q.Answer × Memory :=
  match q with
  | .get key =>
    match m.failure? .get with
    | some e => (.error e, m)
    | none => (m.read key, m)
  | .put key value =>
    match m.failure? .put with
    | some e => (.error e, m)
    | none => (.ok (), m.write key value)
  | .putIfAbsent key value =>
    match m.failure? .putIfAbsent with
    | some e => (.error e, m)
    | none =>
      let written := (m.overtaken key).writeIfAbsent key value
      (.ok written.1, written.2)
  | .delete key =>
    match m.failure? .delete with
    | some e => (.error e, m)
    | none => (.ok (), m.erase key)

end Memory

end LedgerGate.Store
