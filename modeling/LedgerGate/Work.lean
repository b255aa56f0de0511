/-
  Units of submitted work: their ids, the wallets they act for, their status and
  their outcome as callers see it.

  * `WalletId.parse`, `WorkStatus.parse`: reading them from text;
  * `TransactionResult`: an outcome, with its JSON form.
-/
import LedgerGate.Bag
import LedgerGate.Text.Integer

namespace LedgerGate

/-- The id of one unit of submitted work, such as a transaction hash. -/
abbrev WorkId := String

/-! ## Wallets -/

/-- The wallet a request acts for, if that means anything. -/
inductive WalletId where
  | notApplicable
  | id (n : Int32)
  deriving DecidableEq, Repr, Inhabited

namespace WalletId

def id? : WalletId → Option Int32
  | notApplicable => none
  | id n => some n

def display : WalletId → String
  | notApplicable => "not-applicable"
  | id n => toString n.toInt

/-- The text that is no wallet id. -/
structure InvalidWalletId where
  text : String
  deriving DecidableEq, Repr

def InvalidWalletId.message (e : InvalidWalletId) : String := "invalid wallet id: " ++ e.text

/-- A wallet id: the words for none, or a signed number of 32 bits. -/
def parse (s : String) : Except InvalidWalletId WalletId :=
  if s = "not-applicable" then .ok .notApplicable
  else
    match Text.readInt (Nat.pow 2 31) (Nat.pow 2 31 - 1) s.toList with
    | .ok n => .ok (.id (Int32.ofInt n))
    | .error _ => .error ⟨s⟩

def toJson : WalletId → Json
  | notApplicable => .text "not-applicable"
  | id n => .object [("id", .integer n.toInt)]

def ofJson? : Json → Option WalletId
  | .object [("id", j)] => j.int32?.map .id
  | j => if j.choice? = some "not-applicable" then some .notApplicable else none

end WalletId

/-! ## Status -/

/-- Where a unit of work stands. -/
inductive WorkStatus where
  | success
  | failure
  | pending
  | unknown
  deriving DecidableEq, Repr, Inhabited

namespace WorkStatus

def all : List WorkStatus := [success, failure, pending, unknown]

def name : WorkStatus → String
  | success => "SUCCESS"
  | failure => "FAILURE"
  | pending => "PENDING"
  | unknown => "UNKNOWN"

/-- Whether nothing more is to come. -/
def isTerminal : WorkStatus → Bool
  | pending => false
  | _ => true

def ofName? (s : String) : Option WorkStatus := all.find? (·.name == s)

/-- The text that is no status. -/
structure InvalidStatus where
  text : String
  deriving DecidableEq, Repr

def InvalidStatus.message (e : InvalidStatus) : String :=
  "invalid transaction status: " ++ e.text

/-- The status of a name in any letter case. -/
def parse (s : String) : Except InvalidStatus WorkStatus :=
  match ofName? s.toUpper with
  | some t => .ok t
  | none => .error ⟨s⟩

def toJson (s : WorkStatus) : Json := .text s.name

end WorkStatus

/-! ## Outcomes -/

/-- The outcome of a unit of work as callers see it. -/
structure TransactionResult where
  workId : WorkId
  block : Option UInt64
  status : WorkStatus
  extra : Bag
  note : Option String
  deriving Inhabited

namespace TransactionResult

def isPending (r : TransactionResult) : Bool := r.status == .pending

/-- Work that was accepted and is not decided; `block` is the latest block known
    when it was. -/
def pending (workId : WorkId) (block : Option UInt64) : TransactionResult :=
  ⟨workId, block, .pending, .empty, none⟩

/-- Work whose outcome cannot be told. -/
def unknown (workId : WorkId) (note : String) : TransactionResult :=
  ⟨workId, none, .unknown, .empty, some note⟩

def fields (r : TransactionResult) : List (String × Json) :=
  [("workId", .text r.workId)] ++
    Json.optional "block" (r.block.map Json.ofUInt64) ++
    [("status", r.status.toJson)] ++
    (if r.extra.isEmpty then [] else [("extra", r.extra.toJson)]) ++
    Json.optional "message" (r.note.map Json.text)

def toJson (r : TransactionResult) : Json := .object r.fields

/-- An outcome out of JSON; `choice` reads the name of a status. -/
def ofJsonWith? (choice : Json → Option String) (j : Json) : Option TransactionResult := do
  let r ← j.record? ["workId", "block", "status", "extra", "message"]
  let workId ← r.required "workId" Json.text?
  let block ← r.withDefault "block" (Json.orNull? Json.uint64?) none
  let status ← r.required "status" fun s => (choice s).bind WorkStatus.ofName?
  let extra ← r.withDefault "extra" Bag.ofJson? .empty
  let note ← r.withDefault "message" (Json.orNull? Json.text?) none
  return ⟨workId, block, status, extra, note⟩

def ofJson? (j : Json) : Option TransactionResult := ofJsonWith? Json.choice? j

end TransactionResult

end LedgerGate
