/-
  Delegates: those who do the work of a request.

  A delegate works on one ledger and asks questions while it does: of the ledger,
  of the directories and of what the gateway knows about the ledger. In the end
  it has a reply, or submitted work whose receipt the reply is about.

  * `Delegate` and the key each one is registered under;
  * `Delegate.Question`, `Delegate.Outcome`;
  * `standardDelegates`: those that every gateway has.
-/
import LedgerGate.Escrow.Record
import LedgerGate.Ledger.Query
import LedgerGate.Reply
import LedgerGate.Routing.Ledgers
import LedgerGate.Store.Directory

namespace LedgerGate

/-- A delegate. All but the answer to pings and those of the embedder work for one
    brand. -/
inductive Delegate where
  | ping
  | blockNumber (brand : Brand)
  | transactionResult (brand : Brand)
  | blockForTime (brand : Brand)
  | submitCall (brand : Brand)
  | escrowIdentity (brand : Brand)
  | custom (key : RouteKey) (reply : LedgerEntry → Option Input → Except Fault (Reply Sequel))

namespace Delegate

instance : Inhabited Delegate := ⟨ping⟩

/-- The key under which a delegate is registered. -/
def key : Delegate → RouteKey
  | ping => ⟨"PING", .ping, .none⟩
  | blockNumber brand => ⟨"UTILITY.GET_BLOCK_NUMBER", .ledgerScope, brand⟩
  | transactionResult brand => ⟨"TX.GET_TRANSACTION_RESULT", .transactionQuery, brand⟩
  | blockForTime brand => ⟨"UTILITY.GET_BLOCK_NUMBER_FOR_TIME", .blockForTime, brand⟩
  | submitCall brand => ⟨"TX.SUBMIT_CALL", .call, brand⟩
  | escrowIdentity brand => ⟨"ESCROW.GET_IDENTITY", .ledgerScope, brand⟩
  | custom key _ => key

/-- The delegates for ledgers of one brand. -/
def forBrand (brand : Brand) : List Delegate :=
  [blockNumber brand, transactionResult brand, blockForTime brand, submitCall brand,
    escrowIdentity brand]

end Delegate

/-- The delegates that every gateway has: one for pings, the others for every brand
    that is a technology. -/
def standardDelegates (brands : List Brand) : List Delegate :=
  .ping :: (brands.filter (· != .none)).flatMap Delegate.forBrand

namespace Delegate

/-! ## At work -/

/-- A question that a delegate asks while it works on a ledger. -/
inductive Question where
  | ledger (q : Ledger.Query)
  | lookup (l : Store.Lookup)
  | recentBlock
  | escrow
  | clock

/-- The answer to a question. -/
abbrev Question.Answer : Question → Type
  | ledger q => q.Answer
  | lookup l => l.Answer
  | recentBlock => Option UInt64
  | escrow => Except Fault Escrow.Identity
  | clock => Timestamp

/-- What comes of the work: a reply, or submitted work to be prepared with the
    latest block known. -/
inductive Outcome where
  | settled (reply : Except Fault (Reply Sequel))
  | submitted (mode : ReplyMode) (workId : WorkId) (recent : Option UInt64)

/-- The work of a delegate. -/
abbrev Work : Type := Dialogue Question.Answer Outcome

/-- Work that is refused. -/
def refused (f : Fault) : Work := .done (.settled (.error f))

/-- Work that ends with an output. -/
def answered (o : Output) : Work := .done (.settled (.ok (.done o)))

/-- The fault of an input that a delegate does not take. -/
def unexpected (expected : Shape) (input : Option Input) : Fault :=
  .invalidInput ("expected " ++ expected.name ++ " input, got " ++ (Input.shapeOf input).name)

/-- Goes on if a requirement is met. -/
def provided (requirement : Except Fault Unit) (work : Work) : Work :=
  match requirement with
  | .ok _ => work
  | .error f => refused f

end Delegate

end LedgerGate
