/-
  What the standard delegates do.

  * `Delegate.apply`: the work of every delegate;
  * `lookUp`: what a ledger knows of a unit of work. Work that it knows and has
    not decided is tracked, work that it has never seen is not.
-/
import LedgerGate.Delegate.Basic
import LedgerGate.Ledger.BlockSearch

namespace LedgerGate.Delegate

/-! ## Blocks -/

/-- Reports the number of the latest block. -/
def reportBlock (l : LedgerEntry) : Work :=
  provided l.requireClient <|
    .ask (.ledger .blockNumber) fun
      | .error e => refused (.ofLedger e)
      | .ok block => answered (.blockNumber l.id block)

/-- The first block of a search for a token: the one that created it, but not the
    block at the very start. -/
def horizon (t : Store.TokenRecord) : UInt64 :=
  let block := t.creationBlock.getD 1
  if block < 1 then 1 else block

/-- Searches for the last block at or before a time, no earlier than the token. -/
def searchBlock (l : LedgerEntry) (t : Store.TokenRecord) (time : Timestamp) : Work :=
  provided l.requireClient <|
    ((Ledger.BlockSearch.onLedger (horizon t) time).relay Question.ledger
      fun _ answer => answer).bind fun
        | .error e => refused (.ofLedger e)
        | .ok block => answered (.blockNumber l.id block)

/-- Searches for a token that is known and complete. -/
def searchForToken (l : LedgerEntry) (symbol : String) (time : Timestamp) : Work :=
  .ask (.lookup (.token symbol)) fun
    | .error e => refused (.ofStore e)
    | .ok none => refused (.unknownToken symbol)
    | .ok (some t) => if t.loading then refused (.unknownToken symbol) else searchBlock l t time

/-! ## Submitted work -/

/-- Submits a call and has its receipt awaited. -/
def submit (l : LedgerEntry) (sender : String) (data : List UInt8) (mode : ReplyMode) : Work :=
  provided l.requireClient <|
    .ask (.ledger (.submit (.invoke sender data))) fun
      | .error e => refused (.ofLedger e)
      | .ok workId =>
        .ask .recentBlock fun recent =>
          provided l.requireTracker (.done (.submitted mode workId recent))

/-- The bytes of call data in hexadecimal, with or without `0x`. -/
def callData (text : String) : Except Fault (List UInt8) :=
  match Text.decodeHex (String.ofList (Crypto.Key.dropMark text.toList)) with
  | .ok data => .ok data
  | .error e => .error (.invalidInput ("call data is not hex: " ++ e.message))

/-- Submits encoded call data. -/
def submitEncoded (l : LedgerEntry) (sender text : String) (mode : ReplyMode) : Work :=
  match callData text with
  | .ok data => submit l sender data mode
  | .error f => refused f

/-- What a ledger knows of a unit of work. -/
inductive Knowledge where
  | decided (c : Confirmation)
  | undecided
  | unseen

/-- Asks a ledger what it knows of a unit of work. -/
def lookUp (workId : WorkId) : Ledger.Conversation (Except Ledger.Error Knowledge) :=
  .ask (.confirmationOf workId) fun
    | .error e => .done (.error e)
    | .ok (some c) => .done (.ok (.decided c))
    | .ok none =>
      .ask (.isKnown workId) fun
        | .error e => .done (.error e)
        | .ok true => .done (.ok .undecided)
        | .ok false => .done (.ok .unseen)

/-- The outcome of work that its ledger has never seen. -/
def unseenResult (workId : WorkId) : TransactionResult :=
  .unknown workId "transaction not known to the ledger"

/-- The outcome of work that its ledger says nothing about because of a fault. -/
def unavailableResult (workId : WorkId) (f : Fault) : TransactionResult :=
  { TransactionResult.unknown workId f.message with
    extra := .ofList [("errorCode", .text f.code), ("error", .text f.message)] }

/-- Reports how a unit of work stands. -/
def reportWork (l : LedgerEntry) (workId : WorkId) : Work :=
  provided l.requireClient <|
    ((lookUp workId).relay Question.ledger fun _ answer => answer).bind fun
      | .ok (.decided c) => .done (.settled (Reply.result c.readable.result))
      | .ok .undecided =>
        .ask .recentBlock fun recent =>
          provided l.requireTracker (.done (.submitted .id workId recent))
      | .ok .unseen => .done (.settled (Reply.result (unseenResult workId)))
      | .error e => .done (.settled (Reply.result (unavailableResult workId (.ofLedger e))))

/-! ## Escrows -/

/-- Reports who the escrow of a ledger is. -/
def reportEscrow (l : LedgerEntry) : Work :=
  provided l.requireEscrow <|
    .ask .escrow fun
      | .error f => refused f
      | .ok i => answered (.escrowIdentity l.id i.contractAddress i.publicKey.toHex)

/-! ## All delegates -/

/-- The work of a delegate on a ledger. -/
def apply (d : Delegate) (l : LedgerEntry) (input : Option Input) : Work :=
  match d, input with
  | ping, some (.ping message) => .ask .clock fun time => answered (.pong message time)
  | ping, _ => refused (unexpected .ping input)
  | blockNumber _, some (.ledgerScope _) => reportBlock l
  | blockNumber _, _ => refused (unexpected .ledgerScope input)
  | transactionResult _, some (.transactionQuery _ workId) => reportWork l workId
  | transactionResult _, _ => refused (unexpected .transactionQuery input)
  | blockForTime _, some (.blockForTime symbol second) => searchForToken l symbol ⟨second⟩
  | blockForTime _, _ => refused (unexpected .blockForTime input)
  | submitCall _, some (.call sender data mode) => submitEncoded l sender data mode
  | submitCall _, _ => refused (unexpected .call input)
  | escrowIdentity _, some (.ledgerScope _) => reportEscrow l
  | escrowIdentity _, _ => refused (unexpected .ledgerScope input)
  | custom _ reply, _ => .done (.settled (reply l input))

end LedgerGate.Delegate
