/-
  Two ways to learn the outcome of work that is decided: a query that is answered at once, and
  a waiter to whom a scan brings the receipt.

  Both put the failure reason into words and give callers the same fields.  A scan also puts
  the id that was asked about on the receipt; the query leaves the id that the ledger wrote.

  * `run_reportWork`: what a query replies when the ledger has decided;
  * `Tracker.dispatches_confirmation`: whom a scan hands the receipt to;
  * `Delegate.accounts_of`: **the two accounts differ in the id at most, and agree exactly if
    the ledger wrote the id that it was asked about.**
-/
import LedgerGate.Delegate.Standard
import LedgerGate.Gateway.Receipts
import LedgerGate.Ledger.Rehearsal
import LedgerGate.Proofs.Receipt.History

namespace LedgerGate

/-! ## Outcomes -/

/-- Another id on a confirmation is another id on its outcome. -/
theorem Confirmation.result_under (c : Confirmation) (workId : WorkId) :
    ({ c with workId } : Confirmation).result = { c.result with workId } := by
  unfold result
  dsimp only
  split <;> rfl

/-- Putting the reason into words leaves the id. -/
@[simp]
theorem Confirmation.workId_readable (c : Confirmation) : c.readable.workId = c.workId := by
  unfold readable
  split <;> rfl

@[simp]
theorem Confirmation.workId_result (c : Confirmation) : c.result.workId = c.workId := by
  unfold result
  split <;> rfl

/-- A confirmation decides: its outcome is success or failure, as it says. -/
theorem Confirmation.status_result (c : Confirmation) :
    c.result.status = if c.success then .success else .failure := by
  unfold result
  split <;> rfl

@[simp]
theorem Confirmation.isPending_result (c : Confirmation) : c.result.isPending = false := by
  rw [TransactionResult.isPending, status_result]
  split <;> rfl

/-- The outcome of a confirmation is the end of a chain of replies. -/
theorem Reply.result_confirmation {κ : Type} (c : Confirmation) :
    (Reply.result c.result : Except Fault (Reply κ)) = .ok ⟨.transaction c.result, none⟩ := by
  rw [Reply.result, Confirmation.isPending_result]
  rfl

/-! ## The scan -/

/-- A scan hands the receipt of the id it asked about to all who wait for it. -/
theorem Receipt.Tracker.dispatches_confirmation {H : Type} {t : Tracker H} {s : Scan}
    (hs : t.scan = some s) (c : Confirmation) :
    dispatches (t.after (.answer (.ok (some c)))).2 =
      (t.handlersOf s.current).map (·, receipt s.current c) := by
  have hhandlers : t.handlersOf s.current = (Entries.find? t.waiting s.current).getD [] := rfl
  rw [after_confirmation hs, hhandlers, dispatches_append]
  rcases hw : Entries.find? t.waiting s.current with _ | handlers
  · rw [arrive_none (t := (t.untrack s.current).1) (c := receipt s.current c) hw]
    rfl
  · rw [arrive_some (t := (t.untrack s.current).1) (c := receipt s.current c) hw, dispatches_map]
    rfl

/-! ## The query -/

namespace Delegate

variable {σ : Type} {answer : (q : Question) → σ → q.Answer × σ}

/-- A query for work that its ledger has decided is answered at once, with the outcome as the
    ledger wrote it. -/
theorem run_reportWork {l : LedgerEntry} (hl : l.requireClient = .ok ()) {workId : WorkId}
    {c : Confirmation} {s : σ}
    (hanswer : (answer (.ledger (.confirmationOf workId)) s).1 = .ok (some c)) :
    ((reportWork l workId).run answer s).1 =
      .settled (.ok ⟨.transaction c.readable.result, none⟩) := by
  rw [reportWork, hl]
  simp only [provided, lookUp, Dialogue.relay, Dialogue.bind, Dialogue.run]
  rw [hanswer]
  simp only [Dialogue.relay, Dialogue.bind, Dialogue.run, Reply.result_confirmation]

/-- How the outcome of a unit of work is told when its ledger answers with a confirmation. -/
structure Accounts (answer : (q : Question) → σ → q.Answer × σ) (s : σ) (brand : Brand)
    (l : LedgerEntry) (named : Option String) (t : Receipt.Tracker Waiter) (workId : WorkId)
    (c : Confirmation) : Prop where
  /-- A query is answered at once with the outcome of the confirmation, the reason in words. -/
  direct : ((apply (.transactionResult brand) l (some (.transactionQuery named workId))).run
    answer s).1 = .settled (.ok ⟨.transaction c.readable.result, none⟩)
  /-- All who wait for the id get a receipt that carries it. -/
  scanned : Receipt.dispatches (t.after (.answer (.ok (some c)))).2 =
    (t.handlersOf workId).map (·, Receipt.receipt workId c)
  /-- A watcher of the outcome sees that of the receipt. -/
  seen : ∀ {W : Type} (g : Gateway W) (name : String),
    (g.handOver l.id (.watcher name .outcome) (Receipt.receipt workId c)).events =
      g.events.push (.outcomeSeen name (Receipt.receipt workId c).result)
  /-- That outcome is about the id that was asked about; -/
  own : (Receipt.receipt workId c).result.workId = workId
  /-- the direct one is the same but for the id, -/
  same : c.readable.result = { (Receipt.receipt workId c).result with workId := c.workId }
  /-- and quite the same exactly if the ledger wrote the id that it was asked about. -/
  agree : c.readable.result = (Receipt.receipt workId c).result ↔ c.workId = workId

/-- **Two accounts of one decision**, for every confirmation that a ledger answers with. -/
theorem accounts_of (brand : Brand) {l : LedgerEntry} (hl : l.requireClient = .ok ())
    (named : Option String) {t : Receipt.Tracker Waiter} {scan : Receipt.Scan}
    (hscan : t.scan = some scan) {c : Confirmation} {s : σ}
    (hanswer : (answer (.ledger (.confirmationOf scan.current)) s).1 = .ok (some c)) :
    Accounts answer s brand l named t scan.current c := by
  have hresult : (Receipt.receipt scan.current c).result =
      { c.readable.result with workId := scan.current } := Confirmation.result_under _ _
  have hid : c.readable.result.workId = c.workId := by simp
  refine ⟨run_reportWork hl hanswer, Receipt.Tracker.dispatches_confirmation hscan c,
    fun g name => rfl, ?_, ?_, ?_⟩
  · rw [hresult]
  · rw [hresult, ← hid]
  · rw [hresult]
    constructor
    · intro hsame
      exact hid.symm.trans (congrArg TransactionResult.workId hsame)
    · rintro hwork
      rw [← hwork, ← hid]

/-- The answers to a delegate that knows of a ledger in memory, and of nothing else. -/
def rehearsed (q : Question) (r : Ledger.Rehearsal) : q.Answer × Ledger.Rehearsal :=
  match q with
  | .ledger q => r.answer q
  | .lookup l => (Store.Directory.empty.answer l, r)
  | .recentBlock => (none, r)
  | .escrow => (.error (.config "no escrow"), r)
  | .clock => (⟨0⟩, r)

/-- What a ledger answers that writes ids in capital letters. -/
def capital : Confirmation := .succeeded "0xA" 7 .empty

/-- A tracker in the middle of a scan, with somebody who waits. -/
def scanning : Receipt.Tracker Waiter :=
  (Receipt.History.of 16 [.track "0xa", .register "0xa" (.watcher "h" .outcome) false,
    .scan ["0xa"]]).tracker

/-- A ledger writes the id its own way: a query passes that on, a scan does not. -/
theorem accounts_capital :
    ((apply (.transactionResult .besu) ⟨"main", .besu, false⟩
        (some (.transactionQuery none "0xa"))).run rehearsed
        (Ledger.Rehearsal.new.setAnswer "0xa" capital)).1 =
        .settled (.ok ⟨.transaction capital.readable.result, none⟩) ∧
      capital.readable.result.workId = "0xA" ∧
      Receipt.dispatches (scanning.after (.answer (.ok (some capital)))).2 =
        [(.watcher "h" .outcome, Receipt.receipt "0xa" capital)] ∧
      (Receipt.receipt "0xa" capital).result.workId = "0xa" ∧
      capital.readable.result ≠ (Receipt.receipt "0xa" capital).result := by
  have hscan : scanning.scan = some ⟨"0xa", [], 1, 0, 0⟩ := rfl
  have h : Accounts rehearsed (Ledger.Rehearsal.new.setAnswer "0xa" capital) .besu
      ⟨"main", .besu, false⟩ none scanning "0xa" capital :=
    accounts_of .besu rfl none hscan rfl
  refine ⟨h.direct, rfl, h.scanned, h.own, fun hsame => ?_⟩
  exact absurd (h.agree.1 hsame) (by decide)

end Delegate

end LedgerGate
