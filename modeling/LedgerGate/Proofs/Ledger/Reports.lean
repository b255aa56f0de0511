/-
  What callers are told of a confirmation.

  The bag of a confirmation is open: a ledger may put anything into it, also under the names
  that callers read.  The outcome takes what it has under two names, and sets one itself, so
  nothing else in the bag is seen, and nothing in it can stand for the block or the reason.

  * `Tells`: the entries of the outcome of a confirmation;
  * `Alike`: confirmations that differ in nothing that is told;
  * `Reports`: what the outcome of a confirmation says, and that it depends on no more;
  * `Receipt.outcome`, `Receipt.Reports`: what comes of the receipt of a node;
  * `reports_of`: **every confirmation and every receipt is reported so.**
-/
import LedgerGate.Proofs.Bag.Integers
import LedgerGate.Proofs.Delegate.Decided
import LedgerGate.Rpc.Wire

namespace LedgerGate

open Entries (Increasing)

/-! ## Bags -/

namespace Bag

theorem find?_insert (b : Bag) (name other : String) (v : BagValue) :
    (b.insert name v).find? other = if other = name then some v else b.find? other := by
  split
  · rename_i hsame
    rw [hsame]
    exact Entries.find?_insert_self _ _ _
  · rename_i hne
    exact Entries.find?_insert_ne _ _ hne

theorem find?_copy (b source : Bag) (name other : String) :
    (b.copy source name).find? other =
      if other = name then (source.find? name).or (b.find? name) else b.find? other := by
  unfold copy
  split
  · rename_i v hv
    rw [find?_insert, hv, Option.some_or]
  · rename_i hnone
    rw [hnone, Option.none_or]
    split
    · rename_i hsame
      rw [hsame]
    · rfl

theorem increasing_copy {b : Bag} (h : Increasing b.entries) (source : Bag) (name : String) :
    Increasing (b.copy source name).entries := by
  unfold copy
  split
  · exact h.insert _ _
  · exact h

/-- Bags in order are the same if every look-up finds the same. -/
theorem ext_find? {b b' : Bag} (h : Increasing b.entries) (h' : Increasing b'.entries)
    (hfind : ∀ name, b.find? name = b'.find? name) : b = b' :=
  congrArg Bag.mk (h.ext h' hfind)

/-- Two entries of a bag, and a third that is set. -/
def picked (source : Bag) (first second last : String) (v : BagValue) : Bag :=
  ((empty.copy source first).copy source second).insert last v

theorem increasing_picked (source : Bag) (first second last : String) (v : BagValue) :
    Increasing (picked source first second last v).entries :=
  (increasing_copy (increasing_copy (b := empty) List.Pairwise.nil _ _) _ _).insert _ _

theorem find?_picked (source : Bag) (first second last : String) (v : BagValue) (name : String) :
    (picked source first second last v).find? name =
      if name = last then some v
      else if name = first ∨ name = second then source.find? name else none := by
  have hempty : ∀ name, empty.find? name = none := fun _ => rfl
  rw [picked, find?_insert]
  split
  · rfl
  · rw [find?_copy, find?_copy, find?_copy, hempty, hempty]
    by_cases hsecond : name = second
    · subst hsecond
      by_cases hfirst : name = first
      · subst hfirst
        simp
      · simp [hfirst]
    · by_cases hfirst : name = first
      · subst hfirst
        simp [hsecond]
      · simp [hfirst, hsecond, hempty]

end Bag

/-! ## Confirmations -/

namespace Confirmation

/-- What callers are told: the entries of an outcome. -/
inductive Tells (c : Confirmation) : String → BagValue → Prop
  /-- the hash of the block, if the ledger gives one -/
  | hash {v : BagValue} : c.extra.find? "blockHash" = some v → Tells c "blockHash" v
  /-- of work that succeeded, the number of the block -/
  | number : c.success = true → Tells c "blockNumber" (.ofUInt64 c.block)
  /-- and the address of a contract, if the ledger gives one; -/
  | contract {v : BagValue} : c.success = true → c.extra.find? "contractAddress" = some v →
      Tells c "contractAddress" v
  /-- of work that failed, why it failed -/
  | reason : c.success = false → Tells c "failureReason" (.text c.failureText)
  /-- and its status, if the ledger gives one. -/
  | status {v : BagValue} : c.success = false → c.extra.find? "status" = some v → Tells c "status" v

/-- Two confirmations are alike in all that callers are told. -/
structure Alike (c d : Confirmation) : Prop where
  success : c.success = d.success
  workId : c.workId = d.workId
  block : c.block = d.block
  hash : c.extra.find? "blockHash" = d.extra.find? "blockHash"
  contract : c.success = true →
    c.extra.find? "contractAddress" = d.extra.find? "contractAddress"
  reason : c.success = false → c.failureText = d.failureText
  status : c.success = false → c.extra.find? "status" = d.extra.find? "status"

theorem Alike.symm {c d : Confirmation} (h : Alike c d) : Alike d c where
  success := h.success.symm
  workId := h.workId.symm
  block := h.block.symm
  hash := h.hash.symm
  contract hd := (h.contract (h.success.trans hd)).symm
  reason hd := (h.reason (h.success.trans hd)).symm
  status hd := (h.status (h.success.trans hd)).symm

theorem Alike.tells {c d : Confirmation} (h : Alike c d) {name : String} {v : BagValue}
    (hc : c.Tells name v) : d.Tells name v := by
  cases hc with
  | hash hv => exact .hash (h.hash ▸ hv)
  | number hs =>
    rw [h.block]
    exact .number (h.success ▸ hs)
  | contract hs hv => exact .contract (h.success ▸ hs) (h.contract hs ▸ hv)
  | reason hs =>
    rw [h.reason hs]
    exact .reason (h.success ▸ hs)
  | status hs hv => exact .status (h.success ▸ hs) (h.status hs ▸ hv)

variable {c d : Confirmation}

/-! ### Outcomes -/

theorem result_of_success (h : c.success = true) : c.result = ⟨c.workId, some c.block, .success,
    .picked c.extra "blockHash" "contractAddress" "blockNumber" (.ofUInt64 c.block), none⟩ := by
  rw [result, if_pos h]
  rfl

theorem result_of_failure (h : c.success = false) : c.result = ⟨c.workId, some c.block, .failure,
    .picked c.extra "blockHash" "status" "failureReason" (.text c.failureText),
    some c.failureText⟩ := by
  rw [result, if_neg (by simp [h])]
  rfl

theorem block_result (c : Confirmation) : c.result.block = some c.block := by
  rw [result]
  split <;> rfl

theorem note_result (c : Confirmation) :
    c.result.note = if c.success then none else some c.failureText := by
  rw [result]
  split <;> rfl

theorem increasing_result (c : Confirmation) : Increasing c.result.extra.entries := by
  cases hs : c.success with
  | true =>
    rw [result_of_success hs]
    exact Bag.increasing_picked _ _ _ _ _
  | false =>
    rw [result_of_failure hs]
    exact Bag.increasing_picked _ _ _ _ _

/-- Under a name that is copied, callers find what the ledger has there, -/
theorem find?_result_hash (c : Confirmation) :
    c.result.extra.find? "blockHash" = c.extra.find? "blockHash" := by
  cases hs : c.success with
  | true => rw [result_of_success hs, Bag.find?_picked, if_neg (by decide), if_pos (.inl rfl)]
  | false => rw [result_of_failure hs, Bag.find?_picked, if_neg (by decide), if_pos (.inl rfl)]

theorem find?_result_contract (h : c.success = true) :
    c.result.extra.find? "contractAddress" = c.extra.find? "contractAddress" := by
  rw [result_of_success h, Bag.find?_picked, if_neg (by decide), if_pos (.inr rfl)]

theorem find?_result_status (h : c.success = false) :
    c.result.extra.find? "status" = c.extra.find? "status" := by
  rw [result_of_failure h, Bag.find?_picked, if_neg (by decide), if_pos (.inr rfl)]

/-- and under the one that is set the block, if the work succeeded. -/
theorem find?_result_number (c : Confirmation) : c.result.extra.find? "blockNumber" =
    if c.success then some (.ofUInt64 c.block) else none := by
  cases hs : c.success with
  | true => rw [result_of_success hs, Bag.find?_picked, if_pos rfl, if_pos rfl]
  | false =>
    rw [result_of_failure hs, Bag.find?_picked, if_neg (by decide), if_neg (by decide),
      if_neg Bool.false_ne_true]

/-- **The entries of an outcome are what callers are told.** -/
theorem find?_result {name : String} {v : BagValue} :
    c.result.extra.find? name = some v ↔ c.Tells name v := by
  constructor
  · intro h
    cases hs : c.success with
    | true =>
      rw [result_of_success hs, Bag.find?_picked] at h
      split at h
      · rename_i hname
        cases h
        exact hname ▸ .number hs
      · split at h
        · rename_i hname
          rcases hname with rfl | rfl
          · exact .hash h
          · exact .contract hs h
        · cases h
    | false =>
      rw [result_of_failure hs, Bag.find?_picked] at h
      split at h
      · rename_i hname
        cases h
        exact hname ▸ .reason hs
      · split at h
        · rename_i hname
          rcases hname with rfl | rfl
          · exact .hash h
          · exact .status hs h
        · cases h
  · intro h
    cases h with
    | hash hv => rw [find?_result_hash, hv]
    | number hs => rw [find?_result_number, if_pos hs]
    | contract hs hv => rw [find?_result_contract hs, hv]
    | reason hs => rw [result_of_failure hs, Bag.find?_picked, if_pos rfl]
    | status hs hv => rw [find?_result_status hs, hv]

/-- **Outcomes are the same exactly if the confirmations are alike.** -/
theorem result_eq_iff : c.result = d.result ↔ c.Alike d := by
  constructor
  · intro h
    have hstatus := congrArg TransactionResult.status h
    rw [status_result, status_result] at hstatus
    have hsuccess : c.success = d.success := by
      cases hc : c.success <;> cases hd : d.success <;> simp [hc, hd] at hstatus ⊢
    refine ⟨hsuccess, ?_, ?_, ?_, fun hc => ?_, fun hc => ?_, fun hc => ?_⟩
    · rw [← workId_result, h, workId_result]
    · exact Option.some.inj (by rw [← block_result, h, block_result])
    · rw [← find?_result_hash, h, find?_result_hash]
    · rw [← find?_result_contract hc, h, find?_result_contract (hsuccess ▸ hc)]
    · have hnote := congrArg TransactionResult.note h
      rw [note_result, note_result, ← hsuccess, hc] at hnote
      exact Option.some.inj hnote
    · rw [← find?_result_status hc, h, find?_result_status (hsuccess ▸ hc)]
  · intro h
    have hextra : c.result.extra = d.result.extra := by
      refine Bag.ext_find? (increasing_result c) (increasing_result d) fun name =>
        Option.ext fun v => ?_
      rw [find?_result, find?_result]
      exact ⟨h.tells, h.symm.tells⟩
    have hnote : c.result.note = d.result.note := by
      rw [note_result, note_result, ← h.success]
      split
      · rfl
      · rename_i hs
        rw [h.reason (by simpa using hs)]
    have hstatus : c.result.status = d.result.status := by
      rw [status_result, status_result, h.success]
    have hworkId : c.result.workId = d.result.workId := by
      rw [workId_result, workId_result, h.workId]
    have hblock : c.result.block = d.result.block := by
      rw [block_result, block_result, h.block]
    show (⟨c.result.workId, c.result.block, c.result.status, c.result.extra, c.result.note⟩ :
      TransactionResult) = d.result
    rw [hworkId, hblock, hstatus, hextra, hnote]

/-- What the outcome of a confirmation says. -/
structure Reports (c : Confirmation) : Prop where
  /-- It says that the work has succeeded or failed, and nothing more is to come. -/
  status : c.result.status = if c.success then .success else .failure
  terminal : c.result.status.isTerminal = true
  workId : c.result.workId = c.workId
  block : c.result.block = some c.block
  /-- Its entries are what callers are told, each under one name, -/
  entries : ∀ name v, (name, v) ∈ c.result.extra.entries ↔ c.Tells name v
  names : Increasing c.result.extra.entries
  /-- the number of the block is the number it has, however large, -/
  number : ∀ v, ("blockNumber", v) ∈ c.result.extra.entries → v.Holds c.block.toNat
  /-- and why it failed is what its message says. -/
  message : c.result.note = if c.success then none else some c.failureText
  /-- It is the outcome of the confirmations that are alike, whatever else is in their bags. -/
  depends : ∀ d : Confirmation, c.result = d.result ↔ c.Alike d

/-- An encoded reason is put into words, any other is kept. -/
def words (raw : String) : String := (Ledger.Revert.decode? raw).getD raw

theorem readable_eq (c : Confirmation) : c.readable = { c with reason := c.reason.map words } := by
  obtain ⟨workId, success, block, reason, extra⟩ := c
  rcases reason with _ | raw
  · rfl
  · rcases hdecode : Ledger.Revert.decode? raw with _ | text
    · simp [readable, words, hdecode]
    · simp [readable, words, hdecode]

end Confirmation

/-! ## Receipts -/

namespace Rpc.Receipt

/-- Why callers are told that a transaction failed: in words where the node gives a code. -/
def failureText (r : Receipt) : String :=
  match r.revertReason with
  | some raw => Confirmation.words raw
  | none => "transaction failed"

/-- What callers are told of the transaction of a receipt in some block; what the node leaves
    out is null. -/
def outcome (r : Receipt) (block : UInt64) : TransactionResult :=
  let text := BagValue.ofOption BagValue.text
  if r.isSuccess then
    ⟨r.transactionHash, some block, .success, ⟨[("blockHash", text r.blockHash),
      ("blockNumber", .ofUInt64 block), ("contractAddress", text r.contractAddress)]⟩, none⟩
  else
    ⟨r.transactionHash, some block, .failure, ⟨[("blockHash", text r.blockHash),
      ("failureReason", .text r.failureText), ("status", text r.status)]⟩, some r.failureText⟩

variable {r : Receipt} {block : UInt64}

/-- Of the bag of a receipt of success callers get three entries, -/
theorem picked_of_success (hs : r.isSuccess = true) (v : BagValue) :
    (r.extra block).picked "blockHash" "contractAddress" "blockNumber" v =
      ⟨[("blockHash", .ofOption .text r.blockHash), ("blockNumber", v),
        ("contractAddress", .ofOption .text r.contractAddress)]⟩ := by
  rw [extra, if_pos hs]
  simp only [Bag.ofList, Entries.ofList, List.foldl_cons, List.foldl_nil]
  rfl

/-- and of the bag of any other three too. -/
theorem picked_of_failure (hs : ¬r.isSuccess = true) (v : BagValue) :
    (r.extra block).picked "blockHash" "status" "failureReason" v =
      ⟨[("blockHash", .ofOption .text r.blockHash), ("failureReason", v),
        ("status", .ofOption .text r.status)]⟩ := by
  rw [extra, if_neg hs]
  simp only [Bag.ofList, Entries.ofList, List.foldl_cons, List.foldl_nil]
  rfl

section
variable (h : Quantity.parseWord r.blockNumber = .ok block)
include h

/-- A receipt of success confirms just that, -/
theorem confirmation_of_success (hs : r.isSuccess = true) :
    r.confirmation = .ok ⟨r.transactionHash, true, block, none, r.extra block⟩ := by
  rw [confirmation, h, hs]
  rfl

/-- and any other a failure. -/
theorem confirmation_of_failure (hs : r.isSuccess = false) :
    r.confirmation = .ok ⟨r.transactionHash, false, block, r.revertReason, r.extra block⟩ := by
  rw [confirmation, h, hs]
  rfl

/-- **What callers are told of a transaction, they are told from its receipt.** -/
theorem exists_confirmation : ∃ c, r.confirmation = .ok c ∧ c.readable.result = r.outcome block := by
  cases hs : r.isSuccess with
  | true =>
    refine ⟨_, confirmation_of_success h hs, ?_⟩
    rw [Confirmation.readable_eq, Confirmation.result_of_success rfl, outcome, if_pos hs]
    simp only [picked_of_success hs]
  | false =>
    have hnot : ¬r.isSuccess = true := by simp [hs]
    have htext : (r.revertReason.map Confirmation.words).getD "transaction failed" =
        r.failureText := by
      unfold failureText
      cases r.revertReason <;> rfl
    refine ⟨_, confirmation_of_failure h hs, ?_⟩
    rw [Confirmation.readable_eq, Confirmation.result_of_failure rfl, outcome, if_neg hnot,
      Confirmation.failureText, htext]
    simp only [picked_of_failure hnot]

end

/-- What comes of a receipt. -/
structure Reports (r : Receipt) : Prop where
  /-- With a block that can be read, it is confirmed and reported with that block, and in case
      of failure with the reason in words; -/
  readable : ∀ block, Quantity.parseWord r.blockNumber = .ok block →
    ∃ c, r.confirmation = .ok c ∧ c.readable.result = r.outcome block
  /-- without one, it confirms nothing. -/
  unreadable : ∀ e, Quantity.parseWord r.blockNumber = .error e → r.confirmation = .error e

end Rpc.Receipt

/-- **Every confirmation and every receipt is reported so.** -/
theorem reports_of (c : Confirmation) (r : Rpc.Receipt) : c.Reports ∧ r.Reports := by
  constructor
  · exact {
      status := c.status_result
      terminal := by
        rw [c.status_result]
        split <;> rfl
      workId := c.workId_result
      block := c.block_result
      entries := fun name v => by
        rw [← c.increasing_result.find?_eq_some_iff]
        exact Confirmation.find?_result
      names := c.increasing_result
      number := fun v hv => by
        have hfind : c.result.extra.find? "blockNumber" = some v :=
          c.increasing_result.find?_eq_some_iff.2 hv
        rw [Confirmation.find?_result_number] at hfind
        split at hfind <;> cases hfind
        exact BagValue.holds_ofUInt64 c.block
      message := c.note_result
      depends := fun _ => Confirmation.result_eq_iff }
  · refine ⟨fun block h => Rpc.Receipt.exists_confirmation h, fun e h => ?_⟩
    rw [Rpc.Receipt.confirmation, h]
    rfl

end LedgerGate
