/-
  Search for the last block at or before a point in time.

  Block times come from a remote ledger, so the search keeps a bracket of two
  blocks whose times lie around the target and probes where the average block
  rate of the bracket puts the target. Whatever block is proposed, the probe lies
  strictly inside the bracket, so the search ends.

  * `findBlockWith` searches with any rule for proposals, `findBlock` with the
    average rate;
  * `toNat_lt_probe`, `probe_lt_toNat`: a probe lies strictly inside the bracket.
-/
import LedgerGate.Ledger.Query

namespace LedgerGate.Ledger.BlockSearch

/-! ## Questions -/

/-- A question of the search. -/
inductive Probe where
  | latest
  | timeOf (block : UInt64)

/-- The answer to a question of the search. -/
abbrev Probe.Answer : Probe → Type
  | latest => Except Error BlockTime
  | timeOf _ => Except Error Timestamp

/-! ## Proposals -/

/-- A rule that proposes a block for a target inside a bracket. -/
abbrev Proposal : Type := BlockTime → BlockTime → Timestamp → UInt64

/-- The block where the average rate of the bracket puts the target. -/
def averageRate : Proposal := fun low high target =>
  let gap := (high.block - low.block).toFloat
  let gapTime := (high.time.seconds - low.time.seconds).toFloat
  let rate := gap / gapTime
  low.block + (rate * (target.seconds - low.time.seconds).toFloat).toUInt64

/-- The block to probe: the proposal, moved strictly inside the bracket. -/
def probe (propose : Proposal) (low high : BlockTime) (target : Timestamp) : UInt64 :=
  let block := propose low high target
  if block < low.block + 1 then low.block + 1
  else if high.block - 1 < block then high.block - 1
  else block

theorem toNat_lt_probe (propose : Proposal) (low high : BlockTime) (target : Timestamp)
    (h : low.block.toNat + 1 < high.block.toNat) :
    low.block.toNat < (probe propose low high target).toNat := by
  have hh := high.block.toNat_lt
  have h1 : (low.block + 1).toNat = low.block.toNat + 1 := by
    rw [UInt64.toNat_add]; simp; omega
  have h2 : (high.block - 1).toNat = high.block.toNat - 1 := by
    rw [UInt64.toNat_sub_of_le]
    · simp
    · rw [UInt64.le_iff_toNat_le]; simp; omega
  unfold probe
  simp only [UInt64.lt_iff_toNat_lt]
  split
  · omega
  · split <;> omega

theorem probe_lt_toNat (propose : Proposal) (low high : BlockTime) (target : Timestamp)
    (h : low.block.toNat + 1 < high.block.toNat) :
    (probe propose low high target).toNat < high.block.toNat := by
  have hh := high.block.toNat_lt
  have h1 : (low.block + 1).toNat = low.block.toNat + 1 := by
    rw [UInt64.toNat_add]; simp; omega
  have h2 : (high.block - 1).toNat = high.block.toNat - 1 := by
    rw [UInt64.toNat_sub_of_le]
    · simp
    · rw [UInt64.le_iff_toNat_le]; simp; omega
  unfold probe
  simp only [UInt64.lt_iff_toNat_lt]
  split
  · omega
  · split <;> omega

/-! ## Search -/

/-- Narrows a bracket around the target until its blocks are neighbours. -/
def narrow (propose : Proposal) (target : Timestamp) (low high : BlockTime) :
    Dialogue Probe.Answer (Except Error UInt64) :=
  if _h : low.block.toNat + 1 < high.block.toNat then
    let block := probe propose low high target
    .ask (.timeOf block) fun
      | .error e => .done (.error e)
      | .ok time =>
        if target.seconds < time.seconds then narrow propose target low ⟨block, time⟩
        else if time.seconds < target.seconds then narrow propose target ⟨block, time⟩ high
        else .done (.ok block)
  else .done (.ok low.block)
termination_by high.block.toNat - low.block.toNat
decreasing_by
  · have := probe_lt_toNat propose low high target _h
    have := toNat_lt_probe propose low high target _h
    omega
  · have := probe_lt_toNat propose low high target _h
    have := toNat_lt_probe propose low high target _h
    omega

/-- Searches from `horizon` to the latest block. -/
def findBlockWith (propose : Proposal) (horizon : UInt64) (target : Timestamp) :
    Dialogue Probe.Answer (Except Error UInt64) :=
  .ask .latest fun
    | .error e => .done (.error e)
    | .ok high =>
      if high.time.seconds ≤ target.seconds ∨ high.block ≤ horizon then .done (.ok high.block)
      else
        .ask (.timeOf horizon) fun
          | .error e => .done (.error e)
          | .ok time =>
            if target.seconds ≤ time.seconds then .done (.ok horizon)
            else narrow propose target ⟨horizon, time⟩ high

/-- Searches with the average block rate. -/
def findBlock (horizon : UInt64) (target : Timestamp) :
    Dialogue Probe.Answer (Except Error UInt64) :=
  findBlockWith averageRate horizon target

/-! ## Over a ledger -/

/-- The query that a question of the search becomes. -/
def Probe.query : Probe → Query
  | latest => .latestBlock
  | timeOf block => .blockTime block

/-- The answer to a question of the search in the answer to its query. -/
def Probe.answer : (p : Probe) → p.query.Answer → p.Answer
  | latest, a => a
  | timeOf _, a => a.map BlockTime.time

/-- The search as a computation over a ledger. -/
def onLedger (horizon : UInt64) (target : Timestamp) : Conversation (Except Error UInt64) :=
  (findBlock horizon target).relay Probe.query Probe.answer

end LedgerGate.Ledger.BlockSearch
