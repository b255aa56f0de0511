/-
  Chains whose block times follow a rule: a table of times, or stretches in which
  the time grows evenly.

  * `Chain.timeOf` and `Chain.latestBlock`;
  * `Chain.answer` answers the questions of a search.
-/
import LedgerGate.Ledger.BlockSearch

namespace LedgerGate.Ledger

/-- A stretch of a chain: its first block has the time `start`, and after every
    `every` blocks the time is later by `period`. -/
structure Segment where
  first : Nat
  start : Nat
  period : Nat
  every : Nat

/-- The rule of the block times. -/
inductive BlockTimes where
  | table (first : Nat) (times : List UInt64)
  | segments (stretches : List Segment)

/-- A chain: the rule of its times, its latest block, perhaps with a time of its own,
    and the blocks that cannot be asked about. -/
structure Chain where
  times : BlockTimes
  latest : Except Error (UInt64 × Option UInt64)
  errors : List (Nat × Error)

namespace Chain

/-- The time of a block by the rule, if it has one. -/
def ruled? (t : BlockTimes) (block : Nat) : Option UInt64 :=
  match t with
  | .table first times => if block < first then none else times[block - first]?
  | .segments stretches =>
    ((stretches.filter (·.first ≤ block)).getLast?).map fun s =>
      UInt64.ofNat (s.start + (block - s.first) / s.every * s.period)

def timeOf (c : Chain) (block : UInt64) : Except Error Timestamp :=
  match c.errors.find? (·.1 == block.toNat) with
  | some (_, e) => .error e
  | none =>
    match ruled? c.times block.toNat with
    | some time => .ok ⟨time⟩
    | none => .error (.malformed ("no block " ++ toString block.toNat))

def latestBlock (c : Chain) : Except Error BlockTime :=
  match c.latest with
  | .error e => .error e
  | .ok (block, some time) => .ok ⟨block, ⟨time⟩⟩
  | .ok (block, none) => (c.timeOf block).map fun time => ⟨block, time⟩

def answer (c : Chain) : (p : BlockSearch.Probe) → p.Answer
  | .latest => c.latestBlock
  | .timeOf block => c.timeOf block

end Chain

end LedgerGate.Ledger
