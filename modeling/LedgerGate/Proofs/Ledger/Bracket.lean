/-
  The bracket of a search: what keeps it sound when nothing can be said of the answers.

  The times of blocks may be in any order, the answers may fail, and any rule may propose the
  next block.  Between two questions a search has a bracket of two blocks whose times lie around
  the target; whatever is answered, the next bracket lies strictly inside.

  * `Bracket`, `Bracket.probe?`: a bracket, and its next probe in arithmetic that is checked;
  * `Closing`: the brackets of a search, from the first to the one after some exchanges;
  * `Stands`: all that a search can be after some exchanges (`stands_of`);
  * `Bracket.Holds`, `Kept`: what is so of every bracket (`kept_of`);
  * `Hunts`, `closes_of`: **every search is sound and ends**, against any answers.
-/
import LedgerGate.Ledger.BlockSearch
import LedgerGate.Proofs.Dialogue.Exchanges
import LedgerGate.Proofs.Ledger.BlockSearch
import Mathlib.Algebra.Ring.Nat

namespace LedgerGate.Ledger.BlockSearch

open Dialogue (Exchange)

/-! ## Brackets -/

/-- Two blocks with their times. -/
structure Bracket where
  low : BlockTime
  high : BlockTime

/-- A difference that must not be negative. -/
def minus? (a b : UInt64) : Option UInt64 := if b ≤ a then some (a - b) else none

/-- A sum that must not be too large. -/
def plus? (a b : UInt64) : Option UInt64 :=
  if a.toNat + b.toNat < 2 ^ 64 then some (a + b) else none

theorem minus?_of_le {a b : UInt64} (h : b ≤ a) : minus? a b = some (a - b) := if_pos h

theorem plus?_of_lt {a b : UInt64} (h : a.toNat + b.toNat < 2 ^ 64) : plus? a b = some (a + b) :=
  if_pos h

/-- A block moved between two others, which must not cross. -/
def clamp? (block first last : UInt64) : Option UInt64 :=
  if first ≤ last then
    some (if block < first then first else if last < block then last else block)
  else none

namespace Bracket

/-- Whether there is a block to probe between the two. -/
def IsWide (b : Bracket) : Prop := b.low.block.toNat + 1 < b.high.block.toNat

/-- The next block to probe. -/
def probe (b : Bracket) (propose : Proposal) (target : Timestamp) : UInt64 :=
  BlockSearch.probe propose b.low b.high target

/-- The next block to probe if all arithmetic on the way is defined: no difference of blocks or
    times is negative, the bracket does take time, and the limits of the probe do not cross. -/
def probe? (b : Bracket) (propose : Proposal) (target : Timestamp) : Option UInt64 := do
  let _gap ← minus? b.high.block b.low.block
  let gapTime ← minus? b.high.time.seconds b.low.time.seconds
  let _elapsed ← minus? target.seconds b.low.time.seconds
  let first ← plus? b.low.block 1
  let last ← minus? b.high.block 1
  if gapTime = 0 then none else clamp? (propose b.low b.high target) first last

/-- A bracket lies around the target, between the horizon and the latest block. -/
structure Holds (b : Bracket) (horizon latest : UInt64) (target : Timestamp) : Prop where
  horizon_le : horizon ≤ b.low.block
  block_lt : b.low.block < b.high.block
  le_latest : b.high.block ≤ latest
  before : b.low.time.seconds < target.seconds
  after : target.seconds < b.high.time.seconds

variable {b : Bracket} {horizon latest : UInt64} {target : Timestamp}

/-- In a bracket the difference of the blocks says whether there is a block between them. -/
theorem Holds.isWide_iff (h : b.Holds horizon latest target) :
    1 < b.high.block - b.low.block ↔ b.IsWide := by
  have hle : b.low.block ≤ b.high.block := UInt64.le_of_lt h.block_lt
  rw [UInt64.lt_iff_toNat_lt, UInt64.toNat_sub_of_le _ _ hle, UInt64.toNat_one, IsWide]
  omega

/-- **All arithmetic on the way to a probe is defined.** -/
theorem Holds.probe?_eq (h : b.Holds horizon latest target) (hwide : b.IsWide)
    (propose : Proposal) : b.probe? propose target = some (b.probe propose target) := by
  have hhigh := b.high.block.toNat_lt
  have hblocks : b.low.block ≤ b.high.block := UInt64.le_of_lt h.block_lt
  have htimes : b.low.time.seconds < b.high.time.seconds := UInt64.lt_trans h.before h.after
  have hgapTime : b.high.time.seconds - b.low.time.seconds ≠ 0 := by
    intro hzero
    have hzero := congrArg UInt64.toNat hzero
    rw [UInt64.toNat_sub_of_le _ _ (UInt64.le_of_lt htimes)] at hzero
    rw [UInt64.lt_iff_toNat_lt] at htimes
    simp only [UInt64.toNat_zero] at hzero
    omega
  unfold IsWide at hwide
  have hfirst : b.low.block.toNat + (1 : UInt64).toNat < 2 ^ 64 := by
    rw [UInt64.toNat_one]
    omega
  have hone : 1 ≤ b.high.block := by
    rw [UInt64.le_iff_toNat_le, UInt64.toNat_one]
    omega
  have hcross : b.low.block + 1 ≤ b.high.block - 1 := by
    rw [UInt64.le_iff_toNat_le, Stretch.toNat_succ h.block_lt, UInt64.toNat_sub_of_le _ _ hone,
      UInt64.toNat_one]
    omega
  rw [probe?, minus?_of_le hblocks, minus?_of_le (UInt64.le_of_lt htimes),
    minus?_of_le (UInt64.le_of_lt h.before), plus?_of_lt hfirst, minus?_of_le hone]
  simp only [Option.bind_eq_bind, Option.bind_some]
  rw [if_neg hgapTime, clamp?, if_pos hcross]
  rfl

/-- A probe lies strictly inside the bracket. -/
theorem probe_mem (hwide : b.IsWide) (propose : Proposal) (target : Timestamp) :
    b.low.block < b.probe propose target ∧ b.probe propose target < b.high.block := by
  rw [UInt64.lt_iff_toNat_lt, UInt64.lt_iff_toNat_lt]
  exact ⟨toNat_lt_probe propose b.low b.high target hwide,
    probe_lt_toNat propose b.low b.high target hwide⟩

/-- A probe that is later than the target is the next upper end. -/
theorem Holds.lowered (h : b.Holds horizon latest target) (hwide : b.IsWide) (propose : Proposal)
    {time : Timestamp} (hafter : target.seconds < time.seconds) :
    (Bracket.mk b.low ⟨b.probe propose target, time⟩).Holds horizon latest target := by
  obtain ⟨hlow, hhigh⟩ := probe_mem hwide propose target
  exact ⟨h.horizon_le, hlow, UInt64.le_trans (UInt64.le_of_lt hhigh) h.le_latest, h.before, hafter⟩

/-- A probe that is earlier than the target is the next lower end. -/
theorem Holds.raised (h : b.Holds horizon latest target) (hwide : b.IsWide) (propose : Proposal)
    {time : Timestamp} (hbefore : time.seconds < target.seconds) :
    (Bracket.mk ⟨b.probe propose target, time⟩ b.high).Holds horizon latest target := by
  obtain ⟨hlow, hhigh⟩ := probe_mem hwide propose target
  exact ⟨UInt64.le_trans h.horizon_le (UInt64.le_of_lt hlow), hhigh, h.le_latest, hbefore, h.after⟩

/-- A bracket that is not wide has nothing between its ends. -/
theorem Holds.next (h : b.Holds horizon latest target) (hnarrow : ¬b.IsWide) :
    b.low.block + 1 = b.high.block := by
  have hless := UInt64.lt_iff_toNat_lt.1 h.block_lt
  unfold IsWide at hnarrow
  rw [← UInt64.toNat_inj, Stretch.toNat_succ h.block_lt]
  omega

end Bracket

/-! ## Exchanges of a search -/

/-- The answer to a question about a block's time. -/
abbrev timed (block : UInt64) (answer : Except Error Timestamp) : Exchange Probe.Answer :=
  ⟨.timeOf block, answer⟩

/-- The answer to the question about the latest block. -/
abbrev tip (answer : Except Error BlockTime) : Exchange Probe.Answer := ⟨.latest, answer⟩

/-- The block whose time a question is about. -/
def Probe.block? : Probe → Option UInt64
  | latest => none
  | timeOf block => some block

/-- The blocks whose times were asked for, in order. -/
def probed (exchanges : List (Exchange Probe.Answer)) : List UInt64 :=
  exchanges.filterMap fun x => x.1.block?

/-- A block's time was told, as that of the latest block or in answer to a question about it. -/
def Told (exchanges : List (Exchange Probe.Answer)) (b : BlockTime) : Prop :=
  tip (.ok b) ∈ exchanges ∨ timed b.block (.ok b.time) ∈ exchanges

/-- The error that was the answer to a question. -/
def failure? : Exchange Probe.Answer → Option Error
  | ⟨.latest, .error e⟩ | ⟨.timeOf _, .error e⟩ => some e
  | ⟨.latest, .ok _⟩ | ⟨.timeOf _, .ok _⟩ => none

section
variable {exchanges : List (Exchange Probe.Answer)}

@[simp]
theorem probed_snoc (block : UInt64) (answer : Except Error Timestamp) :
    probed (exchanges ++ [timed block answer]) = probed exchanges ++ [block] := by
  simp [probed, Probe.block?]

theorem Told.snoc {b : BlockTime} (h : Told exchanges b) (x : Exchange Probe.Answer) :
    Told (exchanges ++ [x]) b := by
  rcases h with h | h
  · exact Or.inl (List.mem_append_left _ h)
  · exact Or.inr (List.mem_append_left _ h)

theorem told_last (block : UInt64) (time : Timestamp) :
    Told (exchanges ++ [timed block (.ok time)]) ⟨block, time⟩ :=
  Or.inr (List.mem_append_right _ (List.mem_singleton_self _))

end

/-! ## Searches, cut anywhere -/

/-- The brackets of a search, with the exchanges that led to them. -/
inductive Closing (propose : Proposal) (horizon : UInt64) (target : Timestamp) :
    List (Exchange Probe.Answer) → Bracket → Prop
  | opened {high : BlockTime} {time : Timestamp} (hafter : target.seconds < high.time.seconds)
      (hspan : horizon < high.block) (hbefore : time.seconds < target.seconds) :
      Closing propose horizon target [tip (.ok high), timed horizon (.ok time)]
        ⟨⟨horizon, time⟩, high⟩
  | lowered {exchanges b time} (h : Closing propose horizon target exchanges b)
      (hwide : b.IsWide) (hafter : target.seconds < time.seconds) :
      Closing propose horizon target (exchanges ++ [timed (b.probe propose target) (.ok time)])
        ⟨b.low, ⟨b.probe propose target, time⟩⟩
  | raised {exchanges b time} (h : Closing propose horizon target exchanges b)
      (hwide : b.IsWide) (hbefore : time.seconds < target.seconds) :
      Closing propose horizon target (exchanges ++ [timed (b.probe propose target) (.ok time)])
        ⟨⟨b.probe propose target, time⟩, b.high⟩

/-- All that a search can be after some exchanges. -/
inductive Stands (propose : Proposal) (horizon : UInt64) (target : Timestamp) :
    List (Exchange Probe.Answer) → Dialogue Probe.Answer (Except Error UInt64) → Prop
  | start : Stands propose horizon target [] (findBlockWith propose horizon target)
  | noTip (e : Error) : Stands propose horizon target [tip (.error e)] (.done (.error e))
  | atTip {high : BlockTime} (h : high.time.seconds ≤ target.seconds ∨ high.block ≤ horizon) :
      Stands propose horizon target [tip (.ok high)] (.done (.ok high.block))
  | tipOnly {high : BlockTime}
      {resume : Except Error Timestamp → Dialogue Probe.Answer (Except Error UInt64)} :
      Stands propose horizon target [tip (.ok high)] (.ask (.timeOf horizon) resume)
  | noHorizon {high : BlockTime} (e : Error) :
      Stands propose horizon target [tip (.ok high), timed horizon (.error e)] (.done (.error e))
  | atHorizon {high : BlockTime} {time : Timestamp} (h : target.seconds ≤ time.seconds) :
      Stands propose horizon target [tip (.ok high), timed horizon (.ok time)] (.done (.ok horizon))
  | inside {exchanges b} (h : Closing propose horizon target exchanges b) :
      Stands propose horizon target exchanges (narrow propose target b.low b.high)
  | noProbe {exchanges b} (h : Closing propose horizon target exchanges b) (hwide : b.IsWide)
      (e : Error) : Stands propose horizon target
        (exchanges ++ [timed (b.probe propose target) (.error e)]) (.done (.error e))
  | exact {exchanges b time} (h : Closing propose horizon target exchanges b)
      (hwide : b.IsWide) (hexact : time.seconds = target.seconds) : Stands propose horizon target
        (exchanges ++ [timed (b.probe propose target) (.ok time)])
        (.done (.ok (b.probe propose target)))

variable {propose : Proposal} {horizon : UInt64} {target : Timestamp}
  {exchanges : List (Exchange Probe.Answer)} {b : Bracket}
  {left : Dialogue Probe.Answer (Except Error UInt64)}

/-- What a search goes on with when the probe of a bracket is answered. -/
def Bracket.resume (b : Bracket) (propose : Proposal) (target : Timestamp) :
    Except Error Timestamp → Dialogue Probe.Answer (Except Error UInt64)
  | .error e => .done (.error e)
  | .ok time =>
    if target.seconds < time.seconds then
      narrow propose target b.low ⟨b.probe propose target, time⟩
    else if time.seconds < target.seconds then
      narrow propose target ⟨b.probe propose target, time⟩ b.high
    else .done (.ok (b.probe propose target))

theorem Bracket.resume_ok (b : Bracket) (propose : Proposal) (target time : Timestamp) :
    b.resume propose target (.ok time) =
      if target.seconds < time.seconds then
        narrow propose target b.low ⟨b.probe propose target, time⟩
      else if time.seconds < target.seconds then
        narrow propose target ⟨b.probe propose target, time⟩ b.high
      else .done (.ok (b.probe propose target)) := rfl

theorem narrow_of_isWide (hwide : b.IsWide) : narrow propose target b.low b.high =
    .ask (.timeOf (b.probe propose target)) (b.resume propose target) := by
  unfold Bracket.IsWide at hwide
  rw [narrow, dif_pos hwide]
  show Dialogue.ask (Probe.timeOf (b.probe propose target)) _ = _
  congr 1
  funext answer
  cases answer <;> rfl

theorem narrow_of_not_isWide (hnarrow : ¬b.IsWide) :
    narrow propose target b.low b.high = .done (.ok b.low.block) := by
  unfold Bracket.IsWide at hnarrow
  rw [narrow, dif_neg hnarrow]

/-- From a bracket on, a search only closes it further or ends. -/
theorem Closing.stands (h : Closing propose horizon target exchanges b)
    {further : List (Exchange Probe.Answer)}
    (hleads : (narrow propose target b.low b.high).Leads further left) :
    Stands propose horizon target (exchanges ++ further) left := by
  generalize hgap : b.high.block.toNat - b.low.block.toNat = gap
  induction gap using Nat.strongRecOn generalizing exchanges b further with
  | ind gap ih =>
    have hinside := Stands.inside h
    by_cases hwide : b.IsWide
    · obtain ⟨hlow, hhigh⟩ := Bracket.probe_mem hwide propose target
      rw [UInt64.lt_iff_toNat_lt] at hlow hhigh
      rw [narrow_of_isWide hwide] at hleads hinside
      cases hleads with
      | refl => rwa [List.append_nil]
      | @ask _ _ rest _ answer hleads =>
        rw [List.append_cons]
        cases answer with
        | error e =>
          obtain ⟨rfl, rfl⟩ := Dialogue.Leads.of_done hleads
          rw [List.append_nil]
          exact .noProbe h hwide e
        | ok time =>
          rw [Bracket.resume_ok] at hleads
          split at hleads
          · rename_i hafter
            exact ih _ (by dsimp only; omega) (h.lowered hwide hafter) hleads rfl
          · rename_i hnotAfter
            split at hleads
            · rename_i hbefore
              exact ih _ (by dsimp only; omega) (h.raised hwide hbefore) hleads rfl
            · rename_i hnotBefore
              obtain ⟨rfl, rfl⟩ := Dialogue.Leads.of_done hleads
              rw [List.append_nil]
              exact .exact h hwide
                (UInt64.le_antisymm (UInt64.not_lt.1 hnotAfter) (UInt64.not_lt.1 hnotBefore))
    · rw [narrow_of_not_isWide hwide] at hleads hinside
      obtain ⟨rfl, rfl⟩ := Dialogue.Leads.of_done hleads
      rwa [List.append_nil]

/-- **What a search can be**, wherever it is cut. -/
theorem stands_of (hleads : (findBlockWith propose horizon target).Leads exchanges left) :
    Stands propose horizon target exchanges left := by
  cases hleads with
  | refl => exact .start
  | @ask _ _ rest _ answer hleads =>
    cases answer with
    | error e =>
      obtain ⟨rfl, rfl⟩ := Dialogue.Leads.of_done hleads
      exact .noTip e
    | ok high =>
      dsimp only at hleads
      split at hleads
      · rename_i hend
        obtain ⟨rfl, rfl⟩ := Dialogue.Leads.of_done hleads
        exact .atTip hend
      · rename_i hinside
        obtain ⟨hafter, hspan⟩ := not_or.1 hinside
        cases hleads with
        | refl => exact .tipOnly
        | @ask _ _ rest _ answer hleads =>
          cases answer with
          | error e =>
            obtain ⟨rfl, rfl⟩ := Dialogue.Leads.of_done hleads
            exact .noHorizon e
          | ok time =>
            dsimp only at hleads
            split at hleads
            · rename_i hend
              obtain ⟨rfl, rfl⟩ := Dialogue.Leads.of_done hleads
              exact .atHorizon hend
            · rename_i hbefore
              exact (Closing.opened (UInt64.not_le.1 hafter) (UInt64.not_le.1 hspan)
                (UInt64.not_le.1 hbefore)).stands hleads

/-- Every bracket is one that a search comes to. -/
theorem Closing.leads (h : Closing propose horizon target exchanges b) :
    (findBlockWith propose horizon target).Leads exchanges
      (narrow propose target b.low b.high) := by
  induction h with
  | opened hafter hspan hbefore =>
    refine .ask _ ?_
    dsimp only
    rw [if_neg (not_or.2 ⟨UInt64.not_le.2 hafter, UInt64.not_le.2 hspan⟩)]
    refine .ask _ ?_
    dsimp only
    rw [if_neg (UInt64.not_le.2 hbefore)]
    exact .refl _
  | @lowered exchanges b time h hwide hafter ih =>
    rw [narrow_of_isWide hwide] at ih
    have hnext := ih.snoc (.ok time)
    rwa [Bracket.resume_ok, if_pos hafter] at hnext
  | @raised exchanges b time h hwide hbefore ih =>
    rw [narrow_of_isWide hwide] at ih
    have hnext := ih.snoc (.ok time)
    rwa [Bracket.resume_ok, if_neg (UInt64.not_lt.2 (UInt64.le_of_lt hbefore)), if_pos hbefore]
      at hnext

/-! ## What is kept -/

/-- What is so of every bracket of a search whose latest block is known, and that has probed
    some blocks behind the horizon. -/
structure Kept (horizon : UInt64) (target : Timestamp) (exchanges : List (Exchange Probe.Answer))
    (b : Bracket) (latest : BlockTime) (probes : List UInt64) : Prop where
  first : exchanges.head? = some (tip (.ok latest))
  holds : b.Holds horizon latest.block target
  low_told : Told exchanges b.low
  high_told : Told exchanges b.high
  probed_eq : probed exchanges = horizon :: probes
  inside : ∀ block ∈ probes, horizon < block ∧ block < latest.block
  outside : ∀ block ∈ probes, block ≤ b.low.block ∨ b.high.block ≤ block
  nodup : probes.Nodup
  few : probes.length + (b.high.block.toNat - b.low.block.toNat) ≤
    latest.block.toNat - horizon.toNat
  succeeded : ∀ x ∈ exchanges, failure? x = none

section
variable {latest : BlockTime} {probes : List UInt64}

/-- A wide bracket is probed strictly between the horizon and the latest block, where nothing
    has been probed. -/
theorem Kept.fresh (h : Kept horizon target exchanges b latest probes) (hwide : b.IsWide)
    (propose : Proposal) :
    (horizon < b.probe propose target ∧ b.probe propose target < latest.block) ∧
      b.probe propose target ∉ probes := by
  obtain ⟨hlow, hhigh⟩ := Bracket.probe_mem hwide propose target
  refine ⟨⟨UInt64.lt_of_le_of_lt h.holds.horizon_le hlow,
    UInt64.lt_of_lt_of_le hhigh h.holds.le_latest⟩, ?_⟩
  intro hmem
  rcases h.outside _ hmem with hle | hle
  · exact UInt64.not_lt.2 hle hlow
  · exact UInt64.not_lt.2 hle hhigh

theorem Kept.inside_snoc (h : Kept horizon target exchanges b latest probes) (hwide : b.IsWide)
    (propose : Proposal) : ∀ block ∈ probes ++ [b.probe propose target],
      horizon < block ∧ block < latest.block := by
  intro block hmem
  rcases List.mem_append.1 hmem with hmem | hmem
  · exact h.inside block hmem
  · rw [List.mem_singleton.1 hmem]
    exact (h.fresh hwide propose).1

theorem Kept.nodup_snoc (h : Kept horizon target exchanges b latest probes) (hwide : b.IsWide)
    (propose : Proposal) : (probes ++ [b.probe propose target]).Nodup := by
  rw [List.nodup_append]
  refine ⟨h.nodup, by simp, ?_⟩
  rintro x hx y hy rfl
  exact (h.fresh hwide propose).2 (List.mem_singleton.1 hy ▸ hx)

/-- After a probe the next bracket, which lies strictly inside, is kept too. -/
theorem Kept.step (h : Kept horizon target exchanges b latest probes) (hwide : b.IsWide)
    (time : Timestamp) {b' : Bracket} (hholds : b'.Holds horizon latest.block target)
    (hends : b' = ⟨b.low, ⟨b.probe propose target, time⟩⟩ ∨
      b' = ⟨⟨b.probe propose target, time⟩, b.high⟩) :
    Kept horizon target (exchanges ++ [timed (b.probe propose target) (.ok time)]) b' latest
      (probes ++ [b.probe propose target]) where
  first := by
    obtain ⟨x, hx⟩ : ∃ x, exchanges.head? = some x := ⟨_, h.first⟩
    rw [List.head?_append, hx, Option.some_or, ← hx, h.first]
  holds := hholds
  low_told := by
    rcases hends with rfl | rfl
    · exact h.low_told.snoc _
    · exact told_last _ _
  high_told := by
    rcases hends with rfl | rfl
    · exact told_last _ _
    · exact h.high_told.snoc _
  probed_eq := by rw [probed_snoc, h.probed_eq, List.cons_append]
  inside := h.inside_snoc hwide propose
  outside := by
    obtain ⟨hlow, hhigh⟩ := Bracket.probe_mem hwide propose target
    intro block hmem
    rcases List.mem_append.1 hmem with hmem | hmem
    · rcases hends with rfl | rfl <;> rcases h.outside block hmem with hle | hle
      · exact Or.inl hle
      · exact Or.inr (UInt64.le_trans (UInt64.le_of_lt hhigh) hle)
      · exact Or.inl (UInt64.le_trans hle (UInt64.le_of_lt hlow))
      · exact Or.inr hle
    · rw [List.mem_singleton.1 hmem]
      rcases hends with rfl | rfl
      · exact Or.inr (UInt64.le_refl _)
      · exact Or.inl (UInt64.le_refl _)
  nodup := h.nodup_snoc hwide propose
  few := by
    obtain ⟨hlow, hhigh⟩ := Bracket.probe_mem hwide propose target
    rw [UInt64.lt_iff_toNat_lt] at hlow hhigh
    have hfew := h.few
    rw [List.length_append, List.length_singleton]
    rcases hends with rfl | rfl <;> dsimp only <;> omega
  succeeded := by
    intro x hx
    rcases List.mem_append.1 hx with hx | hx
    · exact h.succeeded x hx
    · rw [List.mem_singleton.1 hx]
      rfl

end

/-- **Every bracket lies around the target, and every probe was new.** -/
theorem kept_of (h : Closing propose horizon target exchanges b) :
    ∃ latest probes, Kept horizon target exchanges b latest probes := by
  induction h with
  | @opened high time hafter hspan hbefore =>
    refine ⟨high, [], rfl, ⟨UInt64.le_refl _, hspan, UInt64.le_refl _, hbefore, hafter⟩,
      Or.inr (by simp), Or.inl (by simp), rfl, by simp, by simp, by simp, by simp, ?_⟩
    rintro x hx
    simp only [List.mem_cons, List.not_mem_nil, or_false] at hx
    rcases hx with rfl | rfl <;> rfl
  | lowered h hwide hafter ih =>
    obtain ⟨latest, probes, hkept⟩ := ih
    exact ⟨latest, _, hkept.step hwide _ (hkept.holds.lowered hwide propose hafter) (Or.inl rfl)⟩
  | raised h hwide hbefore ih =>
    obtain ⟨latest, probes, hkept⟩ := ih
    exact ⟨latest, _, hkept.step hwide _ (hkept.holds.raised hwide propose hbefore) (Or.inr rfl)⟩

/-! ## Every search -/

/-- What a search has asked for: nothing yet, or the horizon and then blocks strictly between
    it and the latest block, each once. -/
def Probed (horizon : UInt64) (latest : BlockTime) (exchanges : List (Exchange Probe.Answer)) :
    Prop :=
  probed exchanges = [] ∨ ∃ probes, probed exchanges = horizon :: probes ∧
    (∀ block ∈ probes, horizon < block ∧ block < latest.block) ∧ probes.Nodup ∧
    probes.length ≤ latest.block.toNat - horizon.toNat - 1

/-- How a search can have come to a block: the latest block or the horizon was at once the
    answer, or the bracket closed at a block that was told to be at or before the target, and
    has the target's time or a successor that was told to be later. -/
def Decided (horizon : UInt64) (target : Timestamp) (exchanges : List (Exchange Probe.Answer))
    (block : UInt64) : Prop :=
  (∃ high, exchanges = [tip (.ok high)] ∧ block = high.block ∧
    (high.time.seconds ≤ target.seconds ∨ high.block ≤ horizon)) ∨
  (∃ high time, exchanges = [tip (.ok high), timed horizon (.ok time)] ∧ block = horizon ∧
    target.seconds ≤ time.seconds) ∨
  ∃ time, Told exchanges ⟨block, time⟩ ∧ time.seconds ≤ target.seconds ∧
    (time.seconds = target.seconds ∨
      ∃ next, Told exchanges ⟨block + 1, next⟩ ∧ target.seconds < next.seconds)

section
variable {latest : BlockTime} {probes : List UInt64}

theorem Kept.latest_eq (h : Kept horizon target exchanges b latest probes)
    {further : List (Exchange Probe.Answer)} {latest' : BlockTime}
    (hfirst : (exchanges ++ further).head? = some (tip (.ok latest'))) : latest' = latest := by
  rw [List.head?_append, h.first] at hfirst
  simpa using hfirst.symm

theorem Kept.isProbed (h : Kept horizon target exchanges b latest probes) :
    Probed horizon latest exchanges := by
  have hless := UInt64.lt_iff_toNat_lt.1 h.holds.block_lt
  have hfew := h.few
  exact Or.inr ⟨probes, h.probed_eq, h.inside, h.nodup, by omega⟩

/-- The probe of a wide bracket may be asked for, whatever comes of it. -/
theorem Kept.isProbed_snoc (h : Kept horizon target exchanges b latest probes)
    (hwide : b.IsWide) (propose : Proposal) (answer : Except Error Timestamp) :
    Probed horizon latest (exchanges ++ [timed (b.probe propose target) answer]) := by
  refine Or.inr ⟨probes ++ [b.probe propose target], ?_, h.inside_snoc hwide propose,
    h.nodup_snoc hwide propose, ?_⟩
  · rw [probed_snoc, h.probed_eq, List.cons_append]
  · have hfew := h.few
    unfold Bracket.IsWide at hwide
    rw [List.length_append, List.length_singleton]
    omega

end

/-- What was asked for never exceeds the blocks between horizon and latest. -/
theorem Stands.isProbed (h : Stands propose horizon target exchanges left) {latest : BlockTime}
    (hfirst : exchanges.head? = some (tip (.ok latest))) : Probed horizon latest exchanges := by
  cases h with
  | start => exact Or.inl rfl
  | noTip e => exact Or.inl rfl
  | atTip h => exact Or.inl rfl
  | tipOnly => exact Or.inl rfl
  | noHorizon e => exact Or.inr ⟨[], rfl, by simp, by simp, by simp⟩
  | atHorizon h => exact Or.inr ⟨[], rfl, by simp, by simp, by simp⟩
  | inside h =>
    obtain ⟨latest', probes, hkept⟩ := kept_of h
    rw [← List.append_nil exchanges] at hfirst
    exact hkept.latest_eq hfirst ▸ hkept.isProbed
  | noProbe h hwide e =>
    obtain ⟨latest', probes, hkept⟩ := kept_of h
    exact hkept.latest_eq hfirst ▸ hkept.isProbed_snoc hwide propose _
  | exact h hwide hexact =>
    obtain ⟨latest', probes, hkept⟩ := kept_of h
    exact hkept.latest_eq hfirst ▸ hkept.isProbed_snoc hwide propose _

theorem narrow_ne_error (e : Error) : narrow propose target b.low b.high ≠ .done (.error e) := by
  by_cases hwide : b.IsWide
  · rw [narrow_of_isWide hwide]
    simp
  · rw [narrow_of_not_isWide hwide]
    simp

/-- A block is found for a reason. -/
theorem Stands.decided (h : Stands propose horizon target exchanges left) {block : UInt64}
    (hdone : left = .done (.ok block)) : Decided horizon target exchanges block := by
  cases h with
  | start => cases hdone
  | noTip e => cases hdone
  | @atTip high h =>
    cases hdone
    exact Or.inl ⟨high, rfl, rfl, h⟩
  | tipOnly => cases hdone
  | noHorizon e => cases hdone
  | @atHorizon high time h =>
    cases hdone
    exact Or.inr (Or.inl ⟨high, time, rfl, rfl, h⟩)
  | @inside exchanges b h =>
    obtain ⟨latest, probes, hkept⟩ := kept_of h
    by_cases hwide : b.IsWide
    · rw [narrow_of_isWide hwide] at hdone
      cases hdone
    · rw [narrow_of_not_isWide hwide] at hdone
      cases hdone
      refine Or.inr (Or.inr ⟨b.low.time, hkept.low_told, UInt64.le_of_lt hkept.holds.before,
        Or.inr ⟨b.high.time, ?_, hkept.holds.after⟩⟩)
      rw [hkept.holds.next hwide]
      exact hkept.high_told
  | noProbe h hwide e => cases hdone
  | @exact exchanges b time h hwide hexact =>
    cases hdone
    exact Or.inr (Or.inr ⟨time, told_last _ _, hexact ▸ UInt64.le_refl _, Or.inl hexact⟩)

theorem Kept.exists_failure_snoc {latest : BlockTime} {probes : List UInt64}
    (h : Kept horizon target exchanges b latest probes) (x : Exchange Probe.Answer) (e : Error) :
    (∃ y ∈ exchanges ++ [x], failure? y = some e) ↔ failure? x = some e := by
  constructor
  · rintro ⟨y, hy, hfailure⟩
    rcases List.mem_append.1 hy with hy | hy
    · rw [h.succeeded y hy] at hfailure
      cases hfailure
    · rwa [List.mem_singleton.1 hy] at hfailure
  · intro hfailure
    exact ⟨x, by simp, hfailure⟩

/-- Only the last exchange can have failed, and then with the error that is the result. -/
theorem Stands.failed (h : Stands propose horizon target exchanges left) :
    (∀ e, left = .done (.error e) ↔ ∃ x ∈ exchanges, failure? x = some e) ∧
      ∀ x ∈ exchanges.dropLast, failure? x = none := by
  cases h with
  | start => simp [findBlockWith]
  | noTip e => simp [failure?]
  | atTip h => simp [failure?]
  | tipOnly => simp [failure?]
  | noHorizon e => simp [failure?]
  | atHorizon h => simp [failure?]
  | inside h =>
    obtain ⟨latest, probes, hkept⟩ := kept_of h
    refine ⟨fun e => ⟨fun hdone => absurd hdone (narrow_ne_error e), ?_⟩, fun x hx =>
      hkept.succeeded x ((List.dropLast_sublist _).mem hx)⟩
    rintro ⟨x, hx, hfailure⟩
    rw [hkept.succeeded x hx] at hfailure
    cases hfailure
  | noProbe h hwide e =>
    obtain ⟨latest, probes, hkept⟩ := kept_of h
    rw [List.dropLast_concat]
    refine ⟨fun e' => ?_, hkept.succeeded⟩
    rw [hkept.exists_failure_snoc]
    simp [failure?]
  | exact h hwide hexact =>
    obtain ⟨latest, probes, hkept⟩ := kept_of h
    rw [List.dropLast_concat]
    refine ⟨fun e => ?_, hkept.succeeded⟩
    rw [hkept.exists_failure_snoc]
    simp [failure?]

/-- What is so of the searches with one rule for proposals, whatever is answered and wherever
    they are cut. -/
structure Hunts (propose : Proposal) (horizon : UInt64) (target : Timestamp) : Prop where
  /-- With fixed answers the search comes to a result. -/
  ends : ∀ answer : (p : Probe) → p.Answer, ∃ exchanges,
    (findBlockWith propose horizon target).Leads exchanges
      (.done ((findBlockWith propose horizon target).interrogate answer).1) ∧
    exchanges.map (·.1) = ((findBlockWith propose horizon target).interrogate answer).2 ∧
    ∀ x ∈ exchanges, x.2 = answer x.1
  /-- Before, in and behind the bracket there is nothing but the cases of `Stands`. -/
  stands : ∀ exchanges left, (findBlockWith propose horizon target).Leads exchanges left →
    Stands propose horizon target exchanges left
  /-- Every bracket is one of a search, lies around the target, and is probed with arithmetic
      that is defined. -/
  brackets : ∀ exchanges b, Closing propose horizon target exchanges b →
    (findBlockWith propose horizon target).Leads exchanges (narrow propose target b.low b.high) ∧
    ∃ latest, exchanges.head? = some (tip (.ok latest)) ∧ b.Holds horizon latest.block target ∧
      (1 < b.high.block - b.low.block ↔ b.IsWide) ∧
      (b.IsWide → b.probe? propose target = some (b.probe propose target))
  /-- The probes lie strictly between horizon and latest, and none is made twice. -/
  probes : ∀ exchanges left latest,
    (findBlockWith propose horizon target).Leads exchanges left →
    exchanges.head? = some (tip (.ok latest)) → Probed horizon latest exchanges
  /-- A block that is found is at or before the target, and the target's or the last such. -/
  decided : ∀ exchanges block,
    (findBlockWith propose horizon target).Leads exchanges (.done (.ok block)) →
    Decided horizon target exchanges block
  /-- An error is the result exactly if it was an answer, and then nothing more is asked. -/
  failed : ∀ exchanges left, (findBlockWith propose horizon target).Leads exchanges left →
    (∀ e, left = .done (.error e) ↔ ∃ x ∈ exchanges, failure? x = some e) ∧
    ∀ x ∈ exchanges.dropLast, failure? x = none

/-- What is so of the searches with any rule for proposals, and of the one over a ledger. -/
structure Closes (horizon : UInt64) (target : Timestamp) : Prop where
  hunts : ∀ propose, Hunts propose horizon target
  /-- A search over a ledger asks the queries of a search, and takes their answers for its own. -/
  onLedger : ∀ exchanges left, (onLedger horizon target).Leads exchanges left →
    ∃ exchanges' left', (findBlock horizon target).Leads exchanges' left' ∧
      left = left'.relay Probe.query Probe.answer ∧
      List.Forall₂ (fun x y => ∃ r, y = ⟨x.1.query, r⟩ ∧ x.2 = x.1.answer r) exchanges'
        exchanges

/-- **Every search is sound and ends.** -/
theorem closes_of (horizon : UInt64) (target : Timestamp) : Closes horizon target where
  hunts propose :=
    { ends := fun answer => Dialogue.exists_leads answer _
      stands := fun _ _ hleads => stands_of hleads
      brackets := fun _ _ h => by
        obtain ⟨latest, probes, hkept⟩ := kept_of h
        exact ⟨h.leads, latest, hkept.first, hkept.holds, hkept.holds.isWide_iff,
          fun hwide => hkept.holds.probe?_eq hwide propose⟩
      probes := fun _ _ _ hleads hfirst => (stands_of hleads).isProbed hfirst
      decided := fun _ _ hleads => (stands_of hleads).decided rfl
      failed := fun _ _ hleads => (stands_of hleads).failed }
  onLedger _ _ hleads := Dialogue.Leads.of_relay hleads

end LedgerGate.Ledger.BlockSearch
