/-
  What a search for a block finds.

  The times of a chain never decrease, but neighbours may share one.  A search stops at the
  first block it probes that has exactly the target's time, and at once if that is the
  horizon.  So which block of several with that time is found depends on the proposals, and
  not on which of them comes last.

  * `Stretch`: the blocks that are searched; `Stretch.Tells`: answers that tell of them;
  * `Stretch.Wanted`: the last block at or before the target; `Stretch.Possible`: a block that
    can be found;
  * `Stretch.run_narrow`: the bracket closes around a block, whatever is proposed;
  * `Stretch.searches_of`: **exactly the possible blocks are found, and every search finds the
    wanted one exactly if no two neighbours share the target's time.**
-/
import LedgerGate.Ledger.Chain
import Mathlib.Tactic.SplitIfs

namespace LedgerGate.Ledger.BlockSearch

/-! ## Chains -/

/-- The blocks of a chain from a horizon to the latest one, with their times in seconds, which
    do not decrease. -/
structure Stretch where
  horizon : UInt64
  latest : UInt64
  times : UInt64 → UInt64
  ordered : ∀ a b, horizon ≤ a → a ≤ b → b ≤ latest → times a ≤ times b

namespace Stretch

variable {σ : Type}

/-- Answers that tell of a stretch in every state.  What they say of other blocks is open. -/
structure Tells (c : Stretch) (answer : (p : Probe) → σ → p.Answer × σ) : Prop where
  tip : ∀ s, (answer .latest s).1 = .ok ⟨c.latest, ⟨c.times c.latest⟩⟩
  time : ∀ block s, c.horizon ≤ block → block ≤ c.latest →
    (answer (.timeOf block) s).1 = .ok ⟨c.times block⟩

/-- The block that a search is for: the last one at or before the target, or the horizon if
    all are later; the latest block if the horizon is not before it. -/
def Wanted (c : Stretch) (target : Timestamp) (block : UInt64) : Prop :=
  if c.latest ≤ c.horizon then block = c.latest
  else c.horizon ≤ block ∧ block ≤ c.latest ∧
    (c.times block ≤ target.seconds ∨ block = c.horizon) ∧
    ∀ later, block < later → later ≤ c.latest → target.seconds < c.times later

/-- A block that can be found: an end of the stretch, if the target is not between the ends,
    else a block with the target's time or the one behind which the time passes the target. -/
def Possible (c : Stretch) (target : Timestamp) (block : UInt64) : Prop :=
  if c.latest ≤ c.horizon ∨ c.times c.latest ≤ target.seconds then block = c.latest
  else if target.seconds ≤ c.times c.horizon then block = c.horizon
  else c.horizon ≤ block ∧ block < c.latest ∧ (c.times block = target.seconds ∨
    c.times block < target.seconds ∧ target.seconds < c.times (block + 1))

/-- Two neighbours share the target's time, and the latest block is later. -/
def Repeats (c : Stretch) (target : Timestamp) : Prop :=
  ∃ block, c.horizon ≤ block ∧ block < c.latest ∧ c.times block = target.seconds ∧
    c.times (block + 1) = target.seconds ∧ target.seconds < c.times c.latest

theorem toNat_succ {a b : UInt64} (h : a < b) : (a + 1).toNat = a.toNat + 1 := by
  have hb := b.toNat_lt
  rw [UInt64.lt_iff_toNat_lt] at h
  rw [UInt64.toNat_add, UInt64.toNat_one]
  omega

theorem lt_succ {a b : UInt64} (h : a < b) : a < a + 1 := by
  rw [UInt64.lt_iff_toNat_lt, toNat_succ h]
  omega

theorem succ_le {a b : UInt64} (h : a < b) : a + 1 ≤ b := by
  rw [UInt64.le_iff_toNat_le, toNat_succ h]
  exact UInt64.lt_iff_toNat_lt.1 h

variable {c : Stretch} {answer : (p : Probe) → σ → p.Answer × σ} {target : Timestamp}

/-! ## The bracket -/

/-- **The bracket closes around a block**, whatever is proposed: one with the target's time, or
    the one behind which the time passes the target. -/
theorem run_narrow (h : c.Tells answer) (propose : Proposal) (low high : BlockTime)
    (hlow : c.horizon ≤ low.block) (hhigh : high.block ≤ c.latest)
    (hless : low.block < high.block) (hbefore : c.times low.block < target.seconds)
    (hafter : target.seconds < c.times high.block) (s : σ) :
    ∃ block, ((narrow propose target low high).run answer s).1 = .ok block ∧
      low.block ≤ block ∧ block < high.block ∧ (c.times block = target.seconds ∨
        c.times block < target.seconds ∧ target.seconds < c.times (block + 1)) := by
  induction low, high using narrow.induct propose target generalizing s with
  | case1 low high hgap block ihlow ihhigh =>
    have hlt : low.block < block :=
      UInt64.lt_iff_toNat_lt.2 (toNat_lt_probe propose low high target hgap)
    have hlt' : block < high.block :=
      UInt64.lt_iff_toNat_lt.2 (probe_lt_toNat propose low high target hgap)
    have hfrom : c.horizon ≤ block := UInt64.le_trans hlow (UInt64.le_of_lt hlt)
    have hto : block ≤ c.latest := UInt64.le_trans (UInt64.le_of_lt hlt') hhigh
    rw [narrow, dif_pos hgap]
    simp only [Dialogue.run]
    rw [h.time _ s hfrom hto]
    dsimp only
    split
    · rename_i hlater
      obtain ⟨b, hb, hle, hlt'', hcase⟩ := ihlow ⟨c.times block⟩ hlow hto hlt hbefore hlater
        (answer (.timeOf block) s).2
      exact ⟨b, hb, hle, UInt64.lt_trans hlt'' hlt', hcase⟩
    · rename_i hnotLater
      split
      · rename_i hearlier
        obtain ⟨b, hb, hle, hlt'', hcase⟩ := ihhigh ⟨c.times block⟩ hfrom hhigh hlt' hearlier
          hafter (answer (.timeOf block) s).2
        exact ⟨b, hb, UInt64.le_trans (UInt64.le_of_lt hlt) hle, hlt'', hcase⟩
      · rename_i hnotEarlier
        have hexact : c.times block = target.seconds :=
          UInt64.le_antisymm (UInt64.not_lt.1 hnotLater) (UInt64.not_lt.1 hnotEarlier)
        exact ⟨block, rfl, UInt64.le_of_lt hlt, hlt', Or.inl hexact⟩
  | case2 low high hgap =>
    have hnext : low.block + 1 = high.block := by
      rw [← UInt64.toNat_inj, toNat_succ hless]
      rw [UInt64.lt_iff_toNat_lt] at hless
      omega
    rw [narrow, dif_neg hgap]
    exact ⟨low.block, rfl, UInt64.le_refl _, hless, Or.inr ⟨hbefore, hnext ▸ hafter⟩⟩

/-! ## The whole search -/

/-- The result of a search with a rule for proposals. -/
def search (c : Stretch) (answer : (p : Probe) → σ → p.Answer × σ) (propose : Proposal)
    (target : Timestamp) (s : σ) : Except Error UInt64 :=
  ((findBlockWith propose c.horizon target).run answer s).1

/-- A search asks for the latest block, then for the horizon, and then narrows the bracket
    between them. -/
theorem search_eq (h : c.Tells answer) (propose : Proposal) (target : Timestamp) (s : σ) : ∃ s',
    c.search answer propose target s =
      if c.times c.latest ≤ target.seconds ∨ c.latest ≤ c.horizon then .ok c.latest
      else if target.seconds ≤ c.times c.horizon then .ok c.horizon
      else ((narrow propose target ⟨c.horizon, ⟨c.times c.horizon⟩⟩
        ⟨c.latest, ⟨c.times c.latest⟩⟩).run answer s').1 := by
  refine ⟨(answer (.timeOf c.horizon) (answer .latest s).2).2, ?_⟩
  simp only [search, findBlockWith, Dialogue.run]
  rw [h.tip]
  dsimp only
  split
  · rfl
  · rename_i hinside
    have hle : c.horizon ≤ c.latest :=
      UInt64.le_of_lt (UInt64.not_le.1 fun hle => hinside (Or.inr hle))
    simp only [Dialogue.run]
    rw [h.time _ _ (UInt64.le_refl _) hle]
    dsimp only
    split <;> rfl

/-- A search finds a possible block, whatever is proposed. -/
theorem exists_possible (h : c.Tells answer) (propose : Proposal) (target : Timestamp) (s : σ) :
    ∃ block, c.search answer propose target s = .ok block ∧ c.Possible target block := by
  obtain ⟨s', hsearch⟩ := search_eq h propose target s
  rw [hsearch]
  unfold Possible
  split
  · rename_i hend
    exact ⟨c.latest, rfl, by rw [if_pos hend.symm]⟩
  · rename_i hinside
    have hnot : ¬(c.latest ≤ c.horizon ∨ c.times c.latest ≤ target.seconds) :=
      fun hend => hinside hend.symm
    simp only [if_neg hnot]
    obtain ⟨hless, hafter⟩ := not_or.1 hnot
    split
    · exact ⟨c.horizon, rfl, rfl⟩
    · rename_i hbefore
      exact run_narrow h propose _ _ (UInt64.le_refl _) (UInt64.le_refl _)
        (UInt64.not_le.1 hless) (UInt64.not_le.1 hbefore) (UInt64.not_le.1 hafter) s'

/-! ## What can be found -/

/-- A proposal inside the bracket is probed as it is. -/
theorem probe_eq {low high : BlockTime} {block : UInt64} (hlow : low.block < block)
    (hhigh : block < high.block) (target : Timestamp) :
    probe (fun _ _ _ => block) low high target = block := by
  have hfirst : ¬block < low.block + 1 := UInt64.not_lt.2 (succ_le hlow)
  have hlast : ¬high.block - 1 < block := by
    have hone : (high.block - 1).toNat = high.block.toNat - 1 := by
      rw [UInt64.toNat_sub_of_le, UInt64.toNat_one]
      rw [UInt64.le_iff_toNat_le, UInt64.toNat_one]
      rw [UInt64.lt_iff_toNat_lt] at hhigh
      omega
    rw [UInt64.lt_iff_toNat_lt, hone]
    rw [UInt64.lt_iff_toNat_lt] at hhigh
    omega
  simp only [probe, if_neg hfirst, if_neg hlast]

/-- A block with the target's time, and not at an end, is found if it is proposed. -/
theorem search_proposed (h : c.Tells answer) {block : UInt64} (hfrom : c.horizon < block)
    (hto : block < c.latest) (hbefore : c.times c.horizon < target.seconds)
    (hafter : target.seconds < c.times c.latest) (hexact : c.times block = target.seconds) (s : σ) :
    c.search answer (fun _ _ _ => block) target s = .ok block := by
  obtain ⟨s', hsearch⟩ := search_eq h (fun _ _ _ => block) target s
  have hgap : c.horizon.toNat + 1 < c.latest.toNat := by
    rw [UInt64.lt_iff_toNat_lt] at hfrom hto
    omega
  have hinside : ¬(c.times c.latest ≤ target.seconds ∨ c.latest ≤ c.horizon) :=
    not_or.2 ⟨UInt64.not_le.2 hafter, UInt64.not_le.2 (UInt64.lt_trans hfrom hto)⟩
  rw [hsearch, if_neg hinside, if_neg (UInt64.not_le.2 hbefore), narrow, dif_pos hgap]
  dsimp only
  rw [probe_eq hfrom hto]
  simp only [Dialogue.run]
  rw [h.time block _ (UInt64.le_of_lt hfrom) (UInt64.le_of_lt hto)]
  dsimp only
  rw [if_neg (by rw [hexact]; exact UInt64.lt_irrefl _),
    if_neg (by rw [hexact]; exact UInt64.lt_irrefl _)]
  rfl

/-- The time passes the target behind one block at most, and then no block has that time. -/
theorem eq_of_passes {block other : UInt64} (hfrom : c.horizon ≤ block) (hto : block < c.latest)
    (hbefore : c.times block < target.seconds) (hafter : target.seconds < c.times (block + 1))
    (hfrom' : c.horizon ≤ other) (hto' : other < c.latest) (hle : c.times other ≤ target.seconds)
    (hother : c.times other = target.seconds ∨ target.seconds < c.times (other + 1)) :
    other = block := by
  refine UInt64.le_antisymm (UInt64.not_lt.1 fun hlt => ?_) (UInt64.not_lt.1 fun hlt => ?_)
  · have hmono := c.ordered (block + 1) other
      (UInt64.le_trans hfrom (UInt64.le_of_lt (lt_succ hto))) (succ_le hlt) (UInt64.le_of_lt hto')
    exact UInt64.not_lt.2 (UInt64.le_trans hmono hle) hafter
  · rcases hother with hexact | hpasses
    · have hmono := c.ordered other block hfrom' (UInt64.le_of_lt hlt) (UInt64.le_of_lt hto)
      rw [hexact] at hmono
      exact UInt64.not_lt.2 hmono hbefore
    · have hmono := c.ordered (other + 1) block
        (UInt64.le_trans hfrom' (UInt64.le_of_lt (lt_succ hto'))) (succ_le hlt)
        (UInt64.le_of_lt hto)
      exact UInt64.not_lt.2 (UInt64.le_of_lt (UInt64.lt_of_lt_of_le hpasses hmono)) hbefore

/-- Every possible block is found with some rule for proposals. -/
theorem exists_search (h : c.Tells answer) {block : UInt64} (hblock : c.Possible target block)
    (s : σ) : ∃ propose, c.search answer propose target s = .ok block := by
  obtain ⟨other, hfound, hother⟩ := exists_possible h averageRate target s
  unfold Possible at hblock hother
  split at hblock
  · rename_i hend
    rw [if_pos hend] at hother
    rw [hblock, ← hother]
    exact ⟨averageRate, hfound⟩
  · rename_i hend
    rw [if_neg hend] at hother
    split at hblock
    · rename_i hbefore
      rw [if_pos hbefore] at hother
      rw [hblock, ← hother]
      exact ⟨averageRate, hfound⟩
    · rename_i hbefore
      rw [if_neg hbefore] at hother
      obtain ⟨hfrom, hto, hexact | ⟨hless, hpasses⟩⟩ := hblock
      · have hne : c.horizon ≠ block := by
          rintro hsame
          rw [hsame, hexact] at hbefore
          exact hbefore (UInt64.le_refl _)
        exact ⟨_, search_proposed h (UInt64.lt_of_le_of_ne hfrom hne) hto (UInt64.not_le.1 hbefore)
          (UInt64.not_le.1 (not_or.1 hend).2) hexact s⟩
      · obtain ⟨hfrom', hto', hcase⟩ := hother
        have hsame : other = block := by
          refine eq_of_passes hfrom hto hless hpasses hfrom' hto' ?_ (hcase.imp_right And.right)
          rcases hcase with hexact | ⟨hless', -⟩
          · exact hexact ▸ UInt64.le_refl _
          · exact UInt64.le_of_lt hless'
        exact ⟨averageRate, hsame ▸ hfound⟩

/-! ## The wanted block -/

/-- What is behind a block whose successor is later than the target is later too. -/
theorem later_of_succ {block later : UInt64} (hfrom : c.horizon ≤ block)
    (hnext : target.seconds < c.times (block + 1)) (hlt : block < later)
    (hle : later ≤ c.latest) : target.seconds < c.times later :=
  UInt64.lt_of_lt_of_le hnext (c.ordered (block + 1) later
    (UInt64.le_trans hfrom (UInt64.le_of_lt (lt_succ hlt))) (succ_le hlt) hle)

/-- If no two neighbours share the target's time, every possible block is the wanted one. -/
theorem Possible.wanted (hsingle : ¬c.Repeats target) {block : UInt64}
    (hblock : c.Possible target block) : c.Wanted target block := by
  unfold Possible at hblock
  unfold Wanted
  split
  · rename_i hend
    rwa [if_pos (Or.inl hend)] at hblock
  · rename_i hless
    have hspan : c.horizon < c.latest := UInt64.not_le.1 hless
    split at hblock
    · rename_i hend
      have hend : c.times c.latest ≤ target.seconds := hend.resolve_left hless
      subst hblock
      exact ⟨UInt64.le_of_lt hspan, UInt64.le_refl _, Or.inl hend,
        fun later hlt hle => absurd hle (UInt64.not_le.2 hlt)⟩
    · rename_i hend
      have hafter : target.seconds < c.times c.latest := UInt64.not_le.1 (not_or.1 hend).2
      -- a block at or before the target is followed by a later one, unless the two share its time
      have hnext : ∀ b, c.horizon ≤ b → b < c.latest → target.seconds ≤ c.times b →
          target.seconds < c.times (b + 1) := by
        intro b hfrom hto hle
        refine UInt64.not_le.1 fun hshared => hsingle ⟨b, hfrom, hto, ?_, ?_, hafter⟩
        all_goals
          have hmono := c.ordered b (b + 1) hfrom (UInt64.le_of_lt (lt_succ hto)) (succ_le hto)
        · exact UInt64.le_antisymm (UInt64.le_trans hmono hshared) hle
        · exact UInt64.le_antisymm hshared (UInt64.le_trans hle hmono)
      split at hblock
      · rename_i hbefore
        subst hblock
        exact ⟨UInt64.le_refl _, UInt64.le_of_lt hspan, Or.inr rfl,
          fun later => later_of_succ (UInt64.le_refl _)
            (hnext _ (UInt64.le_refl _) hspan hbefore)⟩
      · obtain ⟨hfrom, hto, hexact | ⟨hbefore, hpasses⟩⟩ := hblock
        · have hle : target.seconds ≤ c.times block := hexact ▸ UInt64.le_refl _
          exact ⟨hfrom, UInt64.le_of_lt hto, Or.inl (hexact ▸ UInt64.le_refl _),
            fun later => later_of_succ hfrom (hnext block hfrom hto hle)⟩
        · exact ⟨hfrom, UInt64.le_of_lt hto, Or.inl (UInt64.le_of_lt hbefore),
            fun later => later_of_succ hfrom hpasses⟩

/-- If two neighbours share the target's time, some possible block is not the wanted one. -/
theorem Repeats.exists_unwanted (h : c.Repeats target) :
    ∃ block, c.Possible target block ∧ ¬c.Wanted target block := by
  obtain ⟨first, hfrom, hto, hexact, hshared, hafter⟩ := h
  have hspan : c.horizon < c.latest := UInt64.lt_of_le_of_lt hfrom hto
  have hinside : ¬(c.latest ≤ c.horizon ∨ c.times c.latest ≤ target.seconds) :=
    not_or.2 ⟨UInt64.not_le.2 hspan, UInt64.not_le.2 hafter⟩
  -- no block up to the first of the two is the wanted one
  have hunwanted : ∀ block, block ≤ first → ¬c.Wanted target block := by
    intro block hle hwanted
    rw [Wanted, if_neg (UInt64.not_le.2 hspan)] at hwanted
    have hlater := hwanted.2.2.2 (first + 1) (UInt64.lt_of_le_of_lt hle (lt_succ hto)) (succ_le hto)
    rw [hshared] at hlater
    exact UInt64.lt_irrefl _ hlater
  by_cases hbefore : target.seconds ≤ c.times c.horizon
  · exact ⟨c.horizon, by rw [Possible, if_neg hinside, if_pos hbefore], hunwanted _ hfrom⟩
  · refine ⟨first, ?_, hunwanted _ (UInt64.le_refl _)⟩
    rw [Possible, if_neg hinside, if_neg hbefore]
    exact ⟨hfrom, hto, Or.inl hexact⟩

/-! ## All searches -/

/-- What the searches of a stretch find, with all rules for proposals. -/
structure Searches (c : Stretch) (answer : (p : Probe) → σ → p.Answer × σ) (target : Timestamp)
    (s : σ) : Prop where
  /-- Every search ends with a possible block. -/
  found : ∀ propose, ∃ block,
    c.search answer propose target s = .ok block ∧ c.Possible target block
  /-- Every possible block is what some search ends with. -/
  reached : ∀ block, c.Possible target block →
    ∃ propose, c.search answer propose target s = .ok block
  /-- Every search ends with the wanted block exactly if no two neighbours before the latest
      block share the target's time. -/
  wanted : (∀ propose, ∃ block,
    c.search answer propose target s = .ok block ∧ c.Wanted target block) ↔ ¬c.Repeats target

/-- **What searches find.** -/
theorem searches_of (h : c.Tells answer) (target : Timestamp) (s : σ) :
    c.Searches answer target s where
  found propose := exists_possible h propose target s
  reached _ hblock := exists_search h hblock s
  wanted := by
    constructor
    · intro hall hrepeats
      obtain ⟨block, hpossible, hunwanted⟩ := hrepeats.exists_unwanted
      obtain ⟨propose, hfound⟩ := exists_search h hpossible s
      obtain ⟨other, hfound', hwanted⟩ := hall propose
      obtain rfl : block = other := Except.ok.inj (hfound.symm.trans hfound')
      exact hunwanted hwanted
    · intro hsingle propose
      obtain ⟨block, hfound, hpossible⟩ := exists_possible h propose target s
      exact ⟨block, hfound, hpossible.wanted hsingle⟩

/-! ## Neighbours with one time -/

/-- Four blocks, of which the two in the middle have one time. -/
def plateau : Stretch where
  horizon := 0
  latest := 3
  times block := if block = 0 then 1 else if block < 3 then 2 else 3
  ordered a b _ hab _ := by
    rw [UInt64.le_iff_toNat_le] at hab
    simp only [← UInt64.toNat_inj, UInt64.lt_iff_toNat_lt, UInt64.le_iff_toNat_le,
      UInt64.reduceToNat]
    split_ifs <;> simp <;> omega

/-- The answers of a scripted chain. -/
def scripted (chain : Chain) (p : Probe) (s : Unit) : p.Answer × Unit := (chain.answer p, s)

/-- The chain of the plateau. -/
def plateauChain : Chain := ⟨.table 0 [1, 2, 2, 3], .ok (3, none), []⟩

theorem tells_plateau : plateau.Tells (scripted plateauChain) where
  tip _ := rfl
  time block _ _ hle := by
    have hcases : block = 0 ∨ block = 1 ∨ block = 2 ∨ block = 3 := by
      simp only [← UInt64.toNat_inj, UInt64.reduceToNat]
      have hle : block.toNat ≤ 3 := UInt64.le_iff_toNat_le.1 hle
      omega
    rcases hcases with rfl | rfl | rfl | rfl <;> rfl

/-- Some search for the time that the two blocks share ends with the first of them, though
    the second is the wanted one. -/
theorem searches_plateau :
    (∃ propose, plateau.search (scripted plateauChain) propose ⟨2⟩ () = .ok 1) ∧
      plateau.Wanted ⟨2⟩ 2 ∧ plateau.Repeats ⟨2⟩ ∧
      ¬∀ propose, ∃ block, plateau.search (scripted plateauChain) propose ⟨2⟩ () = .ok block ∧
        plateau.Wanted ⟨2⟩ block := by
  have h := searches_of tells_plateau ⟨2⟩ ()
  have hrepeats : plateau.Repeats ⟨2⟩ := ⟨1, by decide⟩
  refine ⟨h.reached 1 (by unfold Possible; decide), ?_, hrepeats, fun hall =>
    h.wanted.1 hall hrepeats⟩
  rw [Wanted, if_neg (by decide)]
  refine ⟨by decide, by decide, Or.inl (by decide), fun later hlt hle => ?_⟩
  have hlater : later = 3 := by
    rw [UInt64.lt_iff_toNat_lt] at hlt
    have hle : later.toNat ≤ 3 := UInt64.le_iff_toNat_le.1 hle
    have hlt : 2 < later.toNat := hlt
    rw [← UInt64.toNat_inj]
    show later.toNat = 3
    omega
  subst hlater
  decide

/-- A search for the time of the horizon ends there, whatever is proposed, though the block
    behind it has that time too. -/
theorem findBlock_shared_horizon :
    ((findBlock 0 ⟨5⟩).run (scripted ⟨.table 0 [5, 5, 9], .ok (2, none), []⟩) ()).1 = .ok 0 ∧
      Chain.ruled? (.table 0 [5, 5, 9]) 1 = some 5 ∧ Chain.ruled? (.table 0 [5, 5, 9]) 2 = some 9 :=
  ⟨rfl, rfl, rfl⟩

end Stretch

end LedgerGate.Ledger.BlockSearch
