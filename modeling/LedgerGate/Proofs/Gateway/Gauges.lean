/-
  What the gauges of a gateway show.

  All trackers of a gateway set the same two gauges, and each sets them to its own count.  So
  a gauge shows the count of the tracker that set it last, whatever the others hold.

  * `Tally`: what a gauge counts in a tracker; `Tally.lastOf`: the last report of it;
  * `Tally.report_after`: a tracker reports whenever its count changes;
  * `Panel`: a gateway while its trackers work, and who set its gauges last;
  * `Panel.gauged_of`: **a gauge shows the count of who set it last, which is the total
    exactly if the other trackers count nothing.**
-/
import LedgerGate.Proofs.Entries.Keys
import LedgerGate.Proofs.Gateway.Trackers
import LedgerGate.Proofs.Receipt.History
import LedgerGate.Stage
import Mathlib.Algebra.BigOperators.Group.List.Basic
import Mathlib.Algebra.Ring.Nat

namespace LedgerGate

/-! ## Counts and reports -/

/-- What a gauge counts: the ids that are polled for, or the receipts nobody has claimed. -/
inductive Tally where
  | pending
  | unclaimed

namespace Tally

variable {H : Type}

/-- The gauge of a count. -/
def meter : Tally → Meter
  | pending => .pending
  | unclaimed => .unclaimed

/-- The count in a tracker. -/
def count (t : Receipt.Tracker H) : Tally → Nat
  | pending => t.pending.length
  | unclaimed => t.unclaimed.length

/-- The count that a notice reports. -/
def reported? : Tally → Receipt.Notice H → Option Nat
  | pending, .pendingCount n => some n
  | unclaimed, .unclaimedCount n => some n
  | _, _ => none

/-- The last report of a count. -/
def lastOf (tally : Tally) (notices : List (Receipt.Notice H)) : Option Nat :=
  (notices.filterMap tally.reported?).getLast?

theorem lastOf_append (tally : Tally) (ns ms : List (Receipt.Notice H)) :
    tally.lastOf (ns ++ ms) = (tally.lastOf ms).or (tally.lastOf ns) := by
  simp [lastOf, List.filterMap_append, List.getLast?_append]

theorem lastOf_dispatched (tally : Tally) (handlers : List H) (c : Confirmation) :
    tally.lastOf (handlers.map (.dispatched · c)) = none := by
  have hnone : (handlers.map (Receipt.Notice.dispatched · c)).filterMap tally.reported? = [] := by
    rw [List.filterMap_eq_nil_iff]
    intro n hn
    obtain ⟨h, -, rfl⟩ := List.mem_map.1 hn
    cases tally <;> rfl
  rw [lastOf, hnone]
  rfl

/-- A gauge is set by the reports of its count and by nothing else. -/
theorem read_observe (tally : Tally) (m : Meters) (n : Receipt.Notice H) :
    (m.observe n).read tally.meter =
      ((tally.reported? n).map Int.ofNat).getD (m.read tally.meter) := by
  cases tally <;> cases n <;> rfl

/-- A gauge shows the last report, or what it showed before if there is none. -/
theorem read_observeAll (tally : Tally) (m : Meters) (notices : List (Receipt.Notice H)) :
    (m.observeAll notices).read tally.meter =
      ((tally.lastOf notices).map Int.ofNat).getD (m.read tally.meter) := by
  induction notices using List.reverseRecOn with
  | nil => rfl
  | append_singleton notices n ih =>
    have hlast : m.observeAll (notices ++ [n]) = (m.observeAll notices).observe n := by
      simp [Meters.observeAll]
    have hone : tally.lastOf [n] = tally.reported? n := by
      cases tally <;> cases n <;> rfl
    rw [hlast, read_observe, lastOf_append, hone, ih]
    cases tally.reported? n <;> rfl

/-! ## Trackers report -/

/-- A tracker reports its count, or else the count is what it was. -/
def Reports (tally : Tally) (t t' : Receipt.Tracker H) (notices : List (Receipt.Notice H)) :
    Prop :=
  tally.count t' = (tally.lastOf notices).getD (tally.count t)

end Tally

namespace Receipt.Tracker

variable {H : Type} {t : Tracker H}

/-- The ids that are polled for stand in order. -/
def Polls (t : Tracker H) : Prop := Entries.Increasing t.pending

/-- Going on to the next id changes no count. -/
theorem Polls.visit (h : t.Polls) (checked confirmed errors : Nat) (rest : List WorkId) :
    (t.visit checked confirmed errors rest).1.Polls ∧ ∀ tally : Tally,
      tally.count (t.visit checked confirmed errors rest).1 = tally.count t := by
  induction rest with
  | nil =>
    refine ⟨h, fun tally => ?_⟩
    cases tally <;> rfl
  | cons workId rest ih =>
    unfold Tracker.visit
    split
    · rename_i n hn
      refine ⟨h.insert _ _, fun tally => ?_⟩
      cases tally with
      | pending => exact h.length_insert (Entries.mem_keys_of_find? hn) _
      | unclaimed => rfl
    · exact ih

theorem Polls.track (h : t.Polls) (workId : WorkId) :
    (t.track workId).1.Polls ∧ ∀ tally : Tally,
      tally.Reports t (t.track workId).1 (t.track workId).2 := by
  constructor
  · show Entries.Increasing (if Entries.contains t.pending workId then t.pending
      else Entries.insert t.pending workId 0)
    split
    · exact h
    · exact h.insert _ _
  · intro tally
    cases tally <;> rfl

theorem Polls.register (h : t.Polls) (workId : WorkId) (handler : H) (isDone : Bool) :
    (t.register workId handler isDone).1.Polls ∧ ∀ tally : Tally,
      tally.Reports t (t.register workId handler isDone).1
        (t.register workId handler isDone).2 := by
  unfold Tracker.register
  split
  · exact ⟨h, fun tally => by cases tally <;> rfl⟩
  · split
    · exact ⟨h, fun tally => by cases tally <;> rfl⟩
    · split
      · exact ⟨h, fun tally => by cases tally <;> rfl⟩
      · exact ⟨h, fun tally => by cases tally <;> rfl⟩

theorem Polls.scan (h : t.Polls) (order : List WorkId) :
    (t.beginScanOf order).1.Polls ∧ ∀ tally : Tally,
      tally.Reports t (t.beginScanOf order).1 (t.beginScanOf order).2.1 := by
  unfold beginScanOf
  split
  · exact ⟨h, fun tally => by cases tally <;> rfl⟩
  · obtain ⟨hpolls, hcount⟩ := h.visit 0 0 0 order
    refine ⟨hpolls, fun tally => (hcount tally).trans ?_⟩
    cases tally <;> rfl

/-- A confirmation reports that one id less is polled for, and the receipt if it is kept. -/
theorem Polls.confirmation (h : t.Polls) {s : Scan} (hs : t.scan = some s) (a : Confirmation) :
    (t.after (.answer (.ok (some a)))).1.Polls ∧ ∀ tally : Tally,
      tally.Reports t (t.after (.answer (.ok (some a)))).1
        (t.after (.answer (.ok (some a)))).2 := by
  have huntracked : (t.untrack s.current).1.Polls := h.erase s.current
  rw [after_confirmation hs]
  rcases hw : Entries.find? t.waiting s.current with _ | handlers
  · rw [arrive_none (t := (t.untrack s.current).1) (c := receipt s.current a) hw]
    have hpolls : Polls { (t.untrack s.current).1 with
        unclaimed := Entries.insert t.unclaimed s.current (receipt s.current a) } := huntracked
    obtain ⟨hvisit, hcount⟩ := hpolls.visit s.checked (s.confirmed + 1) s.errors s.rest
    refine ⟨hvisit, fun tally => (hcount tally).trans ?_⟩
    cases tally <;> rfl
  · rw [arrive_some (t := (t.untrack s.current).1) (c := receipt s.current a) hw]
    have hpolls : Polls { (t.untrack s.current).1 with
        waiting := Entries.erase t.waiting s.current
        recent := t.recent.insert (receipt s.current a) } := huntracked
    obtain ⟨hvisit, hcount⟩ := hpolls.visit s.checked (s.confirmed + 1) s.errors s.rest
    refine ⟨hvisit, fun tally => (hcount tally).trans ?_⟩
    rw [Tally.lastOf_append, Tally.lastOf_dispatched]
    cases tally <;> rfl

theorem Polls.answer (h : t.Polls) (a : Except Ledger.Error (Option Confirmation)) :
    (t.after (.answer a)).1.Polls ∧ ∀ tally : Tally,
      tally.Reports t (t.after (.answer a)).1 (t.after (.answer a)).2 := by
  rcases hs : t.scan with _ | s
  · simp only [after, answered, hs]
    exact ⟨h, fun tally => by cases tally <;> rfl⟩
  · rcases a with e | _ | a
    · obtain ⟨hvisit, hcount⟩ := h.visit s.checked s.confirmed (s.errors + 1) s.rest
      simp only [after, answered, hs]
      refine ⟨hvisit, fun tally => (hcount tally).trans ?_⟩
      cases tally <;> rfl
    · obtain ⟨hvisit, hcount⟩ := h.visit s.checked s.confirmed s.errors s.rest
      simp only [after, answered, hs]
      refine ⟨hvisit, fun tally => (hcount tally).trans ?_⟩
      cases tally <;> rfl
    · exact h.confirmation hs a

/-- **Whatever happens to a tracker, it reports every change of its counts.** -/
theorem Polls.after (h : t.Polls) (m : Move H) : (t.after m).1.Polls ∧ ∀ tally : Tally,
    tally.Reports t (t.after m).1 (t.after m).2 := by
  cases m with
  | track workId => exact h.track workId
  | register workId handler isDone => exact h.register workId handler isDone
  | scan order => exact h.scan order
  | answer a => exact h.answer a

end Receipt.Tracker

/-! ## Gauges -/

namespace Gateway

variable {W : Type}

/-- The count in the tracker of a ledger. -/
def countAt (g : Gateway W) (tally : Tally) (ledgerId : String) : Nat :=
  (g.trackerAt ledgerId).elim 0 tally.count

/-- The count in all trackers together. -/
def total (g : Gateway W) (tally : Tally) : Nat := (g.desks.map fun d => tally.count d.tracker).sum

theorem total_eq {g : Gateway W} (h : g.ledgerIds.Nodup) (tally : Tally) :
    g.total tally = (g.ledgerIds.map (g.countAt tally)).sum := by
  rw [total, ledgerIds, List.map_map]
  refine congrArg List.sum (List.map_congr_left fun d hd => ?_)
  rw [Function.comp, countAt, trackerAt, desk?_of_mem h hd]
  rfl

end Gateway

/-- A sum is one of its terms exactly if the others are nothing. -/
theorem sum_eq_self_iff {ids : List String} (h : ids.Nodup) {k : String} (hk : k ∈ ids)
    (count : String → Nat) : (ids.map count).sum = count k ↔ ∀ j ∈ ids, j ≠ k → count j = 0 := by
  have hperm := List.perm_cons_erase hk
  rw [(hperm.map count).sum_eq, List.map_cons, List.sum_cons]
  have hzero : count k + ((ids.erase k).map count).sum = count k ↔
      ((ids.erase k).map count).sum = 0 := by omega
  rw [hzero, List.sum_eq_zero_iff_forall_eq_nat]
  constructor
  · intro hall j hj hne
    exact hall _ (List.mem_map_of_mem ((List.mem_erase_of_ne hne).2 hj))
  · rintro hall n hn
    obtain ⟨j, hj, rfl⟩ := List.mem_map.1 hn
    rw [h.mem_erase_iff] at hj
    exact hall j hj.2 hj.1

/-- A gateway whose trackers are at work, and which of them set each gauge last. -/
structure Panel (W : Type) where
  gateway : Gateway W
  setter : Tally → Option String

namespace Panel

variable {W : Type}

/-- The panel after a move of the tracker of a ledger. -/
def after (p : Panel W) (move : String × Receipt.Move Waiter) : Panel W where
  gateway := p.gateway.withTracker move.1 (·.after move.2)
  setter tally :=
    if (tally.lastOf (p.gateway.noticesOf move.1 (·.after move.2))).isSome then some move.1
    else p.setter tally

/-- The panel of a gateway after some moves of its trackers, in any order. -/
def of (g : Gateway W) (moves : List (String × Receipt.Move Waiter)) : Panel W :=
  moves.foldl after ⟨g, fun _ => none⟩

theorem of_concat (g : Gateway W) (moves : List (String × Receipt.Move Waiter))
    (move : String × Receipt.Move Waiter) : of g (moves ++ [move]) = (of g moves).after move := by
  simp [of, List.foldl_append]

/-- What holds while the trackers of some ledgers are at work. -/
structure Sound (ids : List String) (p : Panel W) : Prop where
  ledgers : p.gateway.ledgerIds = ids
  polls : ∀ k t, p.gateway.trackerAt k = some t → t.Polls
  /-- A gauge shows the count of who set it last. -/
  shown : ∀ tally, p.gateway.meters.read tally.meter =
    ((p.setter tally).elim 0 (p.gateway.countAt tally) : Nat)
  setters : ∀ tally k, p.setter tally = some k → k ∈ ids
  /-- As long as nobody has set it there is nothing to count. -/
  silent : ∀ tally, p.setter tally = none → ∀ k, p.gateway.countAt tally k = 0

section
variable {ids : List String} {p : Panel W} (h : p.Sound ids) (k : String)
  (m : Receipt.Move Waiter)
include h

theorem Sound.polls_after (j : String) (t' : Receipt.Tracker Waiter)
    (ht' : (p.after (k, m)).gateway.trackerAt j = some t') : t'.Polls := by
  have hop := (Gateway.operates_withTracker p.gateway k m).trackers j
  rw [after, hop] at ht'
  split at ht'
  · obtain ⟨t, ht, rfl⟩ := Option.map_eq_some_iff.1 ht'
    exact ((h.polls k t ht).after m).1
  · exact h.polls j t' ht'

/-- The count of a ledger whose tracker moves is what the tracker reports, if it does. -/
theorem Sound.countAt_after (tally : Tally) (j : String) :
    (p.after (k, m)).gateway.countAt tally j =
      if j = k then (tally.lastOf (p.gateway.noticesOf k (·.after m))).getD
        (p.gateway.countAt tally k)
      else p.gateway.countAt tally j := by
  have hop := (Gateway.operates_withTracker p.gateway k m).trackers j
  rw [after, Gateway.countAt, hop]
  split
  · rw [Gateway.noticesOf, Gateway.countAt]
    cases ht : p.gateway.trackerAt k with
    | none => rfl
    | some t => exact ((h.polls k t ht).after m).2 tally
  · rfl

/-- **One move leaves the gauges at the counts of those who set them last.** -/
theorem Sound.step : (p.after (k, m)).Sound ids := by
  have hop := Gateway.operates_withTracker p.gateway k m
  refine ⟨hop.ledgers.trans h.ledgers, h.polls_after k m, fun tally => ?_,
    fun tally j hsetter => ?_, fun tally hsilent => ?_⟩
  · show (p.gateway.withTracker k (·.after m)).meters.read tally.meter = _
    rw [hop.meters, Tally.read_observeAll, h.shown]
    have hcount := h.countAt_after k m tally
    cases hlast : tally.lastOf (p.gateway.noticesOf k (·.after m)) with
    | none =>
      have hsame : (p.after (k, m)).gateway.countAt tally = p.gateway.countAt tally := by
        funext j
        rw [hcount, hlast]
        split
        · rename_i hj
          rw [hj]
          rfl
        · rfl
      have hsetter : (p.after (k, m)).setter tally = p.setter tally := by simp [after, hlast]
      rw [hsame, hsetter]
      rfl
    | some n =>
      have hsetter : (p.after (k, m)).setter tally = some k := by simp [after, hlast]
      rw [hsetter, Option.elim_some, hcount, if_pos rfl, hlast]
      rfl
  · simp only [after] at hsetter
    split at hsetter
    · rename_i hreport
      obtain rfl := Option.some.inj hsetter
      cases ht : p.gateway.trackerAt k with
      | none =>
        rw [Gateway.noticesOf, ht] at hreport
        cases hreport
      | some t => exact h.ledgers ▸ Gateway.mem_ledgerIds ht
    · exact h.setters tally j hsetter
  · intro j
    have hlast : tally.lastOf (p.gateway.noticesOf k (·.after m)) = none := by
      by_contra hsome
      simp [after, Option.isSome_iff_ne_none, hsome] at hsilent
    have hbefore : p.setter tally = none := by simpa [after, hlast] using hsilent
    rw [h.countAt_after k m tally, hlast]
    split
    · exact h.silent tally hbefore k
    · exact h.silent tally hbefore j

end

/-- When a gateway is built its trackers have nothing to count. -/
theorem sound_build {c : Config} {f : Fittings} {w : W} {g : Gateway W}
    (h : Gateway.build c f w = .ok g) : (of g []).Sound g.ledgerIds := by
  have hbuilt := Gateway.built_of h
  have hmeters : g.meters = {} := by rw [hbuilt.fresh]; rfl
  refine ⟨rfl, fun k t ht => ?_, fun tally => ?_, fun tally k hk => ?_,
    fun tally _ k => ?_⟩
  · have hnew : g.trackerAt k = some t := ht
    rw [hbuilt.trackerAt k] at hnew
    split at hnew
    · cases hnew
      exact List.Pairwise.nil
    · cases hnew
  · show g.meters.read tally.meter = 0
    rw [hmeters]
    cases tally <;> rfl
  · cases hk
  · show g.countAt tally k = 0
    rw [Gateway.countAt, hbuilt.trackerAt k]
    split
    · cases tally <;> rfl
    · rfl

/-- **Whatever the trackers of a gateway do**, a gauge shows the count of who set it last. -/
theorem sound_of {c : Config} {f : Fittings} {w : W} {g : Gateway W}
    (h : Gateway.build c f w = .ok g) (moves : List (String × Receipt.Move Waiter)) :
    (of g moves).Sound g.ledgerIds := by
  induction moves using List.reverseRecOn with
  | nil => exact sound_build h
  | append_singleton moves move ih =>
    rw [of_concat]
    exact ih.step move.1 move.2

/-- What the gauges of a gateway show. -/
structure Gauged (p : Panel W) : Prop where
  /-- A gauge shows what the tracker counts that set it last, and nothing before. -/
  shown : ∀ tally, p.gateway.meters.read tally.meter =
    ((p.setter tally).elim 0 (p.gateway.countAt tally) : Nat)
  /-- That is the total exactly if the other trackers have nothing to count. -/
  total : ∀ tally, p.gateway.meters.read tally.meter = (p.gateway.total tally : Nat) ↔
    ∀ k ∈ p.gateway.ledgerIds, p.setter tally ≠ some k → p.gateway.countAt tally k = 0

/-- **What the gauges of a gateway show**, after whatever its trackers have done, in any
    order. -/
theorem gauged_of {c : Config} {f : Fittings} {w : W} {g : Gateway W}
    (h : Gateway.build c f w = .ok g) (moves : List (String × Receipt.Move Waiter)) :
    (of g moves).Gauged := by
  have hsound := sound_of h moves
  have hnodup : (of g moves).gateway.ledgerIds.Nodup := by
    rw [hsound.ledgers]
    exact (Gateway.built_of h).nodup
  refine ⟨hsound.shown, fun tally => ?_⟩
  rw [hsound.shown, Gateway.total_eq hnodup, Int.ofNat_inj]
  cases hsetter : (of g moves).setter tally with
  | none =>
    have hzero := hsound.silent tally hsetter
    constructor
    · intro _ k _ _
      exact hzero k
    · intro _
      refine (List.sum_eq_zero fun n hn => ?_).symm
      obtain ⟨k, -, rfl⟩ := List.mem_map.1 hn
      exact hzero k
  | some k =>
    have hk : k ∈ (of g moves).gateway.ledgerIds := by
      rw [hsound.ledgers]
      exact hsound.setters tally k hsetter
    rw [Option.elim_some, eq_comm, sum_eq_self_iff hnodup hk]
    simp only [ne_eq, Option.some.injEq, eq_comm]

/-- A configuration of two ledgers. -/
def twoLedgers : Config :=
  { ledgers := [{ id := "a", brand := .besu, isDefault := true }, { id := "b", brand := .besu }] }

/-- Work is tracked on both ledgers, last on the second. -/
def tracked : List (String × Receipt.Move Waiter) :=
  [("a", .track "0x1"), ("a", .track "0x2"), ("b", .track "0x3")]

/-- Three units of work are polled for, and the gauge shows the one that was tracked last. -/
theorem gauged_tracked : ∃ g : Gateway Stage,
    Gateway.build twoLedgers Gateway.plainFittings Stage.empty = .ok g ∧
      (of g tracked).gateway.meters.pending = 1 ∧ (of g tracked).gateway.total .pending = 3 ∧
      ¬∀ k ∈ (of g tracked).gateway.ledgerIds, (of g tracked).setter .pending ≠ some k →
        (of g tracked).gateway.countAt .pending k = 0 := by
  obtain ⟨g, hbuild, hsetter, hb, htotal⟩ : ∃ g : Gateway Stage,
      Gateway.build twoLedgers Gateway.plainFittings Stage.empty = .ok g ∧
        (of g tracked).setter .pending = some "b" ∧
        (of g tracked).gateway.countAt .pending "b" = 1 ∧
        (of g tracked).gateway.total .pending = 3 :=
    ⟨_, rfl, rfl, rfl, rfl⟩
  have h := gauged_of hbuild tracked
  have hshown : (of g tracked).gateway.meters.pending = 1 := by
    have hb' := h.shown .pending
    rwa [hsetter, Option.elim_some, hb] at hb'
  refine ⟨g, hbuild, hshown, htotal, fun hothers => ?_⟩
  have htotal' := (h.total .pending).2 hothers
  rw [htotal] at htotal'
  exact absurd (hshown.symm.trans htotal') (by decide)

end Panel

end LedgerGate
