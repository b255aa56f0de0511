/-
  What a gateway does when no handler is dropped, which is always.

  A gateway would tell who waits for a receipt that the handler was dropped.  Trackers lose no
  handler, so this is never told: what a gateway takes note of is what its trackers hand out.

  * `withTracker_after`, `scan_eq`, `finishScan_eq`: operations of trackers and scans;
  * `Receipt.Tracker.keeps_prepare`: whoever waits already is not dropped either;
  * `Desk.prospect_prepare`: work that is prepared has its receipt at hand or awaits it.
-/
import LedgerGate.Gateway.Run
import LedgerGate.Proofs.Receipt.Award
import LedgerGate.Proofs.Receipt.Keeping

namespace LedgerGate

namespace Gateway

variable {W : Type}

@[simp]
theorem abandonAll_nil (g : Gateway W) (k : String) : g.abandonAll k [] = g := rfl

/-- **An operation of a tracker**, and what it hands out. -/
theorem withTracker_after (g : Gateway W) (k : String) (m : Receipt.Move Waiter) :
    g.withTracker k (·.after m) =
      (g.withDesk k [] fun d =>
        ((d.tracker.after m).2, { d with tracker := (d.tracker.after m).1 })).2.absorb k
      (g.withDesk k [] fun d =>
        ((d.tracker.after m).2, { d with tracker := (d.tracker.after m).1 })).1 := by
  unfold withTracker withDesk
  cases g.desk? k with
  | none => rfl
  | some d =>
    dsimp only
    rw [Receipt.Tracker.lost_after, abandonAll_nil]

variable [Outside W]

/-- **The end of a scan**, and what it hands out. -/
theorem finishScan_eq (g : Gateway W) (k : String) : g.finishScan k =
    match g.desk? k with
    | none => (none, g)
    | some d =>
      match d.tracker.scan with
      | none => (none, g)
      | some s =>
        let (tracker, notices, report, outside) :=
          d.tracker.runScan (askOutside k) (s.rest.length + 1) g.outside
        let g := { g with outside }
        let g := g.updateDesk k fun d => { d with tracker, audience := none }
        let g := g.absorb k notices
        match report with
        | some r => (some r, g.reportScan d.audience r)
        | none => (none, g) := by
  unfold finishScan
  cases g.desk? k with
  | none => rfl
  | some d =>
    dsimp only
    cases d.tracker.scan with
    | none => rfl
    | some s =>
      have hlost := d.tracker.lost_runScan (askOutside k) (s.rest.length + 1) g.outside
      dsimp only
      rcases hrun : d.tracker.runScan (askOutside k) (s.rest.length + 1) g.outside with
        ⟨tracker, notices, _ | report, outside⟩ <;>
        rw [hrun] at hlost <;> dsimp only at hlost ⊢ <;> rw [hlost, abandonAll_nil]

/-- **A scan**, and what its beginning hands out. -/
theorem scan_eq (g : Gateway W) (k : String) (audience : Option String) : g.scan k audience =
    match g.desk? k with
    | none => (none, g)
    | some d =>
      match d.tracker.beginScan with
      | (tracker, notices, some report) =>
        let g := g.updateDesk k fun d => { d with tracker }
        (some report, (g.absorb k notices).reportScan audience report)
      | (tracker, notices, none) =>
        let g := g.updateDesk k fun d => { d with tracker, audience }
        let g := g.absorb k notices
        if g.held then (none, g) else g.finishScan k := by
  unfold scan
  cases g.desk? k with
  | none => rfl
  | some d =>
    have hlost := d.tracker.lost_beginScan
    dsimp only
    rcases hbegun : d.tracker.beginScan with ⟨tracker, notices, _ | report⟩ <;>
      rw [hbegun] at hlost <;> dsimp only at hlost ⊢ <;> rw [hlost, abandonAll_nil]

end Gateway

/-! ## Work that is prepared -/

/-- What there is to look forward to where no handler is dropped. -/
def Receipt.Prospect.of : Option Confirmation → Receipt.Prospect
  | some c => .atHand c
  | none => .awaited

/-- The handler of work that is prepared waits, unless the receipt is at hand. -/
theorem Receipt.Tracker.mem_handlersOf_prepare {H : Type} {t : Tracker H} {workId : WorkId}
    (hheld : t.held? workId = none) (h : H) : h ∈ (t.prepare workId h).1.handlersOf workId := by
  obtain ⟨hunclaimed, hrecent⟩ := Option.or_eq_none_iff.1 hheld
  have hqueued : ((t.track workId).1.register workId h false).1 = { (t.track workId).1 with
      waiting := Entries.insert t.waiting workId (t.handlersOf workId ++ [h]) } := by
    unfold register
    rw [if_neg Bool.false_ne_true]
    simp only [track, hunclaimed, hrecent]
    rfl
  show h ∈ ((t.track workId).1.register workId h false).1.handlersOf workId
  rw [hqueued, handlersOf_insert rfl, if_pos rfl]
  exact List.mem_append_right _ List.mem_cons_self

/-- What preparing work hands out is for whoever waits for its receipt. -/
theorem Receipt.Tracker.waiter_of_prepare {H : Type} (t : Tracker H) (workId : WorkId) (h : H) :
    ∀ d ∈ dispatches (t.prepare workId h).2, d.1 = h := by
  have heffect := (t.track workId).1.register_effect workId h false
  have hdispatches : dispatches (t.prepare workId h).2 =
      dispatches ((t.track workId).1.after (.register workId h false)).2 := rfl
  rw [hdispatches]
  generalize dispatches ((t.track workId).1.after (.register workId h false)).2 = ds at heffect
  cases heffect with
  | claimed => exact fun d hd => List.mem_singleton.1 hd ▸ rfl
  | recalled => exact fun d hd => List.mem_singleton.1 hd ▸ rfl
  | quiet => exact fun d hd => by cases hd
  | queued => exact fun d hd => by cases hd

/-- Whoever waits already still does when work is prepared. -/
theorem Receipt.Tracker.keeps_prepare {H : Type} {t : Tracker H} {h : H} (hh : h ∈ t.handlers)
    (workId : WorkId) {h' : H} (hne : h ≠ h') : h ∈ (t.prepare workId h').1.handlers := by
  have htrack : dispatches (t.after (.track workId)).2 = [] := rfl
  have hkept := (t.after_effect (.track workId)).keeps hh
  rw [htrack, List.map_nil, or_iff_left List.not_mem_nil] at hkept
  rcases ((t.track workId).1.register_effect workId h' false).keeps hkept with hstays | hgone
  · exact hstays
  · obtain ⟨d, hd, rfl⟩ := List.mem_map.1 hgone
    have hdispatched : d ∈ dispatches (t.prepare workId h').2 := by
      show d ∈ dispatches ((t.track workId).2 ++ _)
      rw [dispatches_append]
      exact List.mem_append_right _ hd
    exact absurd (t.waiter_of_prepare workId h' d hdispatched) hne

/-- The receipt that is handed out when work is prepared is the one that its tracker holds. -/
theorem Desk.receiptFor?_prepare (t : Receipt.Tracker Waiter) (workId : WorkId) (w : Waiter) :
    receiptFor? w (t.prepare workId w).2 = t.held? workId := by
  simp only [Receipt.Tracker.prepare, Receipt.Tracker.track, Receipt.Tracker.register,
    Receipt.Tracker.held?, Bool.false_eq_true, if_false]
  cases Entries.find? t.unclaimed workId with
  | some c => simp [receiptFor?, Receipt.Notice.dispatch?]
  | none =>
    cases t.recent.find? workId with
    | some c => simp [receiptFor?, Receipt.Notice.dispatch?]
    | none => simp [receiptFor?, Receipt.Notice.dispatch?]

/-- **Who waits for work that is prepared** has the receipt at hand, if the tracker holds it,
    or awaits it; the handler is not dropped. -/
theorem Desk.prospect_prepare (d : Desk) (workId : WorkId) (w : Waiter) :
    (d.prepare workId w).2.2 = .of (d.tracker.held? workId) := by
  show prospect w workId _ _ = _
  rw [prospect, receiptFor?_prepare]
  cases hheld : d.tracker.held? workId with
  | some c => rfl
  | none =>
    have hwaits := Receipt.Tracker.mem_handlersOf_prepare hheld w
    dsimp only
    rw [if_pos (List.contains_iff_mem.2 hwaits)]
    rfl

end LedgerGate
