/-
  The order of a scan: it does the same whatever comes first.

  What a tracker has of one id is its row.  An answer about an id changes the row of that id
  and no other, so the answers about different ids do not disturb each other.

  * `Tracker.scanOf`: a whole scan over some ids in their order; `scanAll` is one of these;
  * `Row`, `Row.answered`: what a tracker has of an id, and what an answer makes of it;
  * `Tracker.Filed`: a tracker whose tables hold each id once (`History.filed_of`), so that the
    rows settle the tables (`Tracker.Filed.ext`);
  * `Tracker.met`: the tracker after one question and its answer; `scanOf_eq`: a scan is a fold
    of them;
  * `commutes_of`: **a scan does the same in any order**.
-/
import LedgerGate.Proofs.Receipt.Holding
import LedgerGate.Proofs.Receipt.Polling

namespace LedgerGate.Receipt

variable {H : Type}

/-- What a ledger says of each id. -/
abbrev Answers : Type := WorkId → Except Ledger.Error (Option Confirmation)

namespace Answers

/-- The receipt of an id that is confirmed. -/
def receipt? (answers : Answers) (w : WorkId) : Option Confirmation :=
  match answers w with
  | .ok (some c) => some (receipt w c)
  | .ok none | .error _ => none

/-- Whether an id is confirmed. -/
def confirms (answers : Answers) (w : WorkId) : Bool := (answers.receipt? w).isSome

/-- Whether the question about an id fails. -/
def fails (answers : Answers) (w : WorkId) : Bool :=
  match answers w with
  | .error _ => true
  | .ok _ => false

/-- Answers, and a record of what was asked about. -/
def recorded (answers : Answers) (w : WorkId) (asked : List WorkId) :
    Except Ledger.Error (Option Confirmation) × List WorkId := (answers w, asked ++ [w])

end Answers

/-! ## Scans in an order -/

/-- A whole scan without interruption that asks about some ids in their order. -/
def Tracker.scanOf {σ : Type} (ask : WorkId → σ → Except Ledger.Error (Option Confirmation) × σ)
    (t : Tracker H) (order : List WorkId) (s : σ) : Tracker H × List (Notice H) × Report × σ :=
  match t.beginScanOf order with
  | (t, notices, some report) => (t, notices, report, s)
  | (t, notices, none) =>
    let rest := runScan ask t.pending.length t s
    (rest.1, notices ++ rest.2.1, rest.2.2.1.getD .skipped, rest.2.2.2)

/-! ## Rows -/

/-- What a tracker has of one id. -/
structure Row (H : Type) where
  attempts : Option Nat
  waiting : Option (List H)
  unclaimed : Option Confirmation

/-- What a tracker has of an id. -/
def Tracker.row (t : Tracker H) (w : WorkId) : Row H :=
  ⟨t.attempts? w, Entries.find? t.waiting w, Entries.find? t.unclaimed w⟩

/-- What becomes of an id that is asked about: with a receipt it is no longer polled for, and
    those who wait are served or the receipt is kept; without one it has an attempt more. -/
def Row.answered (r : Row H) : Option Confirmation → Row H
  | some c => ⟨none, none, if r.waiting.isSome then r.unclaimed else some c⟩
  | none => { r with attempts := r.attempts.map (· + 1) }

/-- The tables of a tracker hold each id once. -/
structure Tracker.Filed (t : Tracker H) : Prop where
  pending : Entries.Increasing t.pending
  waiting : Entries.Increasing t.waiting
  unclaimed : Entries.Increasing t.unclaimed

/-- The rows settle the tables. -/
theorem Tracker.Filed.ext {t t' : Tracker H} (h : t.Filed) (h' : t'.Filed)
    (hrows : ∀ w, t.row w = t'.row w) :
    t.pending = t'.pending ∧ t.waiting = t'.waiting ∧ t.unclaimed = t'.unclaimed :=
  ⟨h.pending.ext h'.pending fun w => congrArg Row.attempts (hrows w),
    h.waiting.ext h'.waiting fun w => congrArg Row.waiting (hrows w),
    h.unclaimed.ext h'.unclaimed fun w => congrArg Row.unclaimed (hrows w)⟩

/-- Every move leaves the ids that are polled for in order. -/
theorem Tracker.increasing_after (t : Tracker H) (h : Entries.Increasing t.pending) (m : Move H) :
    Entries.Increasing (t.after m).1.pending := by
  cases m with
  | track w => exact track_increasing h w
  | register w handler isDone =>
    show Entries.Increasing (t.register w handler isDone).1.pending
    rw [(t.register_keeps w handler isDone).1]
    exact h
  | scan order =>
    simp only [after, beginScanOf]
    split
    · exact h
    · exact (goesOn_visit t 0 0 0 order).increasing h
  | answer a =>
    rcases hscan : t.scan with _ | scan
    · simp only [after, answered, hscan]
      exact h
    · obtain ⟨u, htakes, hgoes⟩ := goesOn_answered hscan a
      exact hgoes.increasing (htakes.increasing h)

/-- In every history the tables hold each id once. -/
theorem History.filed_of (capacity : Nat) (moves : List (Move H)) :
    (of capacity moves).tracker.Filed := by
  have hpending : Entries.Increasing (of capacity moves).tracker.pending := by
    induction moves using List.reverseRecOn with
    | nil => exact List.Pairwise.nil
    | append_singleton moves m ih =>
      rw [of_concat]
      exact (of capacity moves).tracker.increasing_after ih m
  have horderly := orderly_of capacity moves
  exact ⟨hpending, horderly.waiting, horderly.unclaimed⟩

/-! ## One question -/

namespace Tracker

variable {t : Tracker H} {answers : Answers} {w v : WorkId}

/-- A tracker whose scan is over. -/
def freed (t : Tracker H) : Tracker H := { t with scan := none }

/-- The tracker after a question about an id that is polled for. -/
def asked (t : Tracker H) (w : WorkId) : Tracker H :=
  { t with pending := Entries.insert t.pending w ((t.attempts? w).getD 0 + 1) }

/-- The tracker after a question about an id and its answer. -/
def met (answers : Answers) (t : Tracker H) (w : WorkId) : Tracker H :=
  match answers.receipt? w with
  | some c => ((t.untrack w).1.arrive c).1
  | none => t.asked w

/-- The handlers that the answer about an id serves, with what they get. -/
def served (answers : Answers) (t : Tracker H) (w : WorkId) : List (H × Confirmation) :=
  match answers.receipt? w with
  | some c => (t.handlersOf w).map (·, c)
  | none => []

theorem row_asked (hw : t.attempts? w ≠ none) (v : WorkId) :
    (t.asked w).row v = if v = w then (t.row v).answered none else t.row v := by
  obtain ⟨n, hn⟩ := Option.ne_none_iff_exists'.1 hw
  split
  · rename_i hv
    subst hv
    simp [row, asked, Row.answered, attempts?, show Entries.find? t.pending v = some n from hn]
  · rename_i hv
    simp [row, asked, attempts?, Entries.find?_insert_ne _ _ hv]

theorem row_received {c : Confirmation} (hc : c.workId = w) (v : WorkId) :
    ((t.untrack w).1.arrive c).1.row v =
      if v = w then (t.row v).answered (some c) else t.row v := by
  subst hc
  rcases hwaiting : Entries.find? t.waiting c.workId with _ | handlers
  · rw [arrive_none (t := (t.untrack c.workId).1) hwaiting]
    split
    · rename_i hv
      subst hv
      simp [row, untrack, Row.answered, attempts?, hwaiting]
    · rename_i hv
      simp [row, untrack, attempts?, Entries.find?_erase_ne _ hv, Entries.find?_insert_ne _ _ hv]
  · rw [arrive_some (t := (t.untrack c.workId).1) hwaiting]
    split
    · rename_i hv
      subst hv
      simp [row, untrack, Row.answered, attempts?, hwaiting]
    · rename_i hv
      simp [row, untrack, attempts?, Entries.find?_erase_ne _ hv]

theorem receipt?_workId {c : Confirmation} (h : answers.receipt? w = some c) : c.workId = w := by
  unfold Answers.receipt? at h
  split at h
  · cases h
    rfl
  · cases h
  · cases h

/-- **A question changes the row of its id, and no other.** -/
theorem row_met (hw : t.attempts? w ≠ none) (v : WorkId) :
    (t.met answers w).row v =
      if v = w then (t.row v).answered (answers.receipt? v) else t.row v := by
  have hanswer : v = w → answers.receipt? v = answers.receipt? w := by
    rintro rfl
    rfl
  unfold met
  split
  · rename_i c hc
    rw [row_received (receipt?_workId hc)]
    split_ifs with hv
    · rw [hanswer hv, hc]
    · rfl
  · rename_i hnone
    rw [row_asked hw]
    split_ifs with hv
    · rw [hanswer hv, hnone]
    · rfl

theorem row_met_ne (hw : t.attempts? w ≠ none) (hv : v ≠ w) :
    (t.met answers w).row v = t.row v := by
  rw [row_met hw, if_neg hv]

theorem Filed.met (h : t.Filed) (w : WorkId) : (t.met answers w).Filed := by
  unfold Tracker.met
  split
  · rename_i c hc
    rcases hwaiting : Entries.find? t.waiting c.workId with _ | handlers
    · rw [arrive_none (t := (t.untrack w).1) hwaiting]
      exact ⟨h.pending.erase _, h.waiting, h.unclaimed.insert _ _⟩
    · rw [arrive_some (t := (t.untrack w).1) hwaiting]
      exact ⟨h.pending.erase _, h.waiting.erase _, h.unclaimed⟩
  · exact ⟨h.pending.insert _ _, h.waiting, h.unclaimed⟩

theorem scan_met (answers : Answers) (t : Tracker H) (w : WorkId) :
    (t.met answers w).scan = t.scan := by
  unfold met
  split
  · unfold arrive
    split <;> rfl
  · rfl

/-! ## A whole scan -/

/-- **A question about each of some ids changes their rows, and no others.** -/
theorem row_foldl_met {order : List WorkId} (hnodup : order.Nodup)
    (hpolled : ∀ w ∈ order, t.attempts? w ≠ none) (v : WorkId) :
    (order.foldl (met answers) t).row v =
      if v ∈ order then (t.row v).answered (answers.receipt? v) else t.row v := by
  induction order generalizing t with
  | nil => rfl
  | cons w order ih =>
    obtain ⟨hw, hnodup⟩ := List.nodup_cons.1 hnodup
    obtain ⟨hpolledHere, hpolled⟩ := List.forall_mem_cons.1 hpolled
    have hrow : ∀ x ≠ w, (t.met answers w).row x = t.row x := fun x => row_met_ne hpolledHere
    rw [List.foldl_cons, ih hnodup]
    · by_cases hv : v = w
      · subst hv
        rw [if_neg hw, if_pos List.mem_cons_self, row_met hpolledHere, if_pos rfl]
      · rw [hrow v hv]
        simp [hv]
    · intro x hx
      have hne : x ≠ w := ne_of_mem_of_not_mem hx hw
      rw [show (t.met answers w).attempts? x = t.attempts? x from
        congrArg Row.attempts (hrow x hne)]
      exact hpolled x hx

theorem Filed.foldl_met {order : List WorkId} (h : t.Filed) :
    (order.foldl (Tracker.met answers) t).Filed := by
  induction order generalizing t with
  | nil => exact h
  | cons w order ih => exact ih (h.met w)

theorem scan_foldl_met (answers : Answers) (t : Tracker H) (order : List WorkId) :
    (order.foldl (met answers) t).scan = t.scan := by
  induction order generalizing t with
  | nil => rfl
  | cons w order ih => rw [List.foldl_cons, ih, scan_met]

/-- A scan that has gone on: it is over, or its questions are answered. -/
def proceed {σ : Type} (ask : WorkId → σ → Except Ledger.Error (Option Confirmation) × σ)
    (fuel : Nat) (visited : Tracker H × Option Report) (s : σ) :
    Tracker H × List (Notice H) × Option Report × σ :=
  match visited.2 with
  | some report => (visited.1, [], some report, s)
  | none => runScan ask fuel visited.1 s

theorem runScan_succ {σ : Type}
    (ask : WorkId → σ → Except Ledger.Error (Option Confirmation) × σ) (fuel : Nat) {scan : Scan}
    (hscan : t.scan = some scan) (s : σ) :
    runScan ask (fuel + 1) t s =
      let answered := t.answered (ask scan.current s).1
      let rest := proceed ask fuel (answered.1, answered.2.2) (ask scan.current s).2
      (rest.1, answered.2.1 ++ rest.2.1, rest.2.2) := by
  rw [runScan, hscan]
  dsimp only
  rcases t.answered (ask scan.current s).1 with ⟨u, notices, _ | report⟩
  · rfl
  · simp [proceed]

/-- The tracker while a question about an id of a scan is open. -/
def awaiting (u : Tracker H) (scan : Scan) : Tracker H :=
  { u.asked scan.current with scan := some scan }

/-- A receipt settles the question that is open. -/
theorem received_awaiting (u : Tracker H) (scan : Scan) {c : Confirmation}
    (hc : c.workId = scan.current) :
    (((u.awaiting scan).untrack scan.current).1.arrive c).1.freed =
        ((u.freed.untrack scan.current).1.arrive c).1 ∧
      dispatches (((u.awaiting scan).untrack scan.current).1.arrive c).2 =
        (u.handlersOf scan.current).map (·, c) := by
  obtain ⟨w, rest, checked, confirmed, errors⟩ := scan
  dsimp only at hc ⊢
  subst hc
  rcases hwaiting : Entries.find? u.waiting c.workId with _ | handlers
  · rw [arrive_none (t := ((u.awaiting ⟨_, rest, checked, confirmed, errors⟩).untrack _).1) hwaiting,
      arrive_none (t := (u.freed.untrack c.workId).1) hwaiting]
    simp [awaiting, freed, untrack, Entries.erase_insert_self, handlersOf, hwaiting, asked,
      dispatches, Notice.dispatch?]
  · rw [arrive_some (t := ((u.awaiting ⟨_, rest, checked, confirmed, errors⟩).untrack _).1) hwaiting,
      arrive_some (t := (u.freed.untrack c.workId).1) hwaiting, dispatches_map]
    simp [awaiting, freed, untrack, Entries.erase_insert_self, handlersOf, hwaiting, asked]

/-- An answer is taken in, and the scan goes on. -/
theorem answered_awaiting (u : Tracker H) (scan : Scan) (answers : Answers) :
    ∃ (u' : Tracker H) (notices : List (Notice H)),
      (u.awaiting scan).answered (answers scan.current) =
        (let visited := u'.visit scan.checked
          (scan.confirmed + if answers.confirms scan.current then 1 else 0)
          (scan.errors + if answers.fails scan.current then 1 else 0) scan.rest
        (visited.1, notices, visited.2)) ∧
      u'.freed = u.freed.met answers scan.current ∧
      dispatches notices = u.served answers scan.current := by
  rcases hanswer : answers scan.current with e | _ | c
  · refine ⟨u.awaiting scan, [.queryFailed], ?_, ?_, ?_⟩
    · simp [answered, awaiting, Answers.confirms, Answers.receipt?, Answers.fails, hanswer]
    · simp [met, Answers.receipt?, hanswer, freed, awaiting, asked, attempts?]
    · simp [served, Answers.receipt?, hanswer, dispatches, Notice.dispatch?]
  · refine ⟨u.awaiting scan, [], ?_, ?_, ?_⟩
    · simp [answered, awaiting, Answers.confirms, Answers.receipt?, Answers.fails, hanswer]
    · simp [met, Answers.receipt?, hanswer, freed, awaiting, asked, attempts?]
    · simp [served, Answers.receipt?, hanswer, dispatches]
  · have hc : answers.receipt? scan.current = some (receipt scan.current c) := by
      simp [Answers.receipt?, hanswer]
    obtain ⟨hfreed, hserved⟩ := u.received_awaiting scan (receipt_workId scan.current c)
    refine ⟨(((u.awaiting scan).untrack scan.current).1.arrive (receipt scan.current c)).1,
      ((u.awaiting scan).untrack scan.current).2 ++ [.confirmed] ++
        (((u.awaiting scan).untrack scan.current).1.arrive (receipt scan.current c)).2, ?_, ?_, ?_⟩
    · have hscan : (u.awaiting scan).scan = some scan := rfl
      simp only [answered, hscan, Answers.confirms, hc, Option.isSome_some, if_true]
      simp only [Answers.fails, hanswer, Bool.false_eq_true, if_false, Nat.add_zero]
      rfl
    · rw [hfreed, met, hc]
    · rw [dispatches_append, hserved, served, hc]
      simp [dispatches, untrack, Notice.dispatch?]

/-- **A scan that goes on asks about its ids one after the other.** -/
theorem proceed_visit (answers : Answers) {order : List WorkId} (hnodup : order.Nodup)
    {u : Tracker H} (hpolled : ∀ w ∈ order, u.attempts? w ≠ none) {fuel : Nat}
    (hfuel : order.length ≤ fuel) (checked confirmed errors : Nat) (s : List WorkId) :
    ∃ notices, proceed answers.recorded fuel (u.visit checked confirmed errors order) s =
        (order.foldl (met answers) u.freed, notices,
          some (.completed (checked + order.length) (confirmed + order.countP answers.confirms)
            (errors + order.countP answers.fails)), s ++ order) ∧
      dispatches notices = order.flatMap (u.served answers) := by
  induction order generalizing u fuel checked confirmed errors s with
  | nil => exact ⟨[], by simp [proceed, visit, freed], rfl⟩
  | cons w order ih =>
    obtain ⟨hw, hnodup⟩ := List.nodup_cons.1 hnodup
    obtain ⟨hpolledHere, hpolled⟩ := List.forall_mem_cons.1 hpolled
    obtain ⟨n, hn⟩ := Option.ne_none_iff_exists'.1 hpolledHere
    obtain ⟨fuel, rfl⟩ : ∃ k, fuel = k + 1 := ⟨fuel - 1, by simp at hfuel; omega⟩
    obtain ⟨u', notices, hanswered, hfreed, hdispatched⟩ :=
      u.answered_awaiting ⟨w, order, checked + 1, confirmed, errors⟩ answers
    dsimp only at hanswered hfreed hdispatched
    have hrow : ∀ x ≠ w, u'.row x = u.row x := by
      intro x hx
      show u'.freed.row x = u.freed.row x
      rw [hfreed, row_met_ne (t := u.freed) hpolledHere hx]
    have hvisit : u.visit checked confirmed errors (w :: order) =
        (u.awaiting ⟨w, order, checked + 1, confirmed, errors⟩, none) := by
      simp [visit, hn, awaiting, asked]
    have hpolled' : ∀ x ∈ order, u'.attempts? x ≠ none := by
      intro x hx
      have hsame : u'.attempts? x = u.attempts? x :=
        congrArg Row.attempts (hrow x (ne_of_mem_of_not_mem hx hw))
      rw [hsame]
      exact hpolled x hx
    have hfuel' : order.length ≤ fuel := by simpa using hfuel
    obtain ⟨rest, hrest, hrestDispatched⟩ := ih hnodup hpolled' hfuel' (checked + 1)
      (confirmed + if answers.confirms w then 1 else 0)
      (errors + if answers.fails w then 1 else 0) (s ++ [w])
    refine ⟨notices ++ rest, ?_, ?_⟩
    · rw [hvisit, proceed, runScan_succ _ _ rfl]
      dsimp only [Answers.recorded]
      rw [hanswered]
      dsimp only
      rw [hrest, hfreed]
      simp [List.countP_cons, Nat.add_comm, Nat.add_left_comm]
    · rw [dispatches_append, hdispatched, hrestDispatched, List.flatMap_cons]
      congr 1
      refine List.flatMap_congr fun x hx => ?_
      unfold served
      rw [show u'.handlersOf x = u.handlersOf x from
        congrArg (Option.getD · []) (congrArg Row.waiting (hrow x (ne_of_mem_of_not_mem hx hw)))]

/-- Going on adds no entry to the ids that are polled for. -/
theorem length_visit (h : Entries.Increasing t.pending) (checked confirmed errors : Nat)
    (order : List WorkId) :
    (t.visit checked confirmed errors order).1.pending.length = t.pending.length := by
  induction order with
  | nil => rfl
  | cons w order ih =>
    unfold visit
    split
    · rename_i n hn
      exact h.length_insert (Entries.mem_keys_of_find? hn) _
    · exact ih

/-- A scan begins, and goes on. -/
theorem scanOf_proceed {σ : Type}
    (ask : WorkId → σ → Except Ledger.Error (Option Confirmation) × σ) (ht : t.scan = none)
    (order : List WorkId) (s : σ) :
    t.scanOf ask order s =
      let rest := proceed ask (t.visit 0 0 0 order).1.pending.length (t.visit 0 0 0 order) s
      (rest.1, .scanBegun :: rest.2.1, rest.2.2.1.getD .skipped, rest.2.2.2) := by
  simp only [scanOf, beginScanOf, ht]
  rcases t.visit 0 0 0 order with ⟨u, _ | report⟩ <;> rfl

theorem attempts?_of_mem {w : WorkId} (hw : w ∈ t.pendingIds) : t.attempts? w ≠ none := by
  intro hnone
  exact Entries.find?_eq_none_iff.1 hnone hw

/-- **A scan is a question about each of its ids.** -/
theorem scanOf_eq (ht : t.scan = none) (h : t.Filed) (answers : Answers) {order : List WorkId}
    (horder : order.Perm t.pendingIds) (s : List WorkId) :
    ∃ notices, t.scanOf answers.recorded order s =
        (order.foldl (met answers) t, notices,
          .completed order.length (order.countP answers.confirms) (order.countP answers.fails),
          s ++ order) ∧
      dispatches notices = order.flatMap (t.served answers) := by
  have hfuel : order.length ≤ (t.visit 0 0 0 order).1.pending.length := by
    rw [length_visit h.pending, horder.length_eq, pendingIds, List.length_map]
  obtain ⟨notices, hproceed, hdispatched⟩ := proceed_visit answers
    (horder.nodup_iff.2 h.pending.nodup) (fun w hw => attempts?_of_mem (horder.mem_iff.1 hw))
    hfuel 0 0 0 s
  have hfreed : t.freed = t := by
    rw [freed, ← ht]
  rw [hfreed] at hproceed
  simp only [Nat.zero_add] at hproceed
  refine ⟨.scanBegun :: notices, ?_, ?_⟩
  · rw [scanOf_proceed answers.recorded ht, hproceed]
    rfl
  · rw [← hdispatched]
    rfl

end Tracker

/-! ## In any order -/

/-- What a scan without interruption does to a tracker if the ledger has some answers. -/
structure Scans (answers : Answers) (t : Tracker H) (order : List WorkId)
    (result : Tracker H × List (Notice H) × Report × List WorkId) : Prop where
  /-- What was polled for has its answer, and of no other id anything changes. -/
  rows : ∀ w, result.1.row w =
    if w ∈ t.pendingIds then (t.row w).answered (answers.receipt? w) else t.row w
  /-- The tables stay in order, and the scan is over. -/
  filed : result.1.Filed
  free : result.1.scan = none
  /-- All ids were asked about, in their order. -/
  asked : result.2.2.2 = order
  /-- The report counts the ids and the answers. -/
  report : result.2.2.1 = .completed t.pendingIds.length (t.pendingIds.countP answers.confirms)
    (t.pendingIds.countP answers.fails)
  /-- Those who waited for a receipt that came are served, in the order they came. -/
  dispatched : dispatches result.2.1 = order.flatMap (t.served answers)

/-- Two scans did the same.  The memory of receipts is left out: a small one keeps the last that
    were served. -/
structure SameScan (result result' : Tracker H × List (Notice H) × Report × List WorkId) :
    Prop where
  pending : result.1.pending = result'.1.pending
  waiting : result.1.waiting = result'.1.waiting
  unclaimed : result.1.unclaimed = result'.1.unclaimed
  report : result.2.2.1 = result'.2.2.1
  dispatched : (dispatches result.2.1).Perm (dispatches result'.2.1)

/-- What is so of the scans of a tracker, whatever order their ids come in. -/
structure Commutes (answers : Answers) (t : Tracker H) : Prop where
  scans : ∀ order, order.Perm t.pendingIds →
    Scans answers t order (t.scanOf answers.recorded order [])
  same : ∀ order order', order.Perm t.pendingIds → order'.Perm t.pendingIds →
    SameScan (t.scanOf answers.recorded order []) (t.scanOf answers.recorded order' [])
  /-- The scan that is made is the one in the order of the table. -/
  whole : t.scanAll answers.recorded [] = t.scanOf answers.recorded t.pendingIds []

variable {answers : Answers} {t : Tracker H}

theorem scans_of (ht : t.scan = none) (h : t.Filed) {order : List WorkId}
    (horder : order.Perm t.pendingIds) :
    Scans answers t order (t.scanOf answers.recorded order []) := by
  obtain ⟨notices, hscan, hdispatched⟩ := Tracker.scanOf_eq ht h answers horder []
  rw [hscan]
  refine ⟨?_, h.foldl_met, (Tracker.scan_foldl_met answers t order).trans ht, rfl, ?_,
    hdispatched⟩
  · intro w
    have hnodup : order.Nodup := horder.nodup_iff.2 h.pending.nodup
    have hpolled : ∀ w ∈ order, t.attempts? w ≠ none :=
      fun w hw => Tracker.attempts?_of_mem (horder.mem_iff.1 hw)
    dsimp only
    rw [Tracker.row_foldl_met hnodup hpolled w]
    simp only [horder.mem_iff]
  · dsimp only
    rw [horder.length_eq, horder.countP_eq, horder.countP_eq]

/-- **A scan does the same in any order.** -/
theorem commutes_of (answers : Answers) (t : Tracker H) (ht : t.scan = none) (h : t.Filed) :
    Commutes answers t where
  scans _ horder := scans_of ht h horder
  same order order' horder horder' := by
    have hscans : Scans answers t order _ := scans_of ht h horder
    have hscans' : Scans answers t order' _ := scans_of ht h horder'
    obtain ⟨hpending, hwaiting, hunclaimed⟩ := hscans.filed.ext hscans'.filed fun w =>
      (hscans.rows w).trans (hscans'.rows w).symm
    refine ⟨hpending, hwaiting, hunclaimed, hscans.report.trans hscans'.report.symm, ?_⟩
    rw [hscans.dispatched, hscans'.dispatched]
    exact (horder.trans horder'.symm).flatMap_right _
  whole := rfl

/-- A tracker that polls for two ids; two handlers wait for the first. -/
def awaited : Tracker Nat :=
  (History.of 8 [.track "0x1", .track "0x2", .register "0x1" 1 false,
    .register "0x1" 2 false]).tracker

/-- A ledger that has confirmed the first id and cannot be asked about another. -/
def halfReachable : Answers := fun w =>
  if w = "0x1" then .ok (some (.succeeded "0xAB" 7 .empty)) else .error (.transport "timeout")

/-- The last id asked about first: the failed question is counted and the other id served. -/
theorem commutes_awaited :
    let result := awaited.scanOf halfReachable.recorded ["0x2", "0x1"] []
    result.2.2.1 = .completed 2 1 1 ∧ (result.1.row "0x2").attempts = some 1 ∧
      (dispatches result.2.1).map (·.1) = [1, 2] ∧
      SameScan result (awaited.scanOf halfReachable.recorded ["0x1", "0x2"] []) := by
  have h := commutes_of halfReachable awaited (by decide) (History.filed_of _ _)
  have horder : ["0x2", "0x1"].Perm awaited.pendingIds := by decide
  have hscans := h.scans _ horder
  refine ⟨hscans.report, ?_, ?_, h.same _ _ horder (by decide)⟩
  · rw [hscans.rows]
    rfl
  · rw [hscans.dispatched]
    rfl

end LedgerGate.Receipt
