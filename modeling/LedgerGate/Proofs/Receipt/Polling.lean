/-
  Polling: how a scan goes through the ids of a tracker, question by question.

  * `Course`: how far a call of a scan has come;
  * `GoesOn`: all that going on to the next question can do (`goesOn_visit`);
  * `Takes`: all that an answer can do before the scan goes on (`goesOn_answered`);
  * `GoesOn.attempts`, `Takes.attempts`, `attempts?_track`: what becomes of the attempts;
  * `GoesOn.next`: a scan whose ids are all polled for passes over none.
-/
import LedgerGate.Proofs.Receipt.History
import LedgerGate.Proofs.Entries.Keys

namespace LedgerGate.Receipt

variable {H : Type}

/-! ## The course of a call -/

/-- How far a call of a scan has come: it waits for an answer, or it is over. -/
inductive Course where
  | underWay (s : Scan)
  | ended (r : Report)

namespace Course

/-- The course of a call whose scan has left a tracker with or without a report. -/
def of (t : Tracker H) : Option Report → Course
  | some r => .ended r
  | none =>
    match t.scan with
    | some s => .underWay s
    | none => .ended .skipped

/-- The scan of a call that is under way. -/
def scan? : Course → Option Scan
  | underWay s => some s
  | ended _ => none

/-- What a call asks about when it has come so far. -/
def question : Course → List WorkId
  | underWay s => [s.current]
  | ended _ => []

/-- What a call has yet to ask about. -/
def rest : Course → List WorkId
  | underWay s => s.rest
  | ended _ => []

theorem scan?_eq_some {course : Course} {s : Scan} :
    course.scan? = some s ↔ course = .underWay s := by
  cases course <;> simp [scan?]

end Course

/-! ## Going on -/

/-- A scan goes on with some ids: none of them is polled for and it is over, or it asks
    about the first that is, and the attempt counts. -/
inductive GoesOn (u : Tracker H) (ids : List WorkId) : Tracker H → Course → Prop
  | ended {checked confirmed errors} : (∀ w ∈ ids, u.attempts? w = none) →
      GoesOn u ids { u with scan := none } (.ended (.completed checked confirmed errors))
  | asks {n} {s : Scan} (passed : List WorkId) : ids = passed ++ s.current :: s.rest →
      (∀ v ∈ passed, u.attempts? v = none) → u.attempts? s.current = some n →
      GoesOn u ids
        { u with pending := Entries.insert u.pending s.current (n + 1), scan := some s }
        (.underWay s)

/-- An answer to a scan is taken in: it changes nothing, or the id is no longer polled for
    and nobody waits for it. -/
def Takes (t : Tracker H) (scan : Scan) (u : Tracker H) : Prop :=
  u.pending = t.pending ∧ u.waiting = t.waiting ∨
    u.pending = Entries.erase t.pending scan.current ∧
      ∀ w, u.handlersOf w = if w = scan.current then [] else t.handlersOf w

/-- An id that is not polled for is passed over. -/
theorem GoesOn.pass {u t : Tracker H} {ids : List WorkId} {course : Course} {w : WorkId}
    (h : GoesOn u ids t course) (hw : u.attempts? w = none) : GoesOn u (w :: ids) t course := by
  cases h with
  | ended hids => exact .ended (List.forall_mem_cons.2 ⟨hw, hids⟩)
  | asks passed hids hpassed hn =>
    exact .asks (w :: passed) (by rw [hids, List.cons_append])
      (List.forall_mem_cons.2 ⟨hw, hpassed⟩) hn

namespace Tracker

theorem goesOn_visit (u : Tracker H) (checked confirmed errors : Nat) (ids : List WorkId) :
    GoesOn u ids (u.visit checked confirmed errors ids).1
      (Course.of (u.visit checked confirmed errors ids).1
        (u.visit checked confirmed errors ids).2) := by
  induction ids with
  | nil => exact .ended (by simp)
  | cons w rest ih =>
    unfold visit
    split
    · rename_i n hn
      exact .asks (s := ⟨w, rest, checked + 1, confirmed, errors⟩) [] rfl (by simp) hn
    · rename_i hn
      exact ih.pass hn

/-- With the receipt of an id the polling ends, and whoever waited for it is served. -/
theorem takes_receipt (t : Tracker H) (scan : Scan) (c : Confirmation) :
    Takes t scan ((t.untrack scan.current).1.arrive (receipt scan.current c)).1 := by
  right
  rcases hw : Entries.find? t.waiting scan.current with _ | handlers
  · rw [arrive_none (t := (t.untrack scan.current).1) (c := receipt scan.current c) hw]
    refine ⟨rfl, fun w => ?_⟩
    split_ifs with hsame
    · subst hsame
      show (Entries.find? t.waiting scan.current).getD [] = []
      rw [hw]; rfl
    · rfl
  · rw [arrive_some (t := (t.untrack scan.current).1) (c := receipt scan.current c) hw]
    exact ⟨rfl, handlersOf_erase rfl⟩

/-- A scan takes its answer in and goes on. -/
theorem goesOn_answered {t : Tracker H} {scan : Scan} (ht : t.scan = some scan)
    (a : Except Ledger.Error (Option Confirmation)) : ∃ u, Takes t scan u ∧
      GoesOn u scan.rest (t.answered a).1 (Course.of (t.answered a).1 (t.answered a).2.2) := by
  rcases a with e | _ | c
  · simp only [answered, ht]
    exact ⟨t, .inl ⟨rfl, rfl⟩, goesOn_visit ..⟩
  · simp only [answered, ht]
    exact ⟨t, .inl ⟨rfl, rfl⟩, goesOn_visit ..⟩
  · simp only [answered, ht]
    exact ⟨_, takes_receipt t scan c, goesOn_visit ..⟩

end Tracker

/-! ## What going on and answers keep -/

section
variable {t u : Tracker H} {ids : List WorkId} {course : Course} {scan : Scan}

/-- The guard is taken by the call that goes on, and free once it is over. -/
theorem GoesOn.scan_eq (h : GoesOn u ids t course) : t.scan = course.scan? := by
  cases h <;> rfl

theorem GoesOn.increasing (h : GoesOn u ids t course) (hu : Entries.Increasing u.pending) :
    Entries.Increasing t.pending := by
  cases h with
  | ended => exact hu
  | asks => exact hu.insert _ _

theorem Takes.increasing (h : Takes t scan u) (ht : Entries.Increasing t.pending) :
    Entries.Increasing u.pending := by
  rcases h with ⟨hsame, -⟩ | ⟨herased, -⟩
  · rw [hsame]; exact ht
  · rw [herased]; exact ht.erase _

theorem Tracker.track_increasing (h : Entries.Increasing t.pending) (w : WorkId) :
    Entries.Increasing (t.track w).1.pending := by
  show Entries.Increasing (if Entries.contains t.pending w then t.pending
    else Entries.insert t.pending w 0)
  split
  · exact h
  · exact h.insert _ _

/-- Registering starts no polling and no scan. -/
theorem Tracker.register_keeps (t : Tracker H) (w : WorkId) (h : H) (isDone : Bool) :
    (t.register w h isDone).1.pending = t.pending ∧ (t.register w h isDone).1.scan = t.scan := by
  unfold Tracker.register
  split
  · exact ⟨rfl, rfl⟩
  · split
    · exact ⟨rfl, rfl⟩
    · split <;> exact ⟨rfl, rfl⟩

end

/-! ## Attempts -/

section
variable {t u : Tracker H} {ids : List WorkId} {course : Course} {scan : Scan}
  {w : WorkId} {n : Nat}

/-- Going on counts the question that is asked. -/
theorem GoesOn.attempts (h : GoesOn u ids t course) (hn : t.attempts? w = some n) :
    ∃ k, u.attempts? w = some k ∧ n = k + course.question.count w := by
  cases h with
  | ended => exact ⟨n, hn, rfl⟩
  | @asks k s _ _ _ hk =>
    by_cases hw : w = s.current
    · subst hw
      have hinsert : some (k + 1) = some n := (Entries.find?_insert_self ..).symm.trans hn
      cases hinsert
      exact ⟨k, hk, by simp [Course.question]⟩
    · have hsame : u.attempts? w = some n := (Entries.find?_insert_ne _ _ hw).symm.trans hn
      exact ⟨n, hsame, by simp [Course.question, Ne.symm hw]⟩

/-- Taking an answer in starts no polling and counts nothing. -/
theorem Takes.attempts (h : Takes t scan u) (hn : u.attempts? w = some n) :
    t.attempts? w = some n := by
  rcases h with ⟨hsame, -⟩ | ⟨herased, -⟩
  · rw [Tracker.attempts?, hsame] at hn
    exact hn
  · rw [Tracker.attempts?, herased, Entries.find?_erase] at hn
    split at hn
    · cases hn
    · exact hn

/-- Tracking starts the polling for an id, with no attempts, unless it is on. -/
theorem Tracker.attempts?_track (t : Tracker H) (w v : WorkId) :
    (t.track w).1.attempts? v =
      if v = w ∧ t.attempts? w = none then some 0 else t.attempts? v := by
  show Entries.find? (if Entries.contains t.pending w then t.pending
    else Entries.insert t.pending w 0) v = _
  by_cases hw : t.attempts? w = none
  · have hnot : Entries.contains t.pending w = false := by
      rw [Entries.contains, show Entries.find? t.pending w = none from hw]
      rfl
    rw [hnot, if_neg Bool.false_ne_true]
    by_cases hv : v = w
    · rw [if_pos ⟨hv, hw⟩, hv, Entries.find?_insert_self]
    · rw [if_neg fun h => hv h.1, Entries.find?_insert_ne _ _ hv]
      rfl
  · have hin : Entries.contains t.pending w = true := Option.isSome_iff_ne_none.2 hw
    rw [hin, if_pos rfl, if_neg fun h => hw h.2]
    rfl

end

/-! ## What is asked about -/

section
variable {t u : Tracker H} {ids : List WorkId} {course : Course} {scan : Scan} {w : WorkId}

/-- Going on ends no polling. -/
theorem GoesOn.polled (h : GoesOn u ids t course) (hw : u.attempts? w ≠ none) :
    t.attempts? w ≠ none := by
  cases h with
  | ended => exact hw
  | @asks n s =>
    show Entries.find? (Entries.insert u.pending s.current (n + 1)) w ≠ none
    by_cases hsame : w = s.current
    · rw [hsame, Entries.find?_insert_self]
      exact Option.some_ne_none _
    · rw [Entries.find?_insert_ne _ _ hsame]
      exact hw

/-- A scan that goes on with ids which are all polled for passes over none. -/
theorem GoesOn.next (h : GoesOn u ids t course) (hall : ∀ w ∈ ids, u.attempts? w ≠ none) :
    course.question ++ course.rest = ids := by
  cases h with
  | ended hnone =>
    rcases ids with _ | ⟨w, ids⟩
    · rfl
    · exact absurd (hnone w List.mem_cons_self) (hall w List.mem_cons_self)
  | asks passed hids hpassed =>
    rcases passed with _ | ⟨w, passed⟩
    · exact hids.symm
    · have hw : w ∈ ids := by rw [hids]; exact List.mem_cons_self
      exact absurd (hpassed w List.mem_cons_self) (hall w hw)

/-- Only the id that was asked about can end. -/
theorem Takes.polled (h : Takes t scan u) (hw : t.attempts? w ≠ none)
    (hne : w ≠ scan.current) : u.attempts? w ≠ none := by
  rcases h with ⟨hsame, -⟩ | ⟨herased, -⟩
  · rw [Tracker.attempts?, hsame]
    exact hw
  · rw [Tracker.attempts?, herased, Entries.find?_erase_ne _ hne]
    exact hw

theorem Tracker.track_polled (t : Tracker H) (v : WorkId) (hw : t.attempts? w ≠ none) :
    (t.track v).1.attempts? w ≠ none := by
  rw [Tracker.attempts?_track]
  split_ifs
  · exact Option.some_ne_none 0
  · exact hw

end

end LedgerGate.Receipt
