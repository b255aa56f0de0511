/-
  Nobody waits in vain: an id that a handler waits for is polled for.

  Handlers come together with the polling for their ids, as `Tracker.prepare` lets them.
  Scans come between, and stop at each of their questions; an answer may end the polling
  for an id that a handler has joined since the question was asked.

  * `Use`, `Rounds.used`: what can happen around such a tracker;
  * `Attended`: every id that is waited for is polled for;
  * `attended_used`: so it is whatever happens;
  * `attends_of`: no answer ends the polling for an id that is still waited for, and the
    next scan that is let in asks about every id that is.
-/
import LedgerGate.Proofs.Receipt.Rounds

namespace LedgerGate.Receipt

variable {H : Type}

/-! ## Handlers that come with the polling -/

/-- What can happen around a tracker whose handlers come by `Tracker.prepare` only. -/
inductive Use (H : Type) where
  | prepare (workId : WorkId) (handler : H)
  | track (workId : WorkId)
  | call (order : List WorkId)
  | hear (i : Nat) (a : Except Ledger.Error (Option Confirmation))

namespace Use

/-- A preparation is two acts with nothing between them. -/
def acts : Use H → List (Act H)
  | prepare w h => [.track w, .register w h false]
  | track w => [.track w]
  | call order => [.call order]
  | hear i a => [.hear i a]

end Use

namespace Rounds

/-- The rounds of some uses of a new tracker. -/
def used (capacity : Nat) (uses : List (Use H)) : Rounds H := of capacity (uses.flatMap Use.acts)

theorem used_concat (capacity : Nat) (uses : List (Use H)) (u : Use H) :
    used capacity (uses ++ [u]) = u.acts.foldl after (used capacity uses) := by
  rw [used, List.flatMap_append, of_append]
  simp [used]

/-- The two acts are a preparation of the tracker. -/
theorem used_prepare (capacity : Nat) (uses : List (Use H)) (w : WorkId) (h : H) :
    used capacity (uses ++ [.prepare w h]) =
      { used capacity uses with tracker := ((used capacity uses).tracker.prepare w h).1 } :=
  used_concat capacity uses (.prepare w h)

end Rounds

/-! ## Every id that is waited for is polled for -/

/-- Every id that a handler waits for is polled for. -/
def Attended (t : Tracker H) : Prop := ∀ w, t.handlersOf w ≠ [] → t.attempts? w ≠ none

section
variable {t u : Tracker H} {ids : List WorkId} {course : Course} {scan : Scan}

theorem GoesOn.attended (h : GoesOn u ids t course) (hu : Attended u) : Attended t := by
  intro w hw
  have hsame : t.handlersOf w = u.handlersOf w := by cases h <;> rfl
  rw [hsame] at hw
  exact h.polled (hu w hw)

/-- The id whose polling an answer ends is no longer waited for. -/
theorem Takes.attended (h : Takes t scan u) (ht : Attended t) : Attended u := by
  intro w hw
  rcases h with ⟨hpending, hwaiting⟩ | ⟨hpending, hwaiting⟩
  · rw [Tracker.attempts?, hpending]
    rw [Tracker.handlersOf_congr hwaiting] at hw
    exact ht w hw
  · rw [hwaiting] at hw
    by_cases hcurrent : w = scan.current
    · rw [if_pos hcurrent] at hw
      exact absurd rfl hw
    · rw [if_neg hcurrent] at hw
      rw [Tracker.attempts?, hpending, Entries.find?_erase_ne _ hcurrent]
      exact ht w hw

namespace Tracker

theorem track_attended (ht : Attended t) (w : WorkId) : Attended (t.track w).1 :=
  fun v hv => t.track_polled w (ht v hv)

/-- Registering lets handlers wait for no other id. -/
theorem handlersOf_register_ne (t : Tracker H) (h : H) {w v : WorkId} (hv : v ≠ w) :
    (t.register w h false).1.handlersOf v = t.handlersOf v := by
  unfold register
  rw [if_neg Bool.false_ne_true]
  split
  · rfl
  · split
    · rfl
    · exact (handlersOf_insert rfl v).trans (if_neg hv)

theorem prepare_attended (ht : Attended t) (w : WorkId) (h : H) :
    Attended (t.prepare w h).1 := by
  intro v hv
  show ((t.track w).1.register w h false).1.attempts? v ≠ none
  rw [attempts?, ((t.track w).1.register_keeps w h false).1]
  by_cases hsame : v = w
  · show (t.track w).1.attempts? v ≠ none
    rw [attempts?_track]
    split_ifs with hnew
    · exact Option.some_ne_none 0
    · exact fun hnone => hnew ⟨hsame, hsame ▸ hnone⟩
  · have hwait : ((t.track w).1.register w h false).1.handlersOf v ≠ [] := hv
    rw [handlersOf_register_ne _ h hsame] at hwait
    exact track_attended ht w v hwait

end Tracker

end

namespace Rounds

variable {s s' : Rounds H} {m : Act H}

/-- Only a registration can make a handler wait for an id that is not polled for. -/
theorem Turn.attended (ht : Turn s m s') (hm : ∀ w h isDone, m ≠ .register w h isDone)
    (hs : Attended s.tracker) : Attended s'.tracker := by
  cases ht with
  | idle | skipped => exact hs
  | tracked => exact Tracker.track_attended hs _
  | registered => exact absurd rfl (hm _ _ _)
  | begun _ _ hgoes => exact hgoes.attended hs
  | heard _ htakes hgoes => exact hgoes.attended (htakes.attended hs)

/-- **Whatever happens, every id that is waited for is polled for.** -/
theorem attended_used (capacity : Nat) (uses : List (Use H)) :
    Attended (used capacity uses).tracker := by
  induction uses using List.reverseRecOn with
  | nil => exact fun w hw => absurd rfl hw
  | append_singleton uses u ih =>
    have hother : ∀ m : Act H, (∀ w h isDone, m ≠ .register w h isDone) →
        Attended ((used capacity uses).after m).tracker := fun m hm =>
      (Rounds.turn _ m).attended hm ih
    rw [used_concat]
    cases u with
    | prepare w h => exact Tracker.prepare_attended ih w h
    | track w => exact hother (.track w) (by simp)
    | call order => exact hother (.call order) (by simp)
    | hear i a => exact hother (.hear i a) (by simp)

/-! ## Nobody is stranded -/

/-- How scans treat those who wait. -/
structure Attends (capacity : Nat) (uses : List (Use H)) : Prop where
  /-- a handler comes together with the polling: nothing happens between the two -/
  prepared : ∀ w h, used capacity (uses ++ [.prepare w h]) =
    { used capacity uses with tracker := ((used capacity uses).tracker.prepare w h).1 }
  /-- every id that is waited for is polled for -/
  polled : ∀ w, (used capacity uses).tracker.handlersOf w ≠ [] →
    (used capacity uses).tracker.attempts? w ≠ none
  /-- when an answer ends the polling for an id, nobody waits for it any more -/
  released : ∀ i a w, (used capacity uses).tracker.attempts? w ≠ none →
    (used capacity (uses ++ [.hear i a])).tracker.attempts? w = none →
    (used capacity (uses ++ [.hear i a])).tracker.handlersOf w = []
  /-- the next scan that is let in asks about every id that is waited for, whatever happens
      meanwhile: once it has, or else while it is under way and has the id before it -/
  asked : ∀ order since, (∀ i, ¬ (used capacity uses).UnderWay i) →
    order.Perm (used capacity uses).tracker.pendingIds →
    ∀ w, (used capacity uses).tracker.handlersOf w ≠ [] →
      w ∈ (used capacity (uses ++ .call order :: since)).asked (used capacity uses).calls.length ∨
      ∃ scan, (used capacity (uses ++ .call order :: since)).calls[
          (used capacity uses).calls.length]? = some (.underWay scan) ∧ w ∈ scan.rest

/-- What a call has not asked about yet is before it while it is under way. -/
theorem Pursues.mem {i : Nat} {ids : List WorkId} (h : s.Pursues i ids) {w : WorkId}
    (hw : w ∈ ids) :
    w ∈ s.asked i ∨ ∃ scan, s.calls[i]? = some (.underWay scan) ∧ w ∈ scan.rest := by
  obtain ⟨course, hi, rfl, -⟩ := h
  rcases List.mem_append.1 hw with hasked | hrest
  · exact .inl hasked
  · cases course with
    | ended r => cases hrest
    | underWay scan => exact .inr ⟨scan, hi, hrest⟩

/-- **Nobody is stranded**, for every order in which preparations, tracking, scans and
    answers can come. -/
theorem attends_of (capacity : Nat) (uses : List (Use H)) : Attends capacity uses where
  prepared := used_prepare capacity uses
  polled := attended_used capacity uses
  released i a w _ hend := by
    by_contra hwaits
    exact attended_used capacity (uses ++ [.hear i a]) w hwaits hend
  asked order since hidle hperm w hw := by
    have hs : (used capacity uses).Sound := sound_of capacity _
    have hfree : ¬ (of capacity (uses.flatMap Use.acts)).tracker.scan.isSome := fun htaken => by
      obtain ⟨scan, hscan⟩ := Option.isSome_iff_exists.1 htaken
      obtain ⟨i, hi⟩ := hs.guarded.holder scan hscan
      exact hidle i ⟨scan, hi⟩
    have hpursues := pursues_of capacity (uses.flatMap Use.acts) (since.flatMap Use.acts) hperm
    have hacts : (uses ++ .call order :: since).flatMap Use.acts =
        uses.flatMap Use.acts ++ .call order :: since.flatMap Use.acts := by
      simp [Use.acts]
    rw [if_neg hfree, ← hacts] at hpursues
    exact hpursues.mem (((hs.found hperm).2 w).2 (attended_used capacity uses w hw))

/-- Nothing is remembered here, so a handler that comes after the receipt waits again. -/
example (c : Confirmation) : let s : Rounds Nat := used 0 [.prepare "0xa" 1, .call ["0xa"],
      .prepare "0xa" 2, .hear 0 (.ok (some c)), .prepare "0xa" 3]
    s.tracker.handlersOf "0xa" = [3] ∧ s.tracker.attempts? "0xa" = some 0 := ⟨rfl, rfl⟩

end Rounds

end LedgerGate.Receipt
