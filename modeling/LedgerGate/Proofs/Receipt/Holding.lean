/-
  Where receipts are held: a handler never waits while the receipt it waits for is at
  hand.

  A receipt is held in one of two places, and handlers wait in a third; each of the three
  is changed by other operations, and the memory forgets by itself.

  * `Tracker.Orderly`: each of the three places by itself, kept by every move
    (`Effect.orderly`);
  * `Tracker.Parted`, `History.parted_of`: **no handler waits beside a held receipt**,
    whatever the order of the moves, the answers of the ledger and the capacity.
-/
import LedgerGate.Proofs.Receipt.History
import LedgerGate.Proofs.Receipt.Memory

namespace LedgerGate.Receipt

variable {H : Type}

/-! ## Each place by itself -/

/-- The three places of a tracker in good order: no id stands twice in any of them, and
    behind an id that is waited for stands some handler. -/
structure Tracker.Orderly (capacity : Nat) (t : Tracker H) : Prop where
  waiting : Entries.Increasing t.waiting
  unclaimed : Entries.Increasing t.unclaimed
  recent : t.recent.Sound
  capacity : t.recent.capacity = capacity
  awaited : ∀ w handlers, (w, handlers) ∈ t.waiting → handlers ≠ []

theorem Tracker.orderly_new (capacity : Nat) : (new capacity : Tracker H).Orderly capacity where
  waiting := List.Pairwise.nil
  unclaimed := List.Pairwise.nil
  recent := Recent.sound_new capacity
  capacity := rfl
  awaited _ _ h := by cases h

/-- Every move leaves the places in good order. -/
theorem Effect.orderly {t t' : Tracker H} {m : Move H} {ds : List (H × Confirmation)}
    (he : Effect t t' m ds) {capacity : Nat} (h : t.Orderly capacity) : t'.Orderly capacity := by
  obtain ⟨hwaiting, hunclaimed, hrecent, hcapacity, hawaited⟩ := h
  cases he with
  | quiet _ _ hw hu hr =>
    refine ⟨by rwa [hw], by rwa [hu], by rwa [hr], by rwa [hr], fun w handlers hmem => ?_⟩
    rw [hw] at hmem
    exact hawaited w handlers hmem
  | claimed _ hw hu hr =>
    refine ⟨by rwa [hw], ?_, ?_, ?_, fun w handlers hmem => ?_⟩
    · rw [hu]
      exact hunclaimed.erase _
    · rw [hr]
      exact hrecent.insert _
    · rw [hr, Recent.capacity_insert, hcapacity]
    · rw [hw] at hmem
      exact hawaited w handlers hmem
  | recalled _ ht =>
    subst ht
    exact ⟨hwaiting, hunclaimed, hrecent, hcapacity, hawaited⟩
  | @queued w₀ h₀ _ _ ht =>
    subst ht
    refine ⟨hwaiting.insert _ _, hunclaimed, hrecent, hcapacity, fun w handlers hmem => ?_⟩
    rcases hwaiting.mem_insert.1 hmem with ⟨-, rfl⟩ | ⟨-, hold⟩
    · simp
    · exact hawaited w handlers hold
  | served _ _ hw hu hr =>
    refine ⟨?_, by rwa [hu], ?_, ?_, fun w handlers hmem => ?_⟩
    · rw [hw]
      exact hwaiting.erase _
    · rw [hr]
      exact hrecent.insert _
    · rw [hr, Recent.capacity_insert, hcapacity]
    · rw [hw] at hmem
      exact hawaited w handlers (Entries.mem_erase.1 hmem).2
  | kept _ _ hw hu hr =>
    refine ⟨by rwa [hw], ?_, by rwa [hr], by rwa [hr], fun w handlers hmem => ?_⟩
    · rw [hu]
      exact hunclaimed.insert _ _
    · rw [hw] at hmem
      exact hawaited w handlers hmem

/-- In every history the places are in good order. -/
theorem History.orderly_of (capacity : Nat) (moves : List (Move H)) :
    (of capacity moves).tracker.Orderly capacity := by
  induction moves using List.reverseRecOn with
  | nil => exact Tracker.orderly_new capacity
  | append_singleton moves m ih =>
    rw [of_concat]
    exact (Tracker.after_effect _ m).orderly ih

/-! ## All three places -/

/-- Handlers that wait and receipts that are held are kept apart. -/
structure Tracker.Parted (capacity : Nat) (t : Tracker H) : Prop where
  /-- Nobody waits for an id whose receipt is held, be it unclaimed or remembered. -/
  apart : ∀ w handlers, (w, handlers) ∈ t.waiting →
    (∀ c, (w, c) ∉ t.unclaimed) ∧ ∀ c, (w, c) ∉ t.recent.entries
  /-- Behind an id that is waited for stands some handler. -/
  awaited : ∀ w handlers, (w, handlers) ∈ t.waiting → handlers ≠ []
  /-- A receipt is held under the id that it carries. -/
  own : ∀ w c, (w, c) ∈ t.unclaimed ∨ (w, c) ∈ t.recent.entries → c.workId = w
  /-- No more receipts are remembered than the capacity allows. -/
  bounded : t.recent.entries.length ≤ capacity

/-- A receipt that stands in one of the places is held. -/
theorem Tracker.Orderly.holds {capacity : Nat} {t : Tracker H} (h : t.Orderly capacity)
    {w : WorkId} {c : Confirmation} (hc : (w, c) ∈ t.unclaimed ∨ (w, c) ∈ t.recent.entries) :
    t.Holds w c :=
  hc.imp h.unclaimed.find?_eq_some_iff.2 h.recent.increasing.find?_eq_some_iff.2

/-- **No handler waits beside a held receipt**, in any history of a tracker of any
    capacity. -/
theorem History.parted_of (capacity : Nat) (moves : List (Move H)) :
    (of capacity moves).tracker.Parted capacity := by
  have horder := orderly_of capacity moves
  have hsound := sound_of capacity moves
  have hnone : ∀ w handlers, (w, handlers) ∈ (of capacity moves).tracker.waiting →
      ∀ c, ¬ (of capacity moves).tracker.Holds w c := by
    intro w handlers hmem c hheld
    have hfound := horder.waiting.find?_eq_some_iff.2 hmem
    have hempty : handlers = [] := by
      have h := (hsound.held w c hheld).1
      rwa [Tracker.handlersOf, hfound] at h
    exact horder.awaited w handlers hmem hempty
  refine ⟨fun w handlers hmem => ⟨fun c hc => ?_, fun c hc => ?_⟩, horder.awaited,
    fun w c hc => ?_, ?_⟩
  · exact hnone w handlers hmem c (horder.holds (Or.inl hc))
  · exact hnone w handlers hmem c (horder.holds (Or.inr hc))
  · obtain ⟨-, a, -, rfl⟩ := hsound.held w c (horder.holds hc)
    exact receipt_workId w a
  · have hsize := horder.recent.size_le
    rwa [horder.capacity] at hsize

end LedgerGate.Receipt
