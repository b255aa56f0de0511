/-
  Exactly-once dispatch: a handler that is registered waits or was dispatched, never
  both, never neither and never twice.

  * `ServedOnce` says so of a history, handler by handler;
  * `servedOnce_of`: it holds of every history.
-/
import LedgerGate.Proofs.Receipt.History

namespace LedgerGate.Receipt.History

variable {H : Type}

/-! ## Members -/

theorem mem_registrations {moves : List (Move H)} {w : WorkId} {h : H} :
    (w, h) ∈ Move.registrations moves ↔ .register w h false ∈ moves := by
  constructor
  · intro hm
    obtain ⟨m, hm, hr⟩ := List.mem_filterMap.1 hm
    cases m with
    | register v g isDone =>
      cases isDone with
      | true => cases hr
      | false => cases hr; exact hm
    | _ => cases hr
  · exact fun hm => List.mem_filterMap.2 ⟨_, hm, rfl⟩

theorem mem_registered {moves : List (Move H)} {w : WorkId} {h : H} :
    h ∈ Move.registered moves w ↔ (w, h) ∈ Move.registrations moves := by
  simp [Move.registered]

theorem mem_dispatchedFor {s : History H} {h : H} {c : Confirmation} (hd : (h, c) ∈ s.dispatched) :
    h ∈ s.dispatchedFor c.workId :=
  List.mem_map.2 ⟨(h, c), List.mem_filter.2 ⟨hd, by simp⟩, rfl⟩

/-! ## Counting -/

variable [DecidableEq H]

theorem count_registered (moves : List (Move H)) (w : WorkId) (h : H) :
    (Move.registered moves w).count h =
      (Move.registrations moves).countP fun e => decide (e.2 = h) && decide (e.1 = w) := by
  rw [Move.registered, List.count, List.countP_map, List.countP_filter]
  exact List.countP_congr fun e _ => by simp

theorem count_dispatchedFor (s : History H) (w : WorkId) (h : H) :
    (s.dispatchedFor w).count h =
      s.dispatched.countP fun d => decide (d.1 = h) && decide (d.2.workId = w) := by
  rw [dispatchedFor, List.count, List.countP_map, List.countP_filter]
  exact List.countP_congr fun e _ => by simp

/-- A handler registered once is registered once for its own id. -/
theorem count_registered_self {moves : List (Move H)} {w : WorkId} {h : H}
    (hm : (w, h) ∈ Move.registrations moves)
    (h1 : (Move.registrations moves).countP (·.2 = h) = 1) :
    (Move.registered moves w).count h = 1 := by
  have hle : (Move.registered moves w).count h ≤ 1 := by
    rw [count_registered, ← h1]
    exact List.countP_mono_left fun e _ he => by simp at he; simp [he.1]
  have hpos : 0 < (Move.registered moves w).count h := List.count_pos_iff.2 (mem_registered.2 hm)
  omega

/-- A handler registered once is registered for no other id. -/
theorem not_mem_registered_ne {moves : List (Move H)} {w v : WorkId} {h : H}
    (hm : (w, h) ∈ Move.registrations moves)
    (h1 : (Move.registrations moves).countP (·.2 = h) = 1) (hv : v ≠ w) :
    h ∉ Move.registered moves v := by
  intro hmem
  rw [List.countP_eq_length_filter] at h1
  obtain ⟨e, he⟩ := List.length_eq_one_iff.1 h1
  have hw : (w, h) ∈ (Move.registrations moves).filter (·.2 = h) := List.mem_filter.2 ⟨hm, by simp⟩
  have hv' : (v, h) ∈ (Move.registrations moves).filter (·.2 = h) :=
    List.mem_filter.2 ⟨mem_registered.1 hmem, by simp⟩
  rw [he, List.mem_singleton] at hw hv'
  exact hv (congrArg Prod.fst (hv'.trans hw.symm))

/-! ## Exactly once -/

/-- How a history treats the handlers that some moves registered. -/
structure ServedOnce (moves : List (Move H)) (s : History H) : Prop where
  /-- The handlers registered for an id are those dispatched with its receipt and,
      behind them, those that wait for it. -/
  conserved : ∀ w, Move.registered moves w = s.dispatchedFor w ++ s.tracker.handlersOf w
  /-- A handler that was registered once waits once, for its own id, and was not
      dispatched; or it waits for nothing and was dispatched once, with a receipt that
      carries its id. -/
  once : ∀ w h, (w, h) ∈ Move.registrations moves →
    (Move.registrations moves).countP (·.2 = h) = 1 →
    (∀ c, (h, c) ∉ s.dispatched) ∧ (s.tracker.handlersOf w).count h = 1 ∧
        (∀ v ≠ w, h ∉ s.tracker.handlersOf v) ∨
      (∀ v, h ∉ s.tracker.handlersOf v) ∧
        ∃ c, c.workId = w ∧ s.dispatched.filter (·.1 = h) = [(h, c)]
  /-- What a handler got is an answer that a scan obtained for the very id it was
      registered for, put into words and under that id. -/
  origin : ∀ h c, (h, c) ∈ s.dispatched → h ∈ Move.registered moves c.workId ∧
    ∃ answer, (c.workId, answer) ∈ s.obtained ∧ c = { answer.readable with workId := c.workId }
  /-- A handler that was never registered, or was done whenever it was, is never
      dispatched and never waits. -/
  turnedAway : ∀ h, (∀ w, .register w h false ∉ moves) →
    (∀ c, (h, c) ∉ s.dispatched) ∧ ∀ w, h ∉ s.tracker.handlersOf w

/-- A handler registered once waits once or was dispatched once. -/
theorem Sound.once {moves : List (Move H)} {s : History H} (hs : Sound moves s) {w : WorkId}
    {h : H} (hm : (w, h) ∈ Move.registrations moves)
    (h1 : (Move.registrations moves).countP (·.2 = h) = 1) :
    (∀ c, (h, c) ∉ s.dispatched) ∧ (s.tracker.handlersOf w).count h = 1 ∧
        (∀ v ≠ w, h ∉ s.tracker.handlersOf v) ∨
      (∀ v, h ∉ s.tracker.handlersOf v) ∧
        ∃ c, c.workId = w ∧ s.dispatched.filter (·.1 = h) = [(h, c)] := by
  have hother : ∀ v ≠ w, h ∉ s.dispatchedFor v ∧ h ∉ s.tracker.handlersOf v := by
    intro v hv
    have hnot := not_mem_registered_ne hm h1 hv
    rw [hs.conserved v] at hnot
    exact ⟨fun hd => hnot (List.mem_append_left _ hd), fun hw => hnot (List.mem_append_right _ hw)⟩
  have hid : ∀ c, (h, c) ∈ s.dispatched → c.workId = w := by
    intro c hd
    by_contra hv
    exact (hother _ hv).1 (mem_dispatchedFor hd)
  have hsum := count_registered_self hm h1
  rw [hs.conserved w, List.count_append] at hsum
  rcases Nat.eq_zero_or_pos ((s.dispatchedFor w).count h) with hzero | hpos
  · refine Or.inl ⟨fun c hd => ?_, by omega, fun v hv => (hother v hv).2⟩
    exact List.count_eq_zero.1 hzero (hid c hd ▸ mem_dispatchedFor hd)
  · have hwait : h ∉ s.tracker.handlersOf w := List.count_eq_zero.1 (by omega)
    have hlen : (s.dispatched.filter (·.1 = h)).length = 1 := by
      rw [← List.countP_eq_length_filter]
      have hcount : (s.dispatchedFor w).count h = 1 := by omega
      rw [count_dispatchedFor] at hcount
      rw [← hcount]
      refine List.countP_congr fun d hd => ?_
      by_cases hdh : d.1 = h
      · have := hid d.2 (by rw [← hdh]; exact hd)
        simp [hdh, this]
      · simp [hdh]
    obtain ⟨d, hd⟩ := List.length_eq_one_iff.1 hlen
    have hmem : d ∈ s.dispatched.filter (·.1 = h) := by rw [hd]; exact List.mem_singleton_self d
    obtain ⟨hmem', hdh⟩ := List.mem_filter.1 hmem
    obtain ⟨g, c⟩ := d
    obtain rfl : g = h := by simpa using hdh
    refine Or.inr ⟨fun v => ?_, c, hid c hmem', hd⟩
    by_cases hv : v = w
    · rw [hv]; exact hwait
    · exact (hother v hv).2

/-- **Exactly-once dispatch.**  In every history of a tracker, whatever its moves, their
    order and the answers of the ledger, every handler waits or was dispatched as it is
    due. -/
theorem servedOnce_of (capacity : Nat) (moves : List (Move H)) :
    ServedOnce moves (of capacity moves) := by
  have hs := sound_of capacity moves
  have hmem : ∀ h w, h ∈ (of capacity moves).dispatchedFor w ∨
      h ∈ (of capacity moves).tracker.handlersOf w → h ∈ Move.registered moves w := by
    intro h w hw
    rw [hs.conserved w]
    exact List.mem_append.2 hw
  refine ⟨hs.conserved, fun w h hm h1 => hs.once hm h1, fun h c hd => ?_, fun h hnone => ?_⟩
  · obtain ⟨w, a, ha, hc⟩ := hs.handed _ hd
    have hw : c.workId = w := by simp only at hc; rw [hc]; rfl
    subst hw
    exact ⟨hmem h _ (Or.inl (mem_dispatchedFor hd)), a, ha, hc⟩
  · have hnot : ∀ w, h ∉ Move.registered moves w :=
      fun w hw => hnone w (mem_registrations.1 (mem_registered.1 hw))
    exact ⟨fun c hd => hnot _ (hmem h _ (Or.inl (mem_dispatchedFor hd))),
      fun w hw => hnot w (hmem h w (Or.inr hw))⟩

/-- Two handlers register for one id, the second after its receipt came. -/
def latecomer : List (Move Nat) :=
  [.track "0x1", .register "0x1" 1 false, .scan ["0x1"],
    .answer (.ok (some (.succeeded "0xAB" 7 .empty))), .register "0x1" 2 false]

/-- Without a memory the second handler waits, and the first was dispatched once, under
    the id it asked for. -/
theorem servedOnce_latecomer :
    ((of 0 latecomer).tracker.handlersOf "0x1").count 2 = 1 ∧
      ∃ c, c.workId = "0x1" ∧ (of 0 latecomer).dispatched.filter (·.1 = 1) = [(1, c)] := by
  have h := servedOnce_of 0 latecomer
  constructor
  · rcases h.once "0x1" 2 (by decide) (by decide) with h2 | h2
    · exact h2.2.1
    · exact absurd (by decide : 2 ∈ (of 0 latecomer).tracker.handlersOf "0x1") (h2.1 "0x1")
  · rcases h.once "0x1" 1 (by decide) (by decide) with h1 | h1
    · exact absurd h1.2.1 (by decide)
    · exact h1.2

end LedgerGate.Receipt.History
