/-
  No handler is ever dropped.

  A tracker drops a handler if it lets go of it without its receipt: then nobody has it any
  more, and who waits for the receipt waits for nothing.  No operation does that, whatever
  state the tracker is in.

  * `Tracker.mem_handlers`: a handler that waits, waits for some id;
  * `Effect.keeps`: **a move keeps every handler or dispatches it**;
  * `Tracker.afterAll`: some moves in a row, and scans as such;
  * `lost_after`, `lost_afterAll`, `lost_beginScan`, `lost_runScan`: so none is lost.
-/
import LedgerGate.Proofs.Entries.Keys
import LedgerGate.Proofs.Receipt.History

namespace LedgerGate.Receipt

variable {H : Type} {t t' : Tracker H} {m : Move H}

/-! ## Moves -/

/-- A handler that waits, waits for some id. -/
theorem Tracker.mem_handlers {h : H} : h ∈ t.handlers ↔ ∃ workId, h ∈ t.handlersOf workId := by
  constructor
  · intro hmem
    obtain ⟨e, -, he⟩ := List.mem_flatMap.1 hmem
    exact ⟨e.1, he⟩
  · rintro ⟨workId, hmem⟩
    cases hfound : Entries.find? t.waiting workId with
    | none => simp [handlersOf, hfound] at hmem
    | some handlers =>
      obtain ⟨hs, hentry⟩ := Entries.mem_keys.1 (Entries.mem_keys_of_find? hfound)
      exact List.mem_flatMap.2 ⟨_, hentry, hmem⟩

/-- **A move keeps every handler that waits, or dispatches it.** -/
theorem Effect.keeps {ds : List (H × Confirmation)} (he : Effect t t' m ds) {h : H}
    (hh : h ∈ t.handlers) : h ∈ t'.handlers ∨ h ∈ ds.map (·.1) := by
  obtain ⟨workId, hw⟩ := Tracker.mem_handlers.1 hh
  have stays : t'.handlersOf workId = t.handlersOf workId → h ∈ t'.handlers := fun hsame =>
    Tracker.mem_handlers.2 ⟨workId, hsame ▸ hw⟩
  cases he with
  | quiet _ _ hwaiting => exact .inl (stays (Tracker.handlersOf_congr hwaiting workId))
  | claimed _ hwaiting => exact .inl (stays (Tracker.handlersOf_congr hwaiting workId))
  | recalled _ ht => exact .inl (stays (ht ▸ rfl))
  | @queued w₀ h₀ _ _ ht =>
    refine .inl (Tracker.mem_handlers.2 ⟨workId, ?_⟩)
    rw [Tracker.handlersOf_insert (congrArg Tracker.waiting ht)]
    split
    · rename_i hsame
      exact List.mem_append_left _ (hsame ▸ hw)
    · exact hw
  | @served w₀ a hs _ hfound hwaiting =>
    by_cases hsame : workId = w₀
    · subst hsame
      refine .inr (List.mem_map.2 ⟨(h, receipt workId a), List.mem_map.2 ⟨h, ?_, rfl⟩, rfl⟩)
      rwa [Tracker.handlersOf, hfound] at hw
    · refine .inl (stays ?_)
      rw [Tracker.handlersOf_erase hwaiting, if_neg hsame]
  | kept _ _ hwaiting => exact .inl (stays (Tracker.handlersOf_congr hwaiting workId))

namespace Tracker

/-! ## Moves in a row -/

/-- The tracker after some moves, and what happened. -/
def afterAll (t : Tracker H) : List (Move H) → Tracker H × List (Notice H)
  | [] => (t, [])
  | m :: ms => (((t.after m).1.afterAll ms).1, (t.after m).2 ++ ((t.after m).1.afterAll ms).2)

@[simp]
theorem afterAll_singleton (t : Tracker H) (m : Move H) : t.afterAll [m] = t.after m := by
  rw [afterAll, afterAll, List.append_nil]

/-- A scan that is run to its end is some answers to it. -/
theorem runScan_eq_afterAll {σ : Type}
    (ask : WorkId → σ → Except Ledger.Error (Option Confirmation) × σ) (fuel : Nat)
    (t : Tracker H) (s : σ) : ∃ answers : List (Except Ledger.Error (Option Confirmation)),
      t.afterAll (answers.map .answer) =
        ((t.runScan ask fuel s).1, (t.runScan ask fuel s).2.1) := by
  induction fuel generalizing t s with
  | zero => exact ⟨[], rfl⟩
  | succ fuel ih =>
    unfold runScan
    cases t.scan with
    | none => exact ⟨[], rfl⟩
    | some scan =>
      dsimp only
      rcases hanswered : t.answered (ask scan.current s).1 with ⟨t', notices, _ | report⟩
      · obtain ⟨answers, hrest⟩ := ih t' (ask scan.current s).2
        refine ⟨(ask scan.current s).1 :: answers, ?_⟩
        rw [List.map_cons, afterAll, after, hanswered]
        dsimp only
        rw [hrest]
      · refine ⟨[(ask scan.current s).1], ?_⟩
        rw [List.map_singleton, afterAll_singleton, after, hanswered]

/-- Moves in a row keep every handler that waits, or dispatch it. -/
theorem keeps_afterAll (ms : List (Move H)) {t : Tracker H} {h : H} (hh : h ∈ t.handlers) :
    h ∈ (t.afterAll ms).1.handlers ∨ h ∈ (dispatches (t.afterAll ms).2).map (·.1) := by
  induction ms generalizing t with
  | nil => exact .inl hh
  | cons m ms ih =>
    rw [afterAll, dispatches_append, List.map_append, List.mem_append]
    rcases (t.after_effect m).keeps hh with hkept | hdispatched
    · exact (ih hkept).imp_right .inr
    · exact .inr (.inl hdispatched)

/-! ## Nothing lost -/

variable [DecidableEq H]

theorem lost_eq_nil_iff {notices : List (Notice H)} : t.lost t' notices = [] ↔
    ∀ h ∈ t.handlers, h ∈ t'.handlers ∨ h ∈ (dispatches notices).map (·.1) := by
  rw [lost, List.filter_eq_nil_iff]
  refine forall₂_congr fun h _ => ?_
  rw [Bool.not_eq_true, Bool.not_eq_false', List.contains_iff_mem, List.mem_append, dispatches]

/-- **No moves lose a handler**, however many there are. -/
theorem lost_afterAll (t : Tracker H) (ms : List (Move H)) :
    t.lost (t.afterAll ms).1 (t.afterAll ms).2 = [] :=
  lost_eq_nil_iff.2 fun _ hh => keeps_afterAll ms hh

theorem lost_after (t : Tracker H) (m : Move H) : t.lost (t.after m).1 (t.after m).2 = [] := by
  have hlost := t.lost_afterAll [m]
  rwa [afterAll_singleton] at hlost

theorem lost_beginScan (t : Tracker H) : t.lost t.beginScan.1 t.beginScan.2.1 = [] :=
  t.lost_after (.scan t.pendingIds)

theorem lost_runScan {σ : Type}
    (ask : WorkId → σ → Except Ledger.Error (Option Confirmation) × σ) (fuel : Nat)
    (t : Tracker H) (s : σ) :
    t.lost (t.runScan ask fuel s).1 (t.runScan ask fuel s).2.1 = [] := by
  obtain ⟨answers, hrun⟩ := t.runScan_eq_afterAll ask fuel s
  have hlost := t.lost_afterAll (answers.map .answer)
  rwa [hrun] at hlost

end Tracker

end LedgerGate.Receipt
