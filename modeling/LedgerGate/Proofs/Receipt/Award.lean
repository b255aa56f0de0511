/-
  What a handler gets: the receipt that is held when it registers, and else the first one that
  comes afterwards.

  * `Tracker.held?`: the receipt that a handler would get at once;
  * `History.since`: what scans obtained after some moves;
  * `History.award?`: what is due to a handler that registered in between;
  * `History.dispatched_award`: **a handler registered once has got exactly what is due to it.**
-/
import LedgerGate.Proofs.Receipt.Dispatch
import LedgerGate.Proofs.Receipt.Outcome

namespace LedgerGate.Receipt

variable {H : Type}

/-! ## Receipts at hand -/

/-- The receipt of an id that a handler gets at once: one that nobody has claimed, or one that
    is remembered. -/
def Tracker.held? (t : Tracker H) (workId : WorkId) : Option Confirmation :=
  (Entries.find? t.unclaimed workId).or (t.recent.find? workId)

theorem Tracker.holds_of_held? {t : Tracker H} {workId : WorkId} {c : Confirmation}
    (h : t.held? workId = some c) : t.Holds workId c := by
  rcases Option.or_eq_some_iff.1 h with hc | ⟨-, hc⟩
  · exact Or.inl hc
  · exact Or.inr hc

theorem Tracker.isSome_held? {t : Tracker H} {workId : WorkId} :
    (t.held? workId).isSome ↔ ∃ c, t.Holds workId c := by
  simp [held?, Holds, Option.isSome_iff_exists, exists_or]

/-- A handler that registers gets what is held. -/
theorem Tracker.dispatches_register (t : Tracker H) (workId : WorkId) (h : H) :
    dispatches (t.register workId h false).2 = (t.held? workId).toList.map (h, ·) := by
  rw [register, held?, if_neg Bool.false_ne_true]
  cases hu : Entries.find? t.unclaimed workId with
  | some c => rfl
  | none =>
    cases hr : t.recent.find? workId with
    | some c => rfl
    | none => rfl

/-- A receipt says of its work what the ledger answered. -/
theorem success_receipt (workId : WorkId) (answer : Confirmation) :
    (receipt workId answer).success = answer.success := by
  show answer.readable.success = _
  unfold Confirmation.readable
  split <;> rfl

namespace History

/-! ## What comes later -/

/-- What the scans of some moves obtained, after those of others. -/
def since (capacity : Nat) (before later : List (Move H)) : List (WorkId × Confirmation) :=
  (of capacity (before ++ later)).obtained.drop (of capacity before).obtained.length

theorem obtained_eq (capacity : Nat) (before later : List (Move H)) :
    (of capacity (before ++ later)).obtained =
      (of capacity before).obtained ++ since capacity before later := by
  obtain ⟨more, hmore⟩ := obtained_append capacity before later
  rw [since, hmore, List.drop_left]

/-- What was dispatched stays dispatched. -/
theorem dispatched_append (capacity : Nat) (before later : List (Move H)) :
    ∃ ds, (of capacity (before ++ later)).dispatched = (of capacity before).dispatched ++ ds := by
  induction later using List.reverseRecOn with
  | nil => exact ⟨[], by simp⟩
  | append_singleton later m ih =>
    obtain ⟨ds, hds⟩ := ih
    refine ⟨ds ++ dispatches ((of capacity (before ++ later)).tracker.after m).2, ?_⟩
    rw [← List.append_assoc, of_concat, History.after, hds, List.append_assoc]

theorem since_nil (capacity : Nat) (before : List (Move H)) : since capacity before [] = [] := by
  simp [since]

theorem since_concat (capacity : Nat) (before later : List (Move H)) (m : Move H) :
    since capacity before (later ++ [m]) = since capacity before later ++
      ((of capacity (before ++ later)).tracker.obtained? m).toList := by
  have hall := obtained_eq capacity before (later ++ [m])
  rw [← List.append_assoc, of_concat, History.after, obtained_eq capacity before later,
    List.append_assoc] at hall
  exact (List.append_cancel_left hall).symm

/-- A move that brings nothing may as well count among those that came first. -/
theorem since_cons {capacity : Nat} {before later : List (Move H)} {m : Move H}
    (hm : (of capacity before).tracker.obtained? m = none) :
    since capacity before (m :: later) = since capacity (before ++ [m]) later := by
  have hmoves : before ++ m :: later = (before ++ [m]) ++ later := by simp
  have hobtained : (of capacity (before ++ [m])).obtained = (of capacity before).obtained := by
    rw [of_concat, History.after, hm]
    exact List.append_nil _
  rw [since, since, hmoves, hobtained]

/-- What is due to a handler that registers for an id between some moves: the receipt that is
    held then, or else the first that comes. -/
def award? (capacity : Nat) (before later : List (Move H)) (workId : WorkId) :
    Option Confirmation :=
  ((of capacity before).tracker.held? workId).or
    (((since capacity before later).find? (·.1 = workId)).map fun e => receipt workId e.2)

/-- What was due stays due, and a move may bring what was not. -/
theorem award_concat (capacity : Nat) (before later : List (Move H)) (m : Move H)
    (workId : WorkId) : award? capacity before (later ++ [m]) workId =
      (award? capacity before later workId).or
        ((((of capacity (before ++ later)).tracker.obtained? m).toList.find? (·.1 = workId)).map
          fun e => receipt workId e.2) := by
  rw [award?, award?, since_concat, List.find?_append, Option.map_or, Option.or_assoc]

/-- Something is due exactly if a receipt was held or a confirmation came. -/
theorem isSome_award? (capacity : Nat) (before later : List (Move H)) (workId : WorkId) :
    (award? capacity before later workId).isSome ↔
      (∃ c, (of capacity before).tracker.Holds workId c) ∨
        ∃ a, (workId, a) ∈ since capacity before later := by
  rw [award?, Option.isSome_or, Bool.or_eq_true, Tracker.isSome_held?, Option.isSome_map,
    List.find?_isSome]
  refine or_congr_right ?_
  constructor
  · rintro ⟨⟨w, a⟩, hmem, hw⟩
    obtain rfl : w = workId := by simpa using hw
    exact ⟨a, hmem⟩
  · rintro ⟨a, hmem⟩
    exact ⟨_, hmem, by simp⟩

/-- What is due is the receipt of a confirmation that was obtained for the id. -/
theorem origin_award {capacity : Nat} {before later : List (Move H)} {workId : WorkId}
    {c : Confirmation} (h : award? capacity before later workId = some c) :
    ∃ a, (workId, a) ∈ (of capacity (before ++ later)).obtained ∧ c = receipt workId a := by
  rw [obtained_eq]
  rcases Option.or_eq_some_iff.1 h with hheld | ⟨-, hcame⟩
  · obtain ⟨-, a, ha, rfl⟩ :=
      (sound_of capacity before).held workId c (Tracker.holds_of_held? hheld)
    exact ⟨a, List.mem_append_left _ ha, rfl⟩
  · obtain ⟨⟨w, a⟩, hfind, rfl⟩ := Option.map_eq_some_iff.1 hcame
    obtain rfl : w = workId := by simpa using List.find?_some hfind
    exact ⟨a, List.mem_append_right _ (List.mem_of_find?_eq_some hfind), rfl⟩

/-! ## What a handler gets -/

section
variable [DecidableEq H] {capacity : Nat} {before later : List (Move H)} {workId : WorkId} {h : H}

omit [DecidableEq H] in
theorem registrations_split (before later : List (Move H)) (workId : WorkId) (h : H) :
    Move.registrations (before ++ .register workId h false :: later) =
      Move.registrations before ++ (workId, h) :: Move.registrations later := by
  simp [Move.registrations, Move.registration?, List.filterMap_append]

/-- A handler that neither registers before nor after registers once. -/
theorem registered_once (workId : WorkId) (hbefore : ∀ v, (v, h) ∉ Move.registrations before)
    (hlater : ∀ v, (v, h) ∉ Move.registrations later) :
    (workId, h) ∈ Move.registrations (before ++ .register workId h false :: later) ∧
      (Move.registrations (before ++ .register workId h false :: later)).countP (·.2 = h) = 1 := by
  have hnone : ∀ {moves : List (Move H)}, (∀ v, (v, h) ∉ Move.registrations moves) →
      (Move.registrations moves).countP (·.2 = h) = 0 := by
    intro moves hmoves
    refine List.countP_eq_zero.2 ?_
    rintro ⟨v, g⟩ hmem heq
    obtain rfl : g = h := by simpa using heq
    exact hmoves v hmem
  rw [registrations_split]
  refine ⟨by simp, ?_⟩
  rw [List.countP_append, List.countP_cons, hnone hbefore, hnone hlater]
  simp

/-- Of some handlers that get one receipt, a handler gets it as often as it is among them. -/
theorem filter_handed (handlers : List H) (c : Confirmation) :
    (handlers.map (·, c)).filter (·.1 = h) = List.replicate (handlers.count h) (h, c) := by
  induction handlers with
  | nil => rfl
  | cons g handlers ih =>
    by_cases hg : g = h
    · simp [hg, ih, List.replicate_succ]
    · simp [hg, ih]

/-- What a move hands to a handler that waits: the receipt of a confirmation that the move
    brings for its id. -/
theorem dispatches_waiting {t : Tracker H} {m : Move H} (hwait : (t.handlersOf workId).count h = 1)
    (hother : ∀ v ≠ workId, h ∉ t.handlersOf v) (hm : ∀ v, m.registration? ≠ some (v, h)) :
    (dispatches (t.after m).2).filter (·.1 = h) =
      (((t.obtained? m).toList.find? (·.1 = workId)).map fun e => receipt workId e.2).toList.map
        (h, ·) := by
  have heffect := t.after_effect m
  generalize (t.after m).1 = t', dispatches (t.after m).2 = ds at heffect
  cases heffect with
  | quiet _ hob => simp [hob]
  | @claimed w g c =>
    have hne : g ≠ h := fun heq => hm w (by rw [heq]; rfl)
    simp [Tracker.obtained?, hne]
  | @recalled w g c =>
    have hne : g ≠ h := fun heq => hm w (by rw [heq]; rfl)
    simp [Tracker.obtained?, hne]
  | queued => simp [Tracker.obtained?]
  | @served w a hs hob hfind =>
    have hhandlers : t.handlersOf w = hs := by rw [Tracker.handlersOf, hfind]; rfl
    rw [hob, filter_handed]
    by_cases hw : w = workId
    · subst hw
      rw [← hhandlers, hwait]
      simp
    · have hzero : hs.count h = 0 := List.count_eq_zero.2 (hhandlers ▸ hother w hw)
      simp [hw, hzero]
  | @kept w a hob hfind =>
    have hw : w ≠ workId := by
      rintro rfl
      rw [Tracker.handlersOf, hfind] at hwait
      cases hwait
    simp [hob, hw]

/-- **A handler registered once has got exactly what is due to it**: one receipt, or none. -/
theorem dispatched_award (hbefore : ∀ v, (v, h) ∉ Move.registrations before)
    (hlater : ∀ v, (v, h) ∉ Move.registrations later) :
    (of capacity (before ++ .register workId h false :: later)).dispatched.filter (·.1 = h) =
      (award? capacity before (.register workId h false :: later) workId).toList.map (h, ·) := by
  induction later using List.reverseRecOn with
  | nil =>
    have hnot : (of capacity before).dispatched.filter (·.1 = h) = [] := by
      refine List.filter_eq_nil_iff.2 ?_
      rintro ⟨g, c⟩ hmem heq
      obtain rfl : g = h := by simpa using heq
      have hturned := (servedOnce_of capacity before).turnedAway g fun w hw =>
        hbefore w (mem_registrations.2 hw)
      exact hturned.1 c hmem
    have hsince : since capacity before [.register workId h false] = [] := by
      have hconcat := since_concat capacity before [] (.register workId h false)
      simpa [since_nil, Tracker.obtained?] using hconcat
    rw [of_concat, History.after, List.filter_append, hnot, award?, hsince]
    have hgets := Tracker.dispatches_register (of capacity before).tracker workId h
    show (dispatches ((of capacity before).tracker.register workId h false).2).filter _ = _
    rw [hgets]
    cases (of capacity before).tracker.held? workId <;> simp
  | append_singleton later m ih =>
    have hregs : Move.registrations (later ++ [m]) =
        Move.registrations later ++ Move.registrations [m] := List.filterMap_append
    have hlater' : ∀ v, (v, h) ∉ Move.registrations later := by
      intro v hv
      exact hlater v (hregs ▸ List.mem_append_left _ hv)
    have hm : ∀ v, m.registration? ≠ some (v, h) := by
      intro v hv
      refine hlater v (hregs ▸ List.mem_append_right _ ?_)
      simp [Move.registrations, hv]
    have ih := ih hlater'
    have hmoves : before ++ .register workId h false :: (later ++ [m]) =
        (before ++ .register workId h false :: later) ++ [m] := by simp
    have hnext : (of capacity ((before ++ .register workId h false :: later) ++ [m])).dispatched
        = (of capacity (before ++ .register workId h false :: later)).dispatched ++ dispatches
          ((of capacity (before ++ .register workId h false :: later)).tracker.after m).2 := by
      rw [of_concat, History.after]
    have haward := award_concat capacity before (.register workId h false :: later) m workId
    rw [List.cons_append] at haward
    rw [hmoves, hnext, List.filter_append, ih, haward]
    obtain ⟨hmem, h1⟩ := registered_once workId hbefore hlater'
    rcases (servedOnce_of capacity _).once workId h hmem h1 with
      ⟨hnot, hwait, hother⟩ | ⟨-, c, -, hserved⟩
    · -- it waits, so nothing was due, and what the move brings for its id is
      have hnothing : (of capacity (before ++ .register workId h false :: later)).dispatched.filter
          (·.1 = h) = [] := by
        refine List.filter_eq_nil_iff.2 ?_
        rintro ⟨g, c⟩ hd heq
        obtain rfl : g = h := by simpa using heq
        exact hnot c hd
      rw [dispatches_waiting hwait hother hm]
      rw [ih] at hnothing
      cases hdue : award? capacity before (.register workId h false :: later) workId with
      | none => simp
      | some c => simp [hdue] at hnothing
    · -- it was served, and a second receipt would be one too many
      obtain ⟨hmem', h1'⟩ := registered_once workId hbefore hlater
      rw [hmoves] at hmem' h1'
      have hgot : (h, c) ∈ (of capacity (before ++ .register workId h false :: later)).dispatched :=
        List.mem_of_mem_filter (hserved ▸ List.mem_singleton_self (h, c))
      rw [ih] at hserved
      have hdue : award? capacity before (.register workId h false :: later) workId = some c := by
        cases hdue : award? capacity before (.register workId h false :: later) workId with
        | none => simp [hdue] at hserved
        | some c' => simpa [hdue] using hserved
      rcases (servedOnce_of capacity _).once workId h hmem' h1' with
        ⟨hnot, -⟩ | ⟨-, c', -, hserved'⟩
      · exact absurd (hnext ▸ List.mem_append_left _ hgot) (hnot c)
      · rw [hnext, List.filter_append, ih, hdue] at hserved'
        simp only [Option.toList_some, List.map_cons, List.map_nil, List.singleton_append,
          List.cons.injEq] at hserved'
        simp [hdue, hserved'.2]

end

end History

end LedgerGate.Receipt
