/-
  What becomes of a confirmation: it is handed to a handler, or its receipt is kept
  unclaimed.

  An arrival is decided by who waits at that moment, and nothing is asked about earlier
  ones.  So an id that is confirmed once has one of the two, and an id that is polled for
  and confirmed again after its handlers got theirs has both, until somebody asks.

  * `Fate`, `fate`: all that a move can mean for one id;
  * `Reconfirmed`: a confirmation came for an id that was served already;
  * `Accounted`, `accounted_of`: **no confirmation is lost, and an id is both served and
    kept exactly if it was reconfirmed.**
-/
import LedgerGate.Proofs.Receipt.Holding

namespace LedgerGate.Receipt

variable {H : Type}

/-- Whether the receipt of an id is kept for a handler that comes later. -/
def Tracker.Keeps (t : Tracker H) (w : WorkId) : Prop := ∃ c, Entries.find? t.unclaimed w = some c

theorem Tracker.Keeps.congr {t t' : Tracker H} {w : WorkId}
    (h : Entries.find? t'.unclaimed w = Entries.find? t.unclaimed w) : t'.Keeps w ↔ t.Keeps w := by
  rw [Keeps, h, Keeps]

theorem Tracker.not_keeps {t : Tracker H} {w : WorkId} (h : Entries.find? t.unclaimed w = none) :
    ¬ t.Keeps w := by
  rintro ⟨c, hc⟩
  rw [h] at hc
  cases hc

/-- Once somebody has asked for a receipt, none is kept under its id. -/
theorem Tracker.unclaimed_register (t : Tracker H) (w : WorkId) (h : H) :
    Entries.find? (t.register w h false).1.unclaimed w = none := by
  unfold register
  rw [if_neg Bool.false_ne_true]
  split
  · exact Entries.find?_erase_self _ _
  · rename_i hnone
    split <;> exact hnone

namespace History

/-! ## One id -/

/-- What a move can mean for an id: nothing, somebody asks for its receipt, or a
    confirmation comes and is handed out or kept. -/
inductive Fate (w : WorkId) (s : History H) (m : Move H) (s' : History H) : Prop
  | elsewhere : (∀ a, s.tracker.obtained? m ≠ some (w, a)) → Move.registered [m] w = [] →
      Entries.find? s'.tracker.unclaimed w = Entries.find? s.tracker.unclaimed w →
      s'.dispatchedFor w = s.dispatchedFor w → Fate w s m s'
  | asked : (∀ a, s.tracker.obtained? m ≠ some (w, a)) → Move.registered [m] w ≠ [] →
      Entries.find? s'.tracker.unclaimed w = none →
      (s.tracker.Keeps w ∨ s.dispatchedFor w ≠ [] → s'.dispatchedFor w ≠ []) → Fate w s m s'
  | served {a} : s.tracker.obtained? m = some (w, a) → s.tracker.handlersOf w ≠ [] →
      Entries.find? s.tracker.unclaimed w = none →
      Entries.find? s'.tracker.unclaimed w = none → s'.dispatchedFor w ≠ [] → Fate w s m s'
  | kept {a} : s.tracker.obtained? m = some (w, a) → s.tracker.handlersOf w = [] →
      Move.registered [m] w = [] →
      Entries.find? s'.tracker.unclaimed w = some (receipt w a) →
      s'.dispatchedFor w = s.dispatchedFor w → Fate w s m s'

/-- Handlers that get no receipt of an id leave those who got one as they are. -/
theorem dispatchedFor_ne {t : Tracker H} {ob : List (WorkId × Confirmation)}
    {ds es : List (H × Confirmation)} {w : WorkId} (h : ∀ d ∈ es, d.2.workId ≠ w) :
    (⟨t, ob, ds ++ es⟩ : History H).dispatchedFor w =
      (⟨t, ob, ds⟩ : History H).dispatchedFor w := by
  have hnone : es.filter (·.2.workId = w) = [] :=
    List.filter_eq_nil_iff.2 fun d hd => by simpa using h d hd
  rw [dispatchedFor_append, hnone, List.map_nil, List.append_nil]

/-- A handler that gets a receipt of an id is among those who got one. -/
theorem dispatchedFor_ne_nil {t : Tracker H} {ob : List (WorkId × Confirmation)}
    {ds es : List (H × Confirmation)} {w : WorkId} {d : H × Confirmation} (hd : d ∈ es)
    (hw : d.2.workId = w) : (⟨t, ob, ds ++ es⟩ : History H).dispatchedFor w ≠ [] := by
  have hmem : d ∈ es.filter (·.2.workId = w) := List.mem_filter.2 ⟨hd, by simpa using hw⟩
  rw [dispatchedFor_append]
  exact List.append_ne_nil_of_right_ne_nil _ (List.ne_nil_of_mem (List.mem_map_of_mem hmem))

section
variable {moves : List (Move H)} {s : History H} {capacity : Nat} (hs : Sound moves s)
  (ho : s.tracker.Orderly capacity)
include hs

/-- Somebody asks for a receipt. -/
theorem Sound.fate_register {w w₀ : WorkId} {h : H} :
    Fate w s (.register w₀ h false) (s.after (.register w₀ h false)) := by
  have hregistered := Move.registered_register w₀ w h
  have hnone : ∀ a, s.tracker.obtained? (.register w₀ h false) ≠ some (w, a) := nofun
  by_cases hw : w₀ = w
  · subst hw
    refine .asked hnone (by simp [hregistered]) (s.tracker.unclaimed_register w₀ h) ?_
    rintro (⟨c, hc⟩ | hserved)
    · have hsame : c.workId = w₀ := by
        obtain ⟨-, a, -, rfl⟩ := hs.held w₀ c (Or.inl hc)
        exact receipt_workId w₀ a
      refine dispatchedFor_ne_nil (d := (h, c)) ?_ hsame
      simp [Tracker.after, Tracker.register, hc, dispatches, Notice.dispatch?]
    · rw [after, dispatchedFor_append]
      exact List.append_ne_nil_of_left_ne_nil hserved _
  · rw [if_neg hw] at hregistered
    have heffect := Tracker.after_effect s.tracker (.register w₀ h false)
    unfold after
    generalize (s.tracker.after (.register w₀ h false)).1 = t' at heffect ⊢
    generalize dispatches (s.tracker.after (.register w₀ h false)).2 = ds at heffect ⊢
    have howner : ∀ c, s.tracker.Holds w₀ c → ∀ d ∈ [(h, c)], d.2.workId ≠ w := by
      intro c hc d hd
      obtain ⟨-, a, -, rfl⟩ := hs.held w₀ c hc
      rw [List.mem_singleton.1 hd]
      exact hw
    cases heffect with
    | quiet hreg _ _ hu =>
      exact .elsewhere hnone hregistered (congrArg (Entries.find? · w) hu)
        (dispatchedFor_ne fun d hd => absurd hd List.not_mem_nil)
    | claimed hc _ hu =>
      refine .elsewhere hnone hregistered ?_ (dispatchedFor_ne (howner _ (Or.inl hc)))
      simp only [hu]
      exact Entries.find?_erase_ne _ (Ne.symm hw)
    | recalled hc ht =>
      subst ht
      exact .elsewhere hnone hregistered rfl (dispatchedFor_ne (howner _ (Or.inr hc)))
    | queued _ _ ht =>
      subst ht
      exact .elsewhere hnone hregistered rfl
        (dispatchedFor_ne fun d hd => absurd hd List.not_mem_nil)

include ho

/-- A confirmation comes. -/
theorem Sound.fate_confirmation {w w₀ : WorkId} {a : Confirmation}
    (hob : s.tracker.obtained? (.answer (.ok (some a))) = some (w₀, a)) :
    Fate w s (.answer (.ok (some a))) (s.after (.answer (.ok (some a)))) := by
  have hregistered : Move.registered [(.answer (.ok (some a)) : Move H)] w = [] :=
    Move.registered_eq_nil rfl w
  have heffect := Tracker.after_effect s.tracker (.answer (.ok (some a)))
  unfold after
  generalize (s.tracker.after (.answer (.ok (some a)))).1 = t' at heffect ⊢
  generalize dispatches (s.tracker.after (.answer (.ok (some a)))).2 = ds at heffect ⊢
  cases heffect with
  | quiet _ hno => cases hob.symm.trans hno
  | @served w₁ _ handlers hob' hsome hw hu =>
    obtain rfl : w₁ = w₀ := congrArg Prod.fst (Option.some.inj (hob'.symm.trans hob))
    by_cases hne : w₁ = w
    · subst hne
      have hwaiting : s.tracker.handlersOf w₁ = handlers := by rw [Tracker.handlersOf, hsome]; rfl
      have hnonempty : handlers ≠ [] :=
        ho.awaited w₁ handlers (ho.waiting.find?_eq_some_iff.1 hsome)
      have hfree : Entries.find? s.tracker.unclaimed w₁ = none := by
        rcases hfind : Entries.find? s.tracker.unclaimed w₁ with _ | c
        · rfl
        · exact absurd (hwaiting.symm.trans (hs.held w₁ c (Or.inl hfind)).1) hnonempty
      obtain ⟨h, rest, rfl⟩ := List.exists_cons_of_ne_nil hnonempty
      refine .served hob (by rw [hwaiting]; exact hnonempty) hfree ?_
        (dispatchedFor_ne_nil List.mem_cons_self rfl)
      simp only [hu]
      exact hfree
    · refine .elsewhere (fun b hb => ?_) hregistered (congrArg (Entries.find? · w) hu)
        (dispatchedFor_ne fun d hd => ?_)
      · exact hne (congrArg Prod.fst (Option.some.inj (hob.symm.trans hb)))
      · obtain ⟨h, -, rfl⟩ := List.mem_map.1 hd
        exact hne
  | @kept w₁ _ hob' hnone hw hu =>
    obtain rfl : w₁ = w₀ := congrArg Prod.fst (Option.some.inj (hob'.symm.trans hob))
    have hsame : (⟨t', s.obtained ++ (s.tracker.obtained? (.answer (.ok (some a)))).toList,
        s.dispatched ++ []⟩ : History H).dispatchedFor w = s.dispatchedFor w :=
      dispatchedFor_ne fun d hd => absurd hd List.not_mem_nil
    by_cases hne : w₁ = w
    · subst hne
      refine .kept hob (by rw [Tracker.handlersOf, hnone]; rfl) hregistered ?_ hsame
      simp only [hu]
      exact Entries.find?_insert_self _ _ _
    · refine .elsewhere (fun b hb => ?_) hregistered ?_ hsame
      · exact hne (congrArg Prod.fst (Option.some.inj (hob.symm.trans hb)))
      · simp only [hu]
        exact Entries.find?_insert_ne _ _ (Ne.symm hne)

/-- **All that a move can mean for an id.** -/
theorem Sound.fate (w : WorkId) (m : Move H) : Fate w s m (s.after m) := by
  have quiet : m.registration? = none → s.tracker.obtained? m = none →
      Fate w s m (s.after m) := by
    intro hreg hno
    have heffect := Tracker.after_effect s.tracker m
    unfold after
    generalize (s.tracker.after m).1 = t' at heffect ⊢
    generalize dispatches (s.tracker.after m).2 = ds at heffect ⊢
    cases heffect with
    | quiet _ _ _ hu =>
      refine .elsewhere (fun a ha => ?_) (Move.registered_eq_nil hreg w)
        (congrArg (Entries.find? · w) hu) (dispatchedFor_ne fun d hd => absurd hd List.not_mem_nil)
      cases hno.symm.trans ha
    | claimed => cases hreg
    | recalled => cases hreg
    | queued => cases hreg
    | served hob => cases hno.symm.trans hob
    | kept hob => cases hno.symm.trans hob
  cases m with
  | track w₀ => exact quiet rfl rfl
  | scan order => exact quiet rfl rfl
  | register w₀ h isDone =>
    cases isDone with
    | true => exact quiet rfl rfl
    | false => exact hs.fate_register
  | answer a =>
    rcases a with e | _ | a
    · exact quiet rfl rfl
    · exact quiet rfl rfl
    · rcases hscan : s.tracker.scan with _ | scan
      · exact quiet rfl (by simp [Tracker.obtained?, hscan])
      · have hob : s.tracker.obtained? (.answer (.ok (some a))) = some (scan.current, a) := by
          simp [Tracker.obtained?, hscan]
        exact hs.fate_confirmation ho hob

end

/-- What a move means for an id in a history. -/
theorem fate_of (capacity : Nat) (moves : List (Move H)) (m : Move H) (w : WorkId) :
    Fate w (of capacity moves) m (of capacity (moves ++ [m])) := by
  rw [of_concat]
  exact (sound_of capacity moves).fate (orderly_of capacity moves) w m

/-! ## Reconfirmations -/

/-- A confirmation of an id came when handlers had been served and none waited, and nobody
    has asked for its receipt since. -/
def Reconfirmed (capacity : Nat) (moves : List (Move H)) (w : WorkId) : Prop :=
  ∃ before m after a, moves = before ++ m :: after ∧
    (of capacity before).tracker.obtained? m = some (w, a) ∧
    (of capacity before).dispatchedFor w ≠ [] ∧ (of capacity before).tracker.handlersOf w = [] ∧
    Move.registered after w = []

/-- A point in a list with one more item: at that item, or before it. -/
theorem concat_eq_append_cons_iff {α : Type} {l before after : List α} {x y : α} :
    l ++ [y] = before ++ x :: after ↔ (l = before ∧ y = x ∧ after = []) ∨
      ∃ rest, l = before ++ x :: rest ∧ after = rest ++ [y] := by
  constructor
  · intro h
    rcases List.eq_nil_or_concat after with rfl | ⟨rest, z, rfl⟩
    · obtain ⟨hl, hy⟩ := List.append_inj' h rfl
      exact Or.inl ⟨hl, List.singleton_inj.1 hy, rfl⟩
    · rw [List.concat_eq_append, ← List.cons_append, ← List.append_assoc] at h
      obtain ⟨hl, hz⟩ := List.append_inj' h rfl
      exact Or.inr ⟨rest, hl, by rw [List.concat_eq_append, List.singleton_inj.1 hz]⟩
  · rintro (⟨rfl, rfl, rfl⟩ | ⟨rest, rfl, rfl⟩)
    · rfl
    · rw [List.append_assoc, List.cons_append]

theorem reconfirmed_concat {capacity : Nat} {moves : List (Move H)} {m : Move H} {w : WorkId} :
    Reconfirmed capacity (moves ++ [m]) w ↔
      (∃ a, (of capacity moves).tracker.obtained? m = some (w, a) ∧
        (of capacity moves).dispatchedFor w ≠ [] ∧
        (of capacity moves).tracker.handlersOf w = []) ∨
      (Reconfirmed capacity moves w ∧ Move.registered [m] w = []) := by
  simp only [Reconfirmed, concat_eq_append_cons_iff]
  constructor
  · rintro ⟨before, m', after, a, ⟨rfl, rfl, rfl⟩ | ⟨rest, rfl, rfl⟩, hob, hserved, hidle, hlater⟩
    · exact Or.inl ⟨a, hob, hserved, hidle⟩
    · rw [Move.registered_concat] at hlater
      obtain ⟨hrest, hm⟩ := List.append_eq_nil_iff.1 hlater
      exact Or.inr ⟨⟨before, m', rest, a, rfl, hob, hserved, hidle, hrest⟩, hm⟩
  · rintro (⟨a, hob, hserved, hidle⟩ | ⟨⟨before, m', rest, a, rfl, hob, hserved, hidle, hrest⟩, hm⟩)
    · exact ⟨moves, m, [], a, Or.inl ⟨rfl, rfl, rfl⟩, hob, hserved, hidle, rfl⟩
    · refine ⟨before, m', rest ++ [m], a, Or.inr ⟨rest, rfl, rfl⟩, hob, hserved, hidle, ?_⟩
      rw [Move.registered_concat, hrest, hm, List.append_nil]

/-- An id is served and kept at once exactly if it was reconfirmed. -/
theorem keeps_and_served_iff (capacity : Nat) (moves : List (Move H)) (w : WorkId) :
    (of capacity moves).tracker.Keeps w ∧ (of capacity moves).dispatchedFor w ≠ [] ↔
      Reconfirmed capacity moves w := by
  induction moves using List.reverseRecOn with
  | nil =>
    constructor
    · rintro ⟨-, hserved⟩
      exact absurd rfl hserved
    · rintro ⟨before, m, after, a, hsplit, -⟩
      simp at hsplit
  | append_singleton moves m ih =>
    rw [reconfirmed_concat, ← ih]
    cases fate_of capacity moves m w with
    | elsewhere hno hreg hu hd =>
      simp only [Tracker.Keeps.congr hu, hd, hno, hreg, false_and, exists_false, false_or, and_true]
    | asked hno hreg hu _ =>
      simp only [Tracker.not_keeps hu, hno, hreg, false_and, exists_false, and_false, or_false]
    | served hob hwait hfree hu _ =>
      simp only [Tracker.not_keeps hu, Tracker.not_keeps hfree, hwait, false_and, and_false,
        exists_false, or_false]
    | @kept a hob hidle hreg hu hd =>
      have hkeeps : (of capacity (moves ++ [m])).tracker.Keeps w := ⟨_, hu⟩
      simp only [hkeeps, hd, hob, hidle, hreg, true_and, and_true]
      constructor
      · exact fun hserved => Or.inl ⟨a, rfl, hserved⟩
      · rintro (⟨b, -, hserved⟩ | ⟨-, hserved⟩) <;> exact hserved

/-! ## No confirmation is lost -/

/-- What becomes of the confirmations that the scans of a history obtained. -/
structure Accounted (capacity : Nat) (moves : List (Move H)) (s : History H) : Prop where
  /-- Of an id that was confirmed some handler got the receipt, or the receipt is kept. -/
  somewhere : ∀ w a, (w, a) ∈ s.obtained → s.tracker.Keeps w ∨ s.dispatchedFor w ≠ []
  /-- Of an id that was confirmed once, not both. -/
  once : ∀ w, s.obtained.countP (·.1 = w) ≤ 1 → ¬ (s.tracker.Keeps w ∧ s.dispatchedFor w ≠ [])
  /-- Both, exactly if a confirmation came after handlers had been served, when none waited,
      and nobody has asked since. -/
  again : ∀ w, s.tracker.Keeps w ∧ s.dispatchedFor w ≠ [] ↔ Reconfirmed capacity moves w

theorem keeps_or_served (capacity : Nat) (moves : List (Move H)) {w : WorkId} {a : Confirmation}
    (h : (w, a) ∈ (of capacity moves).obtained) :
    (of capacity moves).tracker.Keeps w ∨ (of capacity moves).dispatchedFor w ≠ [] := by
  induction moves using List.reverseRecOn with
  | nil => cases h
  | append_singleton moves m ih =>
    have hearlier : (of capacity moves).tracker.obtained? m ≠ some (w, a) →
        (w, a) ∈ (of capacity moves).obtained := by
      intro hno
      rw [of_concat] at h
      rcases List.mem_append.1 h with h | h
      · exact h
      · exact absurd (Option.mem_toList.1 h) hno
    cases fate_of capacity moves m w with
    | elsewhere hno _ hu hd =>
      rw [Tracker.Keeps.congr hu, hd]
      exact ih (hearlier (hno a))
    | asked hno _ _ hkeep => exact Or.inr (hkeep (ih (hearlier (hno a))))
    | served _ _ _ _ hd => exact Or.inr hd
    | kept _ _ _ hu _ => exact Or.inl ⟨_, hu⟩

/-- Whoever was served was served with a confirmation of that id. -/
theorem exists_obtained_of_served {capacity : Nat} {moves : List (Move H)} {w : WorkId}
    (h : (of capacity moves).dispatchedFor w ≠ []) :
    ∃ a, (w, a) ∈ (of capacity moves).obtained := by
  obtain ⟨g, hg⟩ := List.exists_mem_of_ne_nil _ h
  obtain ⟨d, hd, -⟩ := List.mem_map.1 hg
  obtain ⟨hmem, hw⟩ := List.mem_filter.1 hd
  obtain ⟨v, a, ha, hreceipt⟩ := (sound_of capacity moves).handed d hmem
  rw [hreceipt, receipt_workId, decide_eq_true_eq] at hw
  exact ⟨a, hw ▸ ha⟩

/-- What was obtained stays obtained. -/
theorem obtained_append (capacity : Nat) (moves more : List (Move H)) :
    ∃ later, (of capacity (moves ++ more)).obtained = (of capacity moves).obtained ++ later := by
  induction more using List.reverseRecOn with
  | nil => exact ⟨[], by simp⟩
  | append_singleton more m ih =>
    obtain ⟨later, hlater⟩ := ih
    rw [← List.append_assoc, of_concat, after, hlater, List.append_assoc]
    exact ⟨_, rfl⟩

/-- An id that was reconfirmed was confirmed twice. -/
theorem Reconfirmed.two_le {capacity : Nat} {moves : List (Move H)} {w : WorkId}
    (h : Reconfirmed capacity moves w) :
    2 ≤ (of capacity moves).obtained.countP (·.1 = w) := by
  obtain ⟨before, m, after, a, rfl, hob, hserved, -, -⟩ := h
  obtain ⟨b, hb⟩ := exists_obtained_of_served hserved
  have hfirst : 0 < (of capacity before).obtained.countP (·.1 = w) :=
    List.countP_pos_iff.2 ⟨(w, b), hb, by simp⟩
  obtain ⟨later, hlater⟩ := obtained_append capacity (before ++ [m]) after
  rw [List.append_assoc, List.singleton_append] at hlater
  rw [hlater, of_concat, History.after, hob]
  simp only [Option.toList_some, List.countP_append, List.countP_singleton, decide_true, if_true]
  omega

/-- **No confirmation is lost**, and an id is both served and kept exactly if it was
    reconfirmed. -/
theorem accounted_of (capacity : Nat) (moves : List (Move H)) :
    Accounted capacity moves (of capacity moves) where
  somewhere _ _ h := keeps_or_served capacity moves h
  once w hle hboth := by
    have htwo := ((keeps_and_served_iff capacity moves w).1 hboth).two_le
    omega
  again := keeps_and_served_iff capacity moves

/-- A handler is served, and then the id is polled for and confirmed once more. -/
def repolled : List (Move Nat) :=
  [.track "0x1", .register "0x1" 1 false, .scan ["0x1"],
    .answer (.ok (some (.succeeded "0x1" 7 .empty))), .track "0x1", .scan ["0x1"],
    .answer (.ok (some (.succeeded "0x1" 7 .empty)))]

/-- The handler was served and the receipt is kept all the same. -/
theorem keeps_and_served_repolled : (of 16 repolled).tracker.Keeps "0x1" ∧
    (of 16 repolled).dispatchedFor "0x1" = [1] :=
  ⟨⟨_, rfl⟩, rfl⟩

end History

end LedgerGate.Receipt
