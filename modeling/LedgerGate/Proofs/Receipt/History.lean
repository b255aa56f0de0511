/-
  Histories of a tracker: its operations in every order in which they can come.

  A scan stops at each of its questions, and whatever comes before the answer is a
  move of its own.  So a history is a list of moves, and every interleaving of
  tracking, registering and scanning is one of these lists.

  * `Move`, `Tracker.after`: one operation and what it does;
  * `Effect`: all that a move can do to handlers and receipts (`after_effect`);
  * `History.of`: the tracker after some moves, what its scans obtained and what was
    dispatched;
  * `History.sound_of`: in every history a receipt that is held is one that a scan
    obtained for its id, and nobody waits for that id; the handlers registered for an
    id are, in their order, those dispatched and then those that wait.
-/
import LedgerGate.Receipt.Tracker
import Mathlib.Data.List.Basic
import Mathlib.Data.List.Induction

namespace LedgerGate.Receipt

variable {H : Type}

/-! ## Moves -/

/-- What can happen to a tracker.  A scan begins with the ids it will ask about, in
    some order, and each answer is a move of its own. -/
inductive Move (H : Type) where
  | track (workId : WorkId)
  | register (workId : WorkId) (handler : H) (isDone : Bool)
  | scan (order : List WorkId)
  | answer (a : Except Ledger.Error (Option Confirmation))

namespace Move

/-- The handler that a move registers, with its id; one that is done is turned away. -/
def registration? : Move H → Option (WorkId × H)
  | .register workId h false => some (workId, h)
  | _ => none

/-- The handlers that some moves register, with their ids, in their order. -/
def registrations (moves : List (Move H)) : List (WorkId × H) := moves.filterMap registration?

/-- The handlers that some moves register for an id, in their order. -/
def registered (moves : List (Move H)) (workId : WorkId) : List H :=
  ((registrations moves).filter (·.1 = workId)).map (·.2)

theorem registered_concat (moves : List (Move H)) (m : Move H) (workId : WorkId) :
    registered (moves ++ [m]) workId = registered moves workId ++ registered [m] workId := by
  simp [registered, registrations, List.filterMap_append, List.filter_append]

theorem registered_register (w workId : WorkId) (h : H) :
    registered [.register w h false] workId = if w = workId then [h] else [] := by
  by_cases hw : w = workId <;> simp [registered, registrations, registration?, hw]

theorem registered_eq_nil {m : Move H} (hm : m.registration? = none) (workId : WorkId) :
    registered [m] workId = [] := by
  simp [registered, registrations, hm]

end Move

namespace Tracker

/-- The tracker after a move, and what happened. -/
def after (t : Tracker H) : Move H → Tracker H × List (Notice H)
  | .track workId => t.track workId
  | .register workId h isDone => t.register workId h isDone
  | .scan order => ((t.beginScanOf order).1, (t.beginScanOf order).2.1)
  | .answer a => ((t.answered a).1, (t.answered a).2.1)

/-- The confirmation that a move brings to a scan, with the id that was asked about. -/
def obtained? (t : Tracker H) : Move H → Option (WorkId × Confirmation)
  | .answer (.ok (some c)) => t.scan.map fun s => (s.current, c)
  | _ => none

/-- Whether a receipt of an id is held: unclaimed, or remembered. -/
def Holds (t : Tracker H) (workId : WorkId) (c : Confirmation) : Prop :=
  Entries.find? t.unclaimed workId = some c ∨ t.recent.find? workId = some c

end Tracker

/-- The receipt that a ledger's answer about an id becomes. -/
def receipt (workId : WorkId) (answer : Confirmation) : Confirmation :=
  { answer.readable with workId }

@[simp]
theorem receipt_workId (workId : WorkId) (answer : Confirmation) :
    (receipt workId answer).workId = workId := rfl

/-! ## What a move does -/

/-- What a move does to the handlers that wait and to the receipts that are held, with
    the handlers it dispatches. -/
inductive Effect (t t' : Tracker H) : Move H → List (H × Confirmation) → Prop
  /-- nothing: the move registers nobody and brings no confirmation -/
  | quiet {m} : m.registration? = none → t.obtained? m = none → t'.waiting = t.waiting →
      t'.unclaimed = t.unclaimed → t'.recent = t.recent → Effect t t' m []
  /-- a handler claims an unclaimed receipt -/
  | claimed {w h c} : Entries.find? t.unclaimed w = some c → t'.waiting = t.waiting →
      t'.unclaimed = Entries.erase t.unclaimed w → t'.recent = t.recent.insert c →
      Effect t t' (.register w h false) [(h, c)]
  /-- a handler gets a receipt that is remembered -/
  | recalled {w h c} : t.recent.find? w = some c → t' = t →
      Effect t t' (.register w h false) [(h, c)]
  /-- a handler has to wait -/
  | queued {w h} : Entries.find? t.unclaimed w = none → t.recent.find? w = none →
      t' = { t with waiting := Entries.insert t.waiting w (t.handlersOf w ++ [h]) } →
      Effect t t' (.register w h false) []
  /-- a confirmation comes for handlers that wait -/
  | served {w a hs} : t.obtained? (.answer (.ok (some a))) = some (w, a) →
      Entries.find? t.waiting w = some hs → t'.waiting = Entries.erase t.waiting w →
      t'.unclaimed = t.unclaimed → t'.recent = t.recent.insert (receipt w a) →
      Effect t t' (.answer (.ok (some a))) (hs.map (·, receipt w a))
  /-- a confirmation comes and nobody waits for it -/
  | kept {w a} : t.obtained? (.answer (.ok (some a))) = some (w, a) →
      Entries.find? t.waiting w = none → t'.waiting = t.waiting →
      t'.unclaimed = Entries.insert t.unclaimed w (receipt w a) → t'.recent = t.recent →
      Effect t t' (.answer (.ok (some a))) []

/-- The dispatches among notices. -/
def dispatches (notices : List (Notice H)) : List (H × Confirmation) :=
  notices.filterMap Notice.dispatch?

theorem dispatches_append (ns ms : List (Notice H)) :
    dispatches (ns ++ ms) = dispatches ns ++ dispatches ms :=
  List.filterMap_append

theorem dispatches_map (handlers : List H) (c : Confirmation) :
    dispatches (handlers.map (.dispatched · c)) = handlers.map (·, c) := by
  rw [dispatches, List.filterMap_map]
  exact congrFun (List.filterMap_eq_map (f := (·, c))) handlers

namespace Tracker

theorem visit_keeps (t : Tracker H) (checked confirmed errors : Nat) (rest : List WorkId) :
    (t.visit checked confirmed errors rest).1.waiting = t.waiting ∧
      (t.visit checked confirmed errors rest).1.unclaimed = t.unclaimed ∧
      (t.visit checked confirmed errors rest).1.recent = t.recent := by
  induction rest with
  | nil => exact ⟨rfl, rfl, rfl⟩
  | cons workId rest ih =>
    unfold visit
    split
    · exact ⟨rfl, rfl, rfl⟩
    · exact ih

theorem track_effect (t : Tracker H) (w : WorkId) :
    Effect t (t.after (.track w)).1 (.track w) (dispatches (t.after (.track w)).2) :=
  .quiet rfl rfl rfl rfl rfl

theorem register_effect (t : Tracker H) (w : WorkId) (h : H) (isDone : Bool) :
    Effect t (t.after (.register w h isDone)).1 (.register w h isDone)
      (dispatches (t.after (.register w h isDone)).2) := by
  cases isDone with
  | true => exact .quiet rfl rfl rfl rfl rfl
  | false =>
    simp only [after, register, Bool.false_eq_true, if_false]
    split
    · rename_i c hc
      exact .claimed hc rfl rfl rfl
    · rename_i hc
      split
      · rename_i c hr
        exact .recalled hr rfl
      · rename_i hr
        exact .queued hc hr rfl

theorem scan_effect (t : Tracker H) (order : List WorkId) :
    Effect t (t.after (.scan order)).1 (.scan order) (dispatches (t.after (.scan order)).2) := by
  simp only [after, beginScanOf]
  split
  · exact .quiet rfl rfl rfl rfl rfl
  · obtain ⟨hw, hu, hr⟩ := t.visit_keeps 0 0 0 order
    exact .quiet rfl rfl hw hu hr

/-- The confirmation of a scan, step by step: the id is no longer polled for, its receipt
    arrives, and the scan goes on. -/
theorem after_confirmation {t : Tracker H} {s : Scan} (hs : t.scan = some s) (a : Confirmation) :
    t.after (.answer (.ok (some a))) =
      ((((t.untrack s.current).1.arrive (receipt s.current a)).1.visit s.checked (s.confirmed + 1)
          s.errors s.rest).1,
        (t.untrack s.current).2 ++ [.confirmed] ++
          ((t.untrack s.current).1.arrive (receipt s.current a)).2) := by
  simp only [after, answered, hs]
  rfl

theorem arrive_some {t : Tracker H} {c : Confirmation} {handlers : List H}
    (h : Entries.find? t.waiting c.workId = some handlers) :
    t.arrive c = ({ t with
        waiting := Entries.erase t.waiting c.workId
        recent := t.recent.insert c }, handlers.map (.dispatched · c)) := by
  simp only [arrive, h]

theorem arrive_none {t : Tracker H} {c : Confirmation}
    (h : Entries.find? t.waiting c.workId = none) :
    t.arrive c = ({ t with unclaimed := Entries.insert t.unclaimed c.workId c },
      [.unclaimedCount (Entries.insert t.unclaimed c.workId c).length]) := by
  simp only [arrive, h]

theorem arrive_effect {t : Tracker H} {s : Scan} (hs : t.scan = some s) (a : Confirmation) :
    Effect t (t.after (.answer (.ok (some a)))).1 (.answer (.ok (some a)))
      (dispatches (t.after (.answer (.ok (some a)))).2) := by
  have hob : t.obtained? (.answer (.ok (some a))) = some (s.current, a) := by
    simp [obtained?, hs]
  rw [after_confirmation hs]
  rcases hw : Entries.find? t.waiting s.current with _ | handlers
  · rw [arrive_none (t := (t.untrack s.current).1) (c := receipt s.current a) hw]
    obtain ⟨h1, h2, h3⟩ := visit_keeps _ s.checked (s.confirmed + 1) s.errors s.rest
    exact .kept hob hw h1 h2 h3
  · rw [arrive_some (t := (t.untrack s.current).1) (c := receipt s.current a) hw,
      dispatches_append, dispatches_map]
    obtain ⟨h1, h2, h3⟩ := visit_keeps _ s.checked (s.confirmed + 1) s.errors s.rest
    exact .served hob hw h1 h2 h3

theorem answer_effect (t : Tracker H) (a : Except Ledger.Error (Option Confirmation)) :
    Effect t (t.after (.answer a)).1 (.answer a) (dispatches (t.after (.answer a)).2) := by
  rcases hs : t.scan with _ | s
  · have hq : t.obtained? (.answer a) = none := by
      rcases a with _ | _ | _ <;> simp [obtained?, hs]
    simp only [after, answered, hs]
    exact .quiet rfl hq rfl rfl rfl
  · rcases a with e | _ | a
    · obtain ⟨hw, hu, hr⟩ := t.visit_keeps s.checked s.confirmed (s.errors + 1) s.rest
      simp only [after, answered, hs]
      exact .quiet rfl rfl hw hu hr
    · obtain ⟨hw, hu, hr⟩ := t.visit_keeps s.checked s.confirmed s.errors s.rest
      simp only [after, answered, hs]
      exact .quiet rfl rfl hw hu hr
    · exact arrive_effect hs a

/-- **Every move has one of the effects.** -/
theorem after_effect (t : Tracker H) (m : Move H) :
    Effect t (t.after m).1 m (dispatches (t.after m).2) := by
  cases m with
  | track w => exact t.track_effect w
  | register w h isDone => exact t.register_effect w h isDone
  | scan order => exact t.scan_effect order
  | answer a => exact t.answer_effect a

/-! ## Handlers that wait -/

theorem handlersOf_congr {t t' : Tracker H} (h : t'.waiting = t.waiting) (workId : WorkId) :
    t'.handlersOf workId = t.handlersOf workId := by
  rw [handlersOf, handlersOf, h]

theorem handlersOf_insert {t t' : Tracker H} {w : WorkId} {hs : List H}
    (h : t'.waiting = Entries.insert t.waiting w hs) (workId : WorkId) :
    t'.handlersOf workId = if workId = w then hs else t.handlersOf workId := by
  rw [handlersOf, handlersOf, h]
  split_ifs with hw
  · rw [hw, Entries.find?_insert_self]; rfl
  · rw [Entries.find?_insert_ne _ _ hw]

theorem handlersOf_erase {t t' : Tracker H} {w : WorkId}
    (h : t'.waiting = Entries.erase t.waiting w) (workId : WorkId) :
    t'.handlersOf workId = if workId = w then [] else t.handlersOf workId := by
  rw [handlersOf, handlersOf, h, Entries.find?_erase]
  split_ifs <;> rfl

end Tracker

/-- A receipt that a move hands out was held, or the move brought it. -/
theorem Effect.handed {t t' : Tracker H} {m : Move H} {ds : List (H × Confirmation)}
    (he : Effect t t' m ds) {d : H × Confirmation} (hd : d ∈ ds) :
    ∃ w, t.Holds w d.2 ∨ ∃ a, t.obtained? m = some (w, a) ∧ d.2 = receipt w a := by
  cases he with
  | quiet => cases hd
  | @claimed w₀ _ _ hc =>
    rw [List.mem_singleton] at hd; subst hd
    exact ⟨w₀, Or.inl (Or.inl hc)⟩
  | @recalled w₀ _ _ hc =>
    rw [List.mem_singleton] at hd; subst hd
    exact ⟨w₀, Or.inl (Or.inr hc)⟩
  | queued => cases hd
  | @served w₀ a hs hob =>
    obtain ⟨_, -, rfl⟩ := List.mem_map.1 hd
    exact ⟨w₀, Or.inr ⟨a, hob, rfl⟩⟩
  | kept => cases hd

/-! ## Histories -/

/-- A tracker with its past: what its scans obtained, with the id that was asked about,
    and the handlers that were dispatched, with what they got. -/
structure History (H : Type) where
  tracker : Tracker H
  obtained : List (WorkId × Confirmation)
  dispatched : List (H × Confirmation)

namespace History

/-- The history after one more move. -/
def after (s : History H) (m : Move H) : History H where
  tracker := (s.tracker.after m).1
  obtained := s.obtained ++ (s.tracker.obtained? m).toList
  dispatched := s.dispatched ++ dispatches (s.tracker.after m).2

/-- The history of some moves of a new tracker. -/
def of (capacity : Nat) (moves : List (Move H)) : History H :=
  moves.foldl after ⟨.new capacity, [], []⟩

theorem of_concat (capacity : Nat) (moves : List (Move H)) (m : Move H) :
    of capacity (moves ++ [m]) = (of capacity moves).after m := by
  simp [of, List.foldl_append]

/-- The handlers that were dispatched with a receipt of an id, in their order. -/
def dispatchedFor (s : History H) (workId : WorkId) : List H :=
  (s.dispatched.filter (·.2.workId = workId)).map (·.1)

/-- What holds in every history.  A receipt that is held was obtained for its id, and
    nobody waits for that id; a receipt that was handed out was obtained for its id;
    no handler is lost or served twice. -/
structure Sound (moves : List (Move H)) (s : History H) : Prop where
  held : ∀ w c, s.tracker.Holds w c →
    s.tracker.handlersOf w = [] ∧ ∃ a, (w, a) ∈ s.obtained ∧ c = receipt w a
  handed : ∀ d ∈ s.dispatched, ∃ w a, (w, a) ∈ s.obtained ∧ d.2 = receipt w a
  conserved : ∀ w, Move.registered moves w = s.dispatchedFor w ++ s.tracker.handlersOf w

theorem sound_nil (capacity : Nat) : Sound ([] : List (Move H)) (of capacity []) where
  held w c h := by
    rcases h with h | h
    · cases h
    · simp [of, Tracker.new] at h
  handed d hd := by cases hd
  conserved w := rfl

theorem dispatchedFor_append (t : Tracker H) (ob : List (WorkId × Confirmation))
    (ds es : List (H × Confirmation)) (workId : WorkId) :
    (⟨t, ob, ds ++ es⟩ : History H).dispatchedFor workId =
      (⟨t, ob, ds⟩ : History H).dispatchedFor workId ++
        (es.filter (·.2.workId = workId)).map (·.1) := by
  simp [dispatchedFor, List.filter_append]

section
variable {moves : List (Move H)} {s : History H} (h : Sound moves s) {m : Move H} {t' : Tracker H}
  {ds : List (H × Confirmation)} (he : Effect s.tracker t' m ds)
include h he

/-- A receipt that is held after a move was held before, or the move brought it. -/
theorem Sound.held_step {w : WorkId} {c : Confirmation} (hc : t'.Holds w c) :
    t'.handlersOf w = [] ∧ (s.tracker.Holds w c ∨
      ∃ a, s.tracker.obtained? m = some (w, a) ∧ c = receipt w a) := by
  cases he with
  | quiet _ _ hw hu hr =>
    rw [Tracker.Holds, hu, hr] at hc
    exact ⟨by rw [Tracker.handlersOf_congr hw]; exact (h.held w c hc).1, Or.inl hc⟩
  | @claimed w₀ _ c₀ h₀ hw hu hr =>
    obtain ⟨-, a, -, rfl⟩ := h.held w₀ c₀ (Or.inl h₀)
    have hold : s.tracker.Holds w c := by
      rw [Tracker.Holds, hu, hr, Entries.find?_erase] at hc
      rcases hc with hc | hc
      · split_ifs at hc; exact Or.inl hc
      · rcases Recent.eq_or_find?_of_insert hc with ⟨hw₀, rfl⟩ | hc
        · rw [hw₀]; exact Or.inl h₀
        · exact Or.inr hc
    exact ⟨by rw [Tracker.handlersOf_congr hw]; exact (h.held w c hold).1, Or.inl hold⟩
  | recalled _ ht => subst ht; exact ⟨(h.held w c hc).1, Or.inl hc⟩
  | @queued w₀ _ hu hr ht =>
    have hold : s.tracker.Holds w c := by rw [ht] at hc; exact hc
    have hw₀ : w ≠ w₀ := by
      rintro rfl
      rcases hold with hc | hc
      · rw [hu] at hc; cases hc
      · rw [hr] at hc; cases hc
    rw [Tracker.handlersOf_insert (congrArg Tracker.waiting ht), if_neg hw₀]
    exact ⟨(h.held w c hold).1, Or.inl hold⟩
  | @served w₀ a hs hob _ hw hu hr =>
    rw [Tracker.handlersOf_erase hw]
    rw [Tracker.Holds, hu, hr] at hc
    have hcases : s.tracker.Holds w c ∨ w = w₀ ∧ c = receipt w₀ a := by
      rcases hc with hc | hc
      · exact Or.inl (Or.inl hc)
      · rcases Recent.eq_or_find?_of_insert hc with hnew | hc
        · exact Or.inr hnew
        · exact Or.inl (Or.inr hc)
    rcases hcases with hold | ⟨rfl, rfl⟩
    · exact ⟨by rw [(h.held w c hold).1, ite_self], Or.inl hold⟩
    · exact ⟨if_pos rfl, Or.inr ⟨a, hob, rfl⟩⟩
  | @kept w₀ a hob hnone hw hu hr =>
    rw [Tracker.handlersOf_congr hw]
    rw [Tracker.Holds, hu, hr] at hc
    by_cases hw₀ : w = w₀
    · subst hw₀
      have hempty : s.tracker.handlersOf w = [] := by rw [Tracker.handlersOf, hnone]; rfl
      rw [Entries.find?_insert_self] at hc
      rcases hc with hc | hc
      · cases hc; exact ⟨hempty, Or.inr ⟨a, hob, rfl⟩⟩
      · exact ⟨hempty, Or.inl (Or.inr hc)⟩
    · rw [Entries.find?_insert_ne _ _ hw₀] at hc
      exact ⟨(h.held w c hc).1, Or.inl hc⟩

/-- A move registers for an id whom it dispatches or lets wait, behind those who waited. -/
theorem Sound.conserved_step (w : WorkId) :
    s.tracker.handlersOf w ++ Move.registered [m] w =
      (ds.filter (·.2.workId = w)).map (·.1) ++ t'.handlersOf w := by
  cases he with
  | quiet hreg _ hw => simp [Move.registered_eq_nil hreg, Tracker.handlersOf_congr hw]
  | @claimed w₀ h₀ c₀ hc hw =>
    obtain ⟨hempty, a, -, rfl⟩ := h.held w₀ c₀ (Or.inl hc)
    rw [Move.registered_register, Tracker.handlersOf_congr hw]
    by_cases hw₀ : w₀ = w
    · subst hw₀; simp [hempty]
    · simp [hw₀]
  | @recalled w₀ h₀ c₀ hc ht =>
    obtain ⟨hempty, a, -, rfl⟩ := h.held w₀ c₀ (Or.inr hc)
    subst ht
    rw [Move.registered_register]
    by_cases hw₀ : w₀ = w
    · subst hw₀; simp [hempty]
    · simp [hw₀]
  | @queued w₀ h₀ _ _ ht =>
    rw [Move.registered_register, Tracker.handlersOf_insert (congrArg Tracker.waiting ht)]
    by_cases hw₀ : w₀ = w
    · subst hw₀; simp
    · simp [hw₀, Ne.symm hw₀]
  | @served w₀ a hs hob hsome hw =>
    rw [Move.registered_eq_nil rfl, Tracker.handlersOf_erase hw]
    by_cases hw₀ : w₀ = w
    · subst hw₀
      have hwait : s.tracker.handlersOf w₀ = hs := by rw [Tracker.handlersOf, hsome]; rfl
      simp [hwait, List.filter_map, Function.comp_def]
    · simp [hw₀, Ne.symm hw₀, List.filter_map, Function.comp_def]
  | kept _ _ hw => simp [Move.registered_eq_nil (m := .answer _) rfl, Tracker.handlersOf_congr hw]

/-- **One move keeps a history sound.** -/
theorem Sound.step : Sound (moves ++ [m])
    ⟨t', s.obtained ++ (s.tracker.obtained? m).toList, s.dispatched ++ ds⟩ := by
  have hkeep : ∀ w c, s.tracker.Holds w c ∨
      (∃ a, s.tracker.obtained? m = some (w, a) ∧ c = receipt w a) →
      ∃ a, (w, a) ∈ s.obtained ++ (s.tracker.obtained? m).toList ∧ c = receipt w a := by
    rintro w c (hold | ⟨a, ha, rfl⟩)
    · obtain ⟨-, a, ha, rfl⟩ := h.held w c hold
      exact ⟨a, List.mem_append_left _ ha, rfl⟩
    · exact ⟨a, List.mem_append_right _ (by simp [ha]), rfl⟩
  refine ⟨fun w c hc => ?_, fun d hd => ?_, fun w => ?_⟩
  · obtain ⟨hempty, hcases⟩ := h.held_step he hc
    exact ⟨hempty, hkeep w c hcases⟩
  · rcases List.mem_append.1 hd with hd | hd
    · obtain ⟨w, a, ha, heq⟩ := h.handed d hd
      exact ⟨w, a, List.mem_append_left _ ha, heq⟩
    · obtain ⟨w, hcases⟩ := he.handed hd
      exact ⟨w, hkeep w d.2 hcases⟩
  · rw [Move.registered_concat, h.conserved w, List.append_assoc, h.conserved_step he w,
      dispatchedFor_append, List.append_assoc]
    rfl

end

/-- **Every history is sound.** -/
theorem sound_of (capacity : Nat) (moves : List (Move H)) : Sound moves (of capacity moves) := by
  induction moves using List.reverseRecOn with
  | nil => exact sound_nil capacity
  | append_singleton moves m ih =>
    rw [of_concat]
    exact ih.step (Tracker.after_effect _ m)

end History

end LedgerGate.Receipt
