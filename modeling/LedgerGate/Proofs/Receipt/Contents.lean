/-
  What a tracker is about: the ids that it polls for, those with handlers or receipts, and the
  one that a scan is asking about.

  Only tracking and registering bring an id into a tracker.  A scan asks about ids that are
  polled for, and a receipt is kept under the id that was asked about.

  * `Tracker.Within`: all ids that a tracker is about have a property;
  * `Move.brings?`: the id that a move brings;
  * `Within.after`: **a move brings no other id**; `Within.prepare`: likewise for the operation
    that is made of two.
-/
import LedgerGate.Proofs.Entries.Keys
import LedgerGate.Proofs.Receipt.History

namespace LedgerGate.Receipt

open Entries (keys)

variable {H : Type}

/-- The id that a move brings into a tracker. -/
def Move.brings? : Move H → Option WorkId
  | track workId => some workId
  | register workId _ _ => some workId
  | _ => none

namespace Tracker

/-- All ids that a tracker is about have a property. -/
structure Within (P : WorkId → Prop) (t : Tracker H) : Prop where
  /-- those that are polled for, -/
  pending : ∀ w ∈ keys t.pending, P w
  /-- those that handlers wait for, -/
  waiting : ∀ w ∈ keys t.waiting, P w
  /-- those with a receipt that nobody has claimed, -/
  unclaimed : ∀ w ∈ keys t.unclaimed, P w
  /-- and the one that a scan is asking about. -/
  asked : ∀ s, t.scan = some s → P s.current

namespace Within

variable {P P' : WorkId → Prop} {t : Tracker H}

theorem new (capacity : Nat) : (Tracker.new capacity : Tracker H).Within P where
  pending w h := by cases h
  waiting w h := by cases h
  unclaimed w h := by cases h
  asked s h := by cases h

theorem mono (h : t.Within P) (himp : ∀ w, P w → P' w) : t.Within P' where
  pending w hw := himp w (h.pending w hw)
  waiting w hw := himp w (h.waiting w hw)
  unclaimed w hw := himp w (h.unclaimed w hw)
  asked s hs := himp s.current (h.asked s hs)

/-- No id is brought by setting one that has the property, -/
theorem keys_insert {α : Type} {entries : List (String × α)} (h : ∀ w ∈ keys entries, P w)
    {name : String} (hname : P name) (value : α) :
    ∀ w ∈ keys (Entries.insert entries name value), P w := by
  intro w hw
  rcases Entries.mem_keys_insert.1 hw with rfl | hw
  · exact hname
  · exact h w hw

/-- or by removing one. -/
theorem keys_erase {α : Type} {entries : List (String × α)} (h : ∀ w ∈ keys entries, P w)
    (name : String) : ∀ w ∈ keys (Entries.erase entries name), P w := by
  intro w hw
  rw [Entries.keys_erase] at hw
  exact h w (List.mem_of_mem_filter hw)

/-! ### Tracking and registering -/

theorem track (h : t.Within P) {workId : WorkId} (hw : P workId) :
    (t.track workId).1.Within P := by
  refine { h with pending := ?_ }
  simp only [Tracker.track]
  split
  · exact h.pending
  · exact keys_insert h.pending hw 0

theorem register (h : t.Within P) {workId : WorkId} (hw : P workId) (handler : H)
    (isDone : Bool) : (t.register workId handler isDone).1.Within P := by
  unfold Tracker.register
  split
  · exact h
  · split
    · exact { h with unclaimed := keys_erase h.unclaimed workId }
    · split
      · exact h
      · exact { h with waiting := keys_insert h.waiting hw _ }

/-- **Preparing work** brings its id alone. -/
theorem prepare (h : t.Within P) {workId : WorkId} (hw : P workId) (handler : H) :
    (t.prepare workId handler).1.Within P :=
  (h.track hw).register hw handler false

/-! ### Scans -/

/-- A scan goes on to an id that is polled for. -/
theorem visit (h : t.Within P) (checked confirmed errors : Nat) (rest : List WorkId) :
    (t.visit checked confirmed errors rest).1.Within P := by
  induction rest with
  | nil => exact { h with asked := fun s hs => by cases hs }
  | cons workId rest ih =>
    unfold Tracker.visit
    split
    · rename_i n hn
      have hw : P workId := h.pending workId (Entries.mem_keys_of_find? hn)
      refine { h with pending := keys_insert h.pending hw _, asked := fun s hs => ?_ }
      cases hs
      exact hw
    · exact ih

theorem beginScanOf (h : t.Within P) (order : List WorkId) :
    (t.beginScanOf order).1.Within P := by
  unfold Tracker.beginScanOf
  split
  · exact h
  · exact h.visit 0 0 0 order

theorem arrive (h : t.Within P) {c : Confirmation} (hc : P c.workId) :
    (t.arrive c).1.Within P := by
  unfold Tracker.arrive
  split
  · exact { h with waiting := keys_erase h.waiting c.workId }
  · exact { h with unclaimed := keys_insert h.unclaimed hc c }

theorem answered (h : t.Within P) (a : Except Ledger.Error (Option Confirmation)) :
    (t.answered a).1.Within P := by
  unfold Tracker.answered
  split
  · exact h
  · rename_i s hs
    split
    · exact h.visit _ _ _ _
    · exact h.visit _ _ _ _
    · rename_i c
      have huntracked : (t.untrack s.current).1.Within P :=
        { h with pending := keys_erase h.pending s.current }
      -- the receipt is kept under the id that was asked about, whatever the ledger put into it
      have harrived := huntracked.arrive (c := { c.readable with workId := s.current })
        (h.asked s hs)
      exact harrived.visit _ _ _ _

/-- **A move brings no id but its own.** -/
theorem after (h : t.Within P) (m : Move H) (hm : ∀ w, m.brings? = some w → P w) :
    (t.after m).1.Within P := by
  cases m with
  | track workId => exact h.track (hm workId rfl)
  | register workId handler isDone => exact h.register (hm workId rfl) handler isDone
  | scan order => exact h.beginScanOf order
  | answer a => exact h.answered a

end Within

end Tracker

end LedgerGate.Receipt
