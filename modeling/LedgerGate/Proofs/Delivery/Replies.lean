/-
  A delivery whose replies come one by one.

  A delivery need not know its chain: it waits for a reply, sends what that calls for, and
  waits for the next one or has ended.  What it has sent is decided by the replies it has had.

  * `Delivery.told`: the responses to some replies, and the delivery that waits for one more;
  * `told_concat`: one more reply;
  * `Sequence`, `sequence_told`: **numbers, contents and end of the responses**, whatever the
    replies were.
-/
import LedgerGate.Proofs.Delivery.Chain

namespace LedgerGate.Delivery

variable {κ : Type}

/-- The responses of a delivery to some replies one after the other, and the delivery that
    waits for the next one.  At its end it waits for none. -/
def told (limit : UInt32) : Delivery → List (Link κ) → List Response × Option Delivery
  | d, [] => ([], some d)
  | d, l :: ls =>
    match d.step limit l.outcome with
    | .finish rs => (rs, none)
    | .follow x _ after => (x :: (told limit after ls).1, (told limit after ls).2)

variable {limit : UInt32} {d d' : Delivery} {l : Link κ} {ls : List (Link κ)}

/-- What a delivery sends on its first reply, and what it does with the others. -/
theorem told_cons (limit : UInt32) (d : Delivery) (l : Link κ) (ls : List (Link κ)) :
    (∃ e, l.ending? = some e ∧ told limit d (l :: ls) = ([d.closing e], none)) ∨
    (∃ r, limit < d.advanced.sequence ∧ told limit d (l :: ls) =
      ([d.success (Link.awaited r), d.advanced.failure (Reply.tooLong limit.toNat)], none)) ∨
    ∃ r, d.advanced.sequence ≤ limit ∧ told limit d (l :: ls) =
      (d.success (Link.awaited r) :: (told limit d.advanced ls).1,
        (told limit d.advanced ls).2) := by
  rcases step_link limit d l with ⟨e, he, hstep⟩ | ⟨r, _, _, hle, hstep⟩ | ⟨r, _, _, hlt, hstep⟩
  · exact .inl ⟨e, he, by rw [told, hstep]⟩
  · exact .inr (.inl ⟨r, hle, by rw [told, hstep]⟩)
  · exact .inr (.inr ⟨r, hlt, by rw [told, hstep]⟩)

/-- **One more reply** to a delivery that waits for one. -/
theorem told_concat (h : (told limit d ls).2 = some d') (l : Link κ) :
    told limit d (ls ++ [l]) =
      ((told limit d ls).1 ++ (told limit d' [l]).1, (told limit d' [l]).2) := by
  induction ls generalizing d with
  | nil =>
    cases h
    rfl
  | cons k ks ih =>
    rw [List.cons_append, told]
    rw [told] at h ⊢
    rcases hstep : d.step limit k.outcome with rs | ⟨x, next, after⟩
    · rw [hstep] at h
      cases h
    · rw [hstep] at h
      dsimp only at h ⊢
      rw [ih h, List.cons_append]

/-! ## Sequences -/

/-- How the responses of a delivery follow one another, and the delivery that waits for one
    more reply. -/
structure Sequence (limit : UInt32) (d : Delivery) (rs : List Response) (next : Option Delivery) :
    Prop where
  /-- They are numbered without gaps and say whom they answer. -/
  numbered : ∀ (i : Nat) x, rs[i]? = some x → d.Numbers i x
  /-- All but the last are pending, -/
  awaited : ∀ (i : Nat) x, rs[i]? = some x → i + 1 < rs.length → x.isPending = true
  /-- and the last is not, if no more are to come. -/
  settled : next = none → ∃ x, rs.getLast? = some x ∧ x.isPending = false
  /-- A chain that is too long costs two responses more than replies may be waited for, if the
      limit is not the highest. -/
  few : limit.toNat + 1 < UInt32.size → d.sequence ≤ limit →
    rs.length ≤ limit.toNat - d.sequence.toNat + 2

/-- A chain that ends is one response, -/
theorem Sequence.ended {e : Except Fault Output} (he : l.ending? = some e) :
    Sequence limit d [d.closing e] none := by
  constructor
  · intro i x hx
    obtain ⟨hi, rfl⟩ := List.getElem?_eq_some_iff.1 hx
    obtain rfl : i = 0 := Nat.lt_one_iff.1 hi
    exact numbers_closing d e
  · intro i x hx hi
    simp at hi
  · exact fun _ => ⟨_, rfl, not_pending_of_tells he (closing_tells d e)⟩
  · simp

/-- and one that is too long two: a pending reply, and the fault. -/
theorem Sequence.cut (r : TransactionResult) :
    Sequence limit d
      [d.success (Link.awaited r), d.advanced.failure (Reply.tooLong limit.toNat)] none := by
  constructor
  · intro i x hx
    match i, hx with
    | 0, hx =>
      cases hx
      exact numbers_closing d (.ok _)
    | 1, hx =>
      cases hx
      exact (numbers_closing d.advanced (.error _)).succ
  · intro i x hx hi
    obtain rfl : i = 0 := Nat.lt_one_iff.1 (Nat.lt_of_succ_lt_succ hi)
    cases hx
    rfl
  · exact fun _ => ⟨_, rfl, rfl⟩
  · simp

/-- A pending reply comes before the others. -/
theorem Sequence.next {rs : List Response} {waiting : Option Delivery} (r : TransactionResult)
    (hle : d.advanced.sequence ≤ limit) (h : Sequence limit d.advanced rs waiting) :
    Sequence limit d (d.success (Link.awaited r) :: rs) waiting := by
  constructor
  · intro i x hx
    cases i with
    | zero =>
      cases hx
      exact numbers_closing d (.ok _)
    | succ i => exact (h.numbered i x hx).succ
  · intro i x hx hi
    cases i with
    | zero =>
      cases hx
      rfl
    | succ i => exact h.awaited i x hx (by simpa using hi)
  · intro hwaiting
    obtain ⟨x, hx, hsettled⟩ := h.settled hwaiting
    refine ⟨x, ?_, hsettled⟩
    rw [List.getLast?_cons, hx]
    rfl
  · intro hlimit hd
    have hadvanced := toNat_advanced hlimit hd
    have hwithin := UInt32.le_iff_toNat_le.1 hle
    have hfew := h.few hlimit hle
    simp only [List.length_cons]
    omega

/-- **However the replies come, the responses follow one another so.** -/
theorem sequence_told (limit : UInt32) (d : Delivery) (ls : List (Link κ)) :
    Sequence limit d (told limit d ls).1 (told limit d ls).2 := by
  induction ls generalizing d with
  | nil =>
    constructor
    · intro i x hx
      cases hx
    · intro i x hx
      cases hx
    · intro h
      cases h
    · exact fun _ _ => Nat.zero_le _
  | cons l ls ih =>
    rcases told_cons limit d l ls with ⟨e, he, heq⟩ | ⟨r, -, heq⟩ | ⟨r, hle, heq⟩ <;> rw [heq]
    · exact .ended he
    · exact .cut r
    · exact (ih d.advanced).next r hle

end LedgerGate.Delivery
