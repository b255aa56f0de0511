/-
  The memory of confirmations: each stands under its own id, every id that is remembered
  stands in the line of eviction once, and there are no more than the capacity allows.

  * `Recent.Sound`, kept by `Recent.insert` (`Sound.insert`);
  * `Sound.size_le`: **a memory never exceeds its capacity.**
-/
import LedgerGate.Proofs.Entries.Keys
import LedgerGate.Receipt.Recent

namespace LedgerGate.Receipt.Recent

/-- A memory in good order: the line of eviction is a list of the ids remembered, no longer
    than the capacity, and every confirmation carries the id it is remembered under. -/
structure Sound (r : Recent) : Prop where
  increasing : Entries.Increasing r.entries
  line : (Entries.keys r.entries).Perm r.order
  bounded : r.order.length ≤ r.capacity
  own : ∀ workId c, (workId, c) ∈ r.entries → c.workId = workId

variable {r : Recent}

theorem sound_new (capacity : Nat) : Sound (new capacity) where
  increasing := List.Pairwise.nil
  line := .refl _
  bounded := Nat.zero_le _
  own _ _ h := by cases h

/-- No id stands in line twice. -/
theorem Sound.nodup (h : Sound r) : r.order.Nodup := h.line.nodup_iff.1 h.increasing.nodup

/-- A memory never exceeds its capacity. -/
theorem Sound.size_le (h : Sound r) : r.size ≤ r.capacity := by
  have hlen := h.line.length_eq
  rw [Entries.keys, List.length_map] at hlen
  rw [size, hlen]
  exact h.bounded

@[simp]
theorem capacity_makeRoom (r : Recent) : r.makeRoom.capacity = r.capacity := by
  unfold makeRoom
  split
  · rfl
  · split <;> rfl

@[simp]
theorem capacity_insert (r : Recent) (c : Confirmation) : (r.insert c).capacity = r.capacity := by
  unfold insert
  split
  · rfl
  · exact capacity_makeRoom r

/-- Making room leaves a memory in good order, with room for one more. -/
theorem Sound.makeRoom (h : Sound r) (hpos : 0 < r.capacity) :
    Sound r.makeRoom ∧ r.makeRoom.order.length < r.capacity := by
  unfold Recent.makeRoom
  split
  · rename_i hroom
    exact ⟨h, hroom⟩
  · split
    · rename_i horder
      rw [horder] at *
      exact ⟨h, hpos⟩
    · rename_i oldest rest horder
      have hnodup := h.nodup
      have hbounded := h.bounded
      have hline := h.line
      rw [horder] at hnodup hbounded hline
      have hrest : (oldest :: rest).filter (· != oldest) = rest := by
        rw [← hnodup.erase_eq_filter, List.erase_cons_head]
      have hless : rest.length < r.capacity := hbounded
      refine ⟨⟨h.increasing.erase oldest, ?_, hless.le, fun workId c hc => ?_⟩, hless⟩
      · rw [Entries.keys_erase]
        have hfiltered := hline.filter (· != oldest)
        rwa [hrest] at hfiltered
      · exact h.own workId c (List.mem_of_mem_filter hc)

/-- Remembering a confirmation leaves a memory in good order. -/
theorem Sound.insert (h : Sound r) (c : Confirmation) : Sound (r.insert c) := by
  unfold Recent.insert
  split
  · exact h
  · rename_i hnew
    obtain ⟨hpos, habsent⟩ := not_or.1 hnew
    obtain ⟨hroomy, hroom⟩ := h.makeRoom (Nat.pos_of_ne_zero hpos)
    have hnot : c.workId ∉ Entries.keys r.makeRoom.entries := by
      intro hmem
      obtain ⟨d, hd⟩ := Entries.mem_keys.1 hmem
      have hfound := find?_of_makeRoom (hroomy.increasing.find?_eq_some_iff.2 hd)
      exact habsent (Entries.contains_iff.2 (Entries.mem_keys_of_find? hfound))
    refine ⟨hroomy.increasing.insert _ _, ?_, ?_, fun workId d hd => ?_⟩
    · have hinsert := Entries.perm_keys_insert hnot c
      have hline := hroomy.line.cons c.workId
      exact (hinsert.trans hline).trans (List.perm_append_singleton _ _).symm
    · simp only [List.length_append, List.length_singleton, capacity_makeRoom]
      exact hroom
    · rcases hroomy.increasing.mem_insert.1 hd with ⟨hw, rfl⟩ | ⟨-, hold⟩
      · exact hw.symm
      · exact hroomy.own workId d hold

end LedgerGate.Receipt.Recent
