/-
  The memory of confirmations as a queue: a confirmation whose id is not remembered joins at the
  end, the oldest leaves when there are too many, and one whose id is remembered is ignored.

  * `Recent.of`: a memory after some confirmations;
  * `join`, `line`: one list that does the same; `Mirrors`: a memory holds what a list holds, kept
    by `Mirrors.insert`, so `mirrors_of`;
  * `newcomers`: the confirmations that are not ignored; `line_eq_rtake`: the memory holds the last
    of these;
  * `stays`: a newcomer stays until as many others have come as there is room for;
  * `Evicts`, `Displaced`, `leaves`: nothing but these others evicts an id;
  * `sinceEviction`, `find?_of`: the first confirmation since an id was last evicted is the one
    that is found;
  * `FirstInFirstOut`, `firstInFirstOut_of`: **a memory is a bounded queue without repetitions**.
-/
import LedgerGate.Proofs.Receipt.Memory
import Mathlib.Data.List.DropRight
import Mathlib.Data.List.Induction

namespace LedgerGate.Receipt.Recent

variable {r : Recent} {capacity : Nat} {workId : WorkId} {c d : Confirmation}

/-! ## One insertion -/

theorem makeRoom_of_room (h : r.order.length < r.capacity) : r.makeRoom = r := if_pos h

theorem makeRoom_of_full {oldest : WorkId} {rest : List WorkId}
    (h : r.capacity ≤ r.order.length) (horder : r.order = oldest :: rest) :
    r.makeRoom = { r with entries := Entries.erase r.entries oldest, order := rest } := by
  rw [makeRoom, if_neg h.not_gt]
  split
  · rename_i hnil
    rw [hnil] at horder
    cases horder
  · rename_i hcons
    rw [hcons] at horder
    cases horder
    rfl

/-- Nothing is remembered where there is no room at all. -/
theorem insert_of_capacity_eq_zero (h : r.capacity = 0) : r.insert c = r := if_pos (Or.inl h)

/-- A confirmation of an id that is remembered is ignored. -/
theorem insert_of_held (h : r.find? c.workId ≠ none) : r.insert c = r :=
  if_pos (Or.inr (Option.isSome_iff_ne_none.2 h))

theorem insert_of_new (hpos : r.capacity ≠ 0) (h : r.find? c.workId = none) :
    r.insert c = { r.makeRoom with
      entries := Entries.insert r.makeRoom.entries c.workId c
      order := r.makeRoom.order ++ [c.workId] } := by
  refine if_neg (not_or.2 ⟨hpos, ?_⟩)
  rw [Entries.contains]
  exact Option.not_isSome_iff_eq_none.2 h

/-! ## The list beside the memory -/

/-- A confirmation joins a list: it is ignored if its id is there, else it comes last, and the
    oldest leaves a list that is longer than the capacity. -/
def join (capacity : Nat) (held : List Confirmation) (c : Confirmation) : List Confirmation :=
  if c.workId ∈ held.map (·.workId) then held
  else if capacity < (held ++ [c]).length then (held ++ [c]).tail
  else held ++ [c]

/-- A memory holds what a list holds, in its order. -/
structure Mirrors (r : Recent) (held : List Confirmation) : Prop where
  order : r.order = held.map (·.workId)
  found : ∀ workId, r.find? workId = held.find? (·.workId == workId)

namespace Mirrors

variable {held : List Confirmation}

theorem new (capacity : Nat) : Mirrors (new capacity) [] := ⟨rfl, fun _ => rfl⟩

theorem find?_eq_none_iff (h : Mirrors r held) :
    r.find? workId = none ↔ workId ∉ held.map (·.workId) := by
  rw [h.found, List.find?_eq_none]
  simp

theorem length_order (h : Mirrors r held) : r.order.length = held.length := by
  rw [h.order, List.length_map]

/-- The oldest leaves if there is no room. -/
theorem makeRoom (h : Mirrors r held) (hnodup : r.order.Nodup) :
    Mirrors r.makeRoom (if held.length < r.capacity then held else held.tail) := by
  rw [← h.length_order]
  split
  · rename_i hroom
    rwa [makeRoom_of_room hroom]
  · rename_i hfull
    cases held with
    | nil =>
      have hnone : r.makeRoom = r := by
        rw [Recent.makeRoom, h.order]
        exact ite_self r
      rwa [hnone]
    | cons oldest rest =>
      have horder : r.order = oldest.workId :: rest.map (·.workId) := h.order
      rw [horder, List.nodup_cons] at hnodup
      rw [makeRoom_of_full (not_lt.1 hfull) horder]
      refine ⟨rfl, fun workId => ?_⟩
      have hfound : r.find? workId = _ := h.found workId
      rw [find?, Entries.find?_erase]
      split
      · rename_i hsame
        -- nobody behind the oldest has its id
        refine (List.find?_eq_none.2 fun c hc heq => hnodup.1 ?_).symm
        rw [← hsame, ← beq_iff_eq.1 heq]
        exact List.mem_map_of_mem hc
      · rename_i hother
        rwa [List.find?_cons_of_neg (by simpa using Ne.symm hother)] at hfound

/-- A confirmation of a new id comes last. -/
theorem append (h : Mirrors r held) (hnew : c.workId ∉ held.map (·.workId)) :
    Mirrors { r with
      entries := Entries.insert r.entries c.workId c
      order := r.order ++ [c.workId] } (held ++ [c]) := by
  refine ⟨by simp [h.order], fun workId => ?_⟩
  rw [List.find?_append, ← h.found]
  by_cases hsame : workId = c.workId
  · subst hsame
    rw [h.find?_eq_none_iff.2 hnew]
    simp [find?]
  · simp [find?, Entries.find?_insert_ne _ _ hsame, Ne.symm hsame]

/-- **A memory and the list go on alike.** -/
theorem insert (h : Mirrors r held) (hsound : Sound r) (c : Confirmation) :
    Mirrors (r.insert c) (join r.capacity held c) := by
  unfold join
  split
  · rename_i hheld
    rwa [insert_of_held (mt h.find?_eq_none_iff.1 (not_not.2 hheld))]
  · rename_i hnew
    have hbounded := hsound.bounded
    rw [h.length_order] at hbounded
    by_cases hzero : r.capacity = 0
    · have hnil : held = [] := List.length_eq_zero_iff.1 (by omega)
      subst hnil
      rwa [insert_of_capacity_eq_zero hzero, hzero]
    · rw [insert_of_new hzero (h.find?_eq_none_iff.2 hnew), List.length_append,
        List.length_singleton]
      have hroomy := h.makeRoom hsound.nodup
      split at hroomy
      · rw [if_neg (by omega)]
        exact hroomy.append hnew
      · rw [if_pos (by omega), List.tail_append_of_ne_nil (List.ne_nil_of_length_pos (by omega))]
        refine hroomy.append fun hmem => hnew ?_
        rw [List.map_tail] at hmem
        exact List.mem_of_mem_tail hmem

end Mirrors

/-! ## Histories -/

/-- A memory after some confirmations. -/
def of (capacity : Nat) (cs : List Confirmation) : Recent := cs.foldl insert (new capacity)

/-- The list after the same confirmations. -/
def line (capacity : Nat) (cs : List Confirmation) : List Confirmation :=
  cs.foldl (join capacity) []

/-- Those of some confirmations that are not ignored when they come after others: their ids are
    not remembered by then. -/
def newcomers (capacity : Nat) (before : List Confirmation) :
    List Confirmation → List Confirmation
  | [] => []
  | c :: cs =>
    if (of capacity before).find? c.workId = none then c :: newcomers capacity (before ++ [c]) cs
    else newcomers capacity (before ++ [c]) cs

variable {cs before after : List Confirmation}

theorem of_concat (capacity : Nat) (cs : List Confirmation) (c : Confirmation) :
    of capacity (cs ++ [c]) = (of capacity cs).insert c := List.foldl_append

theorem line_concat (capacity : Nat) (cs : List Confirmation) (c : Confirmation) :
    line capacity (cs ++ [c]) = join capacity (line capacity cs) c := List.foldl_append

theorem newcomers_append (capacity : Nat) (before cs more : List Confirmation) :
    newcomers capacity before (cs ++ more) =
      newcomers capacity before cs ++ newcomers capacity (before ++ cs) more := by
  induction cs generalizing before with
  | nil => rw [List.append_nil]; rfl
  | cons c cs ih =>
    rw [List.cons_append, newcomers, newcomers, ih, ← List.append_cons]
    split <;> rfl

theorem newcomers_concat (capacity : Nat) (before cs : List Confirmation) (c : Confirmation) :
    newcomers capacity before (cs ++ [c]) = newcomers capacity before cs ++
      if (of capacity (before ++ cs)).find? c.workId = none then [c] else [] :=
  newcomers_append capacity before cs [c]

@[simp]
theorem capacity_of (capacity : Nat) (cs : List Confirmation) :
    (of capacity cs).capacity = capacity := by
  induction cs using List.reverseRecOn with
  | nil => rfl
  | append_singleton cs c ih => rw [of_concat, capacity_insert, ih]

theorem sound_of (capacity : Nat) (cs : List Confirmation) : Sound (of capacity cs) := by
  induction cs using List.reverseRecOn with
  | nil => exact sound_new capacity
  | append_singleton cs c ih =>
    rw [of_concat]
    exact ih.insert c

/-- **A memory holds what the list holds.** -/
theorem mirrors_of (capacity : Nat) (cs : List Confirmation) :
    Mirrors (of capacity cs) (line capacity cs) := by
  induction cs using List.reverseRecOn with
  | nil => exact .new capacity
  | append_singleton cs c ih =>
    have hnext := ih.insert (sound_of capacity cs) c
    rwa [capacity_of, ← of_concat, ← line_concat] at hnext

theorem nodup_line (capacity : Nat) (cs : List Confirmation) :
    ((line capacity cs).map (·.workId)).Nodup :=
  (mirrors_of capacity cs).order ▸ (sound_of capacity cs).nodup

/-- The last items of a list with one more: if there are too many, the first of them leaves. -/
theorem rtake_concat {α : Type} (n : Nat) (xs : List α) (x : α) : (xs ++ [x]).rtake n =
    if n < (xs.rtake n ++ [x]).length then (xs.rtake n ++ [x]).tail else xs.rtake n ++ [x] := by
  have hkept : xs.rtake n ++ [x] = (xs ++ [x]).drop (xs.length - n) := by
    rw [List.drop_append_of_le_length (Nat.sub_le _ _), List.rtake]
  rw [hkept, List.tail_drop, List.rtake, List.length_drop, List.length_append,
    List.length_singleton]
  split <;> congr 1 <;> omega

/-- The last items of a list are among its end, if this is not too long. -/
theorem rtake_append_of_le {α : Type} {n : Nat} (xs : List α) {ys : List α} (h : ys.length ≤ n) :
    (xs ++ ys).rtake n = xs.rtake (n - ys.length) ++ ys := by
  have hsame : (xs ++ ys).length - n = xs.length - (n - ys.length) := by
    rw [List.length_append]
    omega
  rw [List.rtake, hsame, List.drop_append_of_le_length (Nat.sub_le _ _), List.rtake]

/-- The memory holds the last of those that were not ignored. -/
theorem line_eq_rtake (capacity : Nat) (cs : List Confirmation) :
    line capacity cs = (newcomers capacity [] cs).rtake capacity := by
  induction cs using List.reverseRecOn with
  | nil => exact (List.rtake_nil capacity).symm
  | append_singleton cs c ih =>
    have hnone : (of capacity cs).find? c.workId = none ↔ _ :=
      (mirrors_of capacity cs).find?_eq_none_iff
    rw [newcomers_concat, List.nil_append, line_concat, join]
    split
    · rename_i hheld
      rw [if_neg (mt hnone.1 (not_not.2 hheld)), List.append_nil, ih]
    · rename_i hnew
      rw [if_pos (hnone.2 hnew), ih]
      exact (rtake_concat capacity _ c).symm

/-! ## Stays -/

section
variable (hnew : (of capacity before).find? d.workId = none)
include hnew

/-- A memory holds the last of those that came before a newcomer, itself, and those since. -/
theorem line_of_new (after : List Confirmation) : line capacity (before ++ d :: after) =
    (newcomers capacity [] before ++ d :: newcomers capacity (before ++ [d]) after).rtake
      capacity := by
  rw [line_eq_rtake, newcomers_append, List.nil_append, newcomers, if_pos hnew]

/-- As long as they are no more than the capacity, the newcomers since have other ids, each its
    own. -/
theorem nodup_newcomers (hle : (newcomers capacity (before ++ [d]) after).length ≤ capacity) :
    ((d :: newcomers capacity (before ++ [d]) after).map (·.workId)).Nodup := by
  induction after using List.reverseRecOn with
  | nil => exact List.nodup_singleton _
  | append_singleton after c ih =>
    rw [newcomers_concat, List.length_append] at hle
    have hrest := ih (by omega)
    rw [newcomers_concat]
    split at hle
    · rename_i hfresh
      rw [if_pos hfresh, ← List.cons_append, List.map_append, List.map_singleton,
        ← List.concat_eq_append]
      refine (List.nodup_concat _ _).2 ⟨fun hmem => ?_, hrest⟩
      -- all of them are still remembered, so the id of one more is not among theirs
      rw [← List.append_cons, (mirrors_of capacity _).find?_eq_none_iff, line_of_new hnew,
        rtake_append_of_le _ hle, List.map_append] at hfresh
      exact hfresh (List.mem_append_right _ hmem)
    · rename_i hheld
      rwa [if_neg hheld, List.append_nil]

/-- **A newcomer stays until as many others have come as there is room for**, and it leaves with
    the last of these. -/
theorem stays (hle : (newcomers capacity (before ++ [d]) after).length ≤ capacity) :
    (of capacity (before ++ d :: after)).find? d.workId =
      if (newcomers capacity (before ++ [d]) after).length < capacity then some d else none := by
  have hline := line_of_new hnew after
  have hdistinct := nodup_newcomers hnew hle
  rw [(mirrors_of capacity _).found]
  split
  · rename_i hroom
    refine (Entries.find?_key_eq_some_iff (nodup_line capacity _)).2 ⟨?_, rfl⟩
    rw [hline, rtake_append_of_le _ hroom]
    exact List.mem_append_right _ List.mem_cons_self
  · rename_i hfull
    rw [List.append_cons (newcomers _ _ _), rtake_append_of_le _ hle,
      Nat.sub_eq_zero_of_le (not_lt.1 hfull), List.rtake_zero, List.nil_append] at hline
    rw [hline, List.find?_eq_none]
    intro c hc heq
    rw [List.map_cons, List.nodup_cons] at hdistinct
    exact hdistinct.1 (List.mem_map.2 ⟨c, hc, beq_iff_eq.1 heq⟩)

end

/-- One more confirmation is at most one more newcomer. -/
theorem length_newcomers_concat_le (capacity : Nat) (before cs : List Confirmation)
    (c : Confirmation) : (newcomers capacity before (cs ++ [c])).length ≤
      (newcomers capacity before cs).length + 1 := by
  rw [newcomers_concat, List.length_append]
  split <;> simp

/-- What is remembered came when its id was not, and since then fewer others have come than there
    is room for. -/
theorem exists_newcomer (h : (of capacity cs).find? workId = some d) :
    ∃ before after, cs = before ++ d :: after ∧ d.workId = workId ∧
      (of capacity before).find? workId = none ∧
      (newcomers capacity (before ++ [d]) after).length < capacity := by
  induction cs using List.reverseRecOn with
  | nil => cases h
  | append_singleton cs c ih =>
    by_cases hold : (of capacity cs).find? workId = some d
    · obtain ⟨before, after, rfl, rfl, hnew, hroom⟩ := ih hold
      have hle := length_newcomers_concat_le capacity (before ++ [d]) after c
      rw [List.append_assoc, List.cons_append, stays hnew (by omega)] at h
      split at h
      · rename_i hstill
        exact ⟨before, after ++ [c], by simp, rfl, hnew, hstill⟩
      · cases h
    · rw [of_concat] at h
      have hpos : capacity ≠ 0 := fun hzero => by
        rw [insert_of_capacity_eq_zero ((capacity_of capacity cs).trans hzero)] at h
        exact hold h
      rcases eq_or_find?_of_insert h with ⟨rfl, rfl⟩ | hbefore
      · have hnew : (of capacity cs).find? d.workId = none := by
          by_contra hheld
          rw [insert_of_held hheld] at h
          exact hold h
        exact ⟨cs, [], rfl, rfl, hnew, Nat.pos_of_ne_zero hpos⟩
      · exact absurd hbefore hold

/-! ## Evictions -/

/-- A confirmation comes and an id is no longer remembered. -/
def Evicts (r : Recent) (c : Confirmation) (workId : WorkId) : Prop :=
  r.find? workId ≠ none ∧ (r.insert c).find? workId = none

instance : Decidable (Evicts r c workId) := inferInstanceAs (Decidable (_ ∧ _))

/-- A confirmation came when its id was not remembered, and among those since are as many
    newcomers as there is room for; they have other ids, each its own. -/
structure Displaced (capacity : Nat) (before : List Confirmation) (d : Confirmation)
    (since : List Confirmation) : Prop where
  new : (of capacity before).find? d.workId = none
  full : (newcomers capacity (before ++ [d]) since).length = capacity
  distinct : ((d :: newcomers capacity (before ++ [d]) since).map (·.workId)).Nodup

/-- **An id is evicted by the last of as many newcomers as there is room for**, counted from the
    confirmation that is remembered. -/
theorem leaves (h : Evicts (of capacity cs) c workId) :
    ∃ before d after, cs = before ++ d :: after ∧ d.workId = workId ∧
      (of capacity cs).find? workId = some d ∧ Displaced capacity before d (after ++ [c]) := by
  obtain ⟨hheld, hgone⟩ := h
  obtain ⟨d, hd⟩ := Option.ne_none_iff_exists'.1 hheld
  obtain ⟨before, after, rfl, rfl, hnew, hroom⟩ := exists_newcomer hd
  have hone := length_newcomers_concat_le capacity (before ++ [d]) after c
  have hle : (newcomers capacity (before ++ [d]) (after ++ [c])).length ≤ capacity := by omega
  rw [← of_concat, List.append_assoc, List.cons_append, stays hnew hle] at hgone
  split at hgone
  · cases hgone
  · rename_i hfull
    exact ⟨before, d, after, rfl, rfl, hd, hnew, hle.antisymm (not_lt.1 hfull),
      nodup_newcomers hnew hle⟩

/-- What has come since an id was last evicted, or since the beginning if it never was. -/
def sinceEviction (workId : WorkId) (r : Recent) (since : List Confirmation) :
    List Confirmation → List Confirmation
  | [] => since
  | c :: cs =>
    sinceEviction workId (r.insert c) (if Evicts r c workId then [] else since ++ [c]) cs

theorem sinceEviction_concat (r : Recent) (since cs : List Confirmation) (c : Confirmation) :
    sinceEviction workId r since (cs ++ [c]) =
      if Evicts (cs.foldl insert r) c workId then []
      else sinceEviction workId r since cs ++ [c] := by
  induction cs generalizing r since with
  | nil => rfl
  | cons d cs ih => exact ih _ _

/-- An id that is not evicted keeps its confirmation; if it had none, it gets the one that
    comes for it. -/
theorem find?_insert_of_not_evicts (hpos : r.capacity ≠ 0) (h : ¬Evicts r c workId) :
    (r.insert c).find? workId = (r.find? workId).or ([c].find? (·.workId == workId)) := by
  rcases hold : r.find? workId with _ | d
  · rw [Option.none_or]
    by_cases hsame : c.workId = workId
    · subst hsame
      rw [insert_of_new hpos hold]
      simp [find?]
    · rw [List.find?_cons_of_neg (by simpa using hsame), List.find?_nil]
      refine Option.eq_none_iff_forall_ne_some.2 fun d hd => ?_
      rcases eq_or_find?_of_insert hd with ⟨hworkId, -⟩ | hbefore
      · exact hsame hworkId.symm
      · rw [hold] at hbefore
        cases hbefore
  · rw [Option.some_or]
    rcases hnow : (r.insert c).find? workId with _ | e
    · exact absurd ⟨by simp [hold], hnow⟩ h
    · rcases eq_or_find?_of_insert hnow with ⟨rfl, -⟩ | hbefore
      · rw [insert_of_held (by simp [hold]), hold] at hnow
        exact hnow.symm
      · exact hbefore.symm.trans hold

/-- **What is found is the first confirmation since the id was last evicted.** -/
theorem find?_of (hpos : capacity ≠ 0) (cs : List Confirmation) : (of capacity cs).find? workId =
    (sinceEviction workId (new capacity) [] cs).find? (·.workId == workId) := by
  induction cs using List.reverseRecOn with
  | nil => rfl
  | append_singleton cs c ih =>
    have hmemory : cs.foldl insert (new capacity) = of capacity cs := rfl
    rw [sinceEviction_concat, hmemory, of_concat]
    split
    · rename_i hevicts
      exact hevicts.2
    · rename_i hstays
      rw [List.find?_append, ← ih]
      exact find?_insert_of_not_evicts (by rwa [capacity_of]) hstays

/-! ## First in, first out -/

/-- What a memory is after some confirmations. -/
structure FirstInFirstOut (capacity : Nat) (cs : List Confirmation) : Prop where
  /-- The ids of the entries are those in line, -/
  names : (Entries.keys (of capacity cs).entries).Perm (of capacity cs).order
  /-- where no id stands twice, and there are no more of them than the capacity. -/
  distinct : (of capacity cs).order.Nodup
  bounded : (of capacity cs).order.length ≤ capacity
  /-- The memory holds what the list holds, in its order: -/
  mirrors : Mirrors (of capacity cs) (line capacity cs)
  /-- the last of the confirmations that were not ignored. -/
  latest : line capacity cs = (newcomers capacity [] cs).rtake capacity
  /-- An id gives the first confirmation for it since it was last evicted, -/
  first : ∀ workId, (of capacity cs).find? workId = if capacity = 0 then none else
    (sinceEviction workId (new capacity) [] cs).find? (·.workId == workId)
  /-- and only the last of as many others as there is room for evicts it, all of which were new
      and came after the confirmation for it. -/
  evicted : ∀ c workId, Evicts (of capacity cs) c workId →
    ∃ before d after, cs = before ++ d :: after ∧ d.workId = workId ∧
      (of capacity cs).find? workId = some d ∧ Displaced capacity before d (after ++ [c])

/-- **A memory is a bounded queue without repetitions.** -/
theorem firstInFirstOut_of (capacity : Nat) (cs : List Confirmation) :
    FirstInFirstOut capacity cs where
  names := (sound_of capacity cs).line
  distinct := (sound_of capacity cs).nodup
  bounded := by
    have hbounded := (sound_of capacity cs).bounded
    rwa [capacity_of] at hbounded
  mirrors := mirrors_of capacity cs
  latest := line_eq_rtake capacity cs
  first workId := by
    split
    · rename_i hzero
      have hnil : line capacity cs = [] := by rw [line_eq_rtake, hzero, List.rtake_zero]
      rw [(mirrors_of capacity cs).found, hnil, List.find?_nil]
    · rename_i hpos
      exact find?_of hpos cs
  evicted _ _ := leaves

/-- The second confirmation for an id is ignored, the third comes when the id was evicted. -/
example :
    ((of 2 [.succeeded "a" 1 .empty, .succeeded "a" 2 .empty, .succeeded "b" 3 .empty,
      .succeeded "c" 4 .empty, .succeeded "a" 5 .empty]).entries.map fun e => (e.1, e.2.block)) =
      [("a", 5), ("c", 4)] := rfl

end LedgerGate.Receipt.Recent
