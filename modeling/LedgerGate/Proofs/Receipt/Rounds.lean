/-
  Scans that are called beside each other, each cut at its questions.

  A call of a scan keeps its own place: the ids it has yet to ask about.  A tracker has
  one guard, and a call is let in only while the guard is free.  `Rounds` runs any number
  of calls over one tracker, in every order in which calls, answers, tracking and
  registering can come, and keeps a log of the questions.

  * `Act`, `Rounds.after`, `Rounds.of`: what can happen, what it does, and the rounds of
    some acts;
  * `Turn`: all that an act can do (`turn`);
  * `Sound`: the guard belongs to the one call that is under way (`sound_of`);
  * `Counts`: the attempts for an id are the questions about it (`counts_of`);
  * `Pursues`: a call asks about the ids it found, each once (`pursues_of`);
  * `singleFlight_of`: scans never overlap, a call beside a running scan does nothing,
    and the attempts are counted exactly.
-/
import LedgerGate.Proofs.Receipt.Polling
import Mathlib.Data.List.Infix

namespace LedgerGate.Receipt

variable {H : Type}

/-- What can happen around a tracker.  A call comes with the ids that are polled for, in
    the order in which it finds them; an answer goes to a call. -/
inductive Act (H : Type) where
  | track (workId : WorkId)
  | register (workId : WorkId) (handler : H) (isDone : Bool)
  | call (order : List WorkId)
  | hear (i : Nat) (a : Except Ledger.Error (Option Confirmation))

/-- A tracker with the calls of its scans, and the questions that were asked, each with the
    number of the call that asked. -/
structure Rounds (H : Type) where
  tracker : Tracker H
  calls : List Course
  questions : List (Nat × WorkId)

namespace Rounds

/-- The rounds after an act.  A call finds all ids that are polled for, so it cannot come
    with others; a call that is over hears nothing. -/
def after (s : Rounds H) : Act H → Rounds H
  | .track w => { s with tracker := (s.tracker.track w).1 }
  | .register w h isDone => { s with tracker := (s.tracker.register w h isDone).1 }
  | .call order =>
    if order.Perm s.tracker.pendingIds then
      let begun := s.tracker.beginScanOf order
      let course := Course.of begun.1 begun.2.2
      ⟨begun.1, s.calls ++ [course], s.questions ++ course.question.map (s.calls.length, ·)⟩
    else s
  | .hear i a =>
    match s.calls[i]? with
    | some (.underWay scan) =>
      let heard := Tracker.answered { s.tracker with scan := some scan } a
      let course := Course.of heard.1 heard.2.2
      ⟨heard.1, s.calls.set i course, s.questions ++ course.question.map (i, ·)⟩
    | _ => s

/-- The rounds of some acts around a new tracker. -/
def of (capacity : Nat) (acts : List (Act H)) : Rounds H :=
  acts.foldl after ⟨.new capacity, [], []⟩

theorem of_append (capacity : Nat) (acts more : List (Act H)) :
    of capacity (acts ++ more) = more.foldl after (of capacity acts) := List.foldl_append

theorem of_concat (capacity : Nat) (acts : List (Act H)) (m : Act H) :
    of capacity (acts ++ [m]) = (of capacity acts).after m := of_append capacity acts [m]

/-- A call is past the guard. -/
def UnderWay (s : Rounds H) (i : Nat) : Prop := ∃ scan, s.calls[i]? = some (.underWay scan)

/-- What a call has asked about, in its order. -/
def asked (s : Rounds H) (i : Nat) : List WorkId := (s.questions.filter (·.1 = i)).map (·.2)

/-- How many questions were asked about an id. -/
def askedAbout (s : Rounds H) (w : WorkId) : Nat := (s.questions.map (·.2)).count w

/-! ## What an act does -/

/-- What an act can do: nothing, one operation of the tracker, or a step of one call. -/
inductive Turn (s : Rounds H) : Act H → Rounds H → Prop
  /-- the act cannot happen -/
  | idle {m} : Turn s m s
  | tracked {w} : Turn s (.track w) { s with tracker := (s.tracker.track w).1 }
  | registered {w h isDone} : Turn s (.register w h isDone)
      { s with tracker := (s.tracker.register w h isDone).1 }
  /-- a call finds the guard taken -/
  | skipped {order} : s.tracker.scan.isSome → order.Perm s.tracker.pendingIds →
      Turn s (.call order) { s with calls := s.calls ++ [.ended .skipped] }
  /-- a call is let in -/
  | begun {order t course} : s.tracker.scan = none → order.Perm s.tracker.pendingIds →
      GoesOn s.tracker order t course → Turn s (.call order)
        ⟨t, s.calls ++ [course], s.questions ++ course.question.map (s.calls.length, ·)⟩
  /-- a call that is under way hears its answer -/
  | heard {i a scan u t course} : s.calls[i]? = some (.underWay scan) →
      Takes s.tracker scan u → GoesOn u scan.rest t course → Turn s (.hear i a)
        ⟨t, s.calls.set i course, s.questions ++ course.question.map (i, ·)⟩

variable {s s' : Rounds H} {m : Act H}

theorem after_call_taken {order : List WorkId} (hperm : order.Perm s.tracker.pendingIds)
    (htaken : s.tracker.scan.isSome) :
    s.after (.call order) = { s with calls := s.calls ++ [.ended .skipped] } := by
  obtain ⟨scan, hscan⟩ := Option.isSome_iff_exists.1 htaken
  simp [after, hperm, Tracker.beginScanOf, hscan, Course.of, Course.question]

theorem after_call_free {order : List WorkId} (hperm : order.Perm s.tracker.pendingIds)
    (hfree : s.tracker.scan = none) : ∃ t course, GoesOn s.tracker order t course ∧
      s.after (.call order) =
        ⟨t, s.calls ++ [course], s.questions ++ course.question.map (s.calls.length, ·)⟩ := by
  simp only [after, hperm, if_true, Tracker.beginScanOf, hfree]
  exact ⟨_, _, s.tracker.goesOn_visit 0 0 0 order, rfl⟩

theorem after_hear {i : Nat} {scan : Scan} (hi : s.calls[i]? = some (.underWay scan))
    (a : Except Ledger.Error (Option Confirmation)) : ∃ u t course, Takes s.tracker scan u ∧
      GoesOn u scan.rest t course ∧ s.after (.hear i a) =
        ⟨t, s.calls.set i course, s.questions ++ course.question.map (i, ·)⟩ := by
  obtain ⟨u, htakes, hgoes⟩ :=
    Tracker.goesOn_answered (t := { s.tracker with scan := some scan }) rfl a
  simp only [after, hi]
  exact ⟨u, _, _, htakes, hgoes, rfl⟩

/-- **Every act is one of these turns.** -/
theorem turn (s : Rounds H) (m : Act H) : Turn s m (s.after m) := by
  cases m with
  | track w => exact .tracked
  | register w h isDone => exact .registered
  | call order =>
    by_cases hperm : order.Perm s.tracker.pendingIds
    · rcases hscan : s.tracker.scan with _ | scan
      · obtain ⟨t, course, hgoes, hafter⟩ := after_call_free hperm hscan
        rw [hafter]
        exact .begun hscan hperm hgoes
      · have htaken : s.tracker.scan.isSome := by rw [hscan]; rfl
        rw [after_call_taken hperm htaken]
        exact .skipped htaken hperm
    · simp only [after, hperm, if_false]
      exact .idle
  | hear i a =>
    rcases hi : s.calls[i]? with _ | course
    · simp only [after, hi]
      exact .idle
    · cases course with
      | ended r =>
        simp only [after, hi]
        exact .idle
      | underWay scan =>
        obtain ⟨u, t, course, htakes, hgoes, hafter⟩ := after_hear hi a
        rw [hafter]
        exact .heard hi htakes hgoes

/-! ## The guard -/

/-- The guard belongs to the only call that is under way. -/
structure Guarded (s : Rounds H) : Prop where
  held : ∀ (i : Nat) scan, s.calls[i]? = some (.underWay scan) → s.tracker.scan = some scan
  holder : ∀ scan, s.tracker.scan = some scan → ∃ i : Nat, s.calls[i]? = some (.underWay scan)
  single : ∀ i j, s.UnderWay i → s.UnderWay j → i = j

/-- The guard is as the last call to go on left it, if no other is under way. -/
theorem Guarded.of_only {i : Nat} {course : Course} (hi : s.calls[i]? = some course)
    (hscan : s.tracker.scan = course.scan?) (hothers : ∀ j, j ≠ i → ¬ s.UnderWay j) :
    s.Guarded := by
  have honly : ∀ j, s.UnderWay j → j = i := fun j hj => by
    by_contra hne
    exact hothers j hne hj
  refine ⟨fun j scan hj => ?_, fun scan h => ?_, fun j k hj hk => ?_⟩
  · obtain rfl := honly j ⟨scan, hj⟩
    rw [hi, Option.some.injEq] at hj
    rw [hscan, hj]
    rfl
  · rw [hscan, Course.scan?_eq_some] at h
    exact ⟨i, by rw [hi, h]⟩
  · rw [honly j hj, honly k hk]

/-- A call that is over when it comes takes no guard. -/
theorem underWay_concat_ended {t : Tracker H} {r : Report} {questions : List (Nat × WorkId)}
    {scan : Scan} {i : Nat} :
    (⟨t, s.calls ++ [.ended r], questions⟩ : Rounds H).calls[i]? = some (.underWay scan) ↔
      s.calls[i]? = some (.underWay scan) := by
  show (s.calls ++ [Course.ended r])[i]? = _ ↔ _
  rw [List.getElem?_append]
  split
  · rfl
  · rename_i hge
    rw [List.getElem?_eq_none (not_lt.1 hge)]
    rcases hsub : i - s.calls.length with _ | k <;> simp

/-- Rounds are in order: the ids that are polled for stand in order, questions are asked by
    calls, and the guard is as it should be. -/
structure Sound (s : Rounds H) : Prop where
  increasing : Entries.Increasing s.tracker.pending
  numbered : ∀ q ∈ s.questions, q.1 < s.calls.length
  guarded : s.Guarded

theorem sound_nil (capacity : Nat) : (of capacity ([] : List (Act H))).Sound where
  increasing := List.Pairwise.nil
  numbered q hq := by cases hq
  guarded := by
    refine ⟨fun i scan hi => ?_, fun scan h => ?_, fun i j hi => ?_⟩
    · cases hi
    · cases h
    · obtain ⟨_, hi⟩ := hi
      cases hi

theorem Guarded.turn (h : s.Guarded) (ht : Turn s m s') : s'.Guarded := by
  cases ht with
  | idle => exact h
  | tracked => exact ⟨h.held, h.holder, h.single⟩
  | registered =>
    obtain ⟨-, hscan⟩ := s.tracker.register_keeps _ _ _
    exact ⟨fun i scan hi => hscan.trans (h.held i scan hi),
      fun scan hs => h.holder scan (hscan.symm.trans hs), h.single⟩
  | skipped =>
    refine ⟨fun i scan hi => h.held i scan (underWay_concat_ended.1 hi), fun scan hs => ?_,
      fun i j hi hj => ?_⟩
    · obtain ⟨i, hi⟩ := h.holder scan hs
      exact ⟨i, underWay_concat_ended.2 hi⟩
    · obtain ⟨_, hi⟩ := hi
      obtain ⟨_, hj⟩ := hj
      exact h.single i j ⟨_, underWay_concat_ended.1 hi⟩ ⟨_, underWay_concat_ended.1 hj⟩
  | begun hfree _ hgoes =>
    refine .of_only (i := s.calls.length) (by simp) hgoes.scan_eq fun j hne hj => ?_
    obtain ⟨scan, hj⟩ := hj
    have hlt : j < s.calls.length := by
      have := (List.getElem?_eq_some_iff.1 hj).1
      simp at this
      omega
    rw [List.getElem?_append_left hlt] at hj
    rw [h.held j scan hj] at hfree
    cases hfree
  | @heard i _ scan _ _ _ hi _ hgoes =>
    have hlt : i < s.calls.length := (List.getElem?_eq_some_iff.1 hi).1
    refine .of_only (i := i) (by simp [hlt]) hgoes.scan_eq fun j hne hj => ?_
    obtain ⟨other, hj⟩ := hj
    rw [List.getElem?_set_ne hne.symm] at hj
    exact hne (h.single j i ⟨other, hj⟩ ⟨scan, hi⟩)

theorem Sound.turn (h : s.Sound) (ht : Turn s m s') : s'.Sound := by
  refine ⟨?_, ?_, h.guarded.turn ht⟩
  · cases ht with
    | idle => exact h.increasing
    | tracked => exact Tracker.track_increasing h.increasing _
    | registered => rw [(s.tracker.register_keeps _ _ _).1]; exact h.increasing
    | skipped => exact h.increasing
    | begun _ _ hgoes => exact hgoes.increasing h.increasing
    | heard _ htakes hgoes => exact hgoes.increasing (htakes.increasing h.increasing)
  · cases ht with
    | idle | tracked | registered => exact h.numbered
    | skipped => exact fun q hq => by have := h.numbered q hq; simp; omega
    | begun =>
      intro q hq
      rcases List.mem_append.1 hq with hq | hq
      · have := h.numbered q hq
        simp; omega
      · obtain ⟨_, -, rfl⟩ := List.mem_map.1 hq
        simp
    | heard hi =>
      intro q hq
      rw [List.length_set]
      rcases List.mem_append.1 hq with hq | hq
      · exact h.numbered q hq
      · obtain ⟨_, -, rfl⟩ := List.mem_map.1 hq
        exact (List.getElem?_eq_some_iff.1 hi).1

/-- **All rounds are in order.** -/
theorem sound_of (capacity : Nat) (acts : List (Act H)) : (of capacity acts).Sound := by
  induction acts using List.reverseRecOn with
  | nil => exact sound_nil capacity
  | append_singleton acts m ih =>
    rw [of_concat]
    exact ih.turn (Rounds.turn _ m)

/-- The tracker of any rounds is one that a history leaves: a call that hears an answer is
    the scan of the tracker itself. -/
theorem history_of (capacity : Nat) (acts : List (Act H)) :
    ∃ moves, (of capacity acts).tracker = (History.of capacity moves).tracker := by
  induction acts using List.reverseRecOn with
  | nil => exact ⟨[], rfl⟩
  | append_singleton acts m ih =>
    obtain ⟨moves, hmoves⟩ := ih
    have hmove : ∀ move, ((of capacity acts).tracker.after move).1 =
        (History.of capacity (moves ++ [move])).tracker := fun move => by
      rw [History.of_concat, hmoves]
      rfl
    rw [of_concat]
    cases m with
    | track w => exact ⟨_, hmove (.track w)⟩
    | register w h isDone => exact ⟨_, hmove (.register w h isDone)⟩
    | call order =>
      by_cases hperm : order.Perm (of capacity acts).tracker.pendingIds
      · simp only [after, hperm, if_true]
        exact ⟨_, hmove (.scan order)⟩
      · simp only [after, hperm, if_false]
        exact ⟨moves, hmoves⟩
    | hear i a =>
      simp only [after]
      split
      · rename_i scan hi
        have hscan := (sound_of capacity acts).guarded.held i scan hi
        rw [show { (of capacity acts).tracker with scan := some scan } = (of capacity acts).tracker
          by rw [← hscan]]
        exact ⟨_, hmove (.answer a)⟩
      · exact ⟨moves, hmoves⟩

/-! ## Attempts -/

theorem askedAbout_append (t : Tracker H) (calls : List Course) (questions : List (Nat × WorkId))
    (i : Nat) (ids : List WorkId) (w : WorkId) :
    (⟨t, calls, questions ++ ids.map (i, ·)⟩ : Rounds H).askedAbout w =
      (⟨t, calls, questions⟩ : Rounds H).askedAbout w + ids.count w := by
  simp [askedAbout, Function.comp_def]

/-- An id that is polled for after an act was so before and the act added the questions it
    asked about it, or the act began to track it. -/
theorem Turn.attempts (ht : Turn s m s') {w : WorkId} {n : Nat}
    (hn : s'.tracker.attempts? w = some n) :
    (∃ k, s.tracker.attempts? w = some k ∧ s'.askedAbout w + k = s.askedAbout w + n) ∨
      m = .track w ∧ s.tracker.attempts? w = none ∧ n = 0 ∧ s'.askedAbout w = s.askedAbout w := by
  cases ht with
  | idle => exact .inl ⟨n, hn, rfl⟩
  | @tracked v =>
    rw [Tracker.attempts?_track] at hn
    split_ifs at hn with hnew
    · obtain ⟨rfl, hnone⟩ := hnew
      cases hn
      exact .inr ⟨rfl, hnone, rfl, rfl⟩
    · exact .inl ⟨n, hn, rfl⟩
  | registered =>
    rw [Tracker.attempts?, (s.tracker.register_keeps _ _ _).1] at hn
    exact .inl ⟨n, hn, rfl⟩
  | skipped => exact .inl ⟨n, hn, rfl⟩
  | begun _ _ hgoes =>
    obtain ⟨k, hk, rfl⟩ := hgoes.attempts hn
    refine .inl ⟨k, hk, ?_⟩
    rw [askedAbout_append]
    show s.askedAbout w + _ + k = _
    omega
  | heard _ htakes hgoes =>
    obtain ⟨k, hk, rfl⟩ := hgoes.attempts hn
    refine .inl ⟨k, htakes.attempts hk, ?_⟩
    rw [askedAbout_append]
    show s.askedAbout w + _ + k = _
    omega

/-- The attempts for an id are the questions about it since some act began to track it,
    and it has been polled for ever since. -/
def Counts (capacity : Nat) (acts : List (Act H)) (w : WorkId) (n : Nat) : Prop :=
  ∃ before since, acts = before ++ .track w :: since ∧
    (of capacity before).tracker.attempts? w = none ∧
    (∀ later, later <+: since →
      (of capacity (before ++ .track w :: later)).tracker.attempts? w ≠ none) ∧
    (of capacity acts).askedAbout w = (of capacity before).askedAbout w + n

theorem counts_of (capacity : Nat) (acts : List (Act H)) (w : WorkId) (n : Nat)
    (hn : (of capacity acts).tracker.attempts? w = some n) : Counts capacity acts w n := by
  induction acts using List.reverseRecOn generalizing n with
  | nil => cases hn
  | append_singleton acts m ih =>
    have hstep := hn
    rw [of_concat] at hstep
    rcases (Rounds.turn (of capacity acts) m).attempts hstep with
      ⟨k, hk, hcount⟩ | ⟨rfl, hnone, rfl, hcount⟩
    · obtain ⟨before, since, rfl, hnone, hever, hsince⟩ := ih k hk
      refine ⟨before, since ++ [m], by simp, hnone, fun later hlater => ?_, ?_⟩
      · rcases List.prefix_concat_iff.1 hlater with rfl | hlater
        · have hnow : (of capacity (before ++ .track w :: (since ++ [m]))).tracker.attempts? w
              = some n := by
            simpa using hn
          simp [hnow]
        · exact hever later hlater
      · rw [of_concat]
        omega
    · refine ⟨acts, [], rfl, hnone, fun later hlater => ?_, ?_⟩
      · rw [List.prefix_nil.1 hlater, hn]
        exact Option.some_ne_none 0
      · rw [of_concat, hcount]
        rfl

/-! ## What a call asks about -/

theorem asked_append (t : Tracker H) (calls : List Course) (questions : List (Nat × WorkId))
    (i j : Nat) (ids : List WorkId) :
    (⟨t, calls, questions ++ ids.map (j, ·)⟩ : Rounds H).asked i =
      (⟨t, calls, questions⟩ : Rounds H).asked i ++ if j = i then ids else [] := by
  by_cases h : j = i <;> simp [asked, List.filter_map, Function.comp_def, h]

/-- A call pursues some ids: what it has asked about and what it has yet to ask about are
    these, none is left twice, and those that are left are polled for. -/
def Pursues (s : Rounds H) (i : Nat) (ids : List WorkId) : Prop :=
  ∃ course, s.calls[i]? = some course ∧ s.asked i ++ course.rest = ids ∧
    (course.question ++ course.rest).Nodup ∧ ∀ w ∈ course.rest, s.tracker.attempts? w ≠ none

theorem Pursues.lt {i : Nat} {ids : List WorkId} (h : s.Pursues i ids) : i < s.calls.length := by
  obtain ⟨_, hi, -⟩ := h
  exact (List.getElem?_eq_some_iff.1 hi).1

/-- A call that is over has asked about everything it pursued. -/
theorem pursues_ended {i : Nat} {ids : List WorkId} {r : Report}
    (hi : s.calls[i]? = some (.ended r)) : s.Pursues i ids ↔ s.asked i = ids := by
  constructor
  · rintro ⟨course, hcourse, hasked, -⟩
    rw [hi, Option.some.injEq] at hcourse
    rw [← hcourse] at hasked
    simpa [Course.rest] using hasked
  · intro hasked
    exact ⟨_, hi, by simp [Course.rest, hasked], List.nodup_nil, by simp [Course.rest]⟩

/-- A call goes on with what it pursues. -/
theorem Pursues.goesOn {t u : Tracker H} {course : Course} {i : Nat} {ids rest : List WorkId}
    {calls : List Course} {questions : List (Nat × WorkId)} (hi : calls[i]? = some course)
    (hgoes : GoesOn u rest t course) (hrest : rest.Nodup)
    (hall : ∀ w ∈ rest, u.attempts? w ≠ none)
    (hasked : (⟨u, calls, questions⟩ : Rounds H).asked i ++ rest = ids) :
    (⟨t, calls, questions ++ course.question.map (i, ·)⟩ : Rounds H).Pursues i ids := by
  have hnext : course.question ++ course.rest = rest := hgoes.next hall
  refine ⟨course, hi, ?_, ?_, fun w hw => hgoes.polled (hall w ?_)⟩
  · rw [asked_append, if_pos rfl, List.append_assoc, hnext]
    exact hasked
  · rw [hnext]
    exact hrest
  · rw [← hnext]
    exact List.mem_append_right _ hw

/-- **Whatever happens, a call pursues the same ids.** -/
theorem Pursues.turn {i : Nat} {ids : List WorkId} (h : s.Pursues i ids) (hs : s.Sound)
    (ht : Turn s m s') : s'.Pursues i ids := by
  have hlt : i < s.calls.length := h.lt
  cases ht with
  | idle => exact h
  | tracked =>
    obtain ⟨course, hi, hasked, hnodup, hall⟩ := h
    exact ⟨course, hi, hasked, hnodup, fun w hw => s.tracker.track_polled _ (hall w hw)⟩
  | registered =>
    obtain ⟨course, hi, hasked, hnodup, hall⟩ := h
    refine ⟨course, hi, hasked, hnodup, fun w hw => ?_⟩
    rw [Tracker.attempts?, (s.tracker.register_keeps _ _ _).1]
    exact hall w hw
  | skipped =>
    obtain ⟨course, hi, h⟩ := h
    exact ⟨course, (List.getElem?_append_left hlt).trans hi, h⟩
  | begun hfree _ hgoes =>
    obtain ⟨course, hi, -⟩ := id h
    -- the guard is free, so this call is over
    cases course with
    | underWay scan =>
      rw [hs.guarded.held i scan hi] at hfree
      cases hfree
    | ended r =>
      rw [pursues_ended hi] at h
      rw [pursues_ended ((List.getElem?_append_left hlt).trans hi), asked_append,
        if_neg (Nat.ne_of_gt hlt), List.append_nil]
      exact h
  | @heard j _ scan _ _ _ hj htakes hgoes =>
    obtain ⟨course, hi, hasked, hnodup, hall⟩ := id h
    by_cases hij : j = i
    · subst hij
      rw [hj, Option.some.injEq] at hi
      subst hi
      obtain ⟨hcurrent, hrest⟩ := List.nodup_cons.1 hnodup
      refine .goesOn (by simp [hlt]) hgoes hrest (fun w hw => ?_) hasked
      exact htakes.polled (hall w hw) (by rintro rfl; exact hcurrent hw)
    · -- another call is under way, so this one is over
      cases course with
      | underWay other => exact absurd (hs.guarded.single j i ⟨scan, hj⟩ ⟨other, hi⟩) hij
      | ended r =>
        rw [pursues_ended hi] at h
        rw [pursues_ended ((List.getElem?_set_ne hij).trans hi), asked_append, if_neg hij,
          List.append_nil]
        exact h

/-- Everything that a call finds is polled for, and it finds nothing twice. -/
theorem Sound.found (h : s.Sound) {order : List WorkId}
    (hperm : order.Perm s.tracker.pendingIds) :
    order.Nodup ∧ ∀ w, w ∈ order ↔ s.tracker.attempts? w ≠ none := by
  refine ⟨hperm.nodup_iff.2 h.increasing.nodup, fun w => ?_⟩
  rw [hperm.mem_iff, Tracker.attempts?, Ne, Entries.find?_eq_none_iff, not_not]
  rfl

/-- A number that no call has yet was asked for nothing. -/
theorem Sound.asked_length (h : s.Sound) : s.asked s.calls.length = [] := by
  rw [asked, List.map_eq_nil_iff, List.filter_eq_nil_iff]
  intro q hq
  have := h.numbered q hq
  simp only [decide_eq_true_eq]
  omega

/-- **A call that is let in pursues what it finds, and one that is not pursues nothing.** -/
theorem pursues_of (capacity : Nat) (before since : List (Act H)) {order : List WorkId}
    (hperm : order.Perm (of capacity before).tracker.pendingIds) :
    (of capacity (before ++ .call order :: since)).Pursues (of capacity before).calls.length
      (if (of capacity before).tracker.scan.isSome then [] else order) := by
  induction since using List.reverseRecOn with
  | nil =>
    have hs : (of capacity before).Sound := sound_of capacity before
    obtain ⟨hnodup, hfound⟩ := hs.found hperm
    rw [of_concat]
    split_ifs with htaken
    · rw [after_call_taken hperm htaken, pursues_ended (r := .skipped) (by simp)]
      exact hs.asked_length
    · have hfree : (of capacity before).tracker.scan = none := by simpa using htaken
      obtain ⟨t, course, hgoes, hafter⟩ := after_call_free hperm hfree
      rw [hafter]
      refine .goesOn (by simp) hgoes hnodup (fun w hw => (hfound w).1 hw) ?_
      exact (congrArg (· ++ order) hs.asked_length).trans (List.nil_append order)
  | append_singleton since m ih =>
    rw [← List.cons_append, ← List.append_assoc, of_concat]
    exact ih.turn (sound_of capacity _) (Rounds.turn _ m)

/-- Every call came at some moment. -/
theorem called_of (capacity : Nat) (acts : List (Act H)) {i : Nat}
    (hi : i < (of capacity acts).calls.length) : ∃ before order since,
      acts = before ++ .call order :: since ∧ (of capacity before).calls.length = i ∧
        order.Perm (of capacity before).tracker.pendingIds := by
  induction acts using List.reverseRecOn with
  | nil => cases hi
  | append_singleton acts m ih =>
    by_cases hold : i < (of capacity acts).calls.length
    · obtain ⟨before, order, since, rfl, hbefore⟩ := ih hold
      exact ⟨before, order, since ++ [m], by simp, hbefore⟩
    · rw [of_concat] at hi
      have ht := Rounds.turn (of capacity acts) m
      revert ht hi
      generalize (of capacity acts).after m = s'
      intro hi ht
      cases ht with
      | idle | tracked | registered => exact absurd hi hold
      | skipped _ hperm =>
        rw [List.length_append, List.length_singleton] at hi
        exact ⟨acts, _, [], rfl, by omega, hperm⟩
      | begun _ hperm =>
        rw [List.length_append, List.length_singleton] at hi
        exact ⟨acts, _, [], rfl, by omega, hperm⟩
      | heard =>
        rw [List.length_set] at hi
        exact absurd hi hold

/-! ## Single flight -/

/-- How scans treat a tracker, and each other, whatever happens around it. -/
structure SingleFlight (capacity : Nat) (acts : List (Act H)) : Prop where
  /-- at most one call is past the guard -/
  single : ∀ i j, (of capacity acts).UnderWay i → (of capacity acts).UnderWay j → i = j
  /-- the guard is taken exactly while a call is under way -/
  guard : (of capacity acts).tracker.scan.isSome ↔ ∃ i, (of capacity acts).UnderWay i
  /-- a call beside a running scan is skipped: the tracker stays as it is, and nothing is
      asked -/
  skipped : ∀ i order, (of capacity acts).UnderWay i →
    order.Perm (of capacity acts).tracker.pendingIds →
    of capacity (acts ++ [.call order]) =
      { of capacity acts with calls := (of capacity acts).calls ++ [.ended .skipped] }
  /-- whatever a scan hears, it ends and the guard is free, or fewer ids are left to it -/
  freed : ∀ (i : Nat) scan a, (of capacity acts).calls[i]? = some (.underWay scan) →
    (∃ checked confirmed errors, (of capacity (acts ++ [.hear i a])).calls[i]? =
        some (.ended (.completed checked confirmed errors)) ∧
      (of capacity (acts ++ [.hear i a])).tracker.scan = none) ∨
    ∃ next, (of capacity (acts ++ [.hear i a])).calls[i]? = some (.underWay next) ∧
      next.rest.length < scan.rest.length
  /-- a call asks about no id twice, and only about ids that were polled for when it came;
      one that came beside a running scan asks about nothing -/
  once : ∀ i, i < (of capacity acts).calls.length → ∃ before order since,
    acts = before ++ .call order :: since ∧ (of capacity before).calls.length = i ∧
      ((of capacity acts).asked i).Nodup ∧
      (∀ w ∈ (of capacity acts).asked i, (of capacity before).tracker.attempts? w ≠ none) ∧
      ((of capacity before).tracker.scan.isSome → (of capacity acts).asked i = [])
  /-- every question was asked by a call -/
  numbered : ∀ q ∈ (of capacity acts).questions, q.1 < (of capacity acts).calls.length
  /-- the attempts for an id are the questions about it since it was last tracked anew -/
  counted : ∀ w n, (of capacity acts).tracker.attempts? w = some n → Counts capacity acts w n
  /-- calls that are cut at their questions take a tracker nowhere but where its own moves do -/
  history : ∃ moves, (of capacity acts).tracker = (History.of capacity moves).tracker

/-- What a call has asked about is the first part of what it pursues. -/
theorem Pursues.asked_first {i : Nat} {ids : List WorkId} (h : s.Pursues i ids) :
    s.asked i <+: ids := by
  obtain ⟨course, -, hasked, -⟩ := h
  exact ⟨course.rest, hasked⟩

/-- **Scans are single-flight and attempts are counted exactly**, for every order in which
    calls, answers, tracking and registering can come. -/
theorem singleFlight_of (capacity : Nat) (acts : List (Act H)) : SingleFlight capacity acts := by
  have hs : (of capacity acts).Sound := sound_of capacity acts
  refine
    { single := hs.guarded.single
      guard := ⟨fun htaken => ?_, fun ⟨i, scan, hi⟩ => ?_⟩
      skipped := fun i order hi hperm => ?_
      freed := fun i scan a hi => ?_
      once := fun i hi => ?_
      numbered := hs.numbered
      counted := counts_of capacity acts
      history := history_of capacity acts }
  · obtain ⟨scan, hscan⟩ := Option.isSome_iff_exists.1 htaken
    obtain ⟨i, hi⟩ := hs.guarded.holder scan hscan
    exact ⟨i, scan, hi⟩
  · rw [hs.guarded.held i scan hi]
    rfl
  · obtain ⟨scan, hi⟩ := hi
    rw [of_concat]
    exact after_call_taken hperm (by rw [hs.guarded.held i scan hi]; rfl)
  · have hlt : i < (of capacity acts).calls.length := (List.getElem?_eq_some_iff.1 hi).1
    obtain ⟨u, t, course, -, hgoes, hafter⟩ := after_hear hi a
    rw [of_concat, hafter]
    cases hgoes with
    | ended => exact .inl ⟨_, _, _, List.getElem?_set_self hlt, rfl⟩
    | @asks _ next passed hids =>
      refine .inr ⟨next, List.getElem?_set_self hlt, ?_⟩
      rw [hids, List.length_append, List.length_cons]
      omega
  · obtain ⟨before, order, since, rfl, rfl, hperm⟩ := called_of capacity acts hi
    obtain ⟨hnodup, hfound⟩ := (sound_of capacity before).found hperm
    have hpursues := (pursues_of capacity before since hperm).asked_first
    refine ⟨before, order, since, rfl, rfl, ?_, fun w hw => ?_, fun htaken => ?_⟩
    · refine List.Sublist.nodup hpursues.sublist ?_
      split_ifs
      · exact List.nodup_nil
      · exact hnodup
    · have hmem := hpursues.subset hw
      split_ifs at hmem
      · cases hmem
      · exact (hfound w).1 hmem
    · rw [if_pos htaken] at hpursues
      exact List.prefix_nil.1 hpursues

/-- The second call comes while the first waits for its answer, the third one after it. -/
example : let s : Rounds Unit := of 16 [.track "0xa", .call ["0xa"], .track "0xa",
      .call ["0xa"], .hear 0 (.ok none), .call ["0xa"]]
    s.questions = [(0, "0xa"), (2, "0xa")] ∧ s.tracker.attempts? "0xa" = some 2 ∧
      s.calls[1]? = some (.ended .skipped) := ⟨rfl, rfl, rfl⟩

end Rounds

end LedgerGate.Receipt
