/-
  The signal of a shutdown: what its listeners hear, whoever calls it and in whatever order.

  A request with a reason is two calls, so that others may call in between.

  * `Shutdown.Call`, `Shutdown.after`: calls, and what comes of them;
  * `Shutdown.hearings`: how often the signal is heard under a name;
  * `triggered_after`, `reason_after`: it is triggered for good, and **the first reason is kept**;
  * `mem_signalled_after`: who has subscribed has the signal waiting;
  * `hearings_subscription`: **a subscription hears the signal once**, if it came before the
    signal, and else never.
-/
import LedgerGate.Shutdown
import Mathlib.Data.List.Nodup

namespace LedgerGate.Shutdown

/-- What can be asked of a shutdown. -/
inductive Call (N : Type) where
  | subscribe (name : N)
  | explain (reason : String)
  | trigger
  | receive (name : N)
  deriving DecidableEq

variable {N : Type}

/-- The reason that a call gives. -/
def Call.reason? : Call N → Option String
  | explain reason => some reason
  | _ => none

/-- A call gives no signal, and is about other names than one. -/
def Call.Spares (name : N) : Call N → Prop
  | subscribe other => other ≠ name
  | receive other => other ≠ name
  | explain _ => True
  | trigger => False

theorem trigger_of_triggered {s : Shutdown N} (h : s.triggered = true) : s.trigger = s :=
  if_pos h

theorem trigger_of_not_triggered {s : Shutdown N} (h : s.triggered = false) :
    s.trigger = { s with triggered := true, signalled := s.subscribers } := by
  rw [trigger, h]
  rfl

theorem triggered_trigger (s : Shutdown N) : s.trigger.triggered = true := by
  unfold trigger
  split
  · assumption
  · rfl

theorem reason_trigger (s : Shutdown N) : s.trigger.reason = s.reason := by
  unfold trigger
  split <;> rfl

variable [DecidableEq N]

/-- What comes of a call. -/
def called (s : Shutdown N) : Call N → Shutdown N
  | .subscribe name => s.subscribe name
  | .explain reason => { s with reason := s.reason.or (some reason) }
  | .trigger => s.trigger
  | .receive name => (s.receive name).2

/-- What comes of some calls. -/
def after (s : Shutdown N) (calls : List (Call N)) : Shutdown N := calls.foldl called s

/-- How often the signal is heard under a name. -/
def hearings (name : N) : Shutdown N → List (Call N) → Nat
  | _, [] => 0
  | s, c :: cs =>
    (if c = .receive name ∧ (s.receive name).1 then 1 else 0) + hearings name (s.called c) cs

variable {s : Shutdown N} {name : N} {c : Call N} {calls : List (Call N)}

@[simp]
theorem after_nil (s : Shutdown N) : s.after [] = s := rfl

@[simp]
theorem after_cons (s : Shutdown N) (c : Call N) (calls : List (Call N)) :
    s.after (c :: calls) = (s.called c).after calls := rfl

theorem after_append (s : Shutdown N) (calls more : List (Call N)) :
    s.after (calls ++ more) = (s.after calls).after more := List.foldl_append

/-! ## Triggers and reasons -/

theorem triggered_called (s : Shutdown N) (c : Call N) :
    (s.called c).triggered = (s.triggered || decide (c = .trigger)) := by
  cases c with
  | trigger => simp [called, triggered_trigger]
  | _ => simp [called, subscribe, receive]

theorem reason_called (s : Shutdown N) (c : Call N) :
    (s.called c).reason = s.reason.or c.reason? := by
  cases c with
  | trigger => simp [called, reason_trigger, Call.reason?]
  | _ => simp [called, subscribe, receive, Call.reason?]

/-- A shutdown is triggered if it has ever been. -/
theorem triggered_after (s : Shutdown N) (calls : List (Call N)) :
    (s.after calls).triggered = (s.triggered || decide (.trigger ∈ calls)) := by
  induction calls generalizing s with
  | nil => simp
  | cons c calls ih =>
    rw [after_cons, ih, triggered_called, Bool.or_assoc]
    simp [eq_comm]

theorem triggered_of_triggered (h : s.triggered = true) (calls : List (Call N)) :
    (s.after calls).triggered = true := by
  rw [triggered_after, h, Bool.true_or]

/-- **The first reason is kept.** -/
theorem reason_after (s : Shutdown N) (calls : List (Call N)) :
    (s.after calls).reason = s.reason.or (calls.findSome? Call.reason?) := by
  induction calls generalizing s with
  | nil => simp
  | cons c calls ih =>
    rw [after_cons, ih, reason_called, Option.or_assoc, List.findSome?_cons]
    cases c.reason? <;> rfl

/-! ## Names that subscribed, and names that have a signal waiting -/

/-- No name stands twice, and no signal waits before there was one. -/
structure Sound (s : Shutdown N) : Prop where
  subscribers : s.subscribers.Nodup
  signalled : s.signalled.Nodup
  silent : s.triggered = false → s.signalled = []

omit [DecidableEq N] in
theorem sound_new : (new : Shutdown N).Sound := ⟨List.nodup_nil, List.nodup_nil, fun _ => rfl⟩

theorem Sound.called (h : s.Sound) (c : Call N) : (s.called c).Sound := by
  cases c with
  | subscribe name =>
    refine ⟨List.nodup_cons.2 ⟨h.subscribers.not_mem_erase, h.subscribers.erase name⟩,
      h.signalled.erase name, fun hs => ?_⟩
    show s.signalled.erase name = []
    rw [h.silent hs, List.erase_nil]
  | explain reason => exact ⟨h.subscribers, h.signalled, h.silent⟩
  | trigger =>
    show s.trigger.Sound
    cases hs : s.triggered with
    | true => rwa [trigger_of_triggered hs]
    | false =>
      rw [trigger_of_not_triggered hs]
      exact ⟨h.subscribers, h.subscribers, fun hcontra => by cases hcontra⟩
  | receive name =>
    refine ⟨h.subscribers, h.signalled.erase name, fun hs => ?_⟩
    show s.signalled.erase name = []
    rw [h.silent hs, List.erase_nil]

theorem Sound.after (h : s.Sound) (calls : List (Call N)) : (s.after calls).Sound := by
  induction calls generalizing s with
  | nil => exact h
  | cons c calls ih => exact ih (h.called c)

omit [DecidableEq N] in
/-- Calls that neither subscribe under a name nor receive under it spare it or give the signal. -/
theorem Call.spares_or (hsubscribe : c ≠ .subscribe name) (hreceive : c ≠ .receive name) :
    c.Spares name ∨ c = .trigger := by
  cases c with
  | subscribe other => exact Or.inl fun heq => hsubscribe (heq ▸ rfl)
  | explain reason => exact Or.inl trivial
  | trigger => exact Or.inr rfl
  | receive other => exact Or.inl fun heq => hreceive (heq ▸ rfl)

theorem subscribers_called (hc : c.Spares name ∨ c = .trigger) :
    name ∈ (s.called c).subscribers ↔ name ∈ s.subscribers := by
  cases c with
  | subscribe other =>
    have hne : name ≠ other := fun heq => hc.elim (fun hother => hother heq.symm) (by simp)
    simp [called, subscribe, hne, List.mem_erase_of_ne hne]
  | trigger =>
    show name ∈ s.trigger.subscribers ↔ _
    unfold trigger
    split <;> exact Iff.rfl
  | _ => exact Iff.rfl

/-- The signal is given once: after it none waits that did not wait before. -/
theorem signalled_called (hc : c.Spares name ∨ c = .trigger ∧ s.triggered = true) :
    name ∈ (s.called c).signalled ↔ name ∈ s.signalled := by
  cases c with
  | subscribe other =>
    have hne : name ≠ other := fun heq => hc.elim (fun hother => hother heq.symm) (by simp)
    exact List.mem_erase_of_ne hne
  | explain reason => exact Iff.rfl
  | trigger =>
    have hs : s.triggered = true := hc.elim False.elim (·.2)
    show name ∈ s.trigger.signalled ↔ _
    rw [trigger_of_triggered hs]
  | receive other =>
    have hne : name ≠ other := fun heq => hc.elim (fun hother => hother heq.symm) (by simp)
    exact List.mem_erase_of_ne hne

/-- A name that never subscribed has no signal waiting, whoever else calls. -/
theorem not_mem_called (hc : c.Spares name ∨ c = .trigger) (hs : name ∉ s.subscribers)
    (hw : name ∉ s.signalled) :
    name ∉ (s.called c).subscribers ∧ name ∉ (s.called c).signalled := by
  refine ⟨fun hmem => hs ((subscribers_called hc).1 hmem), ?_⟩
  rcases hc with hc | rfl
  · exact fun hmem => hw ((signalled_called (Or.inl hc)).1 hmem)
  · show name ∉ s.trigger.signalled
    unfold trigger
    split
    · exact hw
    · exact hs

/-! ### Many calls -/

theorem subscribers_after (hcalls : ∀ c ∈ calls, c.Spares name ∨ c = .trigger) :
    name ∈ (s.after calls).subscribers ↔ name ∈ s.subscribers := by
  induction calls generalizing s with
  | nil => exact Iff.rfl
  | cons c calls ih =>
    obtain ⟨hc, hrest⟩ := List.forall_mem_cons.1 hcalls
    exact (ih hrest).trans (subscribers_called hc)

theorem signalled_after (hs : s.triggered = true)
    (hcalls : ∀ c ∈ calls, c.Spares name ∨ c = .trigger) :
    name ∈ (s.after calls).signalled ↔ name ∈ s.signalled := by
  induction calls generalizing s with
  | nil => exact Iff.rfl
  | cons c calls ih =>
    obtain ⟨hc, hrest⟩ := List.forall_mem_cons.1 hcalls
    exact (ih (triggered_of_triggered hs [c]) hrest).trans
      (signalled_called (hc.imp_right (⟨·, hs⟩)))

theorem not_mem_after (hcalls : ∀ c ∈ calls, c.Spares name ∨ c = .trigger)
    (hs : name ∉ s.subscribers) (hw : name ∉ s.signalled) : name ∉ (s.after calls).signalled := by
  induction calls generalizing s with
  | nil => exact hw
  | cons c calls ih =>
    obtain ⟨hc, hrest⟩ := List.forall_mem_cons.1 hcalls
    obtain ⟨hs', hw'⟩ := not_mem_called hc hs hw
    exact ih hrest hs' hw'

/-- **Who has subscribed has the signal waiting** once it is given. -/
theorem mem_signalled_after (hs : s.triggered = false) (hname : name ∈ s.subscribers)
    (hcalls : ∀ c ∈ calls, c.Spares name ∨ c = .trigger)
    (hafter : (s.after calls).triggered = true) : name ∈ (s.after calls).signalled := by
  induction calls generalizing s with
  | nil => exact absurd hafter (by simp [hs])
  | cons c calls ih =>
    obtain ⟨hc, hrest⟩ := List.forall_mem_cons.1 hcalls
    rw [after_cons] at hafter ⊢
    cases hs' : (s.called c).triggered with
    | false => exact ih hs' ((subscribers_called hc).2 hname) hrest hafter
    | true =>
      have hgiven : c = .trigger := by
        rw [triggered_called, hs, Bool.false_or] at hs'
        exact of_decide_eq_true hs'
      subst hgiven
      refine (signalled_after hs' hrest).2 ?_
      show name ∈ s.trigger.signalled
      rw [trigger_of_not_triggered hs]
      exact hname

/-! ## Hearings -/

/-- Somebody listens after the signal was given. -/
def Hears (name : N) (calls : List (Call N)) : Prop :=
  ∃ before since, calls = before ++ .receive name :: since ∧ .trigger ∈ before

omit [DecidableEq N] in
theorem hears_cons : Hears name (c :: calls) ↔
    c = .trigger ∧ .receive name ∈ calls ∨ Hears name calls := by
  constructor
  · rintro ⟨_ | ⟨c', before⟩, since, heq, htrigger⟩
    · cases htrigger
    · obtain ⟨rfl, rfl⟩ := List.cons.inj heq
      rcases List.mem_cons.1 htrigger with htrigger | htrigger
      · exact Or.inl ⟨htrigger.symm, List.mem_append_right _ List.mem_cons_self⟩
      · exact Or.inr ⟨before, since, rfl, htrigger⟩
  · rintro (⟨rfl, hreceive⟩ | ⟨before, since, rfl, htrigger⟩)
    · obtain ⟨before, since, rfl⟩ := List.append_of_mem hreceive
      exact ⟨.trigger :: before, since, rfl, List.mem_cons_self⟩
    · exact ⟨c :: before, since, rfl, List.mem_cons_of_mem c htrigger⟩

/-- Nothing is heard under a name that has no signal waiting after the signal was given. -/
theorem hearings_eq_zero (hs : s.triggered = true) (hw : name ∉ s.signalled)
    (hcalls : .subscribe name ∉ calls) : hearings name s calls = 0 := by
  induction calls generalizing s with
  | nil => rfl
  | cons c calls ih =>
    obtain ⟨hc, hrest⟩ := List.ne_and_not_mem_of_not_mem_cons hcalls
    have hnothing : ¬(c = .receive name ∧ (s.receive name).1) := by
      simp [receive, hw]
    rw [hearings, if_neg hnothing, Nat.zero_add]
    refine ih (triggered_of_triggered hs [c]) ?_ hrest
    by_cases hreceive : c = .receive name
    · rw [hreceive]
      exact fun hmem => hw (List.mem_of_mem_erase hmem)
    · have hspares := Call.spares_or (Ne.symm hc) hreceive
      exact fun hmem => hw ((signalled_called (hspares.imp_right (⟨·, hs⟩))).1 hmem)

/-- A signal that waits is heard once, if anybody listens. -/
theorem hearings_of_waiting (h : s.Sound) (hs : s.triggered = true) (hw : name ∈ s.signalled)
    (hcalls : .subscribe name ∉ calls) :
    hearings name s calls = if .receive name ∈ calls then 1 else 0 := by
  induction calls generalizing s with
  | nil => rfl
  | cons c calls ih =>
    obtain ⟨hc, hrest⟩ := List.ne_and_not_mem_of_not_mem_cons hcalls
    by_cases hreceive : c = .receive name
    · subst hreceive
      have hheard : (s.receive name).1 = true := List.contains_iff_mem.2 hw
      have hnone : name ∉ (s.called (.receive name)).signalled := h.signalled.not_mem_erase
      have hafter : (s.called (.receive name)).triggered = true := hs
      rw [hearings, if_pos ⟨rfl, hheard⟩, if_pos List.mem_cons_self,
        hearings_eq_zero hafter hnone hrest]
    · have hspares := Call.spares_or (Ne.symm hc) hreceive
      have hstill : name ∈ (s.called c).signalled :=
        (signalled_called (hspares.imp_right (⟨·, hs⟩))).2 hw
      rw [hearings, if_neg (fun heq => hreceive heq.1), Nat.zero_add,
        ih (h.called c) (triggered_of_triggered hs [c]) hstill hrest]
      simp [Ne.symm hreceive]

/-- A name that subscribed hears the signal once, if anybody listens after it was given. -/
theorem hearings_of_subscribed (h : s.Sound) (hs : s.triggered = false)
    (hname : name ∈ s.subscribers) (hcalls : .subscribe name ∉ calls) :
    hearings name s calls ≤ 1 ∧ (hearings name s calls = 1 ↔ Hears name calls) := by
  induction calls generalizing s with
  | nil => exact ⟨Nat.zero_le 1, by simp [hearings, Hears]⟩
  | cons c calls ih =>
    obtain ⟨hc, hrest⟩ := List.ne_and_not_mem_of_not_mem_cons hcalls
    have hnothing : ¬(c = .receive name ∧ (s.receive name).1) := by
      simp [receive, h.silent hs]
    rw [hearings, if_neg hnothing, Nat.zero_add, hears_cons]
    by_cases htrigger : c = .trigger
    · subst htrigger
      have hwaits : name ∈ s.trigger.signalled := by
        rw [trigger_of_not_triggered hs]
        exact hname
      have hheard :=
        hearings_of_waiting (h.called .trigger) (triggered_trigger s) hwaits hrest
      rw [hheard]
      by_cases hlistens : Call.receive name ∈ calls
      · simp [hlistens]
      · have hnot : ¬Hears name calls := by
          rintro ⟨before, since, rfl, -⟩
          exact hlistens (List.mem_append_right _ List.mem_cons_self)
        simp [hlistens, hnot]
    · have hs' : (s.called c).triggered = false := by
        rw [triggered_called, hs, Bool.false_or]
        exact decide_eq_false htrigger
      have hname' : name ∈ (s.called c).subscribers := by
        by_cases hreceive : c = .receive name
        · rwa [hreceive]
        · exact (subscribers_called (Call.spares_or (Ne.symm hc) hreceive)).2 hname
      simpa [htrigger] using ih (h.called c) hs' hname' hrest

/-- **A subscription hears the signal once**: if it came before the signal and somebody listens
    after it, and never if it came too late. -/
theorem hearings_subscription (past : List (Call N)) (hcalls : .subscribe name ∉ calls) :
    hearings name (new.after (past ++ [.subscribe name])) calls ≤ 1 ∧
      (hearings name (new.after (past ++ [.subscribe name])) calls = 1 ↔
        .trigger ∉ past ∧ Hears name calls) := by
  have hsound : (new.after past).Sound := sound_new.after past
  have htriggered : (new.after past).triggered = decide (.trigger ∈ past) := by
    rw [triggered_after]
    rfl
  rw [after_append, after_cons, after_nil]
  by_cases hpast : Call.trigger ∈ past
  · have hnever : hearings name ((new.after past).called (.subscribe name)) calls = 0 := by
      refine hearings_eq_zero ?_ hsound.signalled.not_mem_erase hcalls
      exact htriggered.trans (decide_eq_true hpast)
    simp [hnever, hpast]
  · have hs : ((new.after past).called (.subscribe name)).triggered = false :=
      htriggered.trans (decide_eq_false hpast)
    have hheard :=
      hearings_of_subscribed (hsound.called (.subscribe name)) hs List.mem_cons_self hcalls
    simpa [hpast] using hheard

end LedgerGate.Shutdown
