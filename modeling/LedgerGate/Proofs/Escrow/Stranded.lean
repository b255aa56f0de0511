/-
  Stranded claims: a marker under a key that nobody is left to remove.

  Only the holder of a claim writes or deletes under the key.  So a marker stays for good
  when no bootstrap that still acts holds its claim, be it that the one who wrote it gave
  up without deleting it, crashed, or belonged to an earlier run.

  * `Phase.Waits`, `Phase.Waits.state`: where a bootstrap can be that has found nothing but a
    marker, and that it is not ready there;
  * `Contest.Stranded`: a marker is there, and nobody who still acts holds the claim;
  * `Stranded.run`: it stays so, and nobody wins, writes, deletes or deploys any more;
  * `Stranded.late`: **who starts then is never ready**, and in the end it failed.
-/
import LedgerGate.Proofs.Escrow.Claim

namespace LedgerGate.Escrow

/-! ## Waiting in vain -/

/-- The fault of a bootstrap that waits for the record of another for too long. -/
def Settings.overdue (s : Settings) : Fault :=
  .own ("escrow deployment claimed elsewhere did not finish within " ++
    Text.durationText s.timeout)

/-- Why a bootstrap may fail that finds nothing but a marker: it waited for too long, or
    the store could not be read. -/
def Settings.Hopeless (s : Settings) (acts : List Act) (f : Fault) : Prop :=
  f = s.overdue ∨ ∃ e, .store (.get s.key) (.error e) ∈ acts ∧ f = .ofStore e

theorem Settings.Hopeless.more {s : Settings} {acts : List Act} {f : Fault}
    (h : s.Hopeless acts f) (a : Act) : s.Hopeless (acts ++ [a]) f := by
  rcases h with h | ⟨e, he, hf⟩
  · exact Or.inl h
  · exact Or.inr ⟨e, List.mem_append_left _ he, hf⟩

/-- Where a bootstrap can be that has found nothing but a marker. -/
def Phase.Waits (fault : Fault → Prop) : Phase → Prop
  | idle | queueing | leasing => True
  | looking _ _ | dozing _ _ | napping _ _ => True
  | leaving (.error f) => fault f
  | alarming reason => ∃ f, fault f ∧ reason = f.message
  | failed reason => ∃ f, fault f ∧ reason = f.message
  | _ => False

/-- Whoever looks and finds a marker goes on waiting, or gives up. -/
theorem Phase.waits_found (s : Settings) (now deadline : Nat) (contested : Bool)
    (acts : List Act) :
    (found s now deadline contested (some claimMarker)).Waits (s.Hopeless acts) := by
  rw [found, if_pos rfl]
  split
  · exact Or.inl rfl
  · trivial

/-- A bootstrap that finds nothing but a marker waits, whatever it does next. -/
theorem Phase.Goes.waits {s : Settings} {p p' : Phase} {a : Act} (h : p.Goes s a p')
    {before after : String → Option String} (hch : a.Changes before after)
    (hmark : before s.key = some claimMarker) {acts : List Act}
    (hp : p.Waits (s.Hopeless acts)) : p'.Waits (s.Hopeless (acts ++ [a])) := by
  cases h.turn with
  | @looked now deadline contested text =>
    obtain rfl : text = some claimMarker := hch.1.1.trans hmark
    exact Phase.waits_found s now deadline contested _
  | @blind deadline contested e => exact Or.inr ⟨e, by simp, rfl⟩
  | fail => exact ⟨_, Settings.Hopeless.more hp _, rfl⟩
  | alarm =>
    obtain ⟨f, hf, hreason⟩ := hp
    exact ⟨f, hf.more _, hreason⟩
  | start | queue | lease | granted | doze | wake => trivial
  | _ => cases hp

theorem Phase.Waits.more {s : Settings} {acts : List Act} {p : Phase}
    (h : p.Waits (s.Hopeless acts)) (a : Act) : p.Waits (s.Hopeless (acts ++ [a])) := by
  cases p with
  | leaving outcome =>
    rcases outcome with f | record
    · exact Settings.Hopeless.more h a
    · cases h
  | alarming reason =>
    obtain ⟨f, hf, hreason⟩ := h
    exact ⟨f, hf.more a, hreason⟩
  | failed reason =>
    obtain ⟨f, hf, hreason⟩ := h
    exact ⟨f, hf.more a, hreason⟩
  | idle | queueing | leasing | looking | dozing | napping => trivial
  | _ => cases h

/-- What others see of a bootstrap that waits: it is not ready, and if it failed, then
    because it waited. -/
theorem Phase.Waits.state {fault : Fault → Prop} {p : Phase} (h : p.Waits fault) :
    p.state = .uninitialised ∨ p.state = .initialising ∨
      ∃ f, fault f ∧ p.state = .failed f.message := by
  cases p with
  | idle => exact Or.inl rfl
  | alarming reason =>
    obtain ⟨f, hf, rfl⟩ := h
    exact Or.inr (Or.inr ⟨f, hf, rfl⟩)
  | failed reason =>
    obtain ⟨f, hf, rfl⟩ := h
    exact Or.inr (Or.inr ⟨f, hf, rfl⟩)
  | queueing | leasing | looking | dozing | napping | leaving => exact Or.inr (Or.inl rfl)
  | _ => cases h

/-! ## Stranded claims -/

namespace Contest

variable {I : Type} [DecidableEq I] {settings : I → Settings} {key : String}
  {c c' : Contest I} {more : List (I × Act)} {i j : I}

/-- A marker is under the key, and nobody who still acts holds its claim. -/
structure Stranded (settings : I → Settings) (key : String) (c : Contest I) : Prop where
  marked : c.values key = some claimMarker
  unowned : ∀ i, (settings i).key = key → c.crashed i = false →
    (c.phase i).standing.owns = false

omit [DecidableEq I] in
/-- Before anybody has started every marker is stranded. -/
theorem stranded_start {values : String → Option String} (h : values key = some claimMarker) :
    Stranded settings key (start values) where
  marked := h
  unowned _ _ _ := rfl

theorem Stranded.step (hs : Stranded settings key c) {a : Act} (h : Step settings c i a c') :
    Stranded settings key c' ∧ ((settings i).key = key → a.Quiet (settings i)) := by
  have hothers : ∀ k ≠ i, (settings k).key = key → c'.crashed k = false →
      (c'.phase k).standing.owns = false := by
    intro k hki hk hlive
    rw [h.crashed_ne hki] at hlive
    rw [h.phase_ne hki]
    exact hs.unowned k hk hlive
  cases h with
  | crash hc =>
    refine ⟨⟨hs.marked, fun k hk hlive => ?_⟩, fun _ => trivial⟩
    by_cases hki : k = i
    · subst hki
      simp [Function.update_self] at hlive
    · exact hothers k hki hk hlive
  | act hc hgo hch =>
    by_cases hi : (settings i).key = key
    · subst hi
      obtain ⟨hafter, howns, hquiet⟩ := hgo.advance.keeps hch (hs.unowned i rfl hc) hs.marked
      refine ⟨⟨hafter, fun k hk hlive => ?_⟩, fun _ => hquiet⟩
      by_cases hki : k = i
      · subst hki
        simpa only [goesTo, Function.update_self] using howns
      · exact hothers k hki hk hlive
    · refine ⟨⟨(hgo.advance.changes_ne hch key (Ne.symm hi)).trans hs.marked,
        fun k hk hlive => ?_⟩, fun h => absurd h hi⟩
      exact hothers k (fun h => hi (h ▸ hk)) hk hlive

/-- A stranded claim stays stranded, and all that is done under its key is quiet. -/
theorem Stranded.run (hs : Stranded settings key c) (h : Run settings c more c') :
    Stranded settings key c' ∧
      ∀ i a, (i, a) ∈ more → (settings i).key = key → a.Quiet (settings i) := by
  induction h with
  | refl => exact ⟨hs, fun _ _ hmem => by cases hmem⟩
  | @snoc before c₁ i a c₂ hrun hstep ih =>
    obtain ⟨hbefore, hquiet⟩ := ih
    obtain ⟨hafter, ha⟩ := hbefore.step hstep
    refine ⟨hafter, fun j b hmem hkey => ?_⟩
    rcases List.mem_append.1 hmem with hmem | hmem
    · exact hquiet j b hmem hkey
    · obtain ⟨rfl, rfl⟩ : j = i ∧ b = a := by simpa using hmem
      exact ha hkey

/-- **Who starts when a claim is stranded** waits for a record that never comes. -/
theorem Stranded.late (hs : Stranded settings (settings j).key c) (hidle : c.phase j = .idle)
    (h : Run settings c more c') :
    (c'.phase j).Waits ((settings j).Hopeless (actsOf j more)) := by
  induction h with
  | refl => rw [hidle]; trivial
  | @snoc before c₁ i a c₂ hrun hstep ih =>
    have hmark := (hs.run hrun).1.marked
    by_cases hij : i = j
    · subst hij
      rw [actsOf_concat_self]
      rcases hstep.goes_or_crash with hgo | ⟨-, hsame⟩
      · exact hgo.waits hstep.changes hmark ih
      · rw [hsame]
        exact ih.more _
    · rw [actsOf_concat_ne hij, hstep.phase_ne (Ne.symm hij)]
      exact ih

end Contest

end LedgerGate.Escrow
