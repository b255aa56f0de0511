/-
  What a bootstrap that failed leaves behind.

  On every way out but one a bootstrap that has won its claim asks for the deletion of its
  marker before it says that it failed, also if the handler for its receipt was dropped.  The
  one exception is the last request: when the record of a successful deployment cannot be
  written, the marker is left where it is.

  * `Phase.Ending`: the way out, on which nothing is asked of the store any more;
  * `Contest.Remains`: a bootstrap won its claim and its marker has been there since;
  * `Contest.aftermath`: **what a failed bootstrap has done to the store**: nothing if it
    never won; its marker is gone unless the store refused the deletion or the record;
    and a marker that remains is there for good.
-/
import LedgerGate.Proofs.Escrow.Stranded
import Mathlib.Data.List.Induction

namespace LedgerGate.Escrow

/-! ## The way out -/

/-- The bootstrap is on its way out with an outcome. -/
def Phase.Ending (outcome : Except Fault Record) : Phase → Prop
  | leaving o => outcome = o
  | ready record => outcome = .ok record
  | alarming reason => ∃ f, outcome = .error f ∧ reason = f.message
  | failed reason => ∃ f, outcome = .error f ∧ reason = f.message
  | _ => False

/-- The act is one of a bootstrap on its way out. -/
def Act.Parting : Act → Prop
  | unlease => True
  | alarm _ => True
  | crash => True
  | _ => False

/-- On its way out a bootstrap neither wins a claim nor gives one up. -/
theorem Act.Parting.not {a : Act} (h : a.Parting) : a.wins = false ∧ a.yields = false := by
  cases a with
  | unlease | alarm | crash => exact ⟨rfl, rfl⟩
  | _ => cases h

/-- Whoever is on its way out stays there, and does nothing else. -/
theorem Phase.Goes.ending {s : Settings} {p p' : Phase} {a : Act} (h : p.Goes s a p')
    {outcome : Except Fault Record} (hp : p.Ending outcome) :
    p'.Ending outcome ∧ a.Parting := by
  cases h.turn with
  | succeed => exact ⟨hp, trivial⟩
  | fail => exact ⟨⟨_, hp, rfl⟩, trivial⟩
  | alarm => exact ⟨hp, trivial⟩
  | _ => cases hp

theorem Phase.Ending.of_failed {p : Phase} {outcome : Except Fault Record} {reason : String}
    (h : p.Ending outcome) (hstate : p.state = .failed reason) :
    ∃ f, outcome = .error f ∧ reason = f.message := by
  cases p with
  | alarming r => cases hstate; exact h
  | failed r => cases hstate; exact h
  | _ => cases hstate

/-- The claim is given up by writing the record or by deleting the marker; after that a
    bootstrap is on its way out. -/
theorem Phase.Goes.yielding {s : Settings} {p p' : Phase} {a : Act} (h : p.Goes s a p')
    (ha : a.yields) :
    (∃ r : Record, a = .store (.put s.key r.format) (.ok ()) ∧ p'.Ending (.ok r)) ∨
      (∃ (r : Record) (e : Store.Error), a = .store (.put s.key r.format) (.error e) ∧
        p'.Ending (.error (.ofStore e))) ∨
      ∃ answer f, a = .store (.delete s.key) answer ∧ p'.Ending (.error f) := by
  cases h.turn with
  | saved => exact Or.inl ⟨_, rfl, rfl⟩
  | unsaved => exact Or.inr (Or.inl ⟨_, _, rfl, rfl⟩)
  | freed answer => exact Or.inr (Or.inr ⟨answer, _, rfl, rfl⟩)
  | _ => cases ha

/-- What a bootstrap writes is a record. -/
theorem Phase.Goes.put_ne_claimMarker {s : Settings} {p p' : Phase} {key text : String}
    {answer : (Store.Query.put key text).Answer} (h : p.Goes s (.store (.put key text) answer) p') :
    text ≠ claimMarker := by
  cases h.turn <;> exact Record.format_ne_claimMarker _

/-- A bootstrap whose record is refused leaves with the fault of the store. -/
theorem Phase.Goes.unsaved {s : Settings} {p p' : Phase} {key text : String} {e : Store.Error}
    (h : p.Goes s (.store (.put key text) (.error e)) p') : p'.Ending (.error (.ofStore e)) := by
  cases h.turn
  rfl

/-! ## Winning a claim and giving it up -/

/-- An act of a bootstrap that has not won its claim is quiet, unless it wins it. -/
theorem Advance.innocent {s : Settings} {x y : Standing} {a : Act} (h : Advance s x a y)
    {acts : List Act} (hx : x.Fits acts) (hwon : Act.winsOf acts = 0) (ha : a.wins = false) :
    a.Quiet s := by
  cases h with
  | quiet ha => exact ha
  | leaves ha => exact ha
  | wins => cases ha
  | fails ha => exact ha
  | deploys answer => obtain ⟨h, -⟩ := hx; omega
  | saves answer => obtain ⟨h, -⟩ := hx; omega
  | frees answer => obtain ⟨h, -⟩ := hx; omega

/-- Whoever wins its claim owns it then. -/
theorem Advance.owns_of_wins {s : Settings} {x y : Standing} {a : Act} (h : Advance s x a y)
    (ha : a.wins) : y.owns := by
  have hquiet : ¬ a.Quiet s := fun hq => by rw [hq.not.1] at ha; cases ha
  cases h with
  | quiet h => exact absurd h hquiet
  | leaves h => exact absurd h hquiet
  | wins => rfl
  | fails h => exact absurd h hquiet
  | deploys answer => cases ha
  | saves answer => cases ha
  | frees answer => cases ha

/-- The claim is won by whoever comes to own it. -/
theorem Advance.wins_of_owns {s : Settings} {x y : Standing} {a : Act} (h : Advance s x a y)
    (hx : x.owns = false) (hy : y.owns) : a.wins := by
  cases h with
  | quiet _ => rw [hx] at hy; cases hy
  | leaves _ => cases hy
  | wins => rfl
  | fails _ => cases hx
  | deploys answer => cases hx
  | saves answer => cases hy
  | frees answer => cases hy

/-- The claim is given up by whoever owns it. -/
theorem Advance.owns_of_yields {s : Settings} {x y : Standing} {a : Act} (h : Advance s x a y)
    (ha : a.yields) : x.owns ∧ y = .done := by
  have hquiet : ¬ a.Quiet s := fun hq => by rw [hq.not.2.1] at ha; cases ha
  cases h with
  | quiet h => exact absurd h hquiet
  | leaves h => exact absurd h hquiet
  | wins => cases ha
  | fails h => exact absurd h hquiet
  | deploys answer => cases ha
  | saves answer => exact ⟨rfl, rfl⟩
  | frees answer => exact ⟨rfl, rfl⟩

namespace Contest

variable {I : Type} [DecidableEq I] {settings : I → Settings} {values : String → Option String}
  {trace before after rest : List (I × Act)} {c c' : Contest I} {i j : I} {a : Act}

/-- Whoever is on its way out does nothing else for the rest of a run. -/
theorem ending_of_run {outcome : Except Fault Record} (hi : (c.phase i).Ending outcome)
    (h : Run settings c rest c') :
    (c'.phase i).Ending outcome ∧ ∀ a ∈ actsOf i rest, a.Parting := by
  induction h with
  | refl => exact ⟨hi, fun _ ha => by cases ha⟩
  | @snoc before c₁ j a c₂ hrun hstep ih =>
    obtain ⟨hphase, hparting⟩ := ih
    by_cases hj : j = i
    · subst hj
      have hlast : (c₂.phase j).Ending outcome ∧ a.Parting := by
        rcases hstep.goes_or_crash with hgo | ⟨rfl, hsame⟩
        · exact hgo.ending hphase
        · exact ⟨hsame ▸ hphase, trivial⟩
      refine ⟨hlast.1, fun b hb => ?_⟩
      rw [actsOf_concat_self] at hb
      rcases List.mem_append.1 hb with hb | hb
      · exact hparting b hb
      · rw [List.mem_singleton.1 hb]; exact hlast.2
    · rw [actsOf_concat_ne hj, hstep.phase_ne (Ne.symm hj)]
      exact ⟨hphase, hparting⟩

theorem mem_actsOf {i : I} {a : Act} {trace : List (I × Act)} :
    a ∈ actsOf i trace ↔ (i, a) ∈ trace := by
  simp [actsOf]

/-- A bootstrap that won its claim and holds it no more has given it up. -/
theorem exists_yields (hwon : 0 < Act.winsOf (actsOf i trace))
    (hnot : Act.holds (actsOf i trace) = false) : ∃ a ∈ actsOf i trace, a.yields := by
  generalize actsOf i trace = acts at hwon hnot
  induction acts using List.reverseRecOn with
  | nil => cases hwon
  | append_singleton acts a ih =>
    rw [Act.holds_concat, Bool.or_eq_false_iff, Bool.and_eq_false_iff] at hnot
    obtain ⟨hwins, hheld⟩ := hnot
    rw [Act.winsOf_concat, hwins] at hwon
    rcases hheld with hheld | hyields
    · obtain ⟨b, hb, hyields⟩ := ih hwon hheld
      exact ⟨b, List.mem_append_left _ hb, hyields⟩
    · exact ⟨a, by simp, by simpa using hyields⟩

/-- A run passes through each of its acts. -/
theorem Run.through (h : Run settings c trace c') (hmem : a ∈ actsOf i trace) :
    ∃ before after c₁ c₂, trace = before ++ (i, a) :: after ∧ Run settings c before c₁ ∧
      Step settings c₁ i a c₂ ∧ Run settings c₂ after c' := by
  obtain ⟨before, after, rfl⟩ := List.append_of_mem (mem_actsOf.1 hmem)
  rw [List.append_cons] at h
  obtain ⟨c₂, hupto, hrest⟩ := h.split
  obtain ⟨c₁, hbefore, hstep⟩ := hupto.last
  exact ⟨before, after, c₁, c₂, rfl, hbefore, hstep, hrest⟩

/-- Whoever gives its claim up is on its way out. -/
theorem Step.ending (h : Step settings c i a c') (ha : a.yields) :
    ∃ outcome, (c'.phase i).Ending outcome := by
  have hgo := h.goes (by rintro rfl; cases ha)
  rcases hgo.yielding ha with ⟨r, -, hend⟩ | ⟨r, e, -, hend⟩ | ⟨answer, f, -, hend⟩
  all_goals exact ⟨_, hend⟩

theorem exists_ending (h : Run settings (start values) trace c) (hmem : a ∈ actsOf i trace)
    (ha : a.yields) : ∃ outcome, (c.phase i).Ending outcome := by
  obtain ⟨before, after, c₁, c₂, -, -, hstep, hrest⟩ := h.through hmem
  obtain ⟨outcome, hend⟩ := hstep.ending ha
  exact ⟨outcome, (ending_of_run hend hrest).1⟩

/-- A bootstrap gives its claim up once. -/
theorem yields_unique (h : Run settings (start values) trace c) {b : Act}
    (ha : a ∈ actsOf i trace) (hb : b ∈ actsOf i trace) (hay : a.yields) (hby : b.yields) :
    a = b := by
  obtain ⟨before, after, c₁, c₂, rfl, hbefore, hstep, hrest⟩ := h.through ha
  rcases List.mem_append.1 (mem_actsOf.1 hb) with hb | hb
  · obtain ⟨outcome, hend⟩ := exists_ending hbefore (mem_actsOf.2 hb) hby
    have hgo := hstep.goes (by rintro rfl; cases hay)
    rw [(hgo.ending hend).2.not.2] at hay
    cases hay
  · rcases List.mem_cons.1 hb with heq | hb
    · exact (Prod.mk.inj heq).2.symm
    · obtain ⟨outcome, hend⟩ := hstep.ending hay
      have hparting := (ending_of_run hend hrest).2 b (mem_actsOf.2 hb)
      rw [hparting.not.2] at hby
      cases hby

/-! ## Never having won -/

/-- **Whoever has not won its claim** has only read under its key, and asked for the claim
    in vain. -/
theorem innocent_of_run (h : Run settings (start values) trace c)
    (hwon : Act.winsOf (actsOf i trace) = 0) : ∀ a ∈ actsOf i trace, a.Quiet (settings i) := by
  induction h with
  | refl => exact fun _ ha => by cases ha
  | @snoc before c₁ j a c₂ hrun hstep ih =>
    by_cases hj : j = i
    · subst hj
      rw [actsOf_concat_self] at hwon ⊢
      rw [Act.winsOf_concat] at hwon
      have hbefore : Act.winsOf (actsOf j before) = 0 := by omega
      have hloses : a.wins = false := by
        cases ha : a.wins
        · rfl
        · simp [ha] at hwon
      intro b hb
      rcases List.mem_append.1 hb with hb | hb
      · exact ih hbefore b hb
      · rw [List.mem_singleton.1 hb]
        rcases hstep.goes_or_crash with hgo | ⟨rfl, -⟩
        · exact hgo.advance.innocent ((sound_of_run hrun).fits j) hbefore hloses
        · trivial
    · rw [actsOf_concat_ne hj] at hwon ⊢
      exact ih hwon

/-! ## The marker of a bootstrap -/

/-- A bootstrap won its claim, and its marker has been under the key ever since. -/
inductive Remains (settings : I → Settings) (values : String → Option String) (i : I) :
    List (I × Act) → Contest I → Prop
  | won {before : List (I × Act)} {c c' : Contest I} {a : Act} :
      Run settings (start values) before c → Step settings c i a c' → a.wins →
      Remains settings values i (before ++ [(i, a)]) c'
  | stays {before : List (I × Act)} {c c' : Contest I} {j : I} {a : Act} :
      Remains settings values i before c → Step settings c j a c' →
      c'.values (settings i).key = some claimMarker →
      Remains settings values i (before ++ [(j, a)]) c'

theorem Remains.run (h : Remains settings values i trace c) :
    Run settings (start values) trace c := by
  induction h with
  | won hrun hstep _ => exact .snoc hrun hstep
  | stays _ hstep _ ih => exact .snoc ih hstep

/-- Whoever wins its claim owns it, with its marker under the key. -/
theorem owns_of_wins (hrun : Run settings (start values) trace c) (hstep : Step settings c i a c')
    (ha : a.wins) :
    (c'.phase i).standing.owns ∧ c'.values (settings i).key = some claimMarker := by
  have hgo := hstep.goes (by rintro rfl; cases ha)
  have howns := hgo.advance.owns_of_wins ha
  exact ⟨howns, (sound_of_run (.snoc hrun hstep)).marked i howns⟩

theorem Remains.marked (h : Remains settings values i trace c) :
    c.values (settings i).key = some claimMarker := by
  cases h with
  | won hrun hstep ha => exact (owns_of_wins hrun hstep ha).2
  | stays _ _ hmark => exact hmark

/-- Nobody else holds the claim while the marker of a bootstrap is there. -/
theorem Remains.unowned (h : Remains settings values i trace c) (hj : j ≠ i)
    (hkey : (settings j).key = (settings i).key) : (c.phase j).standing.owns = false := by
  induction h with
  | won hrun hstep ha =>
    by_contra hown
    exact hj ((sound_of_run (.snoc hrun hstep)).unique j i hkey (by simpa using hown)
      (owns_of_wins hrun hstep ha).1)
  | @stays before c c' k a hbefore hstep hmark ih =>
    by_cases hk : k = j
    · subst hk
      have hmarked : c.values (settings k).key = some claimMarker := hkey ▸ hbefore.marked
      rcases hstep.goes_or_crash with hgo | ⟨-, hsame⟩
      · exact (hgo.advance.keeps hstep.changes ih hmarked).2.1
      · rw [hsame]
        exact ih
    · rw [hstep.phase_ne (Ne.symm hk)]
      exact ih

/-- As long as the marker of a bootstrap is there, it has had no deletion carried out. -/
theorem Remains.not_deleted (h : Remains settings values i trace c) :
    .store (.delete (settings i).key) (.ok ()) ∉ actsOf i trace := by
  induction h with
  | @won before c c' a hrun hstep ha =>
    rw [actsOf_concat_self]
    intro hmem
    rcases List.mem_append.1 hmem with hmem | hmem
    · -- whoever deleted is on its way out and wins nothing
      obtain ⟨outcome, hend⟩ := exists_ending hrun hmem rfl
      have hgo := hstep.goes (by rintro rfl; cases ha)
      rw [(hgo.ending hend).2.not.1] at ha
      cases ha
    · rw [← List.mem_singleton.1 hmem] at ha
      cases ha
  | @stays before c c' j a _ hstep hmark ih =>
    by_cases hj : j = i
    · subst hj
      rw [actsOf_concat_self]
      intro hmem
      rcases List.mem_append.1 hmem with hmem | hmem
      · exact ih hmem
      · obtain rfl := List.mem_singleton.1 hmem
        have hnone : c'.values (settings j).key = none := hstep.changes.1
        rw [hnone] at hmark
        cases hmark
    · rwa [actsOf_concat_ne hj]

/-- The marker of whoever holds the claim has been there since it was won. -/
theorem remains_of_owns (h : Run settings (start values) trace c)
    (hown : (c.phase i).standing.owns) : Remains settings values i trace c := by
  have hmark := (sound_of_run h).marked i hown
  induction h with
  | refl => cases hown
  | @snoc before c₁ j a c₂ hrun hstep ih =>
    by_cases hbefore : (c₁.phase i).standing.owns
    · exact .stays (ih hbefore ((sound_of_run hrun).marked i hbefore)) hstep hmark
    · have hnot : (c₁.phase i).standing.owns = false := by simpa using hbefore
      have hj : j = i := by
        by_contra hj
        exact hbefore (hstep.phase_ne (Ne.symm hj) ▸ hown)
      subst hj
      rcases hstep.goes_or_crash with hgo | ⟨-, hsame⟩
      · exact .won hrun hstep (hgo.advance.wins_of_owns hnot hown)
      · exact absurd (hsame ▸ hown) hbefore

/-- A marker that nobody can remove any more remains. -/
theorem Remains.append (h : Remains settings values i trace c)
    (hs : Stranded settings (settings i).key c) (hrest : Run settings c rest c') :
    Remains settings values i (trace ++ rest) c' := by
  induction hrest with
  | refl => rwa [List.append_nil]
  | @snoc before c₁ j a c₂ hrun hstep ih =>
    rw [← List.append_assoc]
    exact .stays ih hstep ((hs.run hrun).1.step hstep).1.marked

/-- The marker of a bootstrap that does not hold the claim any more, or has crashed, is
    stranded. -/
theorem Remains.stranded (h : Remains settings values i trace c)
    (hnot : c.crashed i = false → (c.phase i).standing.owns = false) :
    Stranded settings (settings i).key c where
  marked := h.marked
  unowned j hkey hlive := by
    by_cases hj : j = i
    · subst hj
      exact hnot hlive
    · exact h.unowned hj hkey

/-! ## The aftermath -/

/-- What a bootstrap that failed has done to the store, in a run from `values` that has led
    to `c`. -/
structure Aftermath (settings : I → Settings) (values : String → Option String)
    (trace : List (I × Act)) (i : I) (reason : String) (c : Contest I) : Prop where
  /-- If it never won its claim, it has written nothing and deleted nothing. -/
  innocent : Act.winsOf (actsOf i trace) = 0 → ∀ a ∈ actsOf i trace, a.Quiet (settings i)
  /-- Its marker is there no more, unless the store refused to delete it, or refused the
      record; then this is why it failed. -/
  cleared : Remains settings values i trace c →
    (∃ e, .store (.delete (settings i).key) (.error e) ∈ actsOf i trace) ∨
      ∃ (r : Record) (e : Store.Error),
        .store (.put (settings i).key r.format) (.error e) ∈ actsOf i trace ∧
          reason = (Fault.ofStore e).message
  /-- If the store refused the record, it has not asked for the deletion of its marker: the
      marker is still there, or the record, if that was written all the same. -/
  unsaved : ∀ text e, .store (.put (settings i).key text) (.error e) ∈ actsOf i trace →
    (∀ answer, .store (.delete (settings i).key) answer ∉ actsOf i trace) ∧
      (Remains settings values i trace c ∨ c.values (settings i).key = some text)
  /-- If its marker is there, it is there for good: nobody writes or deletes under the key
      any more, and nobody who starts later is ready. -/
  forever : Remains settings values i trace c → ∀ more c', Run settings c more c' →
    c'.values (settings i).key = some claimMarker ∧
      (∀ j a, (j, a) ∈ more → (settings j).key = (settings i).key → a.Quiet (settings j)) ∧
      ∀ j, (settings j).key = (settings i).key → c.phase j = .idle →
        (c'.phase j).Waits ((settings j).Hopeless (actsOf j more))

omit [DecidableEq I] in
theorem done_of_failed {reason : String} (h : (c.phase i).state = .failed reason) :
    (c.phase i).standing = .done := by
  cases hp : c.phase i with
  | alarming r => rfl
  | failed r => rfl
  | _ => rw [hp] at h; cases h

/-- The store refused the record: nothing is deleted, and the marker is still there if the
    record is not. -/
theorem unsaved_of_run (h : Run settings (start values) trace c) {text : String} {e : Store.Error}
    (hmem : .store (.put (settings i).key text) (.error e) ∈ actsOf i trace) :
    (∀ answer, .store (.delete (settings i).key) answer ∉ actsOf i trace) ∧
      (Remains settings values i trace c ∨ c.values (settings i).key = some text) := by
  refine ⟨fun answer hdelete => ?_, ?_⟩
  · have hsame := yields_unique h hmem hdelete rfl rfl
    cases hsame
  · obtain ⟨before, after, c₁, c₂, rfl, hbefore, hstep, hrest⟩ := h.through hmem
    obtain ⟨howned, hdone⟩ := (hstep.goes nofun).advance.owns_of_yields rfl
    have hupto : Run settings (start values) (before ++ [(i, _)]) c₂ := .snoc hbefore hstep
    rcases hstep.changes.1 with hsame | hwritten
    · have hremains := remains_of_owns hbefore howned
      have hstays := hremains.stays hstep (hsame.trans hremains.marked)
      rw [List.append_cons]
      exact Or.inl (hstays.append (hstays.stranded fun _ => by rw [hdone]; rfl) hrest)
    · have hformat := (hstep.goes nofun).put_ne_claimMarker
      exact Or.inr ((sound_of_run hupto).settled hwritten hformat hrest).1

theorem Remains.won_pos (h : Remains settings values i trace c) :
    0 < Act.winsOf (actsOf i trace) := by
  induction h with
  | won hrun hstep ha => rw [actsOf_concat_self, Act.winsOf_concat, if_pos ha]; omega
  | @stays before c c' j a _ hstep _ ih =>
    by_cases hj : j = i
    · subst hj
      rw [actsOf_concat_self, Act.winsOf_concat]
      omega
    · rwa [actsOf_concat_ne hj]

/-- A marker is left by whoever gave its claim up only if the store refused a request. -/
theorem Remains.refused (h : Remains settings values i trace c)
    (hnot : (c.phase i).standing.owns = false) :
    (∃ e, .store (.delete (settings i).key) (.error e) ∈ actsOf i trace) ∨
      ∃ (r : Record) (e : Store.Error),
        .store (.put (settings i).key r.format) (.error e) ∈ actsOf i trace := by
  have hheld : Act.holds (actsOf i trace) = false := by
    rw [((sound_of_run h.run).fits i).holds_eq, hnot]
  obtain ⟨a, hmem, ha⟩ := exists_yields h.won_pos hheld
  obtain ⟨before, after, c₁, c₂, -, hbefore, hstep, hrest⟩ := h.run.through hmem
  have hgo := hstep.goes (by rintro rfl; cases ha)
  rcases hgo.yielding ha with ⟨r, rfl, -⟩ | ⟨r, e, rfl, -⟩ | ⟨answer, f, rfl, -⟩
  · -- the record was written, and stays
    have hwritten : c₂.values (settings i).key = some r.format := hstep.changes.1
    have hrecord := ((sound_of_run (.snoc hbefore hstep)).settled hwritten
      r.format_ne_claimMarker hrest).1
    rw [h.marked] at hrecord
    exact absurd (Option.some.inj hrecord).symm r.format_ne_claimMarker
  · exact Or.inr ⟨r, e, hmem⟩
  · rcases answer with e | ⟨⟩
    · exact Or.inl ⟨e, hmem⟩
    · exact absurd hmem h.not_deleted

/-- A bootstrap whose record was refused fails for that reason. -/
theorem reason_of_unsaved {reason : String} (h : Run settings (start values) trace c)
    (hfailed : (c.phase i).state = .failed reason) {text : String} {e : Store.Error}
    (hmem : .store (.put (settings i).key text) (.error e) ∈ actsOf i trace) :
    reason = (Fault.ofStore e).message := by
  obtain ⟨before, after, c₁, c₂, -, -, hstep, hrest⟩ := h.through hmem
  have hend : (c₂.phase i).Ending (.error (.ofStore e)) := (hstep.goes nofun).unsaved
  obtain ⟨f, hf, hreason⟩ := (ending_of_run hend hrest).1.of_failed hfailed
  obtain rfl := Except.error.inj hf
  exact hreason

/-- **The aftermath of a failure**, in every run of any bootstraps on one store: the claim
    is rolled back on all ways out but that on which the record could not be written. -/
theorem aftermath {reason : String} (h : Run settings (start values) trace c)
    (hfailed : (c.phase i).state = .failed reason) :
    Aftermath settings values trace i reason c where
  innocent := innocent_of_run h
  cleared hremains := by
    refine (hremains.refused (by rw [done_of_failed hfailed]; rfl)).imp_right ?_
    rintro ⟨r, e, hmem⟩
    exact ⟨r, e, hmem, reason_of_unsaved h hfailed hmem⟩
  unsaved _ _ hmem := unsaved_of_run h hmem
  forever hremains more c' hmore := by
    have hstranded := hremains.stranded fun _ => by rw [done_of_failed hfailed]; rfl
    obtain ⟨hafter, hquiet⟩ := hstranded.run hmore
    refine ⟨hafter.marked, hquiet, fun j hkey hidle => ?_⟩
    rw [← hkey] at hstranded
    exact hstranded.late hidle hmore

/-! ## A record that is refused -/

/-- Why the store refuses the record. -/
def diskFull : Store.Error := .backend "disk full"

/-- The first of two has submitted its deployment, and awaits the receipt. -/
def submission : List (Bool × Act) :=
  winning ++ [(true, .draw (.ok default)),
    (true, .ledger (.submit (.deployEscrow (prize "0xE").keys.publicKey)) (.ok "0x1")),
    (true, .track "0x1")]

theorem run_submission : Run duel (start fun _ => none) submission
    (between (some claimMarker) (.awaiting (prize "0xE").keys "0x1") .idle) := by
  rw [start_between]
  exact (run_winning _).append <|
    .cons (between_first .drawn rfl) <|
    .cons (between_first .submitted rfl) <|
    .single (between_first .track rfl)

/-- It deploys a contract, the store refuses the record, and it fails. -/
def refusal : List (Bool × Act) :=
  submission ++ [(true, .receive (.succeeded "0x1" 1 ⟨[("contractAddress", .text "0xE")]⟩)),
    (true, .store (.put (duel true).key (prize "0xE").format) (.error diskFull)),
    (true, .unlease), (true, .alarm (Fault.ofStore diskFull).message)]

/-- The first has failed, the second was not started yet. -/
def refused : Contest Bool :=
  between (some claimMarker) (.failed (Fault.ofStore diskFull).message) .idle

theorem run_refusal : Run duel (start fun _ => none) refusal refused := by
  have hreceive := @Phase.Turn.receive (duel true) (prize "0xE").keys "0x1"
    (.succeeded "0x1" 1 ⟨[("contractAddress", .text "0xE")]⟩)
  have hjudged : Phase.judged (prize "0xE").keys "0x1"
      (.succeeded "0x1" 1 ⟨[("contractAddress", .text "0xE")]⟩) = .recording (prize "0xE") := rfl
  rw [hjudged] at hreceive
  exact run_submission.append <|
    .cons (between_first hreceive rfl) <|
    .cons (between_first .unsaved (between_changes rfl (Or.inl rfl))) <|
    .cons (between_first .fail rfl) <|
    .single (between_first .alarm rfl)

/-- Why it fails when its handler is dropped. -/
def forsaken : Fault := .own "escrow receipt handler dropped"

/-- Its handler is dropped, it deletes its marker and fails. -/
def desertion : List (Bool × Act) :=
  submission ++ [(true, .lose), (true, .store (.delete (duel true).key) (.ok ())),
    (true, .unlease), (true, .alarm forsaken.message)]

/-- The first has failed without its handler. -/
def deserted : Contest Bool := between none (.failed forsaken.message) .idle

theorem run_desertion : Run duel (start fun _ => none) desertion deserted :=
  run_submission.append <|
    .cons (between_first .lose rfl) <|
    .cons (between_first (.freed (.ok ())) (between_changes rfl rfl)) <|
    .cons (between_first .fail rfl) <|
    .single (between_first .alarm rfl)

/-- The first has failed after its claim was won.  Where the store refused its record, no
    deletion was asked for: its marker is there, and the second is never ready, whenever it
    starts.  Where its handler was dropped, its marker is gone. -/
theorem aftermath_refusal :
    (∀ answer, .store (.delete (duel true).key) answer ∉ actsOf true refusal) ∧
      Remains duel (fun _ => none) true refusal refused ∧
      (∀ more c', Run duel refused more c' → c'.values (duel true).key = some claimMarker ∧
        (c'.phase false).Waits ((duel false).Hopeless (actsOf false more))) ∧
      ¬ Remains duel (fun _ => none) true desertion deserted := by
  have h := aftermath run_refusal (i := true) rfl
  have hmem : .store (.put (duel true).key (prize "0xE").format) (.error diskFull) ∈
      actsOf true refusal := mem_actsOf.2 (by simp [refusal])
  obtain ⟨hdelete, hleft⟩ := h.unsaved _ _ hmem
  have hmark : refused.values (duel true).key = some claimMarker := by
    simp only [refused, between, Function.update_self]
  have hremains : Remains duel (fun _ => none) true refusal refused := by
    refine hleft.resolve_right fun hwritten => ?_
    exact (prize "0xE").format_ne_claimMarker (Option.some.inj (hwritten.symm.trans hmark))
  refine ⟨hdelete, hremains, fun more c' hmore => ?_, fun hstays => ?_⟩
  · obtain ⟨hstays, -, hlate⟩ := h.forever hremains more c' hmore
    exact ⟨hstays, hlate false rfl rfl⟩
  · have hdeserted := aftermath run_desertion (i := true) rfl
    rcases hdeserted.cleared hstays with ⟨e, hmem⟩ | ⟨r, e, hmem, -⟩
    · simp [desertion, submission, winning, mem_actsOf] at hmem
    · simp [desertion, submission, winning, mem_actsOf] at hmem

end Contest

end LedgerGate.Escrow
