/-
  The escrows of a gateway in a contest.

  Every bootstrap of a gateway has a seat in a contest over the store of the world outside.
  Whatever the gateway does, the contest can follow: what happens to its bootstraps is some
  acts of those who sit there, in the same order.  So what holds in every run of a contest
  holds of gateways, also of several that share a store.

  * `Gateway.Receptive`: what news to bootstraps keep;
  * `Gateway.Seated`: what a contest says of the bootstraps of a gateway is on its desks;
  * `Gateway.Follows`: some acts take the contest to where the gateway is;
  * `follows_tell`, `follows_drive`, `follows_runEscrow`, `follows_answerEscrow`: news to a
    bootstrap, its own work, and the answers of its ledger;
  * `follows_perform`: **the contest follows every job.**
-/
import LedgerGate.Proofs.Gateway.Escrows
import LedgerGate.Proofs.Gateway.Keeping

namespace LedgerGate.Escrow

/-! ## News -/

/-- Some news are no act: they leave the phase as it is, or go with an act that changes
    nothing in the store. -/
def Phase.Takes (s : Settings) (p p' : Phase) : Prop :=
  p' = p ∨ ∃ a : Act, p.Goes s a p' ∧ ∀ values, a.Changes values values

/-- The act is no doing of the bootstrap: it starts, gets its lease, wakes up or receives, be
    it that its handler was dropped. -/
def Act.isNews : Act → Bool
  | start => true
  | lease => true
  | wake => true
  | receive _ => true
  | lose => true
  | _ => false

/-- Some news are no act, or go with one that is no doing of the bootstrap. -/
def Phase.Shifts (s : Settings) (p p' : Phase) : Prop :=
  p' = p ∨ ∃ a : Act, a.isNews = true ∧ p.Goes s a p'

theorem Phase.shifts_granted (s : Settings) (now : Nat) (p : Phase) :
    p.Shifts s (p.granted s now) := by
  cases p with
  | leasing => exact Or.inr ⟨.lease, rfl, .granted⟩
  | _ => exact Or.inl rfl

theorem Phase.shifts_awake (s : Settings) (p : Phase) : p.Shifts s p.awake := by
  cases p with
  | napping deadline contested => exact Or.inr ⟨.wake, rfl, .wake⟩
  | _ => exact Or.inl rfl

theorem Phase.shifts_received (s : Settings) (c : Confirmation) (p : Phase) :
    p.Shifts s (p.received c) := by
  cases p with
  | awaiting keys workId => exact Or.inr ⟨.receive c, rfl, .receive c⟩
  | _ => exact Or.inl rfl

theorem Phase.takes_answered {σ : Type} (s : Settings) (now : Nat)
    (ask : (q : Ledger.Query) → σ → q.Answer × σ) (p : Phase) (w : σ) :
    p.Takes s (p.answered s now ask w).1 := by
  rcases p.answered_spec s now ask w with ⟨q, hgo, -⟩ | hsame
  · exact .inr ⟨_, hgo, fun _ => rfl⟩
  · exact .inl (congrArg Prod.fst hsame)

/-- An answer is kept by what every answer keeps. -/
theorem Phase.answered_keeps {σ V : Type} {ask : (q : Ledger.Query) → σ → q.Answer × σ}
    {view : σ → V} (h : ∀ q w, view (ask q w).2 = view w) (s : Settings) (now : Nat) (p : Phase)
    (w : σ) : view (p.answered s now ask w).2 = view w := by
  rcases p.answered_spec s now ask w with ⟨q, -, hq⟩ | hsame
  · rw [hq, h]
  · rw [hsame]

theorem Phase.shifts_start {s : Settings} {p p' : Phase} (h : p.start? = some p') :
    p.Shifts s p' := Or.inr ⟨.start, rfl, .start h⟩

/-- Such news change nothing in the store. -/
theorem Phase.Shifts.takes {s : Settings} {p p' : Phase} (h : p.Shifts s p') :
    p.Takes s p' := by
  refine h.imp id fun ⟨a, ha, hgo⟩ => ⟨a, hgo, fun values => ?_⟩
  cases a with
  | store q answer => cases ha
  | _ => rfl

@[simp]
theorem Bootstrap.settings_hear (b : Bootstrap) (news : Phase → Phase) :
    (b.hear news).settings = b.settings := by
  unfold hear
  split <;> rfl

@[simp]
theorem Bootstrap.halted_hear (b : Bootstrap) (news : Phase → Phase) :
    (b.hear news).halted = b.halted := by
  unfold hear
  split <;> rfl

theorem Bootstrap.phase_hear (b : Bootstrap) (news : Phase → Phase) :
    (b.hear news).phase = if b.halted then b.phase else news b.phase := by
  unfold hear
  split <;> rfl

end LedgerGate.Escrow

namespace LedgerGate.Gateway

open Escrow

/-! ## News to bootstraps -/

/-- A property of gateways is kept where their desks stay as they are, and by news to their
    bootstraps. -/
structure Receptive {W : Type} (P : Gateway W → Prop) : Prop where
  still : ∀ {g g'}, P g → g'.place = g.place → P g'
  tell : ∀ {g k} {news : Phase → Phase}, P g →
    (∀ b, g.escrowAt k = some b → b.phase.Shifts b.settings (news b.phase)) →
    P (g.updateDesk k (·.tellEscrow news))

namespace Receptive

variable {W : Type} {P : Gateway W → Prop} {g : Gateway W}

/-- Leases that are handed on let bootstraps go on that waited for them. -/
theorem grantLeases (h : Receptive P) (hg : P g) : P g.grantLeases := by
  unfold Gateway.grantLeases
  induction g.leases.holders generalizing g with
  | nil => exact hg
  | cons holder rest ih =>
    rw [List.foldl_cons]
    refine ih ?_
    split
    · rename_i b hb
      split
      · refine h.still (h.tell hg fun b' hb' => ?_) (place_enqueue _ _)
        obtain rfl : b = b' := Option.some.inj (hb.symm.trans hb')
        exact Phase.shifts_granted ..
      · exact hg
    · exact hg

/-- A receipt may be what a bootstrap waits for. -/
theorem handOver (h : Receptive P) (hg : P g) (ledgerId : String) (w : Waiter)
    (receipt : Confirmation) : P (g.handOver ledgerId w receipt) := by
  cases w with
  | watcher name seen =>
    have hplace : (g.handOver ledgerId (.watcher name seen) receipt).place = g.place := by
      cases seen <;> rfl
    exact h.still hg hplace
  | ticket n =>
    have hplace : (g.handOver ledgerId (.ticket n) receipt).place = g.place := by
      unfold Gateway.handOver
      dsimp only
      split
      · rw [place_conclude, place_dropErrand]
      · rfl
    exact h.still hg hplace
  | escrow =>
    exact h.still (h.tell hg fun _ _ => Phase.shifts_received _ receipt _) (place_enqueue _ _)

theorem absorb (h : Receptive P) (hg : P g) (ledgerId : String)
    (notices : List (Receipt.Notice Waiter)) : P (g.absorb ledgerId notices) := by
  have hfold : ∀ (handed : List (Waiter × Confirmation)) {g : Gateway W}, P g →
      P (handed.foldl (fun g h => g.handOver ledgerId h.1 h.2) g) := by
    intro handed
    induction handed with
    | nil => exact fun hg => hg
    | cons e es ih => exact fun hg => ih (h.handOver hg ledgerId e.1 e.2)
  exact hfold _ (h.still hg rfl)

end Receptive

/-! ## Seats -/

section
variable {I W : Type}

/-- The bootstraps of a gateway have their seats in a contest over its store.  The phase of
    one that is being driven is not on its desk yet; it is in `driven`. -/
structure Seated (view : W → String → Option String) (settings : I → Settings)
    (seat : String → I) (driven : String → Option Phase) (g : Gateway W) (c : Contest I) :
    Prop where
  ledgers : g.ledgerIds.Nodup
  stored : c.values = view g.outside
  told : ∀ {k b}, g.escrowAt k = some b → settings (seat k) = b.settings
  halted : ∀ {k b}, g.escrowAt k = some b → c.crashed (seat k) = b.halted
  phase : ∀ {k b}, g.escrowAt k = some b → c.phase (seat k) = (driven k).getD b.phase

/-- No bootstrap is being driven. -/
def nobody : String → Option Phase := fun _ => none

/-- Only the bootstrap of one ledger is being driven, and has come to a phase. -/
def only (k : String) (p : Phase) : String → Option Phase := fun j => if j = k then some p else none

end

variable {I W : Type} [DecidableEq I] {view : W → String → Option String}
  {settings : I → Settings} {seat : String → I} {driven driven' : String → Option Phase}
  {g g' : Gateway W} {c : Contest I} {k : String} {p p' : Phase}

/-- Some acts take a contest to where a gateway is. -/
def Follows (view : W → String → Option String) (settings : I → Settings) (seat : String → I)
    (driven : String → Option Phase) (c : Contest I) (g : Gateway W) : Prop :=
  ∃ acts c', Contest.Run settings c acts c' ∧ Seated view settings seat driven g c'

theorem Seated.follows (h : Seated view settings seat driven g c) :
    Follows view settings seat driven c g := ⟨[], c, .refl c, h⟩

/-- What comes after may be followed from wherever the contest is then. -/
theorem Follows.bind (h : Follows view settings seat driven c g)
    (hnext : ∀ c', Seated view settings seat driven g c' →
      Follows view settings seat driven' c' g') :
    Follows view settings seat driven' c g' := by
  obtain ⟨first, c₁, hfirst, hg⟩ := h
  obtain ⟨second, c₂, hsecond, hg'⟩ := hnext c₁ hg
  exact ⟨first ++ second, c₂, hfirst.append hsecond, hg'⟩

omit [DecidableEq I] in
/-- What leaves the escrows alone leaves them where they sit. -/
theorem Seated.same (h : Seated view settings seat driven g c) (hsame : SameEscrows view g g') :
    Seated view settings seat driven g' c where
  ledgers := hsame.ledgers ▸ h.ledgers
  stored := h.stored.trans hsame.stored.symm
  told hb := h.told (hsame.escrows _ ▸ hb)
  halted hb := h.halted (hsame.escrows _ ▸ hb)
  phase hb := h.phase (hsame.escrows _ ▸ hb)

/-- What leaves desks and store as they are needs no acts. -/
theorem Seated.still (h : Seated view settings seat driven g c) (hplace : g'.place = g.place) :
    Follows view settings seat driven c g' := (h.same (.of_place hplace)).follows

/-- One bootstrap goes on to a phase, the others stay where they are. -/
theorem Seated.goesTo (hseat : Function.Injective seat)
    (h : Seated view settings seat driven g c) (hledgers : g'.ledgerIds = g.ledgerIds)
    (hothers : ∀ j ≠ k, g'.escrowAt j = g.escrowAt j ∧ driven' j = driven j)
    (hself : ∀ b', g'.escrowAt k = some b' → settings (seat k) = b'.settings ∧
      c.crashed (seat k) = b'.halted ∧ (driven' k).getD b'.phase = p) :
    Seated view settings seat driven' g' (c.goesTo (seat k) (view g'.outside) p) where
  ledgers := hledgers ▸ h.ledgers
  stored := rfl
  told {j b} hb := by
    by_cases hj : j = k
    · subst hj
      exact (hself b hb).1
    · rw [(hothers j hj).1] at hb
      exact h.told hb
  halted {j b} hb := by
    by_cases hj : j = k
    · subst hj
      exact (hself b hb).2.1
    · rw [(hothers j hj).1] at hb
      exact h.halted hb
  phase {j b} hb := by
    by_cases hj : j = k
    · subst hj
      rw [(hself b hb).2.2]
      exact Function.update_self ..
    · rw [(hothers j hj).1] at hb
      rw [(hothers j hj).2, ← h.phase hb]
      exact Function.update_of_ne (hseat.ne hj) ..

/-! ## The contest and the news -/

/-- One bootstrap hears news that take it to a phase, in the contest as on its desk. -/
theorem Seated.tell (hseat : Function.Injective seat)
    (h : Seated view settings seat driven g c) {news : Phase → Phase}
    (hothers : ∀ j ≠ k, driven' j = driven j)
    (hself : ∀ b, g.escrowAt k = some b → (driven' k).getD (b.hear news).phase = p) :
    Seated view settings seat driven' (g.updateDesk k (·.tellEscrow news))
      (c.goesTo (seat k) c.values p) := by
  have hledgers : (g.updateDesk k (·.tellEscrow news)).ledgerIds = g.ledgerIds :=
    ledgerIds_updateDesk (f := (·.tellEscrow news)) fun _ hd => hd
  rw [h.stored]
  refine h.goesTo hseat hledgers (fun j hj => ⟨?_, hothers j hj⟩) fun b' hb' => ?_
  · rw [escrowAt_tell, if_neg hj]
  · rw [escrowAt_tell, if_pos rfl] at hb'
    obtain ⟨b, hb, rfl⟩ := Option.map_eq_some_iff.1 hb'
    rw [Bootstrap.settings_hear, Bootstrap.halted_hear]
    exact ⟨h.told hb, h.halted hb, hself b hb⟩

/-- News that leave the phase as the contest has it are no act. -/
theorem Seated.ignores (hseat : Function.Injective seat)
    (h : Seated view settings seat driven g c) {news : Phase → Phase}
    (hothers : ∀ j ≠ k, driven' j = driven j)
    (hself : ∀ b, g.escrowAt k = some b →
      (driven' k).getD (b.hear news).phase = (driven k).getD b.phase) :
    Seated view settings seat driven' (g.updateDesk k (·.tellEscrow news)) c := by
  have hseated := h.tell hseat (p := c.phase (seat k)) hothers fun b hb => by
    rw [hself b hb, h.phase hb]
  rwa [Contest.goesTo_self] at hseated

/-- The contest follows news to a bootstrap, whether or not they mean anything to it. -/
theorem follows_tell (hseat : Function.Injective seat) (h : Seated view settings seat driven g c)
    {news : Phase → Phase}
    (hnews : ∀ b, g.escrowAt k = some b → b.halted = false → driven k = none →
      b.phase.Takes b.settings (news b.phase)) :
    Follows view settings seat driven c (g.updateDesk k (·.tellEscrow news)) := by
  have still : (∀ b, g.escrowAt k = some b →
      (driven k).getD (b.hear news).phase = (driven k).getD b.phase) →
      Follows view settings seat driven c (g.updateDesk k (·.tellEscrow news)) :=
    fun hself => (h.ignores hseat (fun _ _ => rfl) hself).follows
  cases hdriven : driven k with
  | some q => exact still fun b _ => by rw [hdriven]; rfl
  | none =>
    cases hb : g.escrowAt k with
    | none => exact still fun b hb' => by rw [hb] at hb'; cases hb'
    | some b =>
      have only_b : ∀ {b'}, g.escrowAt k = some b' → b = b' :=
        fun hb' => Option.some.inj (hb.symm.trans hb')
      cases hhalted : b.halted with
      | true =>
        refine still fun b' hb' => ?_
        obtain rfl := only_b hb'
        rw [Bootstrap.phase_hear, hhalted, if_pos rfl]
      | false =>
        rcases hnews b hb hhalted hdriven with hsame | ⟨a, hgo, hch⟩
        · refine still fun b' hb' => ?_
          obtain rfl := only_b hb'
          rw [Bootstrap.phase_hear, hhalted, if_neg Bool.false_ne_true, hsame]
        · have hphase : c.phase (seat k) = b.phase := by rw [h.phase hb, hdriven]; rfl
          have hgoes : (c.phase (seat k)).Goes (settings (seat k)) a (news b.phase) := by
            rw [hphase, h.told hb]
            exact hgo
          have hseated : Seated view settings seat driven (g.updateDesk k (·.tellEscrow news))
              (c.goesTo (seat k) c.values (news b.phase)) := by
            refine h.tell hseat (fun _ _ => rfl) fun b' hb' => ?_
            obtain rfl := only_b hb'
            rw [Bootstrap.phase_hear, hhalted, if_neg Bool.false_ne_true, hdriven]
            rfl
          exact ⟨_, _, .single (.act ((h.halted hb).trans hhalted) hgoes (hch _)), hseated⟩

/-- The contest follows what only brings news to bootstraps. -/
theorem receptive_follows (hseat : Function.Injective seat) :
    Receptive (Follows view settings seat driven c) where
  still hg hplace := hg.bind fun _ hc' => hc'.still hplace
  tell hg hnews := hg.bind fun _ hc' => follows_tell hseat hc' fun b hb _ _ => (hnews b hb).takes

theorem follows_grantLeases (hseat : Function.Injective seat)
    (h : Seated view settings seat driven g c) :
    Follows view settings seat driven c g.grantLeases :=
  (receptive_follows hseat).grantLeases h.follows

theorem follows_absorb (hseat : Function.Injective seat)
    (h : Seated view settings seat driven g c) (ledgerId : String)
    (notices : List (Receipt.Notice Waiter)) :
    Follows view settings seat driven c (g.absorb ledgerId notices) :=
  (receptive_follows hseat).absorb h.follows ledgerId notices

/-- What a tracker does may hand a receipt to a bootstrap. -/
theorem follows_withTracker (hseat : Function.Injective seat)
    (h : Seated view settings seat driven g c) (ledgerId : String) (m : Receipt.Move Waiter) :
    Follows view settings seat driven c (g.withTracker ledgerId (·.after m)) := by
  have hsame : SameEscrows view g (g.withDesk ledgerId [] fun d =>
      ((d.tracker.after m).2, { d with tracker := (d.tracker.after m).1 })).2 :=
    .withDesk fun _ => ⟨rfl, rfl⟩
  rw [withTracker_after]
  exact follows_absorb hseat (h.same hsame) ledgerId _

/-! ## The work of a bootstrap -/

omit [DecidableEq I] in
theorem hosts_iff {s : Settings} : Hosts g k s ↔
    ∃ b, g.escrowAt k = some b ∧ b.settings = s ∧ b.halted = false := by
  constructor
  · rintro ⟨d, b, hd, hb, hs⟩
    exact ⟨b, by rw [escrowAt, hd]; exact hb, hs⟩
  · rintro ⟨b, hb, hs⟩
    obtain ⟨d, hd, hb⟩ := Option.bind_eq_some_iff.1 hb
    exact ⟨d, b, hd, hb, hs⟩

/-- A bootstrap that is driven does an act. -/
theorem Seated.act (hseat : Function.Injective seat)
    (h : Seated view settings seat (only k p) g c) {s : Settings} (hhosts : Hosts g k s) {a : Act}
    (hgo : p.Goes s a p') (hch : a.Changes (view g.outside) (view g'.outside))
    (hledgers : g'.ledgerIds = g.ledgerIds) (hsame : ∀ j, g'.escrowAt j = g.escrowAt j) :
    ∃ c', Contest.Step settings c (seat k) a c' ∧
      Seated view settings seat (only k p') g' c' := by
  obtain ⟨b, hb, rfl, hlive⟩ := hosts_iff.1 hhosts
  have hphase : c.phase (seat k) = p := by
    rw [h.phase hb, only, if_pos rfl]
    rfl
  refine ⟨_, .act ((h.halted hb).trans hlive) (by rw [hphase, h.told hb]; exact hgo)
    (by rw [h.stored]; exact hch), h.goesTo hseat hledgers (fun j hj => ⟨hsame j, ?_⟩) ?_⟩
  · rw [only, only, if_neg hj, if_neg hj]
  · intro b' hb'
    rw [hsame k, hb] at hb'
    obtain rfl := Option.some.inj hb'
    refine ⟨h.told hb, h.halted hb, ?_⟩
    rw [only, if_pos rfl]
    rfl

variable [Outside W]

/-- **The contest follows a bootstrap that is driven**, and those that get its lease. -/
theorem follows_drive (hW : KeepsStore view) (hseat : Function.Injective seat) {s : Settings}
    (fuel : Nat) (h : Seated view settings seat (only k p) g c) (hhosts : Hosts g k s) :
    Follows view settings seat (only k (drive (surroundings s) s fuel p g).1) c
      (drive (surroundings s) s fuel p g).2 := by
  have hkeeps := keeps_hosts (W := W) s k s
  induction fuel generalizing g c p with
  | zero => exact h.follows
  | succ fuel ih =>
    -- an act that changes nothing in the store, alone or with the rest of the drive after it
    have rests : ∀ {a p' g'}, p.Goes s a p' → (∀ values, a.Changes values values) →
        SameEscrows view g g' → Follows view settings seat (only k p') c g' := by
      intro a p' g' hgo hch hsame
      obtain ⟨c', hstep, hc'⟩ := h.act hseat hhosts hgo (by rw [hsame.stored]; exact hch _)
        hsame.ledgers hsame.escrows
      exact ⟨_, c', .single hstep, hc'⟩
    have goes : ∀ {a p' g'}, p.Goes s a p' → (∀ values, a.Changes values values) →
        SameEscrows view g g' → Hosts g' k s →
        Follows view settings seat (only k (drive (surroundings s) s fuel p' g').1) c
          (drive (surroundings s) s fuel p' g').2 :=
      fun hgo hch hsame hhosts' => (rests hgo hch hsame).bind fun c' hc' => ih hc' hhosts'
    unfold drive
    cases hs : p.step s ((surroundings s).now g) with
    | rest => exact h.follows
    | lease =>
      have hsame : SameEscrows view g ((surroundings s).lease g).2 := .of_place rfl
      have hhosts' := hkeeps.lease hhosts
      rcases hw : (surroundings s).lease g with ⟨_ | _, g'⟩ <;> rw [hw] at hsame hhosts'
      · exact rests (.queue hs) (fun _ => rfl) hsame
      · exact goes (.lease hs) (fun _ => rfl) hsame hhosts'
    | unlease next =>
      -- the lease goes on to others of the gateway, who wake up with it
      have hdropped : SameEscrows view g
          { g with leases := (g.leases.drop s.ledgerId).cleanup } := .of_place rfl
      refine ((rests (.unlease hs) (fun _ => rfl) hdropped).bind fun c' hc' =>
        follows_grantLeases hseat hc').bind fun c' hc' => ih hc' (hkeeps.unlease hhosts)
    | store q resume =>
      have hact : Follows view settings seat (only k (resume (Outside.store q g.outside).1)) c
          { g with outside := (Outside.store q g.outside).2 } := by
        have hch : Act.Changes (view g.outside)
            (view ({ g with outside := (Outside.store q g.outside).2 } : Gateway W).outside)
            (.store q (Outside.store q g.outside).1) := hW.store q g.outside
        obtain ⟨c', hstep, hc'⟩ := h.act hseat hhosts (.store _ hs) hch rfl fun _ => rfl
        exact ⟨_, c', .single hstep, hc'⟩
      exact hact.bind fun c' hc' => ih hc' (hkeeps.store q hhosts)
    | ledger q resume =>
      have hhosts' := hkeeps.ledger q hhosts
      obtain ⟨delays, hg | ⟨time, hg⟩⟩ := g.askLedger_cases s.ledgerId q <;>
        simp only [surroundings, hg] at hhosts' ⊢
      · exact goes (.ledger _ hs) (fun _ => rfl)
          ⟨rfl, fun _ => rfl, hW.ledger _ q g.outside⟩ hhosts'
      · exact h.still rfl
    | draw resume =>
      exact goes (.draw _ hs) (fun _ => rfl) (.of_outside (hW.draw g.outside)) (hkeeps.draw hhosts)
    | sleep duration next => exact rests (.doze hs) (fun _ => rfl) (.of_place rfl)
    | track workId next =>
      obtain ⟨keys, -, rfl⟩ := Phase.step_track hs
      have hsame : SameEscrows view g ((surroundings s).track workId g).2 :=
        (SameEscrows.track s.ledgerId workId .escrow).trans (.of_place rfl)
      have hhosts' := hkeeps.track workId hhosts
      rcases hw : (surroundings s).track workId g with ⟨prospect, g'⟩
      rw [hw] at hsame hhosts'
      simp only [hw]
      have htracked := rests (.track hs) (fun _ => rfl) hsame
      -- tracking is followed at once by an act for which the bootstrap need not wait
      have goOn : ∀ {a p'}, (Phase.awaiting keys workId).Goes s a p' →
          (∀ values, a.Changes values values) →
          Follows view settings seat (only k (drive (surroundings s) s fuel p' g').1) c
            (drive (surroundings s) s fuel p' g').2 := by
        intro a p' hgo hch
        refine htracked.bind fun c' hc' => ?_
        obtain ⟨c'', hstep, hc''⟩ := hc'.act hseat hhosts' hgo (hch (view g'.outside)) rfl
          fun _ => rfl
        exact Follows.bind ⟨_, c'', .single hstep, hc''⟩ fun c' hc' => ih hc' hhosts'
      cases prospect with
      | atHand receipt => exact goOn (.receive receipt) fun _ => rfl
      | awaited => exact htracked
      | dropped => exact goOn .lose fun _ => rfl
    | alarm reason next =>
      exact goes (.alarm hs) (fun _ => rfl) (.of_place rfl) (hkeeps.alarm reason hhosts)

omit [Outside W] in
/-- When a bootstrap waits again its phase is put back on its desk. -/
theorem Seated.putBack (hseat : Function.Injective seat) {s : Settings}
    (h : Seated view settings seat (only k p) g c) (hhosts : Hosts g k s) :
    Seated view settings seat nobody (g.updateDesk k (·.tellEscrow fun _ => p)) c := by
  obtain ⟨b, hb, -, hlive⟩ := hosts_iff.1 hhosts
  refine h.ignores hseat (fun j hj => ?_) fun b' hb' => ?_
  · rw [only, if_neg hj]
    rfl
  · obtain rfl : b = b' := Option.some.inj (hb.symm.trans hb')
    rw [Bootstrap.phase_hear, hlive, if_neg Bool.false_ne_true, only, if_pos rfl]
    rfl

omit [DecidableEq I] [Outside W] in
/-- A bootstrap is driven from the phase that is on its desk. -/
theorem Seated.takeUp (h : Seated view settings seat nobody g c) {b : Bootstrap}
    (hb : g.escrowAt k = some b) : Seated view settings seat (only k b.phase) g c := by
  refine { h with phase := fun {j b'} hb' => ?_ }
  rw [h.phase hb', only]
  split
  · rename_i hj
    subst hj
    obtain rfl : b = b' := Option.some.inj (hb.symm.trans hb')
    rfl
  · rfl

theorem follows_runEscrow (hW : KeepsStore view) (hseat : Function.Injective seat)
    (h : Seated view settings seat nobody g c) (ledgerId : String) :
    Follows view settings seat nobody c (g.runEscrow ledgerId) := by
  rcases g.runEscrow_cases ledgerId with hsame | ⟨b, hb, hlive, hrun⟩
  · rw [hsame]
    exact h.follows
  · have hhosts : Hosts g ledgerId b.settings := hosts_iff.2 ⟨b, hb, rfl, hlive⟩
    have hkept := drive_keeps (keeps_hosts b.settings ledgerId b.settings) b.settings stretch
      b.phase hhosts
    rw [hrun]
    exact (follows_drive hW hseat stretch (h.takeUp hb) hhosts).bind fun c' hc' =>
      (hc'.putBack hseat hkept).follows

theorem follows_wakeEscrow (hW : KeepsStore view) (hseat : Function.Injective seat)
    (h : Seated view settings seat nobody g c) (ledgerId : String) :
    Follows view settings seat nobody c (g.wakeEscrow ledgerId) :=
  (follows_tell hseat h fun _ _ _ _ => (Phase.shifts_awake _ _).takes).bind
    fun _ hc' => follows_runEscrow hW hseat hc' ledgerId

theorem follows_answerEscrow (hW : KeepsStore view) (hseat : Function.Injective seat)
    (h : Seated view settings seat nobody g c) (ledgerId : String) :
    Follows view settings seat nobody c (g.answerEscrow ledgerId) := by
  rcases g.answerEscrow_cases ledgerId with hsame | ⟨b, hb, -, phase, outside, hanswered, hrun⟩
  · rw [hsame]
    exact h.follows
  · have hkept := Phase.answered_keeps (fun q w => hW.ledger b.settings.ledgerId q w) b.settings
      g.now b.phase g.outside
    have htakes := Phase.takes_answered b.settings g.now (Outside.ledger b.settings.ledgerId)
      b.phase g.outside
    rw [hanswered] at hkept htakes
    rw [hrun]
    refine (follows_tell hseat (h.same (.of_outside hkept)) fun b' hb' _ _ => ?_).bind
      fun _ hc' => follows_runEscrow hW hseat hc' ledgerId
    obtain rfl : b = b' := Option.some.inj (hb.symm.trans hb')
    exact htakes

/-! ## Jobs -/

theorem follows_finishScan (hW : KeepsStore view) (hseat : Function.Injective seat)
    (h : Seated view settings seat nobody g c) (ledgerId : String) :
    Follows view settings seat nobody c (g.finishScan ledgerId).2 := by
  rw [finishScan_eq]
  split
  · exact h.follows
  · rename_i d hd
    split
    · exact h.follows
    · rename_i sc _
      have hkept : view (d.tracker.runScan (askOutside ledgerId) (sc.rest.length + 1)
          g.outside).2.2.2 = view g.outside :=
        Receipt.Tracker.runScan_keeps (fun workId w => hW.ledger ledgerId _ w) _ _ _
      rcases hrun : d.tracker.runScan (askOutside ledgerId) (sc.rest.length + 1) g.outside with
        ⟨tracker, notices, report, outside⟩
      rw [hrun] at hkept
      have hsame : SameEscrows view g (({ g with outside } : Gateway W).updateDesk ledgerId
          fun d => { d with tracker, audience := none }) :=
        (SameEscrows.of_outside hkept).trans (.updateDesk (fun _ h => h) fun _ _ => rfl)
      have habsorb := follows_absorb hseat (h.same hsame) ledgerId notices
      dsimp only
      split
      · exact habsorb.bind fun _ hc' => hc'.still (place_reportScan ..)
      · exact habsorb

theorem follows_scan (hW : KeepsStore view) (hseat : Function.Injective seat)
    (h : Seated view settings seat nobody g c) (ledgerId : String) (audience : Option String) :
    Follows view settings seat nobody c (g.scan ledgerId audience).2 := by
  rw [scan_eq]
  split
  · exact h.follows
  · rename_i d hd
    split
    · rename_i tracker notices report _
      have hsame : SameEscrows view g (g.updateDesk ledgerId fun d => { d with tracker }) :=
        .updateDesk (fun _ h => h) fun _ _ => rfl
      exact (follows_absorb hseat (h.same hsame) ledgerId notices).bind
        fun _ hc' => hc'.still (place_reportScan ..)
    · rename_i tracker notices _
      have hsame : SameEscrows view g
          (g.updateDesk ledgerId fun d => { d with tracker, audience }) :=
        .updateDesk (fun _ h => h) fun _ _ => rfl
      have habsorb := follows_absorb hseat (h.same hsame) ledgerId notices
      dsimp only
      split
      · exact habsorb
      · exact habsorb.bind fun _ hc' => follows_finishScan hW hseat hc' ledgerId

/-- **The contest follows every job of a gateway.** -/
theorem follows_perform (hW : KeepsStore view) (hseat : Function.Injective seat)
    (h : Seated view settings seat nobody g c) (j : Job) :
    Follows view settings seat nobody c (g.perform j) := by
  cases j with
  | plan e operation input => exact (h.same (sameEscrows_planJob g e operation input)).follows
  | apply e route input => exact (h.same (sameEscrows_applyJob hW g e route input)).follows
  | scan ledgerId audience => exact follows_scan hW hseat h ledgerId audience
  | scanner =>
    have hplace : (g.perform .scanner).place = g.place := place_runScanner _
    exact h.still hplace
  | bootstrap ledgerId => exact follows_runEscrow hW hseat h ledgerId
  | wake ledgerId => exact follows_wakeEscrow hW hseat h ledgerId
  | answer ledgerId => exact follows_answerEscrow hW hseat h ledgerId
  | shutdown => exact h.still (place_withShutdown g _)

end LedgerGate.Gateway
