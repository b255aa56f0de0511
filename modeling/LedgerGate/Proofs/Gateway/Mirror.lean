/-
  A gateway in custody.

  The world outside keeps a record of what ledgers answer.  Whatever a gateway does beside its
  requests, custody can follow: its trackers make the moves that those on the desks make, its
  bootstraps act as those on the desks do, and what ledgers answer is heard.

  * `Attesting`: a world with the record;
  * `Gateway.Attests`: what ledgers answer while trackers and bootstraps stay as they are;
    `attests_consult`: a question of a delegate;
  * `Gateway.Mirrors`: custody has the trackers and the bootstraps of a gateway;
  * `Gateway.Kept`: custody comes to where a gateway is; `kept_scan`, `kept_drive` and others:
    **custody follows all that a gateway does beside its requests.**
-/
import LedgerGate.Proofs.Gateway.Custody
import LedgerGate.Proofs.Gateway.Record

namespace LedgerGate

open Escrow

/-! ## The record -/

/-- A world outside, and all that its ledgers have answered. -/
structure Attesting (W : Type) where
  world : W
  said : List Testimony

instance {W : Type} [Outside W] : Outside (Attesting W) where
  ledger ledgerId q r :=
    let answer := Outside.ledger ledgerId q r.world
    (answer.1, ⟨answer.2, r.said ++ [(ledgerId, ⟨q, answer.1⟩)]⟩)
  store q r :=
    let answer := Outside.store q r.world
    (answer.1, { r with world := answer.2 })
  lookup l r := Outside.lookup l r.world
  draw r :=
    let drawn := Outside.draw r.world
    (drawn.1, { r with world := drawn.2 })
  clock r := Outside.clock r.world

/-- What ledgers have answered in a world that records their questions too. -/
def Recorded.said {W : Type} (r : Recorded (Attesting W)) : List Testimony := r.world.said

/-- News lead to the next phase, and no further. -/
theorem Custody.acts_news (c : Custody) (k : String) {a : Act} (ha : a.isNews = true)
    {p : Phase} : c.acts k a p = { c with phases := Function.update c.phases k p } := by
  have hlog : c.log ++ [] = c.log := List.append_nil _
  cases a with
  | ledger q answer => cases ha
  | track workId => cases ha
  | _ => simp only [acts, hears, Act.heard, hlog]

namespace Gateway

variable {W : Type} {g g' g'' : Gateway (Recorded (Attesting W))} {more more' : List Testimony}

/-! ## Answers -/

/-- Ledgers answer something, and trackers and bootstraps stay as they are. -/
structure Attests (more : List Testimony) (g g' : Gateway (Recorded (Attesting W))) : Prop where
  ledgers : g'.ledgerIds = g.ledgerIds
  trackers : ∀ k, g'.trackerAt k = g.trackerAt k
  escrows : ∀ k, g'.escrowAt k = g.escrowAt k
  said : g'.outside.said = g.outside.said ++ more

namespace Attests

theorem of_desks (hdesks : g'.desks = g.desks)
    (hsaid : g'.outside.said = g.outside.said ++ more) : Attests more g g' where
  ledgers := congrArg (List.map Desk.ledgerId) hdesks
  trackers k := by rw [trackerAt, trackerAt, desk?, desk?, hdesks]
  escrows k := by rw [escrowAt, escrowAt, desk?, desk?, hdesks]
  said := hsaid

/-- Nothing has changed that custody is about. -/
theorem of_place (h : g'.place = g.place) : Attests [] g g' := by
  have houtside : g'.outside = g.outside := congrArg Prod.snd h
  exact .of_desks (congrArg Prod.fst h) (by rw [houtside, List.append_nil])

theorem refl (g : Gateway (Recorded (Attesting W))) : Attests [] g g := .of_place rfl

theorem trans (h : Attests more g g') (h' : Attests more' g' g'') :
    Attests (more ++ more') g g'' where
  ledgers := h'.ledgers.trans h.ledgers
  trackers k := (h'.trackers k).trans (h.trackers k)
  escrows k := (h'.escrows k).trans (h.escrows k)
  said := by rw [h'.said, h.said, List.append_assoc]

/-- A desk has changed, but neither its tracker nor its bootstrap. -/
theorem updateDesk {k : String} {f : Desk → Desk}
    (hid : ∀ d, d.ledgerId = k → (f d).ledgerId = k)
    (hf : ∀ d, (f d).tracker = d.tracker ∧ (f d).escrow = d.escrow) :
    Attests [] g (g.updateDesk k f) := by
  have hescrows : SameEscrows (fun _ _ => none) g (g.updateDesk k f) :=
    .updateDesk hid fun d _ => (hf d).2
  exact ⟨hescrows.ledgers, (SameTrackers.updateDesk hid fun d => (hf d).1).trackers,
    hescrows.escrows, (List.append_nil _).symm⟩

end Attests

section
variable [Outside W]

/-- A ledger answers, -/
theorem attests_ledger (g : Gateway (Recorded (Attesting W))) (k : String) (q : Ledger.Query) :
    Attests [(k, ⟨q, (Outside.ledger k q g.outside).1⟩)] g
      { g with outside := (Outside.ledger k q g.outside).2 } := .of_desks rfl rfl

/-- **and so a question of a delegate is answered**, perhaps without its ledger. -/
theorem attests_consult (k : String) (q : Delegate.Question)
    (g : Gateway (Recorded (Attesting W))) :
    ∃ more, q.Testifies k (consult k q g).1 more ∧ Attests more g (consult k q g).2 := by
  cases q with
  | ledger q => exact ⟨_, .ledger q _, attests_ledger g k q⟩
  | lookup l => exact ⟨_, .lookup l _, .refl g⟩
  | recentBlock =>
    simp only [consult, recentBlock]
    split
    · exact ⟨_, .remembered _, .refl g⟩
    · rename_i d _
      unfold Ledger.RecentBlock.get
      split
      · exact ⟨_, .remembered _, .updateDesk (fun _ h => h) fun _ => ⟨rfl, rfl⟩⟩
      · exact ⟨_, .renewed _ _, (attests_ledger g k .blockNumber).trans
          (.updateDesk (fun _ h => h) fun _ => ⟨rfl, rfl⟩)⟩
  | escrow =>
    refine ⟨_, .escrow _, ?_⟩
    simp only [consult]
    split <;> exact .refl g
  | clock => exact ⟨_, .clock _, .refl g⟩

end

/-! ## Custody of a gateway -/

/-- Custody has the trackers and the bootstraps of a gateway, and has heard what its ledgers have
    answered.  The phase of a bootstrap that is being driven is not on its desk yet; it is in
    `driven`. -/
structure Mirrors (settings : String → Settings) (driven : String → Option Phase) (c : Custody)
    (g : Gateway (Recorded (Attesting W))) : Prop where
  ledgers : g.ledgerIds.Nodup
  said : c.said = g.outside.said
  trackers : ∀ {k t}, g.trackerAt k = some t → c.trackers k = t
  told : ∀ {k b}, g.escrowAt k = some b → settings k = b.settings
  phases : ∀ {k b}, g.escrowAt k = some b → c.phases k = (driven k).getD b.phase

variable {settings : String → Settings} {driven driven' : String → Option Phase}
  {c c' : Custody} {k : String} {p p' : Phase}

/-- Custody comes to where a gateway is while scans and bootstraps go on. -/
def Kept (settings : String → Settings) (driven : String → Option Phase) (c : Custody)
    (g : Gateway (Recorded (Attesting W))) : Prop :=
  ∃ c', Relation.ReflTransGen (Custody.Beside settings) c c' ∧ Mirrors settings driven c' g

theorem Mirrors.kept (h : Mirrors settings driven c g) : Kept settings driven c g :=
  ⟨c, .refl, h⟩

/-- What comes after may be followed from wherever custody is then. -/
theorem Kept.bind (h : Kept settings driven c g)
    (hnext : ∀ c', Mirrors settings driven c' g → Kept settings driven' c' g') :
    Kept settings driven' c g' := by
  obtain ⟨c₁, hfirst, hg⟩ := h
  obtain ⟨c₂, hsecond, hg'⟩ := hnext c₁ hg
  exact ⟨c₂, hfirst.trans hsecond, hg'⟩

namespace Mirrors

/-- What ledgers answer is heard. -/
theorem attests (h : Mirrors settings driven c g) (hg : Attests more g g')
    (hsaid : c'.said = c.said ++ more) (htrackers : c'.trackers = c.trackers)
    (hphases : c'.phases = c.phases) : Mirrors settings driven c' g' where
  ledgers := hg.ledgers ▸ h.ledgers
  said := by rw [hsaid, h.said, hg.said]
  trackers {k t} ht := by
    rw [hg.trackers] at ht
    rw [htrackers]
    exact h.trackers ht
  told hb := h.told (hg.escrows _ ▸ hb)
  phases {k b} hb := by
    rw [hg.escrows] at hb
    rw [hphases]
    exact h.phases hb

/-- What leaves desks and world as they are is no matter of custody. -/
theorem still (h : Mirrors settings driven c g) (hplace : g'.place = g.place) :
    Mirrors settings driven c g' :=
  h.attests (.of_place hplace) (List.append_nil _).symm rfl rfl

/-- One tracker changes, the others stay as they are. -/
theorem updates (h : Mirrors settings driven c g) {t : Receipt.Tracker Waiter}
    (htrackers : c'.trackers = Function.update c.trackers k t) (hphases : c'.phases = c.phases)
    (hsaid : c'.said = g'.outside.said) (hledgers : g'.ledgerIds = g.ledgerIds)
    (hescrows : ∀ j, g'.escrowAt j = g.escrowAt j)
    (hothers : ∀ j ≠ k, g'.trackerAt j = g.trackerAt j)
    (hself : ∀ t', g'.trackerAt k = some t' → t' = t) : Mirrors settings driven c' g' where
  ledgers := hledgers ▸ h.ledgers
  said := hsaid
  trackers {j t'} ht' := by
    rw [htrackers]
    by_cases hj : j = k
    · subst hj
      rw [hself t' ht']
      exact Function.update_self ..
    · rw [hothers j hj] at ht'
      rw [← h.trackers ht']
      exact Function.update_of_ne hj ..
  told hb := h.told (hescrows _ ▸ hb)
  phases {j b} hb := by
    rw [hescrows] at hb
    rw [hphases]
    exact h.phases hb

/-- A tracker is put back on its desk. -/
theorem returned (h : Mirrors settings driven c g) {r : Recorded (Attesting W)}
    (hsaid : c'.said = r.said) {t : Receipt.Tracker Waiter}
    (htrackers : c'.trackers = Function.update c.trackers k t) (hphases : c'.phases = c.phases)
    {f : Desk → Desk} (hid : ∀ d, d.ledgerId = k → (f d).ledgerId = k)
    (hf : ∀ d, (f d).tracker = t ∧ (f d).escrow = d.escrow) :
    Mirrors settings driven c'
      (({ g with outside := r } : Gateway (Recorded (Attesting W))).updateDesk k f) := by
  let answered : Gateway (Recorded (Attesting W)) := { g with outside := r }
  have hescrows : SameEscrows (fun _ _ => none) answered (answered.updateDesk k f) :=
    .updateDesk hid fun d _ => (hf d).2
  have htracked := trackerAt_updateDesk (g := answered) hid
  refine h.updates htrackers hphases hsaid hescrows.ledgers hescrows.escrows
    (fun j hj => ?_) fun t' ht' => ?_
  · rw [htracked, if_neg hj]
    rfl
  · rw [htracked, if_pos rfl] at ht'
    obtain ⟨d, -, rfl⟩ := Option.map_eq_some_iff.1 ht'
    exact (hf d).1

/-- One bootstrap goes on to a phase, the others stay where they are. -/
theorem goesTo (h : Mirrors settings driven c g) (hledgers : g'.ledgerIds = g.ledgerIds)
    (hsaid : c'.said = g'.outside.said)
    (htrackers : ∀ {j t}, g'.trackerAt j = some t → c'.trackers j = t)
    (hphases : c'.phases = Function.update c.phases k p)
    (hothers : ∀ j ≠ k, g'.escrowAt j = g.escrowAt j ∧ driven' j = driven j)
    (hself : ∀ b', g'.escrowAt k = some b' → settings k = b'.settings ∧
      (driven' k).getD b'.phase = p) : Mirrors settings driven' c' g' where
  ledgers := hledgers ▸ h.ledgers
  said := hsaid
  trackers := htrackers
  told {j b} hb := by
    by_cases hj : j = k
    · subst hj
      exact (hself b hb).1
    · rw [(hothers j hj).1] at hb
      exact h.told hb
  phases {j b} hb := by
    rw [hphases]
    by_cases hj : j = k
    · subst hj
      rw [(hself b hb).2]
      exact Function.update_self ..
    · rw [(hothers j hj).1] at hb
      rw [(hothers j hj).2, ← h.phases hb]
      exact Function.update_of_ne hj ..

/-- One bootstrap hears news that take it to a phase, in custody as on its desk. -/
theorem tell (h : Mirrors settings driven c g) {news : Phase → Phase}
    (hothers : ∀ j ≠ k, driven' j = driven j)
    (hself : ∀ b, g.escrowAt k = some b → (driven' k).getD (b.hear news).phase = p) :
    Mirrors settings driven' { c with phases := Function.update c.phases k p }
      (g.updateDesk k (·.tellEscrow news)) := by
  have hledgers : (g.updateDesk k (·.tellEscrow news)).ledgerIds = g.ledgerIds :=
    ledgerIds_updateDesk (f := (·.tellEscrow news)) fun _ hd => hd
  have htracked : SameTrackers g (g.updateDesk k (·.tellEscrow news)) :=
    .updateDesk (fun _ hd => hd) fun _ => rfl
  refine h.goesTo hledgers h.said (fun {j t} ht => ?_) rfl
    (fun j hj => ⟨?_, hothers j hj⟩) fun b' hb' => ?_
  · rw [htracked.trackers] at ht
    exact h.trackers ht
  · rw [escrowAt_tell, if_neg hj]
  · rw [escrowAt_tell, if_pos rfl] at hb'
    obtain ⟨b, hb, rfl⟩ := Option.map_eq_some_iff.1 hb'
    rw [Bootstrap.settings_hear]
    exact ⟨h.told hb, hself b hb⟩

/-- News that leave the phase as custody has it are no act. -/
theorem ignores (h : Mirrors settings driven c g) {news : Phase → Phase}
    (hothers : ∀ j ≠ k, driven' j = driven j)
    (hself : ∀ b, g.escrowAt k = some b →
      (driven' k).getD (b.hear news).phase = (driven k).getD b.phase) :
    Mirrors settings driven' c (g.updateDesk k (·.tellEscrow news)) := by
  have htold := h.tell (p := c.phases k) hothers fun b hb => by rw [hself b hb, h.phases hb]
  rwa [Function.update_eq_self] at htold

end Mirrors

/-! ## News to bootstraps -/

/-- Custody follows news to a bootstrap, whether or not they mean anything to it. -/
theorem kept_tell (h : Mirrors settings driven c g) {news : Phase → Phase}
    (hnews : ∀ b, g.escrowAt k = some b → b.phase.Shifts b.settings (news b.phase)) :
    Kept settings driven c (g.updateDesk k (·.tellEscrow news)) := by
  have ignored : (∀ b, g.escrowAt k = some b →
      (driven k).getD (b.hear news).phase = (driven k).getD b.phase) →
      Kept settings driven c (g.updateDesk k (·.tellEscrow news)) :=
    fun hself => (h.ignores (fun _ _ => rfl) hself).kept
  cases hdriven : driven k with
  | some q => exact ignored fun b _ => by rw [hdriven]; rfl
  | none =>
    cases hb : g.escrowAt k with
    | none => exact ignored fun b hb' => by rw [hb] at hb'; cases hb'
    | some b =>
      have only_b : ∀ {b'}, g.escrowAt k = some b' → b = b' :=
        fun hb' => Option.some.inj (hb.symm.trans hb')
      cases hhalted : b.halted with
      | true =>
        refine ignored fun b' hb' => ?_
        obtain rfl := only_b hb'
        rw [Bootstrap.phase_hear, hhalted, if_pos rfl]
      | false =>
        have hheard : (b.hear news).phase = news b.phase := by
          rw [Bootstrap.phase_hear, hhalted, if_neg Bool.false_ne_true]
        rcases hnews b hb with hsame | ⟨a, ha, hgoes⟩
        · refine ignored fun b' hb' => ?_
          obtain rfl := only_b hb'
          rw [hheard, hsame]
        · have hphase : (c.phases k).Goes (settings k) a (news b.phase) := by
            rw [h.phases hb, hdriven, h.told hb]
            exact hgoes
          have htold : Mirrors settings driven
              { c with phases := Function.update c.phases k (news b.phase) }
              (g.updateDesk k (·.tellEscrow news)) := by
            refine h.tell (fun _ _ => rfl) fun b' hb' => ?_
            obtain rfl := only_b hb'
            rw [hdriven, ← hheard]
            rfl
          refine ⟨_, .single (.act hphase), ?_⟩
          rwa [Custody.acts_news c k ha]

/-- Custody follows what only brings news to bootstraps. -/
theorem receptive_kept : Receptive (Kept (W := W) settings driven c) where
  still hg hplace := hg.bind fun _ hc' => (hc'.still hplace).kept
  tell hg hnews := hg.bind fun _ hc' => kept_tell hc' hnews

theorem kept_start (h : Mirrors settings driven c g) : Kept settings driven c g.start :=
  receptive_kept.start h.kept h.ledgers

/-- Bootstraps that are halted stay where they are. -/
theorem Mirrors.abort (h : Mirrors settings driven c g) : Mirrors settings driven c g.abort := by
  have htracked : ∀ k, g.abort.trackerAt k = g.trackerAt k := (Byplay.abort g).trackers
  have hhalted : ∀ {k b}, g.abort.escrowAt k = some b → ∃ b₀, g.escrowAt k = some b₀ ∧
      b.settings = b₀.settings ∧ b.phase = b₀.phase := by
    intro k b hb
    rw [escrowAt_abort] at hb
    obtain ⟨b₀, hb₀, rfl⟩ := Option.map_eq_some_iff.1 hb
    exact ⟨b₀, hb₀, rfl, rfl⟩
  refine ⟨g.ledgerIds_abort ▸ h.ledgers, h.said, fun ht => h.trackers (htracked _ ▸ ht),
    fun hb => ?_, fun hb => ?_⟩ <;> obtain ⟨b₀, hb₀, hsettings, hphase⟩ := hhalted hb
  · rw [hsettings]
    exact h.told hb₀
  · rw [hphase]
    exact h.phases hb₀

/-! ## Work that is prepared -/

/-- **Work that is prepared** is prepared in custody. -/
theorem Mirrors.prepares (h : Mirrors settings driven c g) (k : String) (workId : WorkId)
    (w : Waiter) : Mirrors settings driven (c.prepares k workId w)
      (g.withDesk k ([], .awaited) fun d =>
        (((d.prepare workId w).2.1, (d.prepare workId w).2.2), (d.prepare workId w).1)).2 := by
  have hescrows : SameEscrows (fun _ _ => none) g (g.withDesk k ([], .awaited) fun d =>
      (((d.prepare workId w).2.1, (d.prepare workId w).2.2), (d.prepare workId w).1)).2 :=
    .track k workId w
  obtain ⟨-, htrackers, -⟩ := g.withDesk_spec k ([], Receipt.Prospect.awaited) (f := fun d =>
    (((d.prepare workId w).2.1, (d.prepare workId w).2.2), (d.prepare workId w).1)) fun _ => rfl
  refine h.updates rfl rfl ?_ hescrows.ledgers hescrows.escrows (fun j hj => ?_) fun t ht => ?_
  · refine h.said.trans ?_
    unfold withDesk
    split <;> rfl
  · rw [htrackers, if_neg hj]
  · rw [htrackers, if_pos rfl] at ht
    obtain ⟨d, hd, rfl⟩ := Option.map_eq_some_iff.1 ht
    have htracker : c.trackers k = d.tracker := h.trackers (by rw [trackerAt, hd]; rfl)
    rw [htracker]
    rfl

theorem Mirrors.enrolled (h : Mirrors settings driven c g) (k : String) (workId : WorkId) :
    Mirrors settings driven (c.prepares k workId (.ticket g.tickets)) (g.enrolled k workId) :=
  (h.prepares k workId (.ticket g.tickets)).still rfl

/-- What is handed on of prepared work is no matter of custody. -/
theorem Mirrors.prepare (h : Mirrors settings driven c g) (e : Errand) (k : String)
    (mode : ReplyMode) (workId : WorkId) (recent : Option UInt64) :
    Mirrors settings driven (c.prepares k workId (.ticket g.tickets))
      (g.prepare e k mode workId recent) := by
  refine (h.enrolled k workId).still ?_
  rw [prepare_eq]
  split
  · exact place_conclude _ e _
  · rfl
  all_goals exact place_conclude _ e _

/-! ## The work of a bootstrap -/

/-- A bootstrap that is driven does an act that has no work tracked. -/
theorem Mirrors.act (h : Mirrors settings (only k p) c g) {s : Settings} (hhosts : Hosts g k s)
    {a : Act} (hgoes : p.Goes s a p') (ha : ∀ workId, a ≠ .track workId)
    (hg : Attests ((a.heard k).map (·.testimony)) g g') : Kept settings (only k p') c g' := by
  obtain ⟨b, hb, rfl, -⟩ := hosts_iff.1 hhosts
  have hphase : (c.phases k).Goes (settings k) a p' := by
    rw [h.phases hb, h.told hb, only, if_pos rfl]
    exact hgoes
  refine ⟨_, .single (.act hphase), ?_⟩
  rw [Custody.acts_eq c k ha]
  refine h.goesTo hg.ledgers ?_ (fun {j t} ht => ?_) rfl (fun j hj => ⟨hg.escrows j, ?_⟩)
    fun b' hb' => ?_
  · rw [hg.said, ← h.said]
    exact Custody.said_hears c _
  · rw [hg.trackers] at ht
    exact h.trackers ht
  · rw [only, only, if_neg hj, if_neg hj]
  · rw [hg.escrows, hb] at hb'
    obtain rfl := Option.some.inj hb'
    refine ⟨h.told hb, ?_⟩
    rw [only, if_pos rfl]
    rfl

variable [Outside W]

/-- A bootstrap that is driven has work tracked. -/
theorem Mirrors.tracks (h : Mirrors settings (only k p) c g) {s : Settings}
    (hown : s.ledgerId = k) (hhosts : Hosts g k s) {workId : WorkId}
    (hgoes : p.Goes s (.track workId) p') :
    Kept settings (only k p') c ((surroundings s).track workId g).2 := by
  obtain ⟨b, hb, rfl, -⟩ := hosts_iff.1 hhosts
  have hphase : (c.phases k).Goes (settings k) (.track workId) p' := by
    rw [h.phases hb, h.told hb, only, if_pos rfl]
    exact hgoes
  -- first the bootstrap goes on, then its work is prepared
  have hmoved : Mirrors settings (only k p')
      { c.hears [] with phases := Function.update c.phases k p' } g := by
    refine h.goesTo rfl ?_ (fun ht => h.trackers ht) rfl (fun j hj => ⟨rfl, ?_⟩)
      fun b' hb' => ?_
    · rw [← h.said]
      exact (Custody.said_hears c []).trans (List.append_nil _)
    · rw [only, only, if_neg hj, if_neg hj]
    · obtain rfl := Option.some.inj (hb.symm.trans hb')
      refine ⟨h.told hb, ?_⟩
      rw [only, if_pos rfl]
      rfl
  refine ⟨_, .single (.act hphase), ?_⟩
  subst hown
  exact (hmoved.prepares b.settings.ledgerId workId .escrow).still rfl

/-- **Custody follows a bootstrap that is driven**, and those that get its lease. -/
theorem kept_drive {s : Settings} (hown : s.ledgerId = k) (fuel : Nat)
    (h : Mirrors settings (only k p) c g) (hhosts : Hosts g k s) :
    Kept settings (only k (drive (surroundings s) s fuel p g).1) c
      (drive (surroundings s) s fuel p g).2 := by
  have hkeeps := keeps_hosts (W := Recorded (Attesting W)) s k s
  induction fuel generalizing g c p with
  | zero => exact h.kept
  | succ fuel ih =>
    -- an act of which its ledger may hear, alone or with the rest of the drive after it
    have rests : ∀ {a p' g'}, p.Goes s a p' → (∀ workId, a ≠ .track workId) →
        Attests ((a.heard k).map (·.testimony)) g g' → Kept settings (only k p') c g' :=
      fun hgoes ha hg => h.act hhosts hgoes ha hg
    have goes : ∀ {a p' g'}, p.Goes s a p' → (∀ workId, a ≠ .track workId) →
        Attests ((a.heard k).map (·.testimony)) g g' → Hosts g' k s →
        Kept settings (only k (drive (surroundings s) s fuel p' g').1) c
          (drive (surroundings s) s fuel p' g').2 :=
      fun hgoes ha hg hhosts' => (rests hgoes ha hg).bind fun c' hc' => ih hc' hhosts'
    unfold drive
    cases hs : p.step s ((surroundings s).now g) with
    | rest => exact h.kept
    | lease =>
      have hsame : Attests [] g ((surroundings s).lease g).2 := .of_place rfl
      have hhosts' := hkeeps.lease hhosts
      rcases hw : (surroundings s).lease g with ⟨_ | _, g'⟩ <;> rw [hw] at hsame hhosts'
      · exact rests (.queue hs) (fun _ => Act.noConfusion) hsame
      · exact goes (.lease hs) (fun _ => Act.noConfusion) hsame hhosts'
    | unlease next =>
      -- the lease goes on to others of the gateway, who wake up with it
      have hdropped : Attests [] g
          { g with leases := (g.leases.drop s.ledgerId).cleanup } := .of_place rfl
      refine ((rests (.unlease hs) (fun _ => Act.noConfusion) hdropped).bind fun c' hc' =>
        receptive_kept.grantLeases hc'.kept).bind fun c' hc' => ih hc' (hkeeps.unlease hhosts)
    | store q resume =>
      exact goes (.store _ hs) (fun _ => Act.noConfusion)
        (.of_desks rfl (List.append_nil _).symm) (hkeeps.store q hhosts)
    | ledger q resume =>
      subst hown
      have hhosts' := hkeeps.ledger q hhosts
      obtain ⟨delays, hg | ⟨time, hg⟩⟩ := g.askLedger_cases s.ledgerId q <;>
        simp only [surroundings, hg] at hhosts' ⊢
      · exact goes (.ledger _ hs) (fun _ => Act.noConfusion)
          ((attests_ledger g s.ledgerId q).trans (.of_place rfl)) hhosts'
      · exact ⟨c, .refl, h.still rfl⟩
    | draw resume =>
      exact goes (.draw _ hs) (fun _ => Act.noConfusion)
        (.of_desks rfl (List.append_nil _).symm) (hkeeps.draw hhosts)
    | sleep duration next =>
      exact rests (.doze hs) (fun _ => Act.noConfusion) (.of_place rfl)
    | track workId next =>
      obtain ⟨keys, -, rfl⟩ := Phase.step_track hs
      have htracked := h.tracks hown hhosts (.track hs)
      have hhosts' := hkeeps.track workId hhosts
      rcases hw : (surroundings s).track workId g with ⟨prospect, g'⟩
      rw [hw] at htracked hhosts'
      simp only [hw]
      cases prospect with
      | atHand receipt =>
        -- the receipt is at hand, so tracking is followed by receiving
        refine htracked.bind fun c' hc' => ?_
        exact (hc'.act hhosts' (.receive receipt) (fun _ => Act.noConfusion) (.refl g')).bind
          fun c'' hc'' => ih hc'' hhosts'
      | awaited => exact htracked
      | dropped =>
        refine htracked.bind fun c' hc' => ?_
        exact (hc'.act hhosts' .lose (fun _ => Act.noConfusion) (.refl g')).bind
          fun c'' hc'' => ih hc'' hhosts'
    | alarm reason next =>
      exact goes (.alarm hs) (fun _ => Act.noConfusion) (.of_place rfl)
        (hkeeps.alarm reason hhosts)

omit [Outside W] in
/-- A bootstrap is driven from the phase that is on its desk. -/
theorem Mirrors.takeUp (h : Mirrors settings nobody c g) {b : Bootstrap}
    (hb : g.escrowAt k = some b) : Mirrors settings (only k b.phase) c g := by
  refine { h with phases := fun {j b'} hb' => ?_ }
  rw [h.phases hb', only]
  split
  · rename_i hj
    subst hj
    obtain rfl : b = b' := Option.some.inj (hb.symm.trans hb')
    rfl
  · rfl

omit [Outside W] in
/-- When a bootstrap waits again its phase is put back on its desk. -/
theorem Mirrors.putBack {s : Settings} (h : Mirrors settings (only k p) c g)
    (hhosts : Hosts g k s) :
    Mirrors settings nobody c (g.updateDesk k (·.tellEscrow fun _ => p)) := by
  obtain ⟨b, hb, -, hlive⟩ := hosts_iff.1 hhosts
  refine h.ignores (fun j hj => ?_) fun b' hb' => ?_
  · rw [only, if_neg hj]
    rfl
  · obtain rfl : b = b' := Option.some.inj (hb.symm.trans hb')
    rw [Bootstrap.phase_hear, hlive, if_neg Bool.false_ne_true, only, if_pos rfl]
    rfl

variable (hown : ∀ k, (settings k).ledgerId = k)
include hown

theorem kept_runEscrow (h : Mirrors settings nobody c g) (ledgerId : String) :
    Kept settings nobody c (g.runEscrow ledgerId) := by
  rcases g.runEscrow_cases ledgerId with hsame | ⟨b, hb, hlive, hrun⟩
  · rw [hsame]
    exact h.kept
  · have hhosts : Hosts g ledgerId b.settings := hosts_iff.2 ⟨b, hb, rfl, hlive⟩
    have hledger : b.settings.ledgerId = ledgerId := by
      rw [← h.told hb]
      exact hown ledgerId
    have hkept := drive_keeps (keeps_hosts b.settings ledgerId b.settings) b.settings stretch
      b.phase hhosts
    rw [hrun]
    exact (kept_drive hledger stretch (h.takeUp hb) hhosts).bind fun c' hc' =>
      (hc'.putBack hkept).kept

theorem kept_wakeEscrow (h : Mirrors settings nobody c g) (ledgerId : String) :
    Kept settings nobody c (g.wakeEscrow ledgerId) :=
  (kept_tell h fun _ _ => Phase.shifts_awake _ _).bind
    fun _ hc' => kept_runEscrow hown hc' ledgerId

/-- **Custody follows the answer to a question of a bootstrap.** -/
theorem kept_answerEscrow (h : Mirrors settings nobody c g) (k : String) :
    Kept settings nobody c (g.answerEscrow k) := by
  rcases g.answerEscrow_cases k with hsame | ⟨b, hb, hlive, phase, outside, hanswered, hrun⟩
  · rw [hsame]
    exact h.kept
  · have hhosts : Hosts g k b.settings := hosts_iff.2 ⟨b, hb, rfl, hlive⟩
    have hledger : b.settings.ledgerId = k := by rw [← h.told hb]; exact hown k
    have hspec := b.phase.answered_spec b.settings g.now (Outside.ledger b.settings.ledgerId)
      g.outside
    rw [hanswered] at hspec
    have hkept : Kept settings (only k phase) c { g with outside } := by
      rcases hspec with ⟨q, hgoes, houtside⟩ | hsame
      · refine (h.takeUp hb).act hhosts hgoes (fun _ => Act.noConfusion) ?_
        dsimp only at houtside
        rw [houtside, hledger]
        exact attests_ledger g k q
      · cases hsame
        exact (h.takeUp hb).kept
    rw [hrun]
    exact (hkept.bind fun c' hc' => (hc'.putBack hhosts).kept).bind
      fun _ hc' => kept_runEscrow hown hc' k

omit hown

/-! ## Scans -/

/-- A scan is followed answer by answer. -/
theorem beside_runScan (settings : String → Settings) (k : String) (fuel : Nat)
    (t : Receipt.Tracker Waiter) (r : Recorded (Attesting W)) {c : Custody}
    (ht : c.trackers k = t) (hr : c.said = r.said) :
    ∃ c', Relation.ReflTransGen (Custody.Beside settings) c c' ∧
      c'.trackers = Function.update c.trackers k (t.runScan (askOutside k) fuel r).1 ∧
      c'.phases = c.phases ∧ c'.said = (t.runScan (askOutside k) fuel r).2.2.2.said := by
  have ends : ∀ {t} {r : Recorded (Attesting W)} {c : Custody}, c.trackers k = t →
      c.said = r.said → ∃ c', Relation.ReflTransGen (Custody.Beside settings) c c' ∧
        c'.trackers = Function.update c.trackers k t ∧ c'.phases = c.phases ∧
        c'.said = r.said := by
    intro t r c ht hr
    refine ⟨c, .refl, ?_, rfl, hr⟩
    rw [← ht, Function.update_eq_self]
  induction fuel generalizing t r c with
  | zero => exact ends ht hr
  | succ fuel ih =>
    unfold Receipt.Tracker.runScan
    cases hs : t.scan with
    | none => exact ends ht hr
    | some s =>
      let heard : Heard :=
        ⟨.scan, (k, ⟨.confirmationOf s.current, (askOutside k s.current r).1⟩)⟩
      let answered := (c.hears [heard]).updates k
        ((c.trackers k).after (.answer (askOutside k s.current r).1)).1
      have hstep : Custody.Beside settings c answered := .answer _ (by rw [ht]; exact hs)
      have hsaid : answered.said = (askOutside k s.current r).2.said := by
        refine (Custody.said_hears c _).trans ?_
        rw [hr]
        rfl
      have htracker : answered.trackers =
          Function.update c.trackers k (t.answered (askOutside k s.current r).1).1 := by
        rw [← ht]
        rfl
      dsimp only
      rcases hanswered : t.answered (askOutside k s.current r).1 with
        ⟨t', notices, _ | report⟩ <;> rw [hanswered] at htracker
      · have htracker' : answered.trackers k = t' := by
          rw [htracker]
          exact Function.update_self ..
        obtain ⟨c', hrest, htrackers, hphases, hsaid'⟩ := ih t' _ htracker' hsaid
        refine ⟨c', .head hstep hrest, ?_, hphases, hsaid'⟩
        rw [htrackers, htracker, Function.update_idem]
      · exact ⟨answered, .single hstep, htracker, rfl, hsaid⟩

theorem kept_finishScan (h : Mirrors settings driven c g) (ledgerId : String) :
    Kept settings driven c (g.finishScan ledgerId).2 := by
  rw [finishScan_eq]
  split
  · exact h.kept
  · rename_i d hd
    split
    · exact h.kept
    · rename_i s _
      have htracker : c.trackers ledgerId = d.tracker :=
        h.trackers (by rw [trackerAt, hd]; rfl)
      obtain ⟨c₁, hscanned, htrackers, hphases, hsaid⟩ :=
        beside_runScan settings ledgerId (s.rest.length + 1) d.tracker g.outside htracker h.said
      rcases hrun : d.tracker.runScan (askOutside ledgerId) (s.rest.length + 1) g.outside with
        ⟨tracker, notices, report, outside⟩
      rw [hrun] at htrackers hsaid
      have hreturned : Mirrors settings driven c₁ (({ g with outside } :
          Gateway (Recorded (Attesting W))).updateDesk ledgerId
            fun d => { d with tracker, audience := none }) :=
        h.returned hsaid htrackers hphases (fun _ hd => hd) fun _ => ⟨rfl, rfl⟩
      have hkept := receptive_kept.absorb ⟨c₁, hscanned, hreturned⟩ ledgerId notices
      dsimp only
      split
      · exact receptive_kept.still hkept (place_reportScan ..)
      · exact hkept

/-- **Custody follows a scan.** -/
theorem kept_scan (h : Mirrors settings driven c g) (ledgerId : String)
    (audience : Option String) : Kept settings driven c (g.scan ledgerId audience).2 := by
  rw [scan_eq]
  split
  · exact h.kept
  · rename_i d hd
    have htracker : c.trackers ledgerId = d.tracker := h.trackers (by rw [trackerAt, hd]; rfl)
    have hstep : Custody.Beside settings c (c.updates ledgerId d.tracker.beginScan.1) := by
      have hscan : Custody.Beside settings c (c.updates ledgerId
          ((c.trackers ledgerId).after (.scan d.tracker.pendingIds)).1) := .scan ledgerId _
      rwa [htracker] at hscan
    have hsaid : (c.updates ledgerId d.tracker.beginScan.1).said = g.outside.said := h.said
    have hreturned : ∀ {f : Desk → Desk},
        (∀ d, d.ledgerId = ledgerId → (f d).ledgerId = ledgerId) →
        (∀ d', (f d').tracker = d.tracker.beginScan.1 ∧ (f d').escrow = d'.escrow) →
        Kept settings driven c (g.updateDesk ledgerId f) :=
      fun hid hf => ⟨_, .single hstep, h.returned hsaid rfl rfl hid hf⟩
    rcases hbegun : d.tracker.beginScan with ⟨tracker, notices, _ | report⟩ <;>
      rw [hbegun] at hreturned <;> dsimp only
    · have hbegun := hreturned (f := fun d => { d with tracker, audience }) (fun _ hd => hd)
        fun _ => ⟨rfl, rfl⟩
      have habsorbed := receptive_kept.absorb hbegun ledgerId notices
      split
      · exact habsorbed
      · exact habsorbed.bind fun _ hc' => kept_finishScan hc' ledgerId
    · have hskipped := hreturned (f := fun d => { d with tracker }) (fun _ hd => hd)
        fun _ => ⟨rfl, rfl⟩
      exact receptive_kept.still (receptive_kept.absorb hskipped ledgerId notices)
        (place_reportScan ..)

end Gateway

end LedgerGate
