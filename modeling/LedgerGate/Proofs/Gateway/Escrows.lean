/-
  What leaves the escrows of a gateway alone.

  Nearly all that a gateway does concerns requests, receipts and scans.  It changes neither
  the bootstraps on the desks nor what is in the store.

  * `Gateway.escrowAt`: the bootstrap on a desk, and what news make of it;
  * `Gateway.place`: the parts of a gateway in which its escrows live;
  * `Gateway.SameEscrows`: the bootstraps and the store are as they were;
  * `sameEscrows_planJob`, `sameEscrows_applyJob`: **requests leave the escrows alone.**
-/
import LedgerGate.Proofs.Entries.Keys
import LedgerGate.Proofs.Escrow.Process
import LedgerGate.Gateway.Run

namespace LedgerGate

open Escrow

/-! ## Dialogues and scans -/

/-- A dialogue keeps what every answer keeps. -/
theorem Dialogue.run_keeps {Q σ V α : Type} {A : Q → Type} {answer : (q : Q) → σ → A q × σ}
    {view : σ → V} (h : ∀ q s, view (answer q s).2 = view s) (d : Dialogue A α) (s : σ) :
    view (d.run answer s).2 = view s := by
  induction d generalizing s with
  | done a => rfl
  | ask q resume ih => exact (ih _ _).trans (h q s)

/-- A scan keeps what every answer to it keeps. -/
theorem Receipt.Tracker.runScan_keeps {H σ V : Type}
    {ask : WorkId → σ → Except Ledger.Error (Option Confirmation) × σ} {view : σ → V}
    (h : ∀ workId s, view (ask workId s).2 = view s) (fuel : Nat) (t : Tracker H) (s : σ) :
    view (t.runScan ask fuel s).2.2.2 = view s := by
  induction fuel generalizing t s with
  | zero => rfl
  | succ fuel ih =>
    unfold runScan
    split
    · rfl
    · dsimp only
      split
      · exact h _ _
      · exact (ih _ _).trans (h _ _)

namespace Gateway

variable {W : Type}

/-! ## Bootstraps on desks -/

/-- The bootstrap on the desk of a ledger. -/
def escrowAt (g : Gateway W) (ledgerId : String) : Option Bootstrap :=
  (g.desk? ledgerId).bind (·.escrow)

theorem escrowAt_updateDesk {g : Gateway W} {k : String} {f : Desk → Desk}
    (hf : ∀ d, d.ledgerId = k → (f d).ledgerId = k) (ledgerId : String) :
    (g.updateDesk k f).escrowAt ledgerId =
      if ledgerId = k then (g.desk? k).bind fun d => (f d).escrow else g.escrowAt ledgerId := by
  rw [escrowAt, desk?_updateDesk hf]
  cases hd : g.desk? ledgerId with
  | none =>
    split
    · rename_i hk
      subst hk
      rw [hd]
      rfl
    · rw [escrowAt, hd]
      rfl
  | some d =>
    have hid := ledgerId_of_desk? hd
    split
    · rename_i hk
      subst hk
      rw [hd, Option.map_some, if_pos hid]
      rfl
    · rename_i hk
      rw [Option.map_some, if_neg (by rwa [hid]), escrowAt, hd]

/-- The other desks stay as they are. -/
theorem desk?_updateDesk_ne {g : Gateway W} {j k : String} {f : Desk → Desk}
    (hf : ∀ d, d.ledgerId = k → (f d).ledgerId = k) (hj : j ≠ k) :
    (g.updateDesk k f).desk? j = g.desk? j := by
  rw [desk?_updateDesk hf]
  cases hd : g.desk? j with
  | none => rfl
  | some d => rw [Option.map_some, if_neg (by rwa [ledgerId_of_desk? hd])]

/-- News to an escrow are for the bootstrap on its desk. -/
theorem escrowAt_tell (g : Gateway W) (k : String) (news : Phase → Phase) (ledgerId : String) :
    (g.updateDesk k (·.tellEscrow news)).escrowAt ledgerId =
      if ledgerId = k then (g.escrowAt k).map (·.hear news) else g.escrowAt ledgerId := by
  have hid (d : Desk) (hd : d.ledgerId = k) : (d.tellEscrow news).ledgerId = k := hd
  have hhear : (g.desk? k).bind (fun d => (d.tellEscrow news).escrow) =
      (g.escrowAt k).map (·.hear news) := by
    rw [escrowAt]
    cases g.desk? k <;> rfl
  rw [escrowAt_updateDesk hid, hhear]

/-- The ids of the ledgers that have a desk. -/
def ledgerIds (g : Gateway W) : List String := g.desks.map (·.ledgerId)

theorem ledgerIds_updateDesk {g : Gateway W} {k : String} {f : Desk → Desk}
    (hf : ∀ d, d.ledgerId = k → (f d).ledgerId = k) :
    (g.updateDesk k f).ledgerIds = g.ledgerIds := by
  rw [ledgerIds, ledgerIds, updateDesk, List.map_map]
  refine List.map_congr_left fun d _ => ?_
  by_cases hd : d.ledgerId = k
  · rw [Function.comp, if_pos hd, hf d hd, hd]
  · rw [Function.comp, if_neg hd]

/-- Where no two desks have one id, every desk is found under its own. -/
theorem desk?_of_mem {g : Gateway W} (hg : g.ledgerIds.Nodup) {d : Desk} (hd : d ∈ g.desks) :
    g.desk? d.ledgerId = some d :=
  (Entries.find?_key_eq_some_iff hg).2 ⟨hd, rfl⟩

/-! ## Where the escrows live -/

/-- The desks of a gateway and the world outside. -/
def place (g : Gateway W) : List Desk × W := (g.desks, g.outside)

@[simp]
theorem place_tell (g : Gateway W) (e : Event) : (g.tell e).place = g.place := rfl

@[simp]
theorem place_enqueue (g : Gateway W) (j : Job) : (g.enqueue j).place = g.place := rfl

@[simp]
theorem place_awaitTicket (g : Gateway W) (ticket : Nat) (e : Errand) :
    (g.awaitTicket ticket e).place = g.place := rfl

@[simp]
theorem place_dropErrand (g : Gateway W) (ticket : Nat) :
    (g.dropErrand ticket).place = g.place := rfl

@[simp]
theorem place_withShutdown (g : Gateway W) (s : Shutdown Listener) :
    (g.withShutdown s).place = g.place := rfl

@[simp]
theorem place_send (g : Gateway W) (responses : List Response) :
    (g.send responses).place = g.place := by
  induction responses generalizing g with
  | nil => rfl
  | cons r rs ih => rw [send, List.foldl_cons, ← send, ih, place_tell]

@[simp]
theorem place_reportScan (g : Gateway W) (audience : Option String) (report : Receipt.Report) :
    (g.reportScan audience report).place = g.place := by
  cases audience <;> rfl

theorem place_concludeWithin (fuel : Nat) :
    ∀ (e : Errand) (outcome : Except Fault (Reply Sequel)) (g : Gateway W),
      (concludeWithin fuel e outcome g).place = g.place := by
  induction fuel with
  | zero => exact fun e outcome g => rfl
  | succ fuel ih =>
    intro e outcome g
    cases e with
    | delivery d accepting =>
      unfold concludeWithin
      split
      · split
        · rw [place_tell, place_send]
        · rw [ih, place_send]
        · rw [place_awaitTicket, place_send]
      · rfl
    | call name limit =>
      unfold concludeWithin
      rcases outcome with f | r
      · rfl
      · dsimp only
        split
        · rw [ih, place_tell]
        · rfl
    | chain name limit remaining =>
      unfold concludeWithin
      rcases outcome with f | r
      · rfl
      · dsimp only
        split
        · rfl
        · exact ih _ _ g
        · rfl

@[simp]
theorem place_conclude (g : Gateway W) (e : Errand) (outcome : Except Fault (Reply Sequel)) :
    (g.conclude e outcome).place = g.place :=
  place_concludeWithin _ e outcome g

theorem place_tick (fuel due : Nat) (g : Gateway W) : (tick fuel due g).place = g.place := by
  induction fuel generalizing due g with
  | zero => rfl
  | succ fuel ih =>
    unfold tick
    split
    · rfl
    · exact ih _ _

@[simp]
theorem place_runScanner (g : Gateway W) : g.runScanner.place = g.place := by
  unfold runScanner
  split
  · rfl
  · split
    · rfl
    · exact place_tick _ _ _

/-! ## The same escrows -/

variable {view : W → String → Option String} {g g' g'' : Gateway W}

/-- The bootstraps on the desks and the store outside are as they were. -/
structure SameEscrows (view : W → String → Option String) (g g' : Gateway W) : Prop where
  ledgers : g'.ledgerIds = g.ledgerIds
  escrows : ∀ ledgerId, g'.escrowAt ledgerId = g.escrowAt ledgerId
  stored : view g'.outside = view g.outside

namespace SameEscrows

theorem refl (g : Gateway W) : SameEscrows view g g := ⟨rfl, fun _ => rfl, rfl⟩

theorem trans (h : SameEscrows view g g') (h' : SameEscrows view g' g'') :
    SameEscrows view g g'' where
  ledgers := h'.ledgers.trans h.ledgers
  escrows ledgerId := (h'.escrows ledgerId).trans (h.escrows ledgerId)
  stored := h'.stored.trans h.stored

theorem of_place (h : g'.place = g.place) : SameEscrows view g g' where
  ledgers := congrArg (fun p : List Desk × W => p.1.map Desk.ledgerId) h
  escrows ledgerId := by
    have hdesks : g'.desks = g.desks := congrArg Prod.fst h
    rw [escrowAt, escrowAt, desk?, desk?, hdesks]
  stored := congrArg view (congrArg Prod.snd h)

/-- The world outside has changed, but not its store. -/
theorem of_outside {w : W} (h : view w = view g.outside) :
    SameEscrows view g { g with outside := w } := ⟨rfl, fun _ => rfl, h⟩

/-- A desk has changed, but not its bootstrap. -/
theorem updateDesk {k : String} {f : Desk → Desk} (hid : ∀ d, d.ledgerId = k → (f d).ledgerId = k)
    (hf : ∀ d, g.desk? k = some d → (f d).escrow = d.escrow) :
    SameEscrows view g (g.updateDesk k f) where
  ledgers := ledgerIds_updateDesk hid
  escrows ledgerId := by
    rw [escrowAt_updateDesk hid]
    split
    · rename_i hk
      subst hk
      rw [escrowAt]
      cases hd : g.desk? ledgerId with
      | none => rfl
      | some d => exact hf d hd
    · rfl
  stored := rfl

theorem withDesk {α : Type} {k : String} {missing : α} {f : Desk → α × Desk}
    (hf : ∀ d, (f d).2.ledgerId = d.ledgerId ∧ (f d).2.escrow = d.escrow) :
    SameEscrows view g (g.withDesk k missing f).2 := by
  unfold Gateway.withDesk
  split
  · rename_i d hd
    refine .updateDesk (fun _ _ => (hf d).1.trans (ledgerId_of_desk? hd)) fun d' hd' => ?_
    obtain rfl : d = d' := Option.some.inj (hd.symm.trans hd')
    exact (hf d).2
  · exact .refl g

/-- Work that is tracked is a matter of the tracker. -/
theorem track (k : String) (workId : WorkId) (w : Waiter) :
    SameEscrows view g (g.withDesk k ([], .awaited) fun d =>
      (((d.prepare workId w).2.1, (d.prepare workId w).2.2), (d.prepare workId w).1)).2 :=
  .withDesk fun _ => ⟨rfl, rfl⟩

end SameEscrows

/-! ## Requests -/

section
variable [Outside W] (hW : KeepsStore view)
include hW

theorem sameEscrows_recentBlock (g : Gateway W) (ledgerId : String) :
    SameEscrows view g (g.recentBlock ledgerId).2 := by
  unfold recentBlock
  split
  · exact .refl g
  · rename_i d _
    have hkept : view ((d.recent.get (Outside.clock g.outside)).run (Outside.ledger ledgerId)
        g.outside).2 = view g.outside := Dialogue.run_keeps (hW.ledger ledgerId) _ _
    exact (SameEscrows.of_outside hkept).trans (.updateDesk (fun _ h => h) fun _ _ => rfl)

theorem sameEscrows_consult (ledgerId : String) (q : Delegate.Question) (g : Gateway W) :
    SameEscrows view g (consult ledgerId q g).2 := by
  cases q with
  | ledger q => exact .of_outside (hW.ledger ledgerId q g.outside)
  | lookup l => exact .refl g
  | recentBlock => exact sameEscrows_recentBlock hW g ledgerId
  | escrow =>
    simp only [consult]
    split <;> exact .refl g
  | clock => exact .refl g

/-- The work of a delegate leaves the escrows alone. -/
theorem sameEscrows_run (ledgerId : String) (work : Delegate.Work) (g : Gateway W) :
    SameEscrows view g (work.run (consult ledgerId) g).2 := by
  induction work generalizing g with
  | done outcome => exact .refl g
  | ask q resume ih => exact (sameEscrows_consult hW ledgerId q g).trans (ih _ _)

omit [Outside W] hW in
theorem sameEscrows_prepare (g : Gateway W) (e : Errand) (ledgerId : String) (mode : ReplyMode)
    (workId : WorkId) (recent : Option UInt64) :
    SameEscrows view g (g.prepare e ledgerId mode workId recent) := by
  refine (SameEscrows.track ledgerId workId (.ticket g.tickets)).trans (.of_place ?_)
  unfold prepare
  dsimp only
  split
  · exact place_conclude _ e _
  · rfl
  all_goals exact place_conclude _ e _

/-- **Working on a request leaves the escrows alone.** -/
theorem sameEscrows_applyJob (g : Gateway W) (e : Errand) (route : Route Delegate)
    (input : Option Input) : SameEscrows view g (g.applyJob e route input) := by
  have hrun := sameEscrows_run hW route.ledger.id (route.delegate.apply route.ledger input) g
  unfold applyJob
  dsimp only
  split
  · rename_i outcome g' h
    rw [h] at hrun
    exact hrun.trans (.of_place (place_conclude g' e outcome))
  · rename_i mode workId recent g' h
    rw [h] at hrun
    exact hrun.trans (sameEscrows_prepare g' e _ mode workId recent)

omit hW in
/-- **Planning a request leaves the escrows alone.** -/
theorem sameEscrows_planJob (g : Gateway W) (e : Errand) (operation : String)
    (input : Option Input) : SameEscrows view g (g.planJob e operation input) := by
  have hplan : (g.plan operation input).2.place = g.place := by
    unfold plan
    split <;> rfl
  refine .of_place ?_
  unfold planJob
  split
  · rename_i f g' h
    rw [h] at hplan
    exact (place_conclude g' e _).trans hplan
  · rename_i route g' h
    rw [h] at hplan
    exact hplan

end

end Gateway

end LedgerGate
