/-
  The trackers of a gateway, and what leaves them alone.

  An outcome that is handed on only tells of itself and leaves errands that wait for tickets,
  those that it is about.  So neither the trackers nor the meters of a gateway change when
  receipts are handed over.

  * `Awaits`: the tickets that an outcome and its sequels wait for;
  * `Gateway.ensues_conclude`: **all that an outcome does to a gateway**;
  * `Gateway.trackerAt`: the tracker on the desk of a ledger;
  * `Gateway.SameTrackers`: trackers and meters are as they were;
  * `Gateway.operates_withTracker`: **an operation of a tracker in a gateway**;
  * `Gateway.Built`: the parts of a gateway at its beginning.
-/
import LedgerGate.Proofs.Gateway.Company
import LedgerGate.Proofs.Gateway.Deliveries
import LedgerGate.Gateway.Requests

namespace LedgerGate

/-! ## Outcomes -/

/-- The receipts that an outcome waits for, itself or in a sequel, are those of some tickets. -/
inductive Awaits (tickets : Nat → Prop) : Except Fault (Reply Sequel) → Prop
  | error (f : Fault) : Awaits tickets (.error f)
  | last (o : Output) : Awaits tickets (.ok ⟨o, none⟩)
  | known {o : Output} {next : Except Fault (Reply Sequel)} :
      Awaits tickets next → Awaits tickets (.ok ⟨o, some (.known next)⟩)
  | receipt {o : Output} {ticket : Nat} :
      tickets ticket → Awaits tickets (.ok ⟨o, some (.receipt ticket)⟩)

variable {tickets : Nat → Prop}

theorem Awaits.of_known {o : Output} {next : Except Fault (Reply Sequel)}
    (h : Awaits tickets (.ok ⟨o, some (.known next)⟩)) : Awaits tickets next := by
  cases h with
  | known hnext => exact hnext

theorem Awaits.of_receipt {o : Output} {ticket : Nat}
    (h : Awaits tickets (.ok ⟨o, some (.receipt ticket)⟩)) : tickets ticket := by
  cases h with
  | receipt hticket => exact hticket

/-- A chain waits for a sequel only if there is one. -/
theorem Reply.of_await {κ : Type} {limit remaining remaining' : Nat} {r : Reply κ} {next : κ}
    (h : r.follow limit remaining = .await next remaining') : ∃ o, r = ⟨o, some next⟩ := by
  obtain ⟨o, _ | next'⟩ := r
  · cases h
  · cases remaining with
    | zero => cases h
    | succ n =>
      cases h
      exact ⟨o, rfl⟩

namespace Gateway

variable {W : Type}

/-- A gateway after more events, and with more errands that wait. -/
def ensuing (g : Gateway W) (told : Array Event) (waiting : List (Nat × Errand)) : Gateway W :=
  { g with events := g.events ++ told, errands := g.errands ++ waiting }

theorem tell_eq (g : Gateway W) (e : Event) : g.tell e = g.ensuing #[e] [] := by
  simp [tell, ensuing]

theorem awaitTicket_eq (g : Gateway W) (ticket : Nat) (e : Errand) :
    g.awaitTicket ticket e = g.ensuing #[] [(ticket, e)] := by
  simp [awaitTicket, ensuing]

theorem ensuing_ensuing (g : Gateway W) (told told' : Array Event)
    (waiting waiting' : List (Nat × Errand)) :
    (g.ensuing told waiting).ensuing told' waiting' =
      g.ensuing (told ++ told') (waiting ++ waiting') := by
  simp [ensuing, Array.append_assoc]

theorem send_eq (g : Gateway W) (responses : List Response) :
    g.send responses = g.ensuing (responses.map Event.response).toArray [] := by
  induction responses generalizing g with
  | nil => simp [send, ensuing]
  | cons r rs ih =>
    rw [send, List.foldl_cons, ← send, ih, tell_eq, ensuing_ensuing]
    simp

/-- What an outcome does to a gateway: it tells of itself and leaves errands that wait for its
    tickets. -/
def Ensues (outcome : Except Fault (Reply Sequel)) (g g' : Gateway W) : Prop :=
  ∃ told waiting, g' = g.ensuing told waiting ∧
    ∀ tickets, Awaits tickets outcome → ∀ x ∈ waiting, tickets x.1

variable {outcome next : Except Fault (Reply Sequel)} {g g' : Gateway W}

theorem Ensues.told (told : Array Event) : Ensues outcome g (g.ensuing told []) :=
  ⟨told, [], rfl, fun _ _ _ hx => by cases hx⟩

theorem Ensues.refl (g : Gateway W) : Ensues outcome g g := by
  have hsame : g = g.ensuing #[] [] := by simp [ensuing]
  have htold : Ensues outcome g (g.ensuing #[] []) := .told #[]
  rwa [← hsame] at htold

theorem Ensues.waits (told : Array Event) (e : Errand) (o : Output) (ticket : Nat) :
    Ensues (.ok ⟨o, some (.receipt ticket)⟩) g ((g.ensuing told []).awaitTicket ticket e) := by
  refine ⟨told, [(ticket, e)], by simp [awaitTicket_eq, ensuing_ensuing], fun tickets h x hx => ?_⟩
  rw [List.mem_singleton.1 hx]
  exact h.of_receipt

/-- What is told first belongs to what a sequel does. -/
theorem Ensues.after {told : Array Event} (h : Ensues next (g.ensuing told []) g')
    (hnext : ∀ tickets, Awaits tickets outcome → Awaits tickets next) :
    Ensues outcome g g' := by
  obtain ⟨told', waiting, rfl, hall⟩ := h
  exact ⟨told ++ told', waiting, by simp [ensuing_ensuing],
    fun tickets h => hall tickets (hnext tickets h)⟩

theorem Ensues.tell (e : Event) : Ensues outcome g (g.tell e) := by
  rw [tell_eq]
  exact .told _

theorem ensues_concludeWithin (fuel : Nat) : ∀ (e : Errand)
    (outcome : Except Fault (Reply Sequel)) (g : Gateway W),
    Ensues outcome g (concludeWithin fuel e outcome g) := by
  induction fuel with
  | zero => exact fun e outcome g => .refl g
  | succ fuel ih =>
    intro e outcome g
    cases e with
    | delivery d accepting =>
      unfold concludeWithin
      split
      · split
        · rw [send_eq, tell_eq, ensuing_ensuing]
          exact .told _
        · rename_i response next after hstep
          obtain ⟨o, rfl⟩ := Delivery.outcome_of_follow hstep
          rw [send_eq]
          exact (ih _ _ _).after fun _ h => h.of_known
        · rename_i response ticket after hstep
          obtain ⟨o, rfl⟩ := Delivery.outcome_of_follow hstep
          rw [send_eq]
          exact .waits _ _ o ticket
      · exact .tell _
    | call name limit =>
      rcases outcome with f | r
      · exact .tell _
      · unfold concludeWithin
        dsimp only
        split
        · rw [tell_eq]
          exact (ih _ _ _).after fun _ h => h
        · exact .tell _
    | chain name limit remaining =>
      rcases outcome with f | r
      · exact .tell _
      · unfold concludeWithin
        split
        · exact .tell _
        · rename_i next remaining' hfollow
          obtain ⟨o, rfl⟩ := Reply.of_await hfollow
          obtain ⟨told, waiting, heq, hall⟩ := ih (.chain name limit remaining') next g
          exact ⟨told, waiting, heq, fun tickets h => hall tickets h.of_known⟩
        · rename_i ticket remaining' hfollow
          obtain ⟨o, rfl⟩ := Reply.of_await hfollow
          have hwaits := Ensues.waits (g := g) #[] (.chain name limit remaining') o ticket
          simpa [ensuing] using hwaits

/-- **All that an outcome does to a gateway.** -/
theorem ensues_conclude (g : Gateway W) (e : Errand) (outcome : Except Fault (Reply Sequel)) :
    Ensues outcome g (g.conclude e outcome) :=
  ensues_concludeWithin _ e outcome g

/-! ## The same trackers -/

/-- The tracker on the desk of a ledger. -/
def trackerAt (g : Gateway W) (ledgerId : String) : Option (Receipt.Tracker Waiter) :=
  (g.desk? ledgerId).map (·.tracker)

/-- Only a ledger with a desk has a tracker. -/
theorem mem_ledgerIds {g : Gateway W} {k : String} {t : Receipt.Tracker Waiter}
    (h : g.trackerAt k = some t) : k ∈ g.ledgerIds := by
  obtain ⟨d, hd, -⟩ := Option.map_eq_some_iff.1 h
  rw [← ledgerId_of_desk? hd]
  exact List.mem_map_of_mem (List.mem_of_find?_eq_some hd)

/-- A desk has changed. -/
theorem trackerAt_updateDesk {g : Gateway W} {k : String} {f : Desk → Desk}
    (hf : ∀ d, d.ledgerId = k → (f d).ledgerId = k) (ledgerId : String) :
    (g.updateDesk k f).trackerAt ledgerId =
      if ledgerId = k then (g.desk? k).map fun d => (f d).tracker else g.trackerAt ledgerId := by
  rw [trackerAt, desk?_updateDesk hf]
  cases hd : g.desk? ledgerId with
  | none =>
    split
    · rename_i hk
      subst hk
      rw [hd]
      rfl
    · rw [trackerAt, hd]
      rfl
  | some d =>
    have hid := ledgerId_of_desk? hd
    split
    · rename_i hk
      subst hk
      rw [hd, Option.map_some, Option.map_some, if_pos hid]
      rfl
    · rename_i hk
      rw [Option.map_some, if_neg (by rwa [hid]), trackerAt, hd]

/-- The trackers on the desks and the meters are as they were. -/
structure SameTrackers (g g' : Gateway W) : Prop where
  ledgers : g'.ledgerIds = g.ledgerIds
  trackers : ∀ ledgerId, g'.trackerAt ledgerId = g.trackerAt ledgerId
  meters : g'.meters = g.meters

namespace SameTrackers

variable {g'' : Gateway W}

theorem refl (g : Gateway W) : SameTrackers g g := ⟨rfl, fun _ => rfl, rfl⟩

theorem trans (h : SameTrackers g g') (h' : SameTrackers g' g'') : SameTrackers g g'' where
  ledgers := h'.ledgers.trans h.ledgers
  trackers ledgerId := (h'.trackers ledgerId).trans (h.trackers ledgerId)
  meters := h'.meters.trans h.meters

theorem of_desks (hdesks : g'.desks = g.desks) (hmeters : g'.meters = g.meters) :
    SameTrackers g g' where
  ledgers := congrArg (List.map Desk.ledgerId) hdesks
  trackers ledgerId := by rw [trackerAt, trackerAt, desk?, desk?, hdesks]
  meters := hmeters

/-- A desk has changed, but not its tracker. -/
theorem updateDesk {k : String} {f : Desk → Desk} (hid : ∀ d, d.ledgerId = k → (f d).ledgerId = k)
    (hf : ∀ d, (f d).tracker = d.tracker) : SameTrackers g (g.updateDesk k f) where
  ledgers := ledgerIds_updateDesk hid
  trackers ledgerId := by
    rw [trackerAt_updateDesk hid]
    split
    · rename_i hk
      subst hk
      simp only [hf]
      rfl
    · rfl
  meters := rfl

/-- An outcome is no matter of the trackers, -/
theorem of_ensues (h : Ensues outcome g g') : SameTrackers g g' := by
  obtain ⟨told, waiting, rfl, -⟩ := h
  exact .of_desks rfl rfl

/-- and neither is a receipt that is handed over. -/
theorem handOver (g : Gateway W) (k : String) (w : Waiter) (c : Confirmation) :
    SameTrackers g (g.handOver k w c) := by
  cases w with
  | watcher name view => cases view <;> exact .of_desks rfl rfl
  | ticket n =>
    unfold Gateway.handOver
    dsimp only
    split
    · have hdropped : SameTrackers g (g.dropErrand n) := .of_desks rfl rfl
      exact hdropped.trans (.of_ensues (ensues_conclude _ _ _))
    · exact .refl g
  | escrow =>
    have htold : SameTrackers g (g.updateDesk k (·.tellEscrow (Escrow.Phase.received c))) :=
      .updateDesk (fun _ h => h) fun _ => rfl
    exact htold.trans (.of_desks rfl rfl)

/-- Taking note of what happened changes the meters as they observe it. -/
theorem absorb (g : Gateway W) (k : String) (notices : List (Receipt.Notice Waiter)) :
    SameTrackers { g with meters := g.meters.observeAll notices } (g.absorb k notices) := by
  have hfold : ∀ (handed : List (Waiter × Confirmation)) (g : Gateway W),
      SameTrackers g (handed.foldl (fun g h => g.handOver k h.1 h.2) g) := by
    intro handed
    induction handed with
    | nil => exact .refl
    | cons h hs ih => exact fun g => (handOver g k h.1 h.2).trans (ih _)
  exact hfold _ _

end SameTrackers

/-! ## Operations of trackers -/

/-- The notices of an operation of the tracker of a ledger, if it has one. -/
def noticesOf (g : Gateway W) (k : String)
    (f : Receipt.Tracker Waiter → Receipt.Tracker Waiter × List (Receipt.Notice Waiter)) :
    List (Receipt.Notice Waiter) :=
  (g.trackerAt k).elim [] fun t => (f t).2

/-- What an operation of the tracker of a ledger does: that tracker changes, the others do
    not, and the meters observe what happened. -/
structure Operates (g : Gateway W) (k : String)
    (f : Receipt.Tracker Waiter → Receipt.Tracker Waiter × List (Receipt.Notice Waiter))
    (g' : Gateway W) : Prop where
  ledgers : g'.ledgerIds = g.ledgerIds
  trackers : ∀ ledgerId, g'.trackerAt ledgerId =
    if ledgerId = k then (g.trackerAt k).map fun t => (f t).1 else g.trackerAt ledgerId
  meters : g'.meters = g.meters.observeAll (g.noticesOf k f)

variable {f : Receipt.Tracker Waiter → Receipt.Tracker Waiter × List (Receipt.Notice Waiter)}

/-- What comes after an operation may leave the trackers alone. -/
theorem Operates.same {g'' : Gateway W} {k : String} (h : Operates g k f g')
    (hsame : SameTrackers g' g'') : Operates g k f g'' where
  ledgers := hsame.ledgers.trans h.ledgers
  trackers ledgerId := (hsame.trackers ledgerId).trans (h.trackers ledgerId)
  meters := hsame.meters.trans h.meters

/-- **An operation of a tracker in a gateway.** -/
theorem operates_withTracker (g : Gateway W) (k : String) (m : Receipt.Move Waiter) :
    Operates g k (·.after m) (g.withTracker k (·.after m)) := by
  rw [withTracker_after, withDesk]
  cases hd : g.desk? k with
  | none =>
    have hnone : g.trackerAt k = none := by rw [trackerAt, hd]; rfl
    refine Operates.same ⟨rfl, fun ledgerId => ?_, ?_⟩ (.absorb g k [])
    · show g.trackerAt ledgerId = _
      split
      · rename_i hk
        rw [hk, hnone]
        rfl
      · rfl
    · rw [noticesOf, hnone]
      rfl
  | some d =>
    have hsome : g.trackerAt k = some d.tracker := by rw [trackerAt, hd]; rfl
    have hid : d.ledgerId = k := ledgerId_of_desk? hd
    let changed : Desk → Desk := fun _ => { d with tracker := (d.tracker.after m).1 }
    have hchanged : ∀ e : Desk, e.ledgerId = k → (changed e).ledgerId = k := fun _ _ => hid
    refine Operates.same ⟨?_, fun ledgerId => ?_, ?_⟩
      (.absorb (g.updateDesk k changed) k (d.tracker.after m).2)
    · exact ledgerIds_updateDesk hchanged
    · have htracker := trackerAt_updateDesk (g := g) hchanged ledgerId
      rw [hd] at htracker
      rw [hsome]
      exact htracker
    · rw [noticesOf, hsome]
      rfl

/-! ## The beginning -/

/-- Fittings that refuse nothing, without delegates of the embedder. -/
def plainFittings : Fittings := ⟨true, true, fun _ => some fun _ => .ok (), []⟩

/-- The parts that a gateway is built of. -/
structure Built (c : Config) (fit : Fittings) (g : Gateway W) : Prop where
  valid : c.validate = .ok ()
  desks : fit.desks c c.ledgers = .ok g.desks
  ledgers : LedgerTable.ofList (c.ledgers.map LedgerSettings.entry) (some c.defaultLedgerId) =
    .ok g.ledgers
  delegates : Assignments.ofList Delegate.key
    (standardDelegates g.ledgers.brands ++ fit.delegates) = .ok g.delegates
  fresh : g = ofParts c g.ledgers g.delegates g.desks g.outside

theorem built_of {c : Config} {fit : Fittings} {w : W} (h : build c fit w = .ok g) :
    Built c fit g := by
  obtain ⟨hsensible, hsuits, hkeys, rfl⟩ := build_eq_ok_iff.1 h
  exact {
    valid := Config.validate_eq_ok_iff.2 hsensible
    desks := Fittings.desks_eq_ok_iff.2 ⟨hsuits.equips, rfl⟩
    ledgers := Config.ofList_eq_ok_iff.2 ⟨hsensible.usable, rfl⟩
    delegates := Assignments.ofList_eq_ok_iff.2 ⟨hkeys, rfl⟩
    fresh := rfl }

/-- Every desk that was fitted has a new tracker. -/
theorem tracker_of_desks {c : Config} {fit : Fittings} {ls : List LedgerSettings}
    {desks : List Desk} (h : fit.desks c ls = .ok desks) {d : Desk} (hd : d ∈ desks) :
    d.tracker = .new c.recentReceipts.toNat := by
  obtain ⟨-, rfl⟩ := Fittings.desks_eq_ok_iff.1 h
  obtain ⟨l, -, rfl⟩ := List.mem_map.1 hd
  rfl

/-- The table of ledgers is that of the configuration. -/
theorem Built.table {c : Config} {fit : Fittings} (h : Built c fit g) : g.ledgers = c.table :=
  (Config.ofList_eq_ok_iff.1 h.ledgers).2

theorem Built.ledgerIds {c : Config} {fit : Fittings} (h : Built c fit g) :
    g.ledgerIds = c.ledgers.map (·.id) := (escrow_of_desks h.desks).1

theorem Built.nodup {c : Config} {fit : Fittings} (h : Built c fit g) : g.ledgerIds.Nodup := by
  rw [h.ledgerIds]
  exact (Config.validate_eq_ok_iff.1 h.valid).distinct

/-- **Every ledger begins with a new tracker.** -/
theorem Built.trackerAt {c : Config} {fit : Fittings} (h : Built c fit g) (k : String) :
    g.trackerAt k = if k ∈ g.ledgerIds then some (.new c.recentReceipts.toNat) else none := by
  split
  · rename_i hk
    obtain ⟨d, hd, rfl⟩ := List.mem_map.1 hk
    rw [Gateway.trackerAt, desk?_of_mem h.nodup hd, Option.map_some, tracker_of_desks h.desks hd]
  · rename_i hk
    have hnone : g.desk? k = none := by
      refine List.find?_eq_none.2 fun d hd hsame => hk ?_
      exact List.mem_map.2 ⟨d, hd, by simpa using hsame⟩
    rw [Gateway.trackerAt, hnone]
    rfl

end Gateway

end LedgerGate
