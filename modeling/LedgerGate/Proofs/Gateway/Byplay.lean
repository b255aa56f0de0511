/-
  What happens to a gateway beside its requests and its trackers.

  Time passes, timers go off, bootstraps and the scanner go on, the world outside answers.
  Nothing that a request depends on changes, and no request is routed.

  * `Gateway.routed`: the requests that have a route and are to be worked on;
  * `Gateway.Byplay`: what happens beside; `Byplay.consult`, `start`, `abort` and others: all
    that is such;
  * `Gateway.SameRoutes`: no request is routed, whatever else happens; outcomes, receipts and
    prepared work are such.
-/
import LedgerGate.Proofs.Gateway.Deliveries
import LedgerGate.Proofs.Gateway.Floor

namespace LedgerGate

/-! ## Byplay -/

/-- The route that a request is to be worked on along, and its input, if a job is that. -/
def Job.routed? : Job → Option (Route Delegate × Option Input)
  | .apply _ route input => some (route, input)
  | _ => none

namespace Gateway

variable {W : Type} {g g' g'' : Gateway W}

/-- The requests that have been routed and are to be worked on. -/
def routed (g : Gateway W) : List (Route Delegate × Option Input) :=
  (g.ready ++ g.timers.entries.map (·.2)).filterMap Job.routed?

/-- A request that is routed is one more. -/
theorem of_routed_enqueue {e : Errand} {route : Route Delegate} {input : Option Input}
    {x : Route Delegate × Option Input} (h : x ∈ (g.enqueue (.apply e route input)).routed) :
    x ∈ g.routed ∨ x = (route, input) := by
  obtain ⟨j, hj, hx⟩ := List.mem_filterMap.1 h
  rcases List.mem_append.1 hj with hj | hj
  · rcases List.mem_append.1 hj with hj | hj
    · exact .inl (List.mem_filterMap.2 ⟨j, List.mem_append_left _ hj, hx⟩)
    · rw [List.mem_singleton.1 hj] at hx
      cases hx
      exact .inr rfl
  · exact .inl (List.mem_filterMap.2 ⟨j, List.mem_append_right _ hj, hx⟩)

theorem routed_append_ready (g : Gateway W) {jobs : List Job} (h : ∀ j ∈ jobs, j.routed? = none) :
    ({ g with ready := g.ready ++ jobs } : Gateway W).routed = g.routed := by
  simp only [routed, List.filterMap_append, List.filterMap_eq_nil_iff.2 h, List.append_nil]

/-- The parts of a gateway that requests, trackers and jobs depend on. -/
def core (g : Gateway W) : Config × LedgerTable × Assignments Delegate × List Desk × Nat ×
    List (Nat × Errand) × Array Event × List Job × Timers Job :=
  (g.config, g.ledgers, g.delegates, g.desks, g.tickets, g.errands, g.events, g.ready, g.timers)

/-- Jobs and timers are no matter of requests that are under way. -/
theorem Aside.jobs (g : Gateway W) (ready : List Job) (timers : Timers Job) :
    Aside g { g with ready, timers } := ⟨⟨rfl, rfl, rfl, rfl, rfl, rfl⟩, fun _ => rfl⟩

/-- What happens beside requests and trackers. -/
structure Byplay (g g' : Gateway W) : Prop extends Aside g g' where
  routed : g'.routed ⊆ g.routed

namespace Byplay

theorem refl (g : Gateway W) : Byplay g g := ⟨.refl g, fun _ => id⟩

theorem trans (h : Byplay g g') (h' : Byplay g' g'') : Byplay g g'' :=
  ⟨h.toAside.trans h'.toAside, fun _ hx => h.routed (h'.routed hx)⟩

theorem of_routed (h : Aside g g') (hr : g'.routed = g.routed) : Byplay g g' :=
  ⟨h, hr ▸ fun _ => id⟩

/-- Nothing has changed that requests, trackers or jobs depend on. -/
theorem of_core (h : g'.core = g.core) : Byplay g g' := by
  simp only [core, Prod.mk.injEq] at h
  obtain ⟨hconfig, hledgers, hdelegates, hdesks, htickets, herrands, hevents, hready, htimers⟩ := h
  refine .of_routed ⟨⟨?_, hledgers, hdelegates, htickets, herrands, ?_⟩, fun k => ?_⟩ ?_
  · rw [maxDepth, maxDepth, hconfig]
  · rw [responses, responses, hevents]
  · rw [trackerAt, trackerAt, desk?, desk?, hdesks]
  · rw [Gateway.routed, Gateway.routed, hready, htimers]

/-- Jobs become ready that are not about requests. -/
theorem jobs (g : Gateway W) {jobs : List Job} (h : ∀ j ∈ jobs, j.routed? = none) :
    Byplay g { g with ready := g.ready ++ jobs } :=
  .of_routed (.jobs g _ _) (g.routed_append_ready h)

theorem enqueue (g : Gateway W) {j : Job} (h : j.routed? = none) : Byplay g (g.enqueue j) :=
  .jobs g fun _ hj => List.mem_singleton.1 hj ▸ h

/-- A timer is set for a job that is not about a request. -/
theorem setTimer (g : Gateway W) (time : Nat) {job : Job} (h : job.routed? = none) :
    Byplay g { g with timers := g.timers.set time job } := by
  have hentries : ∀ entries : List (Nat × Job),
      ((Timers.insertEntry time job entries).map (·.2)).filterMap Job.routed? =
        (entries.map (·.2)).filterMap Job.routed? := by
    intro entries
    induction entries with
    | nil => simp [Timers.insertEntry, h]
    | cons e es ih =>
      unfold Timers.insertEntry
      split
      · simp only [List.map_cons, List.filterMap_cons, ih]
      · simp only [List.map_cons, List.filterMap_cons, h]
  refine .of_routed (.jobs g _ _) ?_
  simp only [Gateway.routed, Timers.set, List.filterMap_append, hentries]

/-- A job is taken up. -/
theorem takeUp {job : Job} {rest : List Job} (hready : g.ready = job :: rest) :
    Byplay g { g with ready := rest } := by
  refine ⟨.jobs g _ _, ?_⟩
  have hless : rest.Sublist g.ready := hready ▸ List.sublist_cons_self job rest
  exact ((hless.append_right _).filterMap _).subset

/-- Timers are taken away. -/
theorem timers (g : Gateway W) {entries : List (Nat × Job)}
    (h : entries.Sublist g.timers.entries) : Byplay g { g with timers := ⟨entries⟩ } := by
  refine ⟨.jobs g _ _, ?_⟩
  exact (((h.map _).append_left g.ready).filterMap _).subset

/-- Timers that are due go off. -/
theorem ring (g : Gateway W) : Byplay g
    { g with ready := g.ready ++ g.timers.due g.now, timers := g.timers.after g.now } := by
  refine .of_routed (.jobs g _ _) ?_
  rw [Gateway.routed, Gateway.routed, ← due_append_after g.timers g.now, List.append_assoc]

/-- An event is told of that is no response. -/
theorem tell (g : Gateway W) {e : Event} (h : e.response? = none) : Byplay g (g.tell e) :=
  .of_routed (.tell g h) rfl

theorem reportScan (g : Gateway W) (audience : Option String) (report : Receipt.Report) :
    Byplay g (g.reportScan audience report) := by
  cases audience with
  | none => exact .refl g
  | some name => exact .tell g rfl

theorem tellEscrow (g : Gateway W) (k : String) (news : Escrow.Phase → Escrow.Phase) :
    Byplay g (g.updateDesk k (·.tellEscrow news)) :=
  .of_routed (.updateDesk (fun _ h => h) fun _ => rfl) rfl

/-- A tick makes scans ready and sets a timer. -/
theorem tick (fuel due : Nat) (g : Gateway W) : Byplay g (Gateway.tick fuel due g) := by
  induction fuel generalizing due g with
  | zero => exact .refl g
  | succ fuel ih =>
    unfold Gateway.tick
    split
    · have hdue : Byplay g { g with scanner := some due } := .of_core rfl
      exact hdue.trans (.setTimer _ due rfl)
    · refine .trans (.jobs g fun j hj => ?_) (ih _ _)
      obtain ⟨d, -, rfl⟩ := List.mem_map.1 hj
      rfl

theorem runScanner (g : Gateway W) : Byplay g g.runScanner := by
  unfold Gateway.runScanner
  split
  · exact .refl g
  · split
    · exact .of_core rfl
    · exact .tick _ _ g

theorem withShutdown (g : Gateway W) (s : Shutdown Listener) : Byplay g (g.withShutdown s) := by
  have hsignal : Byplay g { g with shutdown := s } := .of_core rfl
  unfold Gateway.withShutdown
  dsimp only
  split
  · exact hsignal.trans (.jobs _ fun j hj => List.mem_singleton.1 hj ▸ rfl)
  · exact hsignal

theorem grantLeases (g : Gateway W) : Byplay g g.grantLeases := by
  unfold Gateway.grantLeases
  induction g.leases.holders generalizing g with
  | nil => exact .refl g
  | cons holder rest ih =>
    refine .trans ?_ (ih _)
    dsimp only
    split
    · split
      · exact (tellEscrow g holder _).trans (.enqueue _ rfl)
      · exact .refl g
    · exact .refl g

theorem start (g : Gateway W) : Byplay g g.start := by
  have hescrow : ∀ (g : Gateway W) (d : Desk), Byplay g (g.startEscrow d) := by
    intro g d
    unfold Gateway.startEscrow
    split
    · exact (tellEscrow g d.ledgerId _).trans (.enqueue _ rfl)
    · exact .refl g
  have hescrows : ∀ (desks : List Desk) (g : Gateway W),
      Byplay g (desks.foldl Gateway.startEscrow g) := by
    intro desks
    induction desks with
    | nil => exact .refl
    | cons d ds ih => exact fun g => (hescrow g d).trans (ih _)
  unfold Gateway.start
  split
  · exact .refl g
  · let signalled : Gateway W :=
      { g with started := true, shutdown := g.shutdown.subscribe .scanner }
    have hsignal : Byplay g signalled := .of_core rfl
    have hescrowed := hsignal.trans (hescrows g.desks signalled)
    show Byplay g ({ g.desks.foldl Gateway.startEscrow signalled with
      scanner := some (g.desks.foldl Gateway.startEscrow signalled).now }.enqueue .scanner)
    generalize g.desks.foldl Gateway.startEscrow signalled = g₁ at hescrowed ⊢
    have hdue : Byplay g₁ { g₁ with scanner := some g₁.now } := .of_core rfl
    exact (hescrowed.trans hdue).trans (.enqueue _ rfl)

theorem abort (g : Gateway W) : Byplay g g.abort := by
  refine ⟨⟨⟨rfl, rfl, rfl, rfl, rfl, rfl⟩, fun k => ?_⟩, ?_⟩
  · rw [trackerAt, trackerAt, desk?_abort, Option.map_map]
    exact congrArg (fun f => (g.desk? k).map f) (funext fun d => tracker_haltIn _ d)
  · have hless : g.abort.timers.entries.Sublist g.timers.entries :=
      (List.filter_sublist).trans List.filter_sublist
    exact (timers g hless).routed

variable [Outside W]

/-- A question of a bootstrap may have to wait for its answer. -/
theorem askLedger (g : Gateway W) (k : String) (q : Ledger.Query) :
    Byplay g (g.askLedger k q).2 := by
  obtain ⟨delays, h | ⟨time, h⟩⟩ := g.askLedger_cases k q <;> rw [h]
  · exact .of_core rfl
  · have hasked : Byplay g { g with delays } := .of_core rfl
    exact hasked.trans (.setTimer _ time rfl)

theorem recentBlock (g : Gateway W) (k : String) : Byplay g (g.recentBlock k).2 := by
  unfold Gateway.recentBlock
  split
  · exact .refl g
  · rename_i d _
    have hanswered : Byplay g { g with outside :=
        ((d.recent.get (Outside.clock g.outside)).run (Outside.ledger k) g.outside).2 } :=
      .of_core rfl
    exact hanswered.trans (.of_routed (.updateDesk (fun _ h => h) fun _ => rfl) rfl)

/-- **A question that is answered** is a matter of the world outside. -/
theorem consult (k : String) (q : Delegate.Question) (g : Gateway W) :
    Byplay g (Gateway.consult k q g).2 := by
  cases q with
  | ledger q => exact .of_core rfl
  | lookup l => exact .refl g
  | recentBlock => exact recentBlock g k
  | escrow =>
    simp only [Gateway.consult]
    split <;> exact .refl g
  | clock => exact .refl g

end Byplay

theorem Aside.of_core (h : g'.core = g.core) : Aside g g' := (Byplay.of_core h).toAside

/-! ## Routes -/

/-- The tables that requests are routed by are as they were, and none is routed anew. -/
structure SameRoutes (g g' : Gateway W) : Prop where
  ledgers : g'.ledgers = g.ledgers
  delegates : g'.delegates = g.delegates
  routed : g'.routed ⊆ g.routed

namespace SameRoutes

theorem refl (g : Gateway W) : SameRoutes g g := ⟨rfl, rfl, fun _ => id⟩

theorem trans (h : SameRoutes g g') (h' : SameRoutes g' g'') : SameRoutes g g'' where
  ledgers := h'.ledgers.trans h.ledgers
  delegates := h'.delegates.trans h.delegates
  routed _ hx := h.routed (h'.routed hx)

theorem of_byplay (h : Byplay g g') : SameRoutes g g' := ⟨h.ledgers, h.delegates, h.routed⟩

/-- An outcome routes no request, -/
theorem conclude (g : Gateway W) (e : Errand) (outcome : Except Fault (Reply Sequel)) :
    SameRoutes g (g.conclude e outcome) := by
  obtain ⟨told, waiting, heq, -⟩ := ensues_conclude g e outcome
  rw [heq]
  exact ⟨rfl, rfl, fun _ => id⟩

/-- and neither does a receipt that is handed over, -/
theorem handOver (g : Gateway W) (k : String) (w : Waiter) (c : Confirmation) :
    SameRoutes g (g.handOver k w c) := by
  cases w with
  | watcher name view => cases view <;> exact ⟨rfl, rfl, fun _ => id⟩
  | ticket n =>
    unfold Gateway.handOver
    dsimp only
    split
    · have hdropped : SameRoutes g (g.dropErrand n) := ⟨rfl, rfl, fun _ => id⟩
      exact hdropped.trans (conclude _ _ _)
    · exact refl g
  | escrow => exact of_byplay ((Byplay.tellEscrow g k _).trans (.enqueue _ rfl))

theorem absorb (g : Gateway W) (k : String) (notices : List (Receipt.Notice Waiter)) :
    SameRoutes g (g.absorb k notices) := by
  have hfold : ∀ (handed : List (Waiter × Confirmation)) (g : Gateway W),
      SameRoutes g (handed.foldl (fun g h => g.handOver k h.1 h.2) g) := by
    intro handed
    induction handed with
    | nil => exact refl
    | cons h hs ih => exact fun g => (handOver g k h.1 h.2).trans (ih _)
  have hmeters : SameRoutes g { g with meters := g.meters.observeAll notices } :=
    ⟨rfl, rfl, fun _ => id⟩
  exact hmeters.trans (hfold _ _)

/-- nor work that is prepared. -/
theorem prepare (g : Gateway W) (e : Errand) (k : String) (mode : ReplyMode) (workId : WorkId)
    (recent : Option UInt64) : SameRoutes g (g.prepare e k mode workId recent) := by
  have henrolled : SameRoutes g (g.enrolled k workId) := by
    unfold enrolled withDesk
    split <;> exact ⟨rfl, rfl, fun _ => id⟩
  rw [prepare_eq]
  split
  · exact henrolled.trans (conclude _ _ _)
  · exact henrolled.trans ⟨rfl, rfl, fun _ => id⟩
  · exact henrolled.trans (conclude _ _ _)
  · exact henrolled.trans (conclude _ _ _)

end SameRoutes

end Gateway

end LedgerGate
