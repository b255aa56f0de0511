/-
  A gateway in a world that keeps a record of what ledgers are asked.

  Whatever a gateway does that is not the work on a request leaves the requests that are under
  way as they are, in their order, and asks ledgers in the background if at all.

  * `Recorded`: a world with the record;
  * `Gateway.requests`: the jobs that are requests under way;
  * `Gateway.Asks`: what is asked between two gateways while no request gets on;
  * `Gateway.asks_consult`: a question of a delegate;
  * `Gateway.Idle`, `Gateway.Beside`: nothing is asked, or only in the background; everything
    else that a gateway does is such.
-/
import LedgerGate.Proofs.Gateway.Byplay
import LedgerGate.Proofs.Gateway.Traffic

namespace LedgerGate

/-! ## The record -/

/-- A world outside, and all that its ledgers were asked. -/
structure Recorded (W : Type) where
  world : W
  asked : List (String × Ledger.Query)

instance {W : Type} [Outside W] : Outside (Recorded W) where
  ledger ledgerId q r :=
    let answer := Outside.ledger ledgerId q r.world
    (answer.1, ⟨answer.2, r.asked ++ [(ledgerId, q)]⟩)
  store q r :=
    let answer := Outside.store q r.world
    (answer.1, { r with world := answer.2 })
  lookup l r := Outside.lookup l r.world
  draw r :=
    let drawn := Outside.draw r.world
    (drawn.1, { r with world := drawn.2 })
  clock r := Outside.clock r.world

/-! ## Requests under way -/

/-- Whether a job is a request that gets on. -/
def Job.isRequest : Job → Bool
  | plan _ _ _ => true
  | apply _ _ _ => true
  | _ => false

namespace Gateway

section
variable {W : Type} (g : Gateway W)

/-- The requests that are under way, in their order. -/
def requests : List Job := g.ready.filter Job.isRequest

/-- No request is set for later. -/
def Clear : Prop := ∀ e ∈ g.timers.entries, e.2.isRequest = false

/-- The parts of a gateway that requests under way, and what is asked for them, depend on. -/
def bearing : LedgerTable × Assignments Delegate × List Job × Timers Job × W :=
  (g.ledgers, g.delegates, g.ready, g.timers, g.outside)

end

variable {W : Type} {g g' g'' : Gateway (Recorded W)}
  {more more' : List (String × Ledger.Query)}

/-- Ledgers are asked something, and no request gets on. -/
structure Asks (more : List (String × Ledger.Query)) (g g' : Gateway (Recorded W)) : Prop where
  ledgers : g'.ledgers = g.ledgers
  delegates : g'.delegates = g.delegates
  clear : g.Clear → g'.Clear
  requests : g.Clear → g'.requests = g.requests
  asked : g'.outside.asked = g.outside.asked ++ more

/-- Nothing is asked, and no request gets on. -/
abbrev Idle (g g' : Gateway (Recorded W)) : Prop := Asks [] g g'

theorem Asks.trans (h : Asks more g g') (h' : Asks more' g' g'') : Asks (more ++ more') g g'' where
  ledgers := h'.ledgers.trans h.ledgers
  delegates := h'.delegates.trans h.delegates
  clear := h'.clear ∘ h.clear
  requests hclear := (h'.requests (h.clear hclear)).trans (h.requests hclear)
  asked := by rw [h'.asked, h.asked, List.append_assoc]

theorem Asks.idle (h : Asks more g g') (h' : Idle g' g'') : Asks more g g'' := by
  have htrans := h.trans h'
  rwa [List.append_nil] at htrans

namespace Idle

theorem of_bearing (h : g'.bearing = g.bearing) : Idle g g' := by
  simp only [bearing, Prod.mk.injEq] at h
  obtain ⟨hledgers, hdelegates, hready, htimers, houtside⟩ := h
  refine ⟨hledgers, hdelegates, fun hclear => ?_, fun _ => ?_, ?_⟩
  · rwa [Clear, htimers]
  · rw [Gateway.requests, Gateway.requests, hready]
  · rw [houtside, List.append_nil]

theorem refl (g : Gateway (Recorded W)) : Idle g g := .of_bearing rfl

theorem trans (h : Idle g g') (h' : Idle g' g'') : Idle g g'' := Asks.idle h h'

/-- Jobs become ready that are no requests. -/
theorem jobs (g : Gateway (Recorded W)) {jobs : List Job} (h : ∀ j ∈ jobs, j.isRequest = false) :
    Idle g { g with ready := g.ready ++ jobs } := by
  have hnone : jobs.filter Job.isRequest = [] := by
    refine List.filter_eq_nil_iff.2 fun j hj => ?_
    rw [h j hj]
    exact Bool.false_ne_true
  refine ⟨rfl, rfl, id, fun _ => ?_, (List.append_nil _).symm⟩
  rw [Gateway.requests, Gateway.requests, List.filter_append, hnone, List.append_nil]

theorem enqueue (g : Gateway (Recorded W)) {j : Job} (h : j.isRequest = false) :
    Idle g (g.enqueue j) :=
  .jobs g fun _ hj => List.mem_singleton.1 hj ▸ h

/-- Timers are set that are for no requests, or taken away. -/
theorem timers (g : Gateway (Recorded W)) {timers : Timers Job}
    (h : ∀ e ∈ timers.entries, e ∈ g.timers.entries ∨ e.2.isRequest = false) :
    Idle g { g with timers } := by
  refine ⟨rfl, rfl, fun hclear e he => ?_, fun _ => rfl, (List.append_nil _).symm⟩
  rcases h e he with hold | hnew
  · exact hclear e hold
  · exact hnew

theorem setTimer (g : Gateway (Recorded W)) (time : Nat) {job : Job} (h : job.isRequest = false) :
    Idle g { g with timers := g.timers.set time job } := by
  have hentries : ∀ entries : List (Nat × Job), ∀ e ∈ Timers.insertEntry time job entries,
      e ∈ entries ∨ e = (time, job) := by
    intro entries
    induction entries with
    | nil => exact fun e he => Or.inr (List.mem_singleton.1 he)
    | cons first rest ih =>
      intro e he
      unfold Timers.insertEntry at he
      split at he
      · rcases List.mem_cons.1 he with rfl | he
        · exact Or.inl List.mem_cons_self
        · exact (ih e he).imp (List.mem_cons_of_mem first) id
      · rcases List.mem_cons.1 he with rfl | he
        · exact Or.inr rfl
        · exact Or.inl he
  refine .timers g fun e he => (hentries _ e he).imp id ?_
  rintro rfl
  exact h

theorem discard (g : Gateway (Recorded W)) (unwanted : Job → Bool) :
    Idle g { g with timers := g.timers.discard unwanted } :=
  .timers g fun _ he => Or.inl (List.mem_of_mem_filter he)

/-- Timers that are due go off. -/
theorem ring (g : Gateway (Recorded W)) : Idle g
    { g with ready := g.ready ++ g.timers.due g.now, timers := g.timers.after g.now } := by
  have hafter : Idle g { g with timers := g.timers.after g.now } :=
    .timers g fun e he => Or.inl ((List.dropWhile_sublist _).subset he)
  refine ⟨rfl, rfl, hafter.clear, fun hclear => ?_, (List.append_nil _).symm⟩
  refine (jobs g fun j hj => ?_).requests hclear
  obtain ⟨e, he, rfl⟩ := List.mem_map.1 hj
  exact hclear e ((List.takeWhile_sublist _).subset he)

/-! ### Outcomes and receipts -/

theorem conclude (g : Gateway (Recorded W)) (e : Errand) (outcome : Except Fault (Reply Sequel)) :
    Idle g (g.conclude e outcome) := by
  obtain ⟨told, waiting, heq, -⟩ := ensues_conclude g e outcome
  rw [heq]
  exact .of_bearing rfl

theorem handOver (g : Gateway (Recorded W)) (k : String) (w : Waiter) (c : Confirmation) :
    Idle g (g.handOver k w c) := by
  cases w with
  | watcher name view => cases view <;> exact .of_bearing rfl
  | ticket n =>
    unfold Gateway.handOver
    dsimp only
    split
    · have hdropped : Idle g (g.dropErrand n) := .of_bearing rfl
      exact hdropped.trans (conclude _ _ _)
    · exact refl g
  | escrow =>
    have htold : Idle g (g.updateDesk k (·.tellEscrow (Escrow.Phase.received c))) :=
      .of_bearing rfl
    exact htold.trans (enqueue _ rfl)

theorem absorb (g : Gateway (Recorded W)) (k : String) (notices : List (Receipt.Notice Waiter)) :
    Idle g (g.absorb k notices) := by
  have hfold : ∀ (handed : List (Waiter × Confirmation)) (g : Gateway (Recorded W)),
      Idle g (handed.foldl (fun g h => g.handOver k h.1 h.2) g) := by
    intro handed
    induction handed with
    | nil => exact refl
    | cons h hs ih => exact fun g => (handOver g k h.1 h.2).trans (ih _)
  have hmeters : Idle g { g with meters := g.meters.observeAll notices } := .of_bearing rfl
  exact hmeters.trans (hfold _ _)

theorem withDesk {α : Type} (g : Gateway (Recorded W)) (k : String) (missing : α)
    (f : Desk → α × Desk) : Idle g (g.withDesk k missing f).2 := by
  unfold Gateway.withDesk
  split <;> exact .of_bearing rfl

theorem withTracker (g : Gateway (Recorded W)) (k : String) (m : Receipt.Move Waiter) :
    Idle g (g.withTracker k (·.after m)) := by
  rw [withTracker_after]
  exact (withDesk g k _ _).trans (absorb _ k _)

theorem enrolled (g : Gateway (Recorded W)) (k : String) (workId : WorkId) :
    Idle g (g.enrolled k workId) :=
  (withDesk g k ([], Receipt.Prospect.awaited) _).trans (.of_bearing rfl)

theorem prepare (g : Gateway (Recorded W)) (e : Errand) (k : String) (mode : ReplyMode)
    (workId : WorkId) (recent : Option UInt64) : Idle g (g.prepare e k mode workId recent) := by
  have henrolled := enrolled g k workId
  rw [prepare_eq]
  split
  · exact henrolled.trans (conclude _ _ _)
  · exact henrolled.trans (.of_bearing rfl)
  · exact henrolled.trans (conclude _ _ _)
  · exact henrolled.trans (conclude _ _ _)

theorem reportScan (g : Gateway (Recorded W)) (audience : Option String) (r : Receipt.Report) :
    Idle g (g.reportScan audience r) := by
  cases audience <;> exact .of_bearing rfl

/-! ### The scanner, leases, the start and the end -/

theorem tick (fuel due : Nat) (g : Gateway (Recorded W)) : Idle g (Gateway.tick fuel due g) := by
  induction fuel generalizing due g with
  | zero => exact refl g
  | succ fuel ih =>
    unfold Gateway.tick
    split
    · have hdue : Idle g { g with scanner := some due } := .of_bearing rfl
      exact hdue.trans (setTimer _ due rfl)
    · refine (jobs g fun j hj => ?_).trans (ih _ _)
      obtain ⟨d, -, rfl⟩ := List.mem_map.1 hj
      rfl

theorem runScanner (g : Gateway (Recorded W)) : Idle g g.runScanner := by
  unfold Gateway.runScanner
  split
  · exact refl g
  · split
    · exact .of_bearing rfl
    · exact tick _ _ g

theorem withShutdown (g : Gateway (Recorded W)) (s : Shutdown Listener) :
    Idle g (g.withShutdown s) := by
  have hsignal : Idle g { g with shutdown := s } := .of_bearing rfl
  unfold Gateway.withShutdown
  dsimp only
  split
  · exact hsignal.trans (jobs _ fun j hj => List.mem_singleton.1 hj ▸ rfl)
  · exact hsignal

/-- A bootstrap hears of something, and goes on. -/
theorem rouse (g : Gateway (Recorded W)) (k : String) (news : Escrow.Phase → Escrow.Phase) :
    Idle g ((g.updateDesk k (·.tellEscrow news)).enqueue (.bootstrap k)) := by
  have htold : Idle g (g.updateDesk k (·.tellEscrow news)) := .of_bearing rfl
  exact htold.trans (enqueue _ rfl)

theorem grantLeases (g : Gateway (Recorded W)) : Idle g g.grantLeases := by
  unfold Gateway.grantLeases
  induction g.leases.holders generalizing g with
  | nil => exact refl g
  | cons holder rest ih =>
    refine .trans ?_ (ih _)
    dsimp only
    split
    · split
      · exact rouse g holder _
      · exact refl g
    · exact refl g

theorem start (g : Gateway (Recorded W)) : Idle g g.start := by
  have hescrow : ∀ (g : Gateway (Recorded W)) (d : Desk), Idle g (g.startEscrow d) := by
    intro g d
    unfold Gateway.startEscrow
    split
    · exact rouse g d.ledgerId _
    · exact refl g
  have hescrows : ∀ (desks : List Desk) (g : Gateway (Recorded W)),
      Idle g (desks.foldl Gateway.startEscrow g) := by
    intro desks
    induction desks with
    | nil => exact refl
    | cons d ds ih => exact fun g => (hescrow g d).trans (ih _)
  unfold Gateway.start
  split
  · exact refl g
  · let signalled : Gateway (Recorded W) :=
      { g with started := true, shutdown := g.shutdown.subscribe .scanner }
    have hsignal : Idle g signalled := .of_bearing rfl
    have hescrowed := hsignal.trans (hescrows g.desks signalled)
    show Idle g ({ g.desks.foldl Gateway.startEscrow signalled with
      scanner := some (g.desks.foldl Gateway.startEscrow signalled).now }.enqueue .scanner)
    generalize g.desks.foldl Gateway.startEscrow signalled = g₁ at hescrowed ⊢
    have hdue : Idle g₁ { g₁ with scanner := some g₁.now } := .of_bearing rfl
    exact (hescrowed.trans hdue).trans (enqueue _ rfl)

theorem abort (g : Gateway (Recorded W)) : Idle g g.abort := by
  have hdiscarded : Idle g { g with timers := g.abort.timers } :=
    timers g fun _ he => Or.inl (List.mem_of_mem_filter (List.mem_of_mem_filter he))
  exact hdiscarded.trans (.of_bearing rfl)

end Idle

/-! ## In the background -/

/-- No request gets on, and what is asked is asked in the background. -/
def Beside (g g' : Gateway (Recorded W)) : Prop :=
  ∃ asked : List Asked, (∀ a ∈ asked, a.Background) ∧ Asks (asked.map Asked.put) g g'

theorem Asks.beside (h : Idle g g') : Beside g g' := ⟨[], List.forall_mem_nil _, h⟩

namespace Beside

theorem refl (g : Gateway (Recorded W)) : Beside g g := (Idle.refl g).beside

theorem trans (h : Beside g g') (h' : Beside g' g'') : Beside g g'' := by
  obtain ⟨asked, hasked, h⟩ := h
  obtain ⟨asked', hasked', h'⟩ := h'
  refine ⟨asked ++ asked', fun a ha => ?_, ?_⟩
  · rcases List.mem_append.1 ha with ha | ha
    · exact hasked a ha
    · exact hasked' a ha
  · rw [List.map_append]
    exact h.trans h'

theorem idle (h : Beside g g') (h' : Idle g' g'') : Beside g g'' := h.trans h'.beside

end Beside

variable [Outside W]

/-- A ledger is asked something. -/
theorem asks_ledger (g : Gateway (Recorded W)) (k : String) (q : Ledger.Query) :
    Asks [(k, q)] g { g with outside := (Outside.ledger k q g.outside).2 } :=
  ⟨rfl, rfl, id, fun _ => rfl, rfl⟩

/-- **A question of a delegate** is put to its ledger, or not at all. -/
theorem asks_consult (k : String) (q : Delegate.Question) (g : Gateway (Recorded W)) :
    ∃ more, q.Puts k more ∧ Asks more g (consult k q g).2 := by
  cases q with
  | ledger q => exact ⟨_, .ledger q, asks_ledger g k q⟩
  | lookup l => exact ⟨_, .lookup l, Idle.refl g⟩
  | recentBlock =>
    simp only [consult, recentBlock]
    split
    · exact ⟨_, .remembered, Idle.refl g⟩
    · rename_i d _
      unfold Ledger.RecentBlock.get
      split
      · exact ⟨_, .remembered, Idle.of_bearing rfl⟩
      · exact ⟨_, .renewed, (asks_ledger g k .blockNumber).idle (.of_bearing rfl)⟩
  | escrow =>
    refine ⟨_, .escrow, ?_⟩
    simp only [consult]
    split <;> exact Idle.refl g
  | clock => exact ⟨_, .clock, Idle.refl g⟩

namespace Beside

/-! ### Scans -/

/-- A scan asks a ledger about work. -/
theorem asked_runScan (k : String) (fuel : Nat) (t : Receipt.Tracker Waiter) (r : Recorded W) :
    ∃ asked : List Asked, (∀ a ∈ asked, a.Background) ∧
      (t.runScan (askOutside k) fuel r).2.2.2.asked = r.asked ++ asked.map Asked.put := by
  induction fuel generalizing t r with
  | zero => exact ⟨[], List.forall_mem_nil _, (List.append_nil _).symm⟩
  | succ fuel ih =>
    unfold Receipt.Tracker.runScan
    cases t.scan with
    | none => exact ⟨[], List.forall_mem_nil _, (List.append_nil _).symm⟩
    | some s =>
      dsimp only
      rcases t.answered (askOutside k s.current r).1 with ⟨t', notices, _ | report⟩
      · obtain ⟨asked, hasked, heq⟩ := ih t' (askOutside k s.current r).2
        refine ⟨⟨.scan, k, .confirmationOf s.current⟩ :: asked,
          List.forall_mem_cons.2 ⟨.scan k s.current, hasked⟩, heq.trans ?_⟩
        exact List.append_assoc _ [_] _
      · exact ⟨[⟨.scan, k, .confirmationOf s.current⟩],
          List.forall_mem_cons.2 ⟨.scan k s.current, List.forall_mem_nil _⟩, rfl⟩

theorem finishScan (g : Gateway (Recorded W)) (k : String) : Beside g (g.finishScan k).2 := by
  rw [finishScan_eq]
  split
  · exact .refl g
  · rename_i d _
    split
    · exact .refl g
    · rename_i s _
      obtain ⟨asked, hasked, heq⟩ := asked_runScan k (s.rest.length + 1) d.tracker g.outside
      rcases hscan : d.tracker.runScan (askOutside k) (s.rest.length + 1) g.outside with
        ⟨tracker, notices, report, outside⟩
      rw [hscan] at heq
      have hasks : Asks (asked.map Asked.put) g
          ({ g with outside }.updateDesk k fun d => { d with tracker, audience := none }) :=
        ⟨rfl, rfl, id, fun _ => rfl, heq⟩
      have hbeside : Beside g _ := ⟨asked, hasked, hasks.idle (.absorb _ k notices)⟩
      dsimp only
      split
      · exact hbeside.idle (.reportScan ..)
      · exact hbeside

theorem scan (g : Gateway (Recorded W)) (k : String) (audience : Option String) :
    Beside g (g.scan k audience).2 := by
  rw [scan_eq]
  split
  · exact .refl g
  · split
    · rename_i tracker notices report _
      have hbegun : Idle g (g.updateDesk k fun d => { d with tracker }) := .of_bearing rfl
      exact ((hbegun.trans (.absorb _ k notices)).trans (.reportScan ..)).beside
    · rename_i tracker notices _
      have hbegun : Idle g (g.updateDesk k fun d => { d with tracker, audience }) :=
        .of_bearing rfl
      have habsorbed := hbegun.trans (.absorb _ k notices)
      dsimp only
      split
      · exact habsorbed.beside
      · exact habsorbed.beside.trans (finishScan _ k)

/-! ### Bootstraps -/

/-- A question of a bootstrap is put to its ledger, or waits until it is. -/
theorem askLedger (g : Gateway (Recorded W)) {s : Escrow.Settings} {now : Nat} {p : Escrow.Phase}
    {q : Ledger.Query} {resume : q.Answer → Escrow.Phase} (hstep : p.step s now = .ledger q resume) :
    Beside g ((surroundings s).ledger q g).2 := by
  show Beside g (g.askLedger s.ledgerId q).2
  obtain ⟨delays, h | ⟨time, h⟩⟩ := g.askLedger_cases s.ledgerId q <;> rw [h]
  · have hasks : Asks [(s.ledgerId, q)] g
        { g with delays, outside := (Outside.ledger s.ledgerId q g.outside).2 } :=
      (asks_ledger g s.ledgerId q).idle (.of_bearing rfl)
    exact ⟨[⟨.bootstrap, s.ledgerId, q⟩],
      List.forall_mem_cons.2 ⟨.bootstrap hstep, List.forall_mem_nil _⟩, hasks⟩
  · have hdelayed : Idle g { g with delays } := .of_bearing rfl
    exact (hdelayed.trans (.setTimer _ time rfl)).beside

/-- **The work of a bootstrap** asks its ledger what the next step is. -/
theorem drive (s : Escrow.Settings) (fuel : Nat) (p : Escrow.Phase) (g : Gateway (Recorded W)) :
    Beside g (Escrow.drive (surroundings s) s fuel p g).2 := by
  induction fuel generalizing p g with
  | zero => exact .refl g
  | succ fuel ih =>
    unfold Escrow.drive
    split
    · exact .refl g
    · have hlease : Idle g ((surroundings s).lease g).2 := .of_bearing rfl
      split <;> rename_i g' h <;> rw [h] at hlease
      · exact hlease.beside.trans (ih _ _)
      · exact hlease.beside
    · have hdropped : Idle g { g with leases := (g.leases.drop s.ledgerId).cleanup } :=
        .of_bearing rfl
      exact (hdropped.trans (.grantLeases _)).beside.trans (ih _ _)
    · rename_i q _ _
      have hstored : Idle g ((surroundings s).store q g).2 := ⟨rfl, rfl, id, fun _ => rfl,
        (List.append_nil _).symm⟩
      exact hstored.beside.trans (ih _ _)
    · rename_i q resume hstep
      have hasked := askLedger g hstep
      split <;> rename_i h <;> rw [h] at hasked
      · exact hasked.trans (ih _ _)
      · exact hasked
    · have hdrawn : Idle g ((surroundings s).draw g).2 := ⟨rfl, rfl, id, fun _ => rfl,
        (List.append_nil _).symm⟩
      exact hdrawn.beside.trans (ih _ _)
    · exact (Idle.setTimer g _ rfl).beside
    · rename_i workId next _
      have htracked : Idle g ((surroundings s).track workId g).2 :=
        (Idle.withDesk g s.ledgerId _ _).trans (.of_bearing rfl)
      split <;> rename_i h <;> rw [h] at htracked
      · exact htracked.beside.trans (ih _ _)
      · exact htracked.beside
      · exact htracked.beside.trans (ih _ _)
    · exact (Idle.withShutdown g _).beside.trans (ih _ _)

theorem runEscrow (g : Gateway (Recorded W)) (k : String) : Beside g (g.runEscrow k) := by
  rcases g.runEscrow_cases k with h | ⟨b, -, -, h⟩ <;> rw [h]
  · exact .refl g
  · exact (drive b.settings Escrow.stretch b.phase g).idle (.of_bearing rfl)

theorem wakeEscrow (g : Gateway (Recorded W)) (k : String) : Beside g (g.wakeEscrow k) := by
  have htold : Idle g (g.updateDesk k (·.tellEscrow Escrow.Phase.awake)) := .of_bearing rfl
  exact htold.beside.trans (runEscrow _ k)

theorem answerEscrow (g : Gateway (Recorded W)) (k : String) : Beside g (g.answerEscrow k) := by
  rcases g.answerEscrow_cases k with h | ⟨b, -, -, phase, outside, hanswered, h⟩ <;> rw [h]
  · exact .refl g
  · have hasked : Beside g { g with outside } := by
      unfold Escrow.Phase.answered at hanswered
      cases hstep : b.phase.step b.settings g.now with
      | ledger q resume =>
        rw [hstep] at hanswered
        cases hanswered
        exact ⟨[⟨.bootstrap, b.settings.ledgerId, q⟩],
          List.forall_mem_cons.2 ⟨.bootstrap hstep, List.forall_mem_nil _⟩, asks_ledger g _ q⟩
      | _ =>
        rw [hstep] at hanswered
        cases hanswered
        exact .refl g
    have htold : Beside g ({ g with outside }.updateDesk k (·.tellEscrow fun _ => phase)) :=
      hasked.idle (.of_bearing rfl)
    exact htold.trans (runEscrow _ k)

end Beside

end Gateway

end LedgerGate
