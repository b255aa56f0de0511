/-
  The rhythm of a gateway: its scanner, and all that goes on apart from it.

  Only the scanner itself makes periodic scans ready.  Everything else that a gateway does leaves
  the scanner and its timer as they are, puts its jobs behind those that are ready, and rouses the
  scanner if it gives the shutdown signal.

  * `Gateway.rhythm`: what the scanner depends on;
  * `Gateway.Apart`: what goes on apart from the scanner; `Apart.perform`: **every job but the
    scanner's** is such;
  * `Gateway.Ticks`: what a tick changes; `exists_due`: it sets the scanner's timer anew, and
    `scan_mem_tick`: makes the scans ready that are due;
  * `runScanner_of_signalled`: **a scanner that hears the signal ends**.
-/
import LedgerGate.Proofs.Gateway.Byplay
import LedgerGate.Proofs.Shutdown.Signal

namespace LedgerGate

open Shutdown (Call)

/-- Whether a job is the scan of a ledger. -/
def Job.isScan : Job → Bool
  | scan _ _ => true
  | _ => false

namespace Gateway

variable {W : Type} {g g' g'' : Gateway W}

/-- The parts of a gateway that its scanner depends on. -/
def rhythm (g : Gateway W) : Config × Option Nat × Bool × Nat × List String ×
    Shutdown Listener × List Job × Timers Job :=
  (g.config, g.scanner, g.started, g.now, g.ledgerIds, g.shutdown, g.ready, g.timers)

/-- What goes on apart from the scanner. -/
structure Apart (g g' : Gateway W) : Prop where
  config : g'.config = g.config
  scanner : g'.scanner = g.scanner
  started : g'.started = g.started
  now : g'.now = g.now
  ledgers : g'.ledgerIds = g.ledgerIds
  signal : ∃ calls, (∀ c ∈ calls, c.Spares .scanner ∨ c = .trigger) ∧
    g'.shutdown = g.shutdown.after calls
  ready : ∃ jobs, g'.ready = g.ready ++ jobs ∧ ∀ j ∈ jobs, j.isScan = false
  /-- The scanner is roused when the signal is given. -/
  roused : g.shutdown.triggered = false → g'.shutdown.triggered = true →
    g.scanner.isSome = true → .scanner ∈ g'.ready
  timers : ∀ e ∈ g'.timers.entries, e ∈ g.timers.entries ∨ e.2.isScan = false
  kept : ∀ time, (time, Job.scanner) ∈ g.timers.entries →
    (time, Job.scanner) ∈ g'.timers.entries

namespace Apart

theorem of_rhythm (h : g'.rhythm = g.rhythm) : Apart g g' := by
  simp only [rhythm, Prod.mk.injEq] at h
  obtain ⟨hconfig, hscanner, hstarted, hnow, hledgers, hshutdown, hready, htimers⟩ := h
  refine ⟨hconfig, hscanner, hstarted, hnow, hledgers, ⟨[], List.forall_mem_nil _, hshutdown⟩,
    ⟨[], by rw [hready, List.append_nil], List.forall_mem_nil _⟩, fun hnot hyes => ?_, ?_, ?_⟩
  · rw [hshutdown, hnot] at hyes
    cases hyes
  · rw [htimers]
    exact fun e => Or.inl
  · rw [htimers]
    exact fun time => id

theorem refl (g : Gateway W) : Apart g g := .of_rhythm rfl

theorem trans (h : Apart g g') (h' : Apart g' g'') : Apart g g'' where
  config := h'.config.trans h.config
  scanner := h'.scanner.trans h.scanner
  started := h'.started.trans h.started
  now := h'.now.trans h.now
  ledgers := h'.ledgers.trans h.ledgers
  signal := by
    obtain ⟨calls, hcalls, hs⟩ := h.signal
    obtain ⟨calls', hcalls', hs'⟩ := h'.signal
    refine ⟨calls ++ calls', fun c hc => ?_, by rw [hs', hs, Shutdown.after_append]⟩
    exact (List.mem_append.1 hc).elim (hcalls c) (hcalls' c)
  ready := by
    obtain ⟨jobs, hready, hjobs⟩ := h.ready
    obtain ⟨jobs', hready', hjobs'⟩ := h'.ready
    refine ⟨jobs ++ jobs', by rw [hready', hready, List.append_assoc], fun j hj => ?_⟩
    exact (List.mem_append.1 hj).elim (hjobs j) (hjobs' j)
  roused hnot hyes hscanner := by
    cases hbetween : g'.shutdown.triggered with
    | true =>
      obtain ⟨jobs, hready, -⟩ := h'.ready
      rw [hready]
      exact List.mem_append_left _ (h.roused hnot hbetween hscanner)
    | false => exact h'.roused hbetween hyes (h.scanner ▸ hscanner)
  timers e he := by
    rcases h'.timers e he with he | he
    · exact h.timers e he
    · exact Or.inr he
  kept time he := h'.kept time (h.kept time he)

/-- A signal that was given stays given. -/
theorem triggered (h : Apart g g') (hs : g.shutdown.triggered = true) :
    g'.shutdown.triggered = true := by
  obtain ⟨calls, -, heq⟩ := h.signal
  rw [heq]
  exact Shutdown.triggered_of_triggered hs calls

/-- Jobs become ready that are no scans. -/
theorem jobs (g : Gateway W) {jobs : List Job} (h : ∀ j ∈ jobs, j.isScan = false) :
    Apart g { g with ready := g.ready ++ jobs } := by
  have hsame : Apart g g := .refl g
  refine ⟨rfl, rfl, rfl, rfl, rfl, hsame.signal, ⟨jobs, rfl, h⟩, fun hnot hyes => ?_, hsame.timers,
    hsame.kept⟩
  rw [show g.shutdown.triggered = true from hyes] at hnot
  cases hnot

theorem enqueue (g : Gateway W) {j : Job} (h : j.isScan = false) : Apart g (g.enqueue j) :=
  .jobs g fun _ hj => List.mem_singleton.1 hj ▸ h

/-- Timers are set that are for no scans, or taken away that are not the scanner's. -/
theorem setTimers (g : Gateway W) {timers : Timers Job}
    (hnew : ∀ e ∈ timers.entries, e ∈ g.timers.entries ∨ e.2.isScan = false)
    (hkept : ∀ time, (time, Job.scanner) ∈ g.timers.entries →
      (time, Job.scanner) ∈ timers.entries) :
    Apart g { g with timers } := by
  have hsame : Apart g g := .refl g
  refine ⟨rfl, rfl, rfl, rfl, rfl, hsame.signal, hsame.ready, fun hnot hyes => ?_, hnew, hkept⟩
  rw [show g.shutdown.triggered = true from hyes] at hnot
  cases hnot

end Apart

/-- A timer that is set stands among those that were. -/
theorem mem_insertEntry {J : Type} {time : Nat} {job : J} {entries : List (Nat × J)}
    {e : Nat × J} : e ∈ Timers.insertEntry time job entries ↔ e = (time, job) ∨ e ∈ entries := by
  induction entries with
  | nil => simp [Timers.insertEntry]
  | cons first rest ih =>
    unfold Timers.insertEntry
    split
    · rw [List.mem_cons, ih, List.mem_cons, or_left_comm]
    · rw [List.mem_cons]

namespace Apart

theorem setTimer (g : Gateway W) (time : Nat) {job : Job} (h : job.isScan = false) :
    Apart g { g with timers := g.timers.set time job } := by
  refine .setTimers g (fun e he => ?_) fun time he => mem_insertEntry.2 (Or.inr he)
  rcases mem_insertEntry.1 he with rfl | he
  · exact Or.inr h
  · exact Or.inl he

theorem updateDesk (g : Gateway W) (k : String) {f : Desk → Desk}
    (hid : ∀ d, d.ledgerId = k → (f d).ledgerId = k) : Apart g (g.updateDesk k f) := by
  refine .of_rhythm ?_
  rw [rhythm, ledgerIds_updateDesk hid]
  rfl

/-- Whoever asks for shutdown, the scanner notices. -/
theorem withShutdown (g : Gateway W) (calls : List (Call Listener))
    (hcalls : ∀ c ∈ calls, c.Spares .scanner ∨ c = .trigger) :
    Apart g (g.withShutdown (g.shutdown.after calls)) := by
  have hsame : Apart g g := .refl g
  unfold Gateway.withShutdown
  dsimp only
  split
  · exact ⟨rfl, rfl, rfl, rfl, rfl, ⟨calls, hcalls, rfl⟩,
      ⟨[.scanner], rfl, fun j hj => List.mem_singleton.1 hj ▸ rfl⟩,
      fun _ _ _ => List.mem_append_right _ List.mem_cons_self, hsame.timers, hsame.kept⟩
  · rename_i hnot
    refine ⟨rfl, rfl, rfl, rfl, rfl, ⟨calls, hcalls, rfl⟩, hsame.ready,
      fun hbefore hafter hscanner => ?_, hsame.timers, hsame.kept⟩
    -- nobody is roused only if the signal was given before or there is no scanner
    have hafter : (g.shutdown.after calls).triggered = true := hafter
    rw [hafter, hbefore, hscanner] at hnot
    exact absurd rfl hnot

/-- Somebody else listens for shutdown, or says why it is asked for. -/
theorem listen (g : Gateway W) {c : Call Listener} (hc : c.Spares .scanner) :
    Apart g { g with shutdown := g.shutdown.called c } := by
  have hsame : Apart g g := .refl g
  refine ⟨rfl, rfl, rfl, rfl, rfl, ⟨[c], fun _ hmem => List.mem_singleton.1 hmem ▸ Or.inl hc, rfl⟩,
    hsame.ready, fun hnot hyes => ?_, hsame.timers, hsame.kept⟩
  have hc' : c ≠ .trigger := by
    rintro rfl
    exact hc
  have hyes : (g.shutdown.called c).triggered = true := hyes
  rw [Shutdown.triggered_called, hnot, Bool.false_or] at hyes
  exact absurd (of_decide_eq_true hyes) hc'

theorem triggerShutdown (g : Gateway W) : Apart g g.triggerShutdown :=
  withShutdown g [.trigger] fun _ hc => Or.inr (List.mem_singleton.1 hc)

theorem requestShutdown (g : Gateway W) (reason : String) : Apart g (g.requestShutdown reason) := by
  refine withShutdown g [.explain reason, .trigger] fun c hc => ?_
  rcases List.mem_cons.1 hc with rfl | hc
  · exact Or.inl trivial
  · exact Or.inr (List.mem_singleton.1 hc)

/-! ### Outcomes and receipts -/

theorem conclude (g : Gateway W) (e : Errand) (outcome : Except Fault (Reply Sequel)) :
    Apart g (g.conclude e outcome) := by
  obtain ⟨told, waiting, heq, -⟩ := ensues_conclude g e outcome
  rw [heq]
  exact .of_rhythm rfl

theorem tellEscrow (g : Gateway W) (k : String) (news : Escrow.Phase → Escrow.Phase) :
    Apart g (g.updateDesk k (·.tellEscrow news)) := updateDesk g k fun _ h => h

/-- A bootstrap hears of something, and goes on. -/
theorem rouse (g : Gateway W) (k : String) (news : Escrow.Phase → Escrow.Phase) :
    Apart g ((g.updateDesk k (·.tellEscrow news)).enqueue (.bootstrap k)) :=
  (tellEscrow g k news).trans (.enqueue _ rfl)

theorem handOver (g : Gateway W) (k : String) (w : Waiter) (c : Confirmation) :
    Apart g (g.handOver k w c) := by
  cases w with
  | watcher name view => cases view <;> exact .of_rhythm rfl
  | ticket n =>
    unfold Gateway.handOver
    dsimp only
    split
    · have hdropped : Apart g (g.dropErrand n) := .of_rhythm rfl
      exact hdropped.trans (conclude _ _ _)
    · exact refl g
  | escrow => exact rouse g k _

theorem absorb (g : Gateway W) (k : String) (notices : List (Receipt.Notice Waiter)) :
    Apart g (g.absorb k notices) := by
  have hfold : ∀ (handed : List (Waiter × Confirmation)) (g : Gateway W),
      Apart g (handed.foldl (fun g h => g.handOver k h.1 h.2) g) := by
    intro handed
    induction handed with
    | nil => exact refl
    | cons h hs ih => exact fun g => (handOver g k h.1 h.2).trans (ih _)
  have hmeters : Apart g { g with meters := g.meters.observeAll notices } := .of_rhythm rfl
  exact hmeters.trans (hfold _ _)

/-- A desk that keeps its name is changed, with a result. -/
theorem withDesk {α : Type} (g : Gateway W) (k : String) (missing : α) {f : Desk → α × Desk}
    (hid : ∀ d, (f d).2.ledgerId = d.ledgerId) : Apart g (g.withDesk k missing f).2 := by
  unfold Gateway.withDesk
  split
  · rename_i d hd
    exact updateDesk g k fun _ _ => (hid d).trans (ledgerId_of_desk? hd)
  · exact refl g

theorem withTracker (g : Gateway W) (k : String) (m : Receipt.Move Waiter) :
    Apart g (g.withTracker k (·.after m)) := by
  rw [withTracker_after]
  exact (withDesk g k _ fun _ => rfl).trans (absorb _ k _)

theorem prepare (g : Gateway W) (e : Errand) (k : String) (mode : ReplyMode)
    (workId : WorkId) (recent : Option UInt64) : Apart g (g.prepare e k mode workId recent) := by
  have hdesk : Apart g (g.withDesk k ([], .awaited) fun d =>
      (((d.prepare workId (.ticket g.tickets)).2.1, (d.prepare workId (.ticket g.tickets)).2.2),
        (d.prepare workId (.ticket g.tickets)).1)).2 := withDesk g k _ fun _ => rfl
  have henrolled : Apart g (g.enrolled k workId) := hdesk.trans (.of_rhythm rfl)
  rw [prepare_eq]
  split
  · exact henrolled.trans (conclude _ _ _)
  · exact henrolled.trans (.of_rhythm rfl)
  · exact henrolled.trans (conclude _ _ _)
  · exact henrolled.trans (conclude _ _ _)

theorem reportScan (g : Gateway W) (audience : Option String) (r : Receipt.Report) :
    Apart g (g.reportScan audience r) := by
  cases audience <;> exact .of_rhythm rfl

theorem grantLeases (g : Gateway W) : Apart g g.grantLeases := by
  unfold Gateway.grantLeases
  induction g.leases.holders generalizing g with
  | nil => exact refl g
  | cons holder rest ih =>
    refine .trans ?_ (ih _)
    dsimp only
    split
    · split
      · exact rouse g holder _
      · exact refl g
    · exact refl g

theorem startEscrow (g : Gateway W) (d : Desk) : Apart g (g.startEscrow d) := by
  unfold Gateway.startEscrow
  split
  · exact rouse g d.ledgerId _
  · exact refl g

theorem startEscrows (desks : List Desk) (g : Gateway W) :
    Apart g (desks.foldl Gateway.startEscrow g) := by
  induction desks generalizing g with
  | nil => exact refl g
  | cons d ds ih => exact (startEscrow g d).trans (ih _)

variable [Outside W]

theorem consult (k : String) (q : Delegate.Question) (g : Gateway W) :
    Apart g (Gateway.consult k q g).2 := by
  cases q with
  | recentBlock =>
    simp only [Gateway.consult, Gateway.recentBlock]
    split
    · exact refl g
    · rename_i d _
      have hasked : Apart g { g with outside :=
          ((d.recent.get (Outside.clock g.outside)).run (Outside.ledger k) g.outside).2 } :=
        .of_rhythm rfl
      exact hasked.trans (updateDesk _ k (f := fun d => { d with recent := _ }) fun _ h => h)
  | escrow =>
    simp only [Gateway.consult]
    split <;> exact refl g
  | _ => exact .of_rhythm rfl

theorem consultAll (k : String) (work : Delegate.Work)
    (g : Gateway W) : Apart g (work.run (Gateway.consult k) g).2 := by
  induction work generalizing g with
  | done a => exact refl g
  | ask q resume ih => exact (consult k q g).trans (ih _ _)

theorem finishScan (g : Gateway W) (k : String) : Apart g (g.finishScan k).2 := by
  rw [finishScan_eq]
  split
  · exact refl g
  · split
    · exact refl g
    · rename_i d _ _ s _
      rcases d.tracker.runScan (askOutside k) (s.rest.length + 1) g.outside with
        ⟨tracker, notices, report, outside⟩
      have houtside : Apart g { g with outside } := .of_rhythm rfl
      have hfinished := (houtside.trans
        (updateDesk _ k (f := fun d => { d with tracker, audience := none }) fun _ h => h)).trans
        (absorb _ k notices)
      cases report with
      | none => exact hfinished
      | some r => exact hfinished.trans (reportScan _ _ r)

theorem scan (g : Gateway W) (k : String) (audience : Option String) :
    Apart g (g.scan k audience).2 := by
  rw [scan_eq]
  split
  · exact refl g
  · split
    · rename_i tracker notices report _
      have hbegun := (updateDesk g k (f := fun d => { d with tracker }) fun _ h => h).trans
        (absorb _ k notices)
      exact hbegun.trans (reportScan ..)
    · rename_i tracker notices _
      have hbegun := (updateDesk g k (f := fun d => { d with tracker, audience })
        fun _ h => h).trans (absorb _ k notices)
      dsimp only
      split
      · exact hbegun
      · exact hbegun.trans (finishScan _ k)

/-! ### Bootstraps -/

/-- A question of a bootstrap may set a timer for its answer. -/
theorem askLedger (g : Gateway W) (k : String) (q : Ledger.Query) :
    Apart g (g.askLedger k q).2 := by
  obtain ⟨delays, h | ⟨time, h⟩⟩ := g.askLedger_cases k q <;> rw [h]
  · exact .of_rhythm rfl
  · have hasked : Apart g { g with delays } := .of_rhythm rfl
    exact hasked.trans (setTimer _ time rfl)

/-- **The surroundings of a bootstrap** leave the scanner alone. -/
theorem keeps_apart (s : Escrow.Settings) (g : Gateway W) :
    (surroundings s : Escrow.Surroundings (Gateway W)).Keeps (Apart g) where
  lease h := h.trans (.of_rhythm rfl)
  unlease {g'} h := by
    have hdropped : Apart g' { g' with leases := (g'.leases.drop s.ledgerId).cleanup } :=
      .of_rhythm rfl
    exact (h.trans hdropped).trans (grantLeases _)
  store q _ h := h.trans (.of_rhythm rfl)
  ledger q g' h := h.trans (askLedger g' s.ledgerId q)
  draw h := h.trans (.of_rhythm rfl)
  sleep _ _ h := h.trans (setTimer _ _ rfl)
  track workId g' h := by
    have hdesk : Apart g' (g'.withDesk s.ledgerId ([], .awaited) fun d =>
        (((d.prepare workId .escrow).2.1, (d.prepare workId .escrow).2.2),
          (d.prepare workId .escrow).1)).2 := withDesk g' s.ledgerId _ fun _ => rfl
    exact (h.trans hdesk).trans (.of_rhythm rfl)
  alarm reason _ h := h.trans (requestShutdown _ _)

theorem runEscrow (g : Gateway W) (k : String) : Apart g (g.runEscrow k) := by
  rcases g.runEscrow_cases k with h | ⟨b, -, -, h⟩ <;> rw [h]
  · exact refl g
  · have hdriven : Apart g (Escrow.drive (surroundings b.settings) b.settings Escrow.stretch
        b.phase g).2 := Escrow.drive_keeps (keeps_apart b.settings g) _ _ _ (refl g)
    exact hdriven.trans (tellEscrow _ k _)

theorem wakeEscrow (g : Gateway W) (k : String) : Apart g (g.wakeEscrow k) :=
  (tellEscrow g k _).trans (runEscrow _ k)

theorem answerEscrow (g : Gateway W) (k : String) : Apart g (g.answerEscrow k) := by
  rcases g.answerEscrow_cases k with h | ⟨b, -, -, phase, outside, -, h⟩ <;> rw [h]
  · exact refl g
  · have hanswered : Apart g { g with outside } := .of_rhythm rfl
    exact (hanswered.trans (tellEscrow _ k _)).trans (runEscrow _ k)

/-! ### Jobs -/

theorem planJob (g : Gateway W) (e : Errand) (operation : String) (input : Option Input) :
    Apart g (g.planJob e operation input) := by
  unfold Gateway.planJob Gateway.plan
  rcases (Route.plan g.ledgers g.delegates operation input).interrogate
    fun l => Outside.lookup l g.outside with ⟨fault | route, asked⟩
  · have hmeters : Apart g { g with meters := g.meters.grow 1 .unroutable } := .of_rhythm rfl
    exact hmeters.trans (conclude _ e _)
  · have hmeters : Apart g { g with meters := g.meters.grow 1 .routed } := .of_rhythm rfl
    exact hmeters.trans (enqueue _ rfl)

theorem applyJob (g : Gateway W) (e : Errand) (route : Route Delegate) (input : Option Input) :
    Apart g (g.applyJob e route input) := by
  have hworked := consultAll route.ledger.id (route.delegate.apply route.ledger input) g
  unfold Gateway.applyJob
  dsimp only
  rcases hrun : (route.delegate.apply route.ledger input).run (Gateway.consult route.ledger.id) g
    with ⟨outcome | ⟨mode, workId, recent⟩, g'⟩ <;> rw [hrun] at hworked
  · exact hworked.trans (conclude _ e outcome)
  · exact hworked.trans (prepare _ e _ mode workId recent)

/-- **Every job but the scanner's** leaves the scanner alone. -/
theorem perform (g : Gateway W) {job : Job} (h : job ≠ .scanner) : Apart g (g.perform job) := by
  cases job with
  | plan e operation input => exact planJob g e operation input
  | apply e route input => exact applyJob g e route input
  | scan k audience => exact scan g k audience
  | scanner => exact absurd rfl h
  | bootstrap k => exact runEscrow g k
  | wake k => exact wakeEscrow g k
  | answer k => exact answerEscrow g k
  | shutdown => exact triggerShutdown g

end Apart

/-! ## Ticks -/

/-- What a tick changes: scans are made ready behind all that was, and timers are set that are
    for no scans. -/
structure Ticks (g g' : Gateway W) : Prop where
  config : g'.config = g.config
  started : g'.started = g.started
  ledgers : g'.ledgerIds = g.ledgerIds
  shutdown : g'.shutdown = g.shutdown
  ready : ∃ jobs, g'.ready = g.ready ++ jobs
  timers : ∀ e ∈ g'.timers.entries, e ∈ g.timers.entries ∨ e.2.isScan = false

theorem ticks_tick (fuel due : Nat) (g : Gateway W) : Ticks g (Gateway.tick fuel due g) := by
  induction fuel generalizing due g with
  | zero => exact ⟨rfl, rfl, rfl, rfl, ⟨[], (List.append_nil _).symm⟩, fun e => Or.inl⟩
  | succ fuel ih =>
    unfold Gateway.tick
    split
    · refine ⟨rfl, rfl, rfl, rfl, ⟨[], (List.append_nil _).symm⟩, fun e he => ?_⟩
      rcases mem_insertEntry.1 he with rfl | he
      · exact Or.inr rfl
      · exact Or.inl he
    · have hnext := ih (nextTick g.config.scanInterval.toNat due g.now)
        { g with ready := g.ready ++ g.desks.map fun d => .scan d.ledgerId none }
      obtain ⟨jobs, hjobs⟩ := hnext.ready
      exact ⟨hnext.config, hnext.started, hnext.ledgers, hnext.shutdown,
        ⟨_, hjobs.trans (List.append_assoc ..)⟩, hnext.timers⟩

theorem lt_nextTick {period due now : Nat} (hperiod : 0 < period) :
    due < nextTick period due now ∧
      (due + tickTolerance < now → now < nextTick period due now) := by
  have hmod := Nat.mod_lt (now - due) hperiod
  unfold nextTick
  split <;> constructor <;> intros <;> omega

/-- A timer is set for the tick after those that are due, if they are not too many. -/
theorem exists_due_tick {fuel due : Nat} (hperiod : 0 < g.config.scanInterval.toNat)
    (hfuel : g.now < due + fuel) : ∃ next, (Gateway.tick (fuel + 1) due g).scanner = some next ∧
      (next, Job.scanner) ∈ (Gateway.tick (fuel + 1) due g).timers.entries := by
  induction fuel generalizing due g with
  | zero =>
    have hearly : g.now < due := hfuel
    rw [Gateway.tick, if_pos hearly]
    exact ⟨due, rfl, mem_insertEntry.2 (Or.inl rfl)⟩
  | succ fuel ih =>
    rw [Gateway.tick]
    split
    · exact ⟨due, rfl, mem_insertEntry.2 (Or.inl rfl)⟩
    · obtain ⟨hlater, -⟩ := @lt_nextTick _ due g.now hperiod
      refine ih (g := { g with ready := _ }) hperiod ?_
      show g.now < _
      omega

/-- **The scanner sets its timer anew** whenever it ticks, however late it is. -/
theorem exists_due (hperiod : 0 < g.config.scanInterval.toNat) (due : Nat) :
    ∃ next, (Gateway.tick (tickTolerance + 3) due g).scanner = some next ∧
      (next, Job.scanner) ∈ (Gateway.tick (tickTolerance + 3) due g).timers.entries := by
  by_cases hlate : due + tickTolerance < g.now
  · -- ticks that were missed are left out, so the one after this is not due yet
    obtain ⟨hlater, hfuture⟩ := @lt_nextTick _ due g.now hperiod
    rw [show tickTolerance + 3 = tickTolerance + 1 + 1 + 1 from rfl, Gateway.tick,
      if_neg (by omega)]
    refine exists_due_tick (g := { g with ready := _ }) hperiod ?_
    show g.now < _
    have := hfuture hlate
    omega
  · exact exists_due_tick hperiod (by omega)

/-- A tick that is due makes a scan of every ledger ready. -/
theorem scan_mem_tick {fuel due : Nat} (hdue : due ≤ g.now) {k : String} (hk : k ∈ g.ledgerIds) :
    Job.scan k none ∈ (Gateway.tick (fuel + 1) due g).ready := by
  obtain ⟨d, hd, rfl⟩ := List.mem_map.1 hk
  rw [Gateway.tick, if_neg (Nat.not_lt.2 hdue)]
  obtain ⟨jobs, hready⟩ := (ticks_tick fuel (nextTick g.config.scanInterval.toNat due g.now)
    { g with ready := g.ready ++ g.desks.map fun d => .scan d.ledgerId none }).ready
  rw [hready]
  exact List.mem_append_left _ (List.mem_append_right _ (List.mem_map_of_mem hd))

/-! ## The scanner's own job -/

/-- The gateway without the scanner's timer. -/
def quieted (g : Gateway W) : Gateway W :=
  { g with timers := g.timers.discard fun
      | .scanner => true
      | _ => false }

theorem mem_quieted {e : Nat × Job} (h : e ∈ g.quieted.timers.entries) :
    e ∈ g.timers.entries := List.mem_of_mem_filter h

/-- A scanner that has ended does nothing. -/
theorem runScanner_of_none (h : g.scanner = none) : g.runScanner = g := by
  rw [runScanner, h]

/-- **A scanner that hears the signal ends.** -/
theorem runScanner_of_signalled {due : Nat} (h : g.scanner = some due)
    (hsignal : .scanner ∈ g.shutdown.signalled) :
    g.runScanner = { g with shutdown := (g.shutdown.receive .scanner).2, scanner := none } := by
  have hheard : g.shutdown.receive .scanner = (true, (g.shutdown.receive .scanner).2) :=
    Prod.ext (List.contains_iff_mem.2 hsignal) rfl
  rw [runScanner, h]
  dsimp only
  rw [hheard]

/-- A scanner that hears no signal ticks. -/
theorem runScanner_of_not_signalled {due : Nat} (h : g.scanner = some due)
    (hsignal : .scanner ∉ g.shutdown.signalled) :
    g.runScanner = tick (tickTolerance + 3) due g := by
  have hheard : g.shutdown.receive .scanner = (false, (g.shutdown.receive .scanner).2) :=
    Prod.ext (by simpa [Shutdown.receive] using hsignal) rfl
  rw [runScanner, h]
  dsimp only
  rw [hheard]

theorem runScanner_cases (g : Gateway W) : g.scanner = none ∧ g.runScanner = g ∨
    ∃ due, g.scanner = some due ∧
      (.scanner ∈ g.shutdown.signalled ∧ g.runScanner =
          { g with shutdown := (g.shutdown.receive .scanner).2, scanner := none } ∨
        .scanner ∉ g.shutdown.signalled ∧ g.runScanner = tick (tickTolerance + 3) due g) := by
  cases h : g.scanner with
  | none => exact Or.inl ⟨rfl, runScanner_of_none h⟩
  | some due =>
    by_cases hsignal : .scanner ∈ g.shutdown.signalled
    · exact Or.inr ⟨due, rfl, Or.inl ⟨hsignal, runScanner_of_signalled h hsignal⟩⟩
    · exact Or.inr ⟨due, rfl, Or.inr ⟨hsignal, runScanner_of_not_signalled h hsignal⟩⟩

end Gateway

end LedgerGate
