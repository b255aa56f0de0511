/-
  Deliveries are neither lost nor doubled: whatever a gateway does, those under way and
  those that have ended stay as many as there were.

  A delivery is a job until its request is worked on, and an errand while it waits for a
  receipt; it ends with one event.  Only taking a request adds one.

  * `Gateway.ended`: how many deliveries have ended;
  * `Gateway.deliveries`: those under way and those that have ended;
  * `deliveries_conclude`: an outcome moves a delivery on, it does not drop it;
  * `deliveries_perform`: **no job loses or doubles a delivery.**
-/
import LedgerGate.Proofs.Gateway.Keeping
import Mathlib.Data.List.Basic

namespace LedgerGate

/-- A delivery follows a sequel only if there is one. -/
theorem Delivery.outcome_of_follow {κ : Type} {limit : UInt32} {d after : Delivery}
    {outcome : Except Fault (Reply κ)} {response : Response} {next : κ}
    (h : d.step limit outcome = .follow response next after) :
    ∃ o, outcome = .ok ⟨o, some next⟩ := by
  unfold step at h
  split at h
  · cases h
  · rename_i r
    split at h
    · cases h
    · rename_i next' hnext
      split at h
      · cases h
      · cases h
        exact ⟨r.output, by rw [← hnext]⟩

/-- Whether an event is the end of a delivery. -/
def Event.isDelivered : Event → Bool
  | .delivered _ _ => true
  | _ => false

namespace Gateway

variable {W : Type}

/-- How many deliveries have ended. -/
def ended (g : Gateway W) : Nat := g.events.toList.countP Event.isDelivered

/-- How many deliveries there are, under way or at their end. -/
def deliveries (g : Gateway W) : Nat := g.underway + g.ended

/-! ## Single changes -/

@[simp]
theorem deliveries_tell (g : Gateway W) (e : Event) :
    (g.tell e).deliveries = g.deliveries + if e.isDelivered then 1 else 0 := by
  simp only [deliveries, underway, ended, tell, Array.toList_push, List.countP_append,
    List.countP_singleton]
  omega

@[simp]
theorem deliveries_enqueue (g : Gateway W) (j : Job) :
    (g.enqueue j).deliveries = g.deliveries + if j.isDelivery then 1 else 0 := by
  simp only [deliveries, underway, ended, enqueue, List.countP_append, List.countP_singleton]
  omega

@[simp]
theorem deliveries_awaitTicket (g : Gateway W) (ticket : Nat) (e : Errand) :
    (g.awaitTicket ticket e).deliveries = g.deliveries + if e.isDelivery then 1 else 0 := by
  simp only [deliveries, underway, ended, awaitTicket, List.countP_append, List.countP_singleton]
  omega

/-- The jobs that are ready may be put in another order, or some put behind the others. -/
theorem deliveries_append_ready (g : Gateway W) (jobs : List Job) :
    ({ g with ready := g.ready ++ jobs } : Gateway W).deliveries =
      g.deliveries + jobs.countP Job.isDelivery := by
  simp only [deliveries, underway, ended, List.countP_append]
  omega

@[simp]
theorem deliveries_send (g : Gateway W) (responses : List Response) :
    (g.send responses).deliveries = g.deliveries := by
  induction responses generalizing g with
  | nil => rfl
  | cons r rs ih => rw [send, List.foldl_cons, ← send, ih, deliveries_tell]; rfl

@[simp]
theorem config_send (g : Gateway W) (responses : List Response) :
    (g.send responses).config = g.config := by
  induction responses generalizing g with
  | nil => rfl
  | cons r rs ih => rw [send, List.foldl_cons, ← send, ih]; rfl

@[simp]
theorem deliveries_withDesk {α : Type} (g : Gateway W) (ledgerId : String) (missing : α)
    (f : Desk → α × Desk) : (g.withDesk ledgerId missing f).2.deliveries = g.deliveries := by
  unfold withDesk
  split <;> rfl

/-! ## Errands -/

theorem countP_eraseP {α : Type} {p q : α → Bool} {l : List α} {a : α}
    (h : l.find? p = some a) :
    (l.eraseP p).countP q + (if q a then 1 else 0) = l.countP q := by
  induction l with
  | nil => cases h
  | cons b l ih =>
    by_cases hb : p b
    · obtain rfl : b = a := by simpa [hb] using h
      rw [List.eraseP_cons_of_pos hb, List.countP_cons]
    · rw [List.find?_cons_of_neg hb] at h
      rw [List.eraseP_cons_of_neg hb, List.countP_cons, List.countP_cons, ← ih h]
      omega

/-- An errand that is taken up waits no longer. -/
theorem deliveries_dropErrand {g : Gateway W} {ticket : Nat} {e : Errand}
    (h : g.errand? ticket = some e) :
    (g.dropErrand ticket).deliveries + (if e.isDelivery then 1 else 0) = g.deliveries := by
  obtain ⟨⟨n, e'⟩, hfind, rfl⟩ := Option.map_eq_some_iff.1 h
  have hcount := countP_eraseP (q := fun e : Nat × Errand => e.2.isDelivery) hfind
  simp only [deliveries, underway, ended, dropErrand]
  simp only at hcount
  omega

/-! ## Outcomes -/

/-- A delivery that follows a known sequel has one less before it. -/
theorem reachOf_of_follow {limit : UInt32} {d after : Delivery}
    {outcome next : Except Fault (Reply Sequel)} {response : Response}
    (h : d.step limit outcome = .follow response (.known next) after) :
    Sequel.reachOf outcome = Sequel.reachOf next + 1 := by
  obtain ⟨o, rfl⟩ := Delivery.outcome_of_follow h
  rfl

/-- A delivery goes along the sequels that are known, for which there is fuel enough if it is
    more than their number. -/
theorem deliveries_concludeWithin (fuel : Nat) :
    ∀ (e : Errand) (outcome : Except Fault (Reply Sequel)) (g : Gateway W),
      (e.isDelivery = true → Sequel.reachOf outcome < fuel) →
      (concludeWithin fuel e outcome g).deliveries =
        g.deliveries + if e.isDelivery then 1 else 0 := by
  induction fuel with
  | zero =>
    intro e outcome g h
    cases e with
    | delivery d accepting => exact absurd (h rfl) (Nat.not_lt_zero _)
    | call name limit => rfl
    | chain name limit remaining => rfl
  | succ fuel ih =>
    intro e outcome g h
    cases e with
    | delivery d accepting =>
      have hreach : Sequel.reachOf outcome < fuel + 1 := h rfl
      unfold concludeWithin
      split
      · split
        · rw [deliveries_tell, deliveries_send]; rfl
        · rename_i response next after hstep
          have hnext := reachOf_of_follow hstep
          rw [ih _ _ _ fun _ => by omega, deliveries_send]
          rfl
        · rw [deliveries_awaitTicket, deliveries_send]; rfl
      · rw [deliveries_tell]; rfl
    | call name limit =>
      unfold concludeWithin
      rcases outcome with f | r
      · rw [deliveries_tell]; rfl
      · dsimp only
        split
        · rw [ih (.chain name limit limit) (.ok r) _ (fun h => by cases h), deliveries_tell]; rfl
        · rw [deliveries_tell]; rfl
    | chain name limit remaining =>
      unfold concludeWithin
      rcases outcome with f | r
      · rw [deliveries_tell]; rfl
      · dsimp only
        split
        · rw [deliveries_tell]; rfl
        · exact ih (.chain name limit _) _ g fun h => by cases h
        · rw [deliveries_awaitTicket]; rfl

/-- **An outcome moves a delivery on**: it ends, or it waits for a receipt. -/
theorem deliveries_conclude (g : Gateway W) (e : Errand) (outcome : Except Fault (Reply Sequel)) :
    (g.conclude e outcome).deliveries = g.deliveries + if e.isDelivery then 1 else 0 :=
  deliveries_concludeWithin _ e outcome g fun _ => Nat.lt_add_of_pos_right Nat.two_pos

/-! ## Receipts and scans -/

@[simp]
theorem deliveries_handOver (g : Gateway W) (ledgerId : String) (w : Waiter) (c : Confirmation) :
    (g.handOver ledgerId w c).deliveries = g.deliveries := by
  cases w with
  | watcher name view =>
    cases view with
    | outcome => exact deliveries_tell g _
    | confirmation => exact deliveries_tell g _
    | nothing => rfl
  | ticket n =>
    unfold handOver
    dsimp only
    split
    · rename_i e he
      rw [deliveries_conclude, deliveries_dropErrand he]
    · rfl
  | escrow => exact deliveries_enqueue _ _

@[simp]
theorem deliveries_absorb (g : Gateway W) (ledgerId : String)
    (notices : List (Receipt.Notice Waiter)) :
    (g.absorb ledgerId notices).deliveries = g.deliveries := by
  have hfold : ∀ (handed : List (Waiter × Confirmation)) (g : Gateway W),
      (handed.foldl (fun g h => g.handOver ledgerId h.1 h.2) g).deliveries = g.deliveries := by
    intro handed
    induction handed with
    | nil => exact fun g => rfl
    | cons h hs ih => exact fun g => (ih _).trans (deliveries_handOver g ledgerId h.1 h.2)
  exact hfold _ _

@[simp]
theorem deliveries_reportScan (g : Gateway W) (audience : Option String)
    (report : Receipt.Report) : (g.reportScan audience report).deliveries = g.deliveries := by
  cases audience with
  | none => rfl
  | some name => exact deliveries_tell g _

section
variable [Outside W]

@[simp]
theorem deliveries_finishScan (g : Gateway W) (ledgerId : String) :
    (g.finishScan ledgerId).2.deliveries = g.deliveries := by
  rw [finishScan_eq]
  split
  · rfl
  · split
    · rfl
    · dsimp only
      split
      · rw [deliveries_reportScan, deliveries_absorb]; rfl
      · rw [deliveries_absorb]; rfl

@[simp]
theorem deliveries_scan (g : Gateway W) (ledgerId : String) (audience : Option String) :
    (g.scan ledgerId audience).2.deliveries = g.deliveries := by
  rw [scan_eq]
  split
  · rfl
  · split
    · rw [deliveries_reportScan, deliveries_absorb]; rfl
    · dsimp only
      split
      · rw [deliveries_absorb]; rfl
      · rw [deliveries_finishScan, deliveries_absorb]; rfl

/-! ## Requests -/

theorem deliveries_planJob (g : Gateway W) (e : Errand) (operation : String)
    (input : Option Input) :
    (g.planJob e operation input).deliveries = g.deliveries + if e.isDelivery then 1 else 0 := by
  have hplan : (g.plan operation input).2.deliveries = g.deliveries := by
    unfold plan
    split <;> rfl
  unfold planJob
  split
  · rename_i f g' h
    rw [h] at hplan
    rw [deliveries_conclude, hplan]
  · rename_i route g' h
    rw [h] at hplan
    rw [deliveries_enqueue, ← hplan]; rfl

theorem deliveries_consult (ledgerId : String) (q : Delegate.Question) (g : Gateway W) :
    (consult ledgerId q g).2.deliveries = g.deliveries := by
  cases q with
  | ledger q => rfl
  | lookup l => rfl
  | recentBlock =>
    simp only [consult, recentBlock]
    split <;> rfl
  | escrow =>
    simp only [consult]
    split <;> rfl
  | clock => rfl

/-- The work of a delegate leaves deliveries alone. -/
theorem deliveries_run (ledgerId : String) (work : Delegate.Work) (g : Gateway W) :
    (work.run (consult ledgerId) g).2.deliveries = g.deliveries := by
  induction work generalizing g with
  | done outcome => rfl
  | ask q resume ih => rw [Dialogue.run, ih, deliveries_consult]

omit [Outside W] in
theorem deliveries_prepare (g : Gateway W) (e : Errand) (ledgerId : String) (mode : ReplyMode)
    (workId : WorkId) (recent : Option UInt64) :
    (g.prepare e ledgerId mode workId recent).deliveries =
      g.deliveries + if e.isDelivery then 1 else 0 := by
  have hdesk := g.deliveries_withDesk ledgerId ([], .awaited) fun d =>
    (((d.prepare workId (.ticket g.tickets)).2.1, (d.prepare workId (.ticket g.tickets)).2.2),
      (d.prepare workId (.ticket g.tickets)).1)
  unfold prepare
  dsimp only
  split
  · rw [deliveries_conclude, ← hdesk]; rfl
  · rw [deliveries_awaitTicket, ← hdesk]; rfl
  · rw [deliveries_conclude, ← hdesk]; rfl
  · rw [deliveries_conclude, ← hdesk]; rfl
  · rw [deliveries_conclude, ← hdesk]; rfl
  · rw [deliveries_conclude, ← hdesk]; rfl

theorem deliveries_applyJob (g : Gateway W) (e : Errand) (route : Route Delegate)
    (input : Option Input) :
    (g.applyJob e route input).deliveries = g.deliveries + if e.isDelivery then 1 else 0 := by
  have hrun := deliveries_run route.ledger.id (route.delegate.apply route.ledger input) g
  unfold applyJob
  dsimp only
  split
  · rename_i outcome g' h
    rw [h] at hrun
    rw [deliveries_conclude, hrun]
  · rename_i mode workId recent g' h
    rw [h] at hrun
    rw [deliveries_prepare, hrun]

/-! ## Escrows -/

omit [Outside W] in
@[simp]
theorem deliveries_grantLeases (g : Gateway W) : g.grantLeases.deliveries = g.deliveries := by
  unfold grantLeases
  induction g.leases.holders generalizing g with
  | nil => rfl
  | cons ledgerId rest ih =>
    rw [List.foldl_cons, ih]
    split
    · split
      · rw [deliveries_enqueue]; rfl
      · rfl
    · rfl

omit [Outside W] in
@[simp]
theorem deliveries_withShutdown (g : Gateway W) (s : Shutdown Listener) :
    (g.withShutdown s).deliveries = g.deliveries := by
  unfold withShutdown
  dsimp only
  split
  · simp only [deliveries, underway, ended, List.countP_append, List.countP_singleton]; rfl
  · rfl

theorem countP_insertEntry {J : Type} (p : Nat × J → Bool) (time : Nat) (job : J)
    (entries : List (Nat × J)) :
    (Timers.insertEntry time job entries).countP p =
      entries.countP p + if p (time, job) then 1 else 0 := by
  induction entries with
  | nil => simp [Timers.insertEntry, List.countP_cons]
  | cons e es ih =>
    unfold Timers.insertEntry
    split
    · rw [List.countP_cons, List.countP_cons, ih]; omega
    · rw [List.countP_cons]

omit [Outside W] in
theorem deliveries_setTimer (g : Gateway W) (time : Nat) (job : Job) :
    ({ g with timers := g.timers.set time job } : Gateway W).deliveries =
      g.deliveries + if job.isDelivery then 1 else 0 := by
  simp only [deliveries, underway, ended, Timers.set, countP_insertEntry]
  omega

omit [Outside W] in
theorem deliveries_discard (g : Gateway W) {unwanted : Job → Bool}
    (h : ∀ j, unwanted j → j.isDelivery = false) :
    ({ g with timers := g.timers.discard unwanted } : Gateway W).deliveries = g.deliveries := by
  have hcount : (g.timers.entries.filter fun e => !unwanted e.2).countP (·.2.isDelivery) =
      g.timers.entries.countP (·.2.isDelivery) := by
    rw [List.countP_filter]
    refine List.countP_congr fun e _ => ?_
    cases hu : unwanted e.2 with
    | false => simp
    | true => simp [h e.2 hu]
  simp only [deliveries, underway, ended, Timers.discard, hcount]

/-- A question of a bootstrap leaves deliveries alone. -/
@[simp]
theorem deliveries_askLedger (g : Gateway W) (ledgerId : String) (q : Ledger.Query) :
    (g.askLedger ledgerId q).2.deliveries = g.deliveries := by
  obtain ⟨delays, h | ⟨time, h⟩⟩ := g.askLedger_cases ledgerId q <;> rw [h]
  · rfl
  · exact deliveries_setTimer { g with delays } time _

/-- The work of a bootstrap leaves deliveries alone. -/
theorem keeps_deliveries (s : Escrow.Settings) (n : Nat) :
    (surroundings s).Keeps fun g : Gateway W => g.deliveries = n where
  lease h := h
  unlease h := (deliveries_grantLeases _).trans h
  store _ _ h := h
  ledger q g h := (g.deliveries_askLedger s.ledgerId q).trans h
  draw h := h
  sleep _ g h := (deliveries_setTimer g _ _).trans h
  track _ g h :=
    (g.deliveries_withDesk s.ledgerId ([], Receipt.Prospect.awaited) _).trans h
  alarm _ g h := (deliveries_withShutdown g _).trans h

@[simp]
theorem deliveries_runEscrow (g : Gateway W) (ledgerId : String) :
    (g.runEscrow ledgerId).deliveries = g.deliveries := by
  rcases g.runEscrow_cases ledgerId with h | ⟨b, -, -, h⟩
  · rw [h]
  · rw [h]
    exact Escrow.drive_keeps (w := g) (keeps_deliveries b.settings g.deliveries) b.settings
      Escrow.stretch b.phase rfl

@[simp]
theorem deliveries_wakeEscrow (g : Gateway W) (ledgerId : String) :
    (g.wakeEscrow ledgerId).deliveries = g.deliveries :=
  deliveries_runEscrow _ ledgerId

@[simp]
theorem deliveries_answerEscrow (g : Gateway W) (ledgerId : String) :
    (g.answerEscrow ledgerId).deliveries = g.deliveries := by
  rcases g.answerEscrow_cases ledgerId with h | ⟨b, -, -, phase, outside, -, h⟩
  · rw [h]
  · rw [h, deliveries_runEscrow]
    rfl

/-! ## The scanner -/

omit [Outside W] in
theorem deliveries_tick (fuel due : Nat) (g : Gateway W) :
    (tick fuel due g).deliveries = g.deliveries := by
  induction fuel generalizing due g with
  | zero => rfl
  | succ fuel ih =>
    unfold tick
    split
    · exact deliveries_setTimer { g with scanner := some due } due .scanner
    · rw [ih, deliveries_append_ready, List.countP_eq_zero.2]
      · rfl
      · intro j hj
        obtain ⟨d, -, rfl⟩ := List.mem_map.1 hj
        exact Bool.false_ne_true

omit [Outside W] in
@[simp]
theorem deliveries_runScanner (g : Gateway W) : g.runScanner.deliveries = g.deliveries := by
  unfold runScanner
  split
  · rfl
  · split
    · rfl
    · exact deliveries_tick _ _ g

/-! ## Jobs and time -/

/-- **No job loses or doubles a delivery.** -/
theorem deliveries_perform (g : Gateway W) (j : Job) :
    (g.perform j).deliveries = g.deliveries + if j.isDelivery then 1 else 0 := by
  cases j with
  | plan e operation input => exact deliveries_planJob g e operation input
  | apply e route input => exact deliveries_applyJob g e route input
  | scan ledgerId audience => exact deliveries_scan g ledgerId audience
  | scanner =>
    refine (deliveries_runScanner _).trans (deliveries_discard g fun j hj => ?_)
    cases j with
    | scanner => rfl
    | _ => cases hj
  | bootstrap ledgerId => exact deliveries_runEscrow g ledgerId
  | wake ledgerId => exact deliveries_wakeEscrow g ledgerId
  | answer ledgerId => exact deliveries_answerEscrow g ledgerId
  | shutdown => exact deliveries_withShutdown g _

end

/-- Every timer is due, or it is left. -/
theorem due_append_after (t : Timers Job) (time : Nat) :
    t.due time ++ (t.after time).entries.map (·.2) = t.entries.map (·.2) := by
  rw [Timers.due, Timers.after, ← List.map_append, List.takeWhile_append_dropWhile]

/-- Time that passes makes jobs ready. -/
theorem deliveries_leap (g : Gateway W) (time : Nat) :
    ({ g with
      now := time
      ready := g.ready ++ g.timers.due time
      timers := g.timers.after time } : Gateway W).deliveries = g.deliveries := by
  have hcount := congrArg (List.countP Job.isDelivery) (due_append_after g.timers time)
  simp only [List.countP_append, List.countP_map, Function.comp_def] at hcount
  simp only [deliveries, underway, ended, List.countP_append]
  omega

end Gateway

end LedgerGate
