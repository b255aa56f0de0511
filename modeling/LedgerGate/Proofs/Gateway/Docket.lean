/-
  What a gateway says to its deliveries, reply by reply.

  A delivery is under way in a job, in a timer or in an errand that waits for a receipt.
  Whatever a gateway does, each time it says something it has had a reply for one of them: it
  says what the reply calls for, and the delivery goes on as it should.

  * `Docket`, `Gateway.docket`: the deliveries under way and the responses so far;
  * `Docket.Hears`: a reply comes for one of them;
  * `Gateway.Still`, `Gateway.Speaks`: nothing is said, or what some replies call for;
  * `speaks_conclude`, `speaks_perform`: **an outcome, and every job**;
  * `Gateway.Furnished`: delegates make what can be made;
  * `Gateway.Attends`, `attends_settle`, `attends_waitUntil`: **all that a gateway does when it
    runs.**
-/
import LedgerGate.Proofs.Delegate.Made
import LedgerGate.Proofs.Delivery.Replies
import LedgerGate.Proofs.Gateway.Deliveries
import LedgerGate.Proofs.Gateway.Routine
import Mathlib.Data.Multiset.ZeroCons

namespace LedgerGate

/-! ## Deliveries under way -/

/-- The delivery that an errand is, while its sink accepts responses. -/
def Errand.delivery? : Errand → Option Delivery
  | .delivery d true => some d
  | _ => none

/-- The delivery that a job is for. -/
def Job.delivery? : Job → Option Delivery
  | .plan e _ _ => e.delivery?
  | .apply e _ _ => e.delivery?
  | _ => none

theorem Errand.isDelivery_of_delivery? {e : Errand} {d : Delivery} (h : e.delivery? = some d) :
    e.isDelivery := by
  cases e with
  | delivery d accepting => rfl
  | call name limit => cases h
  | chain name limit remaining => cases h

theorem Job.isDelivery_of_delivery? {j : Job} {d : Delivery} (h : j.delivery? = some d) :
    j.isDelivery := by
  cases j with
  | plan e operation input => exact Errand.isDelivery_of_delivery? h
  | apply e route input => exact Errand.isDelivery_of_delivery? h
  | _ => cases h

/-- The deliveries that are under way, in no order, and the responses so far. -/
@[ext]
structure Docket where
  afoot : Multiset Delivery
  said : List Response

namespace Docket

/-- One more delivery may be under way. -/
def plus (t : Docket) : Option Delivery → Docket
  | some d => { t with afoot := d ::ₘ t.afoot }
  | none => t

/-- A reply comes for one of the deliveries: what it calls for is said, and the delivery waits
    for the next reply or has ended. -/
inductive Hears (limit : UInt32) (t : Docket) : Docket → Prop
  | hear {d : Delivery} {rest : Multiset Delivery} (l : Link Sequel) : t.afoot = d ::ₘ rest →
      Hears limit t (plus ⟨rest, t.said ++ (d.told limit [l]).1⟩ (d.told limit [l]).2)

end Docket

namespace Gateway

variable {W : Type} {g g' g'' : Gateway W}

/-- The deliveries of a gateway that are under way. -/
def afoot (g : Gateway W) : Multiset Delivery :=
  ↑((g.ready ++ g.timers.entries.map (·.2)).filterMap Job.delivery? ++
    (g.errands.map (·.2)).filterMap Errand.delivery?)

def docket (g : Gateway W) : Docket := ⟨g.afoot, g.responses⟩

/-! ### Single changes -/

theorem docket_tell (g : Gateway W) {e : Event} (h : e.response? = none) :
    (g.tell e).docket = g.docket := by
  have hsaid : (g.tell e).responses = g.responses := by
    simp [tell, responses, h]
  exact Docket.ext rfl hsaid

theorem docket_send (g : Gateway W) (rs : List Response) :
    (g.send rs).docket = { g.docket with said := g.docket.said ++ rs } := by
  refine Docket.ext ?_ ?_
  · rw [send_eq]
    simp [docket, ensuing, afoot]
  · show (g.send rs).responses = g.responses ++ rs
    rw [send_eq, responses_ensuing]
    simp [Event.response?, Function.comp_def]

theorem docket_enqueue (g : Gateway W) (j : Job) :
    (g.enqueue j).docket = g.docket.plus j.delivery? := by
  cases hj : j.delivery? with
  | none => simp [docket, Docket.plus, afoot, enqueue, hj, responses]
  | some d =>
    refine Docket.ext (Multiset.coe_eq_coe.2 ?_) rfl
    simp [enqueue, hj]

theorem docket_awaitTicket (g : Gateway W) (ticket : Nat) (e : Errand) :
    (g.awaitTicket ticket e).docket = g.docket.plus e.delivery? := by
  cases he : e.delivery? with
  | none => simp [docket, Docket.plus, afoot, awaitTicket, he, responses]
  | some d =>
    refine Docket.ext (Multiset.coe_eq_coe.2 ?_) rfl
    simp [awaitTicket, he, ← List.append_assoc]

/-- An errand that is taken up is one of those that wait. -/
theorem docket_dropErrand {ticket : Nat} {e : Errand} (h : g.errand? ticket = some e) :
    g.docket = (g.dropErrand ticket).docket.plus e.delivery? := by
  obtain ⟨x, hfind, rfl⟩ := Option.map_eq_some_iff.1 h
  obtain ⟨hx, before, after, hsplit, hbefore⟩ := List.find?_eq_some_iff_append.1 hfind
  have herased : g.errands.eraseP (·.1 == ticket) = before ++ after := by
    have hskip : ∀ b ∈ before, ¬ (b.1 == ticket) := fun b hb => by simpa using hbefore b hb
    rw [hsplit, List.eraseP_append_right _ hskip]
    exact congrArg (before ++ ·) (List.eraseP_cons_of_pos hx)
  have hdropped : (g.dropErrand ticket).docket = { g with errands := before ++ after }.docket := by
    rw [dropErrand, herased]
  rw [hdropped]
  cases hd : x.2.delivery? with
  | none => simp [docket, Docket.plus, afoot, hsplit, hd, responses]
  | some d =>
    refine Docket.ext (Multiset.coe_eq_coe.2 ?_) rfl
    simp [hsplit, hd, ← List.append_assoc]

/-- A request that is taken for its responses is one delivery more. -/
theorem docket_handle (g : Gateway W) (r : Request) :
    (g.handle r true).docket = g.docket.plus (some (.ofRequest r)) := g.docket_enqueue _

/-! ### Nothing said -/

/-- No reply has come, and no delivery is other than it was. -/
structure Still (g g' : Gateway W) : Prop where
  depth : g'.maxDepth = g.maxDepth
  docket : g'.docket = g.docket

namespace Still

theorem refl (g : Gateway W) : Still g g := ⟨rfl, rfl⟩

theorem trans (h : Still g g') (h' : Still g' g'') : Still g g'' :=
  ⟨h'.depth.trans h.depth, h'.docket.trans h.docket⟩

theorem tell (g : Gateway W) {e : Event} (h : e.response? = none) : Still g (g.tell e) :=
  ⟨rfl, g.docket_tell h⟩

/-- Jobs become ready that are for no delivery. -/
theorem jobs (g : Gateway W) {jobs : List Job} (h : ∀ j ∈ jobs, j.delivery? = none) :
    Still g { g with ready := g.ready ++ jobs } := by
  have hnone : jobs.filterMap Job.delivery? = [] := List.filterMap_eq_nil_iff.2 h
  refine ⟨rfl, Docket.ext (Multiset.coe_eq_coe.2 ?_) rfl⟩
  simp only [List.filterMap_append, hnone, List.append_nil]
  rfl

theorem enqueue (g : Gateway W) {j : Job} (h : j.delivery? = none) : Still g (g.enqueue j) :=
  .jobs g fun _ hj => List.mem_singleton.1 hj ▸ h

/-- A timer is set that is for no delivery. -/
theorem setTimer (g : Gateway W) (time : Nat) {job : Job} (h : job.delivery? = none) :
    Still g { g with timers := g.timers.set time job } := by
  have hentries : ∀ entries : List (Nat × Job),
      ((Timers.insertEntry time job entries).map (·.2)).filterMap Job.delivery? =
        (entries.map (·.2)).filterMap Job.delivery? := by
    intro entries
    induction entries with
    | nil => simp [Timers.insertEntry, h]
    | cons e es ih =>
      unfold Timers.insertEntry
      split
      · simp only [List.map_cons, List.filterMap_cons, ih]
      · simp only [List.map_cons, List.filterMap_cons, h]
  refine ⟨rfl, Docket.ext (Multiset.coe_eq_coe.2 ?_) rfl⟩
  simp only [Timers.set, List.filterMap_append, hentries]
  rfl

/-- Timers are discarded that are for no delivery. -/
theorem discard (g : Gateway W) {unwanted : Job → Bool}
    (h : ∀ j, unwanted j → j.delivery? = none) :
    Still g { g with timers := g.timers.discard unwanted } := by
  have hentries : ∀ entries : List (Nat × Job),
      ((entries.filter fun e => !unwanted e.2).map (·.2)).filterMap Job.delivery? =
        (entries.map (·.2)).filterMap Job.delivery? := by
    intro entries
    induction entries with
    | nil => rfl
    | cons e es ih =>
      cases hu : unwanted e.2 with
      | true => simp [hu, h e.2 hu, ih]
      | false => simp [hu, List.filterMap_cons, ih]
  refine ⟨rfl, Docket.ext (Multiset.coe_eq_coe.2 ?_) rfl⟩
  simp only [Timers.discard, List.filterMap_append, hentries]
  rfl

/-- Time passes, and timers go off. -/
theorem pass (g : Gateway W) (time : Nat) : Still g { g with
    now := time
    ready := g.ready ++ g.timers.due time
    timers := g.timers.after time } := by
  refine ⟨rfl, Docket.ext (Multiset.coe_eq_coe.2 ?_) rfl⟩
  rw [List.append_assoc g.ready, due_append_after]

theorem withDesk {α : Type} (g : Gateway W) (k : String) (missing : α) (f : Desk → α × Desk) :
    Still g (g.withDesk k missing f).2 := by
  unfold Gateway.withDesk
  split <;> exact ⟨rfl, rfl⟩

theorem reportScan (g : Gateway W) (audience : Option String) (report : Receipt.Report) :
    Still g (g.reportScan audience report) := by
  cases audience with
  | none => exact refl g
  | some name => exact tell g rfl

/-- A bootstrap hears of something, and goes on. -/
theorem rouse (g : Gateway W) (k : String) (news : Escrow.Phase → Escrow.Phase) :
    Still g ((g.updateDesk k (·.tellEscrow news)).enqueue (.bootstrap k)) := by
  have htold : Still g (g.updateDesk k (·.tellEscrow news)) := ⟨rfl, rfl⟩
  exact htold.trans (enqueue _ rfl)

theorem grantLeases (g : Gateway W) : Still g g.grantLeases := by
  unfold Gateway.grantLeases
  induction g.leases.holders generalizing g with
  | nil => exact refl g
  | cons holder rest ih =>
    refine .trans ?_ (ih _)
    dsimp only
    split
    · split
      · exact rouse g holder _
      · exact refl g
    · exact refl g

theorem withShutdown (g : Gateway W) (s : Shutdown Listener) : Still g (g.withShutdown s) := by
  have hsignal : Still g { g with shutdown := s } := ⟨rfl, rfl⟩
  unfold Gateway.withShutdown
  dsimp only
  split
  · exact hsignal.trans (jobs _ fun j hj => List.mem_singleton.1 hj ▸ rfl)
  · exact hsignal

theorem tick (fuel due : Nat) (g : Gateway W) : Still g (Gateway.tick fuel due g) := by
  induction fuel generalizing due g with
  | zero => exact refl g
  | succ fuel ih =>
    unfold Gateway.tick
    split
    · have hdue : Still g { g with scanner := some due } := ⟨rfl, rfl⟩
      exact hdue.trans (setTimer _ due rfl)
    · refine (jobs g fun j hj => ?_).trans (ih _ _)
      obtain ⟨d, -, rfl⟩ := List.mem_map.1 hj
      rfl

theorem runScanner (g : Gateway W) : Still g g.runScanner := by
  unfold Gateway.runScanner
  split
  · exact refl g
  · split
    · exact ⟨rfl, rfl⟩
    · exact tick _ _ g

variable [Outside W]

theorem consult (k : String) (q : Delegate.Question) (g : Gateway W) :
    Still g (Gateway.consult k q g).2 := by
  cases q with
  | ledger q => exact ⟨rfl, rfl⟩
  | lookup l => exact refl g
  | recentBlock =>
    simp only [Gateway.consult, recentBlock]
    split <;> exact ⟨rfl, rfl⟩
  | escrow =>
    simp only [Gateway.consult]
    split <;> exact refl g
  | clock => exact refl g

theorem run (k : String) (work : Delegate.Work) (g : Gateway W) :
    Still g (work.run (Gateway.consult k) g).2 := by
  induction work generalizing g with
  | done outcome => exact refl g
  | ask q resume ih => exact (consult k q g).trans (ih _ _)

/-- A question of a bootstrap may have to wait for its answer. -/
theorem askLedger (g : Gateway W) (k : String) (q : Ledger.Query) :
    Still g (g.askLedger k q).2 := by
  obtain ⟨delays, h | ⟨time, h⟩⟩ := g.askLedger_cases k q <;> rw [h]
  · exact ⟨rfl, rfl⟩
  · have hasked : Still g { g with delays } := ⟨rfl, rfl⟩
    exact hasked.trans (setTimer _ time rfl)

/-- The work of a bootstrap says nothing. -/
theorem keeps (s : Escrow.Settings) (g : Gateway W) :
    (surroundings s).Keeps fun g' : Gateway W => Still g g' where
  lease h := h.trans ⟨rfl, rfl⟩
  unlease {g'} h := by
    have hdropped : Still g' { g' with leases := (g'.leases.drop s.ledgerId).cleanup } :=
      ⟨rfl, rfl⟩
    exact h.trans (hdropped.trans (grantLeases _))
  store _ _ h := h.trans ⟨rfl, rfl⟩
  ledger q g' h := h.trans (askLedger g' s.ledgerId q)
  draw h := h.trans ⟨rfl, rfl⟩
  sleep _ _ h := h.trans (setTimer _ _ rfl)
  track _ g' h :=
    h.trans ((withDesk g' s.ledgerId ([], Receipt.Prospect.awaited) _).trans ⟨rfl, rfl⟩)
  alarm _ g' h := h.trans (withShutdown g' _)

theorem runEscrow (g : Gateway W) (k : String) : Still g (g.runEscrow k) := by
  rcases g.runEscrow_cases k with h | ⟨b, -, -, h⟩ <;> rw [h]
  · exact refl g
  · have hdriven := Escrow.drive_keeps (keeps b.settings g) b.settings Escrow.stretch b.phase
      (refl g)
    exact hdriven.trans ⟨rfl, rfl⟩

theorem answerEscrow (g : Gateway W) (k : String) : Still g (g.answerEscrow k) := by
  rcases g.answerEscrow_cases k with h | ⟨b, -, -, phase, outside, -, h⟩ <;> rw [h]
  · exact refl g
  · have hanswered : Still g ({ g with outside }.updateDesk k (·.tellEscrow fun _ => phase)) :=
      ⟨rfl, rfl⟩
    exact hanswered.trans (runEscrow _ k)

end Still

/-! ### What is said -/

/-- Replies came for the deliveries that are under way, and for one more if there is one: what
    they call for was said, and nothing else. -/
structure Speaks (d? : Option Delivery) (g g' : Gateway W) : Prop where
  depth : g'.maxDepth = g.maxDepth
  hears : Relation.ReflTransGen (Docket.Hears g.maxDepth) (g.docket.plus d?) g'.docket

variable {d? : Option Delivery}

theorem Speaks.of_plus (hdepth : g'.maxDepth = g.maxDepth) (h : g'.docket = g.docket.plus d?) :
    Speaks d? g g' := ⟨hdepth, h ▸ .refl⟩

theorem Still.speaks (h : Still g g') : Speaks none g g' := .of_plus h.depth h.docket

theorem Still.then (h : Still g g') (h' : Speaks d? g' g'') : Speaks d? g g'' := by
  have hhears := h'.hears
  rw [h.depth, h.docket] at hhears
  exact ⟨h'.depth.trans h.depth, hhears⟩

theorem Speaks.trans (h : Speaks d? g g') (h' : Speaks none g' g'') : Speaks d? g g'' := by
  have hhears := h'.hears
  rw [h.depth] at hhears
  exact ⟨h'.depth.trans h.depth, h.hears.trans hhears⟩

theorem Speaks.still (h : Speaks d? g g') (h' : Still g' g'') : Speaks d? g g'' :=
  h.trans h'.speaks

/-- The one more was one of those before. -/
theorem Speaks.of_taken (h : Speaks d? g' g'') (hdepth : g'.maxDepth = g.maxDepth)
    (hdocket : g.docket = g'.docket.plus d?) : Speaks none g g'' := by
  have hhears := h.hears
  rw [hdepth, ← hdocket] at hhears
  exact ⟨h.depth.trans hdepth, hhears⟩

/-! ## Outcomes -/

/-- An outcome that goes to no delivery says nothing. -/
theorem still_concludeWithin (fuel : Nat) : ∀ (e : Errand)
    (outcome : Except Fault (Reply Sequel)) (g : Gateway W), e.delivery? = none →
    Still g (concludeWithin fuel e outcome g) := by
  induction fuel with
  | zero => exact fun e outcome g _ => .refl g
  | succ fuel ih =>
    intro e outcome g he
    have hchain : ∀ (g : Gateway W) ticket name limit remaining,
        Still g (g.awaitTicket ticket (.chain name limit remaining)) :=
      fun g ticket name limit remaining => ⟨rfl, g.docket_awaitTicket ticket _⟩
    cases e with
    | delivery d accepting =>
      cases accepting with
      | true => cases he
      | false => exact .tell g rfl
    | call name limit =>
      rcases outcome with f | r
      · exact .tell g rfl
      · unfold concludeWithin
        dsimp only
        split
        · exact (Still.tell g rfl).trans (ih _ _ _ rfl)
        · exact .tell g rfl
    | chain name limit remaining =>
      rcases outcome with f | r
      · exact .tell g rfl
      · unfold concludeWithin
        split
        · exact .tell g rfl
        · exact ih _ _ _ rfl
        · exact hchain ..

@[simp]
theorem maxDepth_send (g : Gateway W) (rs : List Response) : (g.send rs).maxDepth = g.maxDepth := by
  rw [maxDepth, config_send, maxDepth]

/-- A delivery hears of a reply: what it calls for is said, and it goes on or has ended. -/
theorem hears_send {g : Gateway W} {d : Delivery} {l : Link Sequel} {rs : List Response}
    (h : d.told g.maxDepth [l] = (rs, d?)) :
    Docket.Hears g.maxDepth (g.docket.plus (some d)) ((g.send rs).docket.plus d?) := by
  have hafoot : (g.docket.plus (some d)).afoot = d ::ₘ g.afoot := rfl
  have hhears : Docket.Hears g.maxDepth (g.docket.plus (some d)) _ := .hear l hafoot
  rw [h] at hhears
  rw [docket_send]
  exact hhears

theorem speaks_concludeWithin (fuel : Nat) : ∀ (d : Delivery)
    (outcome : Except Fault (Reply Sequel)) (g : Gateway W), Made outcome →
    Sequel.reachOf outcome < fuel →
    Speaks (some d) g (concludeWithin fuel (.delivery d true) outcome g) := by
  induction fuel with
  | zero => exact fun d outcome g _ hreach => absurd hreach (Nat.not_lt_zero _)
  | succ fuel ih =>
    intro d outcome g hmade hreach
    obtain ⟨l, rfl⟩ := hmade.link
    unfold concludeWithin
    rw [if_pos rfl]
    split
    · rename_i rs hstep
      have htold : d.told g.maxDepth [l] = (rs, none) := by rw [Delivery.told, hstep]
      have hended : Speaks (some d) g (g.send rs) := ⟨maxDepth_send g rs, .single (hears_send htold)⟩
      exact hended.still (.tell _ rfl)
    · rename_i x next after hstep
      have htold : d.told g.maxDepth [l] = ([x], some after) := by rw [Delivery.told, hstep]; rfl
      have hnext := reachOf_of_follow hstep
      have hrest := ih after next (g.send [x]) (hmade.of_follow hstep) (by omega)
      have hhears := hrest.hears
      rw [maxDepth_send] at hhears
      exact ⟨hrest.depth.trans (maxDepth_send g [x]), .head (hears_send htold) hhears⟩
    · rename_i x ticket after hstep
      have htold : d.told g.maxDepth [l] = ([x], some after) := by rw [Delivery.told, hstep]; rfl
      have hwaits := (g.send [x]).docket_awaitTicket ticket (.delivery after true)
      refine ⟨maxDepth_send g [x], .single ?_⟩
      rw [hwaits]
      exact hears_send htold

/-- **What an outcome says**: what it and its sequels call for, as far as they are known. -/
theorem speaks_conclude (g : Gateway W) (e : Errand) {outcome : Except Fault (Reply Sequel)}
    (h : Made outcome) : Speaks e.delivery? g (g.conclude e outcome) := by
  cases e with
  | delivery d accepting =>
    cases accepting with
    | true => exact speaks_concludeWithin _ d outcome g h (Nat.lt_add_of_pos_right Nat.two_pos)
    | false => exact (still_concludeWithin _ _ outcome g rfl).speaks
  | call name limit => exact (still_concludeWithin _ _ outcome g rfl).speaks
  | chain name limit remaining => exact (still_concludeWithin _ _ outcome g rfl).speaks

/-! ## Receipts and scans -/

theorem speaks_handOver (g : Gateway W) (k : String) (w : Waiter) (c : Confirmation) :
    Speaks none g (g.handOver k w c) := by
  cases w with
  | watcher name view =>
    cases view with
    | outcome => exact (Still.tell g rfl).speaks
    | confirmation => exact (Still.tell g rfl).speaks
    | nothing => exact (Still.refl g).speaks
  | ticket n =>
    unfold handOver
    dsimp only
    split
    · rename_i e he
      have hconcluded := (g.dropErrand n).speaks_conclude e (.ofReceipt c)
      exact hconcluded.of_taken rfl (docket_dropErrand he)
    · exact (Still.refl g).speaks
  | escrow => exact (Still.rouse g k _).speaks

theorem speaks_absorb (g : Gateway W) (k : String) (notices : List (Receipt.Notice Waiter)) :
    Speaks none g (g.absorb k notices) := by
  have hfold : ∀ (handed : List (Waiter × Confirmation)) (g : Gateway W),
      Speaks none g (handed.foldl (fun g h => g.handOver k h.1 h.2) g) := by
    intro handed
    induction handed with
    | nil => exact fun g => (Still.refl g).speaks
    | cons h hs ih => exact fun g => (speaks_handOver g k h.1 h.2).trans (ih _)
  have hmeters : Still g { g with meters := g.meters.observeAll notices } := ⟨rfl, rfl⟩
  exact hmeters.then (hfold _ _)

section
variable [Outside W]

theorem speaks_finishScan (g : Gateway W) (k : String) : Speaks none g (g.finishScan k).2 := by
  rw [finishScan_eq]
  split
  · exact (Still.refl g).speaks
  · split
    · exact (Still.refl g).speaks
    · dsimp only
      have hchanged : ∀ (outside : W) (f : Desk → Desk),
          Still g ({ g with outside }.updateDesk k f) := fun outside f => ⟨rfl, rfl⟩
      split
      · exact ((hchanged _ _).then (speaks_absorb _ k _)).still (.reportScan ..)
      · exact (hchanged _ _).then (speaks_absorb _ k _)

theorem speaks_scan (g : Gateway W) (k : String) (audience : Option String) :
    Speaks none g (g.scan k audience).2 := by
  have hchanged : ∀ f : Desk → Desk, Still g (g.updateDesk k f) := fun f => ⟨rfl, rfl⟩
  rw [scan_eq]
  split
  · exact (Still.refl g).speaks
  · split
    · exact ((hchanged _).then (speaks_absorb _ k _)).still (.reportScan ..)
    · dsimp only
      split
      · exact (hchanged _).then (speaks_absorb _ k _)
      · exact ((hchanged _).then (speaks_absorb _ k _)).trans (speaks_finishScan _ k)

/-! ## Requests -/

/-- A request is refused, or it is to be worked on. -/
theorem speaks_planJob (g : Gateway W) (e : Errand) (operation : String) (input : Option Input) :
    Speaks e.delivery? g (g.planJob e operation input) := by
  unfold planJob plan
  split
  · rename_i h
    split at h
    · cases h
    · cases h
      have hcounted : Still g { g with meters := g.meters.grow 1 .unroutable } := ⟨rfl, rfl⟩
      exact hcounted.then (speaks_conclude _ e (.fault _))
  · rename_i route _ h
    split at h
    · cases h
      have hcounted : Still g { g with meters := g.meters.grow 1 .routed } := ⟨rfl, rfl⟩
      exact hcounted.then (.of_plus rfl (docket_enqueue _ (.apply e route input)))
    · cases h

omit [Outside W] in
theorem speaks_prepare (g : Gateway W) (e : Errand) (k : String) (mode : ReplyMode)
    (workId : WorkId) (recent : Option UInt64) :
    Speaks e.delivery? g (g.prepare e k mode workId recent) := by
  have henrolled : Still g (g.enrolled k workId) :=
    (Still.withDesk g k ([], Receipt.Prospect.awaited) _).trans ⟨rfl, rfl⟩
  rw [prepare_eq]
  split
  · exact henrolled.then (speaks_conclude _ e (.ofReceipt _))
  · exact henrolled.then (.of_plus rfl (docket_awaitTicket _ _ e))
  · exact henrolled.then (speaks_conclude _ e (.known _ (.ofReceipt _)))
  · exact henrolled.then (speaks_conclude _ e (.receipt _ _))

/-- A delegate works on a request, and makes of it what can be made. -/
theorem speaks_applyJob (g : Gateway W) (e : Errand) {route : Route Delegate}
    (hmakes : route.delegate.Makes) (input : Option Input) :
    Speaks e.delivery? g (g.applyJob e route input) := by
  have hstill := Still.run route.ledger.id (route.delegate.apply route.ledger input) g
  have hyields := (hmakes route.ledger input).of_run (consult route.ledger.id) g
  unfold applyJob
  dsimp only
  split
  · rename_i outcome g' h
    rw [h] at hstill hyields
    exact hstill.then (speaks_conclude _ e hyields)
  · rename_i mode workId recent g' h
    rw [h] at hstill
    exact hstill.then (speaks_prepare _ e _ mode workId recent)

/-! ## Jobs -/

/-- **What a job says**: what the replies call for that came of it. -/
theorem speaks_perform (g : Gateway W) {j : Job}
    (hmakes : ∀ e route input, j = .apply e route input → route.delegate.Makes) :
    Speaks j.delivery? g (g.perform j) := by
  cases j with
  | plan e operation input => exact speaks_planJob g e operation input
  | apply e route input => exact speaks_applyJob g e (hmakes e route input rfl) input
  | scan k audience => exact speaks_scan g k audience
  | scanner =>
    refine ((Still.discard g fun j hj => ?_).trans (.runScanner _)).speaks
    cases j with
    | scanner => rfl
    | _ => cases hj
  | bootstrap k => exact (Still.runEscrow g k).speaks
  | wake k =>
    have htold : Still g (g.updateDesk k (·.tellEscrow Escrow.Phase.awake)) := ⟨rfl, rfl⟩
    exact (htold.trans (.runEscrow _ k)).speaks
  | answer k => exact (Still.answerEscrow g k).speaks
  | shutdown => exact (Still.withShutdown g _).speaks

/-! ## Furnished gateways -/

/-- Wherever a request may find a delegate, the delegate makes what can be made. -/
structure Furnished (g : Gateway W) : Prop where
  delegates : ∀ key d, g.delegates.find? key = some d → d.Makes
  routed : ∀ x ∈ g.routed, x.1.delegate.Makes

namespace Furnished

omit [Outside W] in
theorem of_routes (h : g.Furnished) (hs : SameRoutes g g') : g'.Furnished := by
  constructor
  · rw [hs.delegates]
    exact h.delegates
  · intro x hx
    exact h.routed x (hs.routed hx)

theorem planJob (h : g.Furnished) (e : Errand) (operation : String) (input : Option Input) :
    (g.planJob e operation input).Furnished := by
  rcases g.planJob_cases e operation input with hp | ⟨route, hplan, heq⟩
  · exact h.of_routes hp.toSameRoutes
  · have hmakes : (Route.plan g.ledgers g.delegates operation input).Yields fun o =>
        ∀ route, o = .ok route → route.delegate.Makes := by
      refine Route.yields_plan (fun f route hroute => ?_) fun candidate route hroute => ?_
      · cases hroute
      · exact h.delegates _ _ (Route.of_ofCandidate hroute).2
    rw [heq]
    constructor
    · exact h.delegates
    · intro x hx
      rcases of_routed_enqueue hx with hx | rfl
      · exact h.routed x hx
      · exact hmakes.of_reaches hplan _ rfl

theorem applyJob (h : g.Furnished) (e : Errand) (route : Route Delegate) (input : Option Input) :
    (g.applyJob e route input).Furnished := by
  have hanswered := g.byplay_run route.ledger.id (route.delegate.apply route.ledger input)
  refine h.of_routes ?_
  unfold Gateway.applyJob
  dsimp only
  split
  · rename_i outcome g' hrun
    rw [hrun] at hanswered
    exact (SameRoutes.of_byplay hanswered).trans (.conclude g' e outcome)
  · rename_i mode workId recent g' hrun
    rw [hrun] at hanswered
    exact (SameRoutes.of_byplay hanswered).trans (.prepare g' e _ mode workId recent)

/-- **Whatever job a gateway does**, it stays furnished. -/
theorem perform (h : g.Furnished) (j : Job) : (g.perform j).Furnished := by
  cases j with
  | plan e operation input => exact h.planJob e operation input
  | apply e route input => exact h.applyJob e route input
  | scan k audience => exact h.of_routes (proceeds_scan g k audience).toSameRoutes
  | scanner =>
    refine h.of_routes (.of_byplay (Byplay.trans ?_ (.runScanner _)))
    exact .timers g List.filter_sublist
  | bootstrap k => exact h.of_routes (proceeds_runEscrow g k).toSameRoutes
  | wake k =>
    have htold := h.of_routes (.of_byplay (.tellEscrow g k Escrow.Phase.awake))
    exact htold.of_routes (proceeds_runEscrow _ k).toSameRoutes
  | answer k => exact h.of_routes (proceeds_answerEscrow g k).toSameRoutes
  | shutdown => exact h.of_routes (.of_byplay (.withShutdown g _))

omit [Outside W] in
theorem handle (h : g.Furnished) (r : Request) (accepting : Bool) :
    (g.handle r accepting).Furnished := h.of_routes (.of_byplay (.enqueue g rfl))

omit [Outside W] in
/-- A gateway that was built is furnished if its embedder's delegates are. -/
theorem of_built {c : Config} {fit : Fittings} (h : Built c fit g)
    (hmakes : ∀ d ∈ fit.delegates, d.Makes) : g.Furnished := by
  constructor
  · intro key d hfind
    obtain ⟨hmem, -⟩ := Assignments.of_find? h.delegates hfind
    rcases List.mem_append.1 hmem with hmem | hmem
    · exact Delegate.makes_of_standard (Delegate.isStandard_of_mem hmem)
    · exact hmakes d hmem
  · intro x hx
    rw [h.fresh] at hx
    cases hx

end Furnished

/-! ## Runs -/

/-- A furnished gateway stays furnished, and it says what its replies call for. -/
def Attends (g g' : Gateway W) : Prop := g.Furnished → g'.Furnished ∧ Speaks none g g'

omit [Outside W] in
theorem Attends.refl (g : Gateway W) : Attends g g := fun h => ⟨h, (Still.refl g).speaks⟩

omit [Outside W] in
theorem Attends.trans (h : Attends g g') (h' : Attends g' g'') : Attends g g'' := by
  intro hg
  obtain ⟨hg', hspeaks⟩ := h hg
  obtain ⟨hg'', hspeaks'⟩ := h' hg'
  exact ⟨hg'', hspeaks.trans hspeaks'⟩

omit [Outside W] in
theorem Still.attends (h : Still g g') (hs : SameRoutes g g') : Attends g g' :=
  fun hg => ⟨hg.of_routes hs, h.speaks⟩

omit [Outside W] in
/-- The delivery of a job that is taken up is one of those under way. -/
theorem docket_takeUp {job : Job} {rest : List Job} (hready : g.ready = job :: rest) :
    g.docket = ({ g with ready := rest } : Gateway W).docket.plus job.delivery? := by
  cases hjob : job.delivery? with
  | none => simp [docket, Docket.plus, afoot, hready, hjob, responses]
  | some d =>
    refine Docket.ext ?_ rfl
    simp [docket, Docket.plus, afoot, hready, hjob]

/-- **One job.** -/
theorem attends_work {job : Job} {rest : List Job} (hready : g.ready = job :: rest) :
    Attends g ({ g with ready := rest }.perform job) := by
  intro hg
  have hrest : ({ g with ready := rest } : Gateway W).Furnished :=
    hg.of_routes (.of_byplay (.takeUp hready))
  refine ⟨hrest.perform job, (speaks_perform _ ?_).of_taken rfl (docket_takeUp hready)⟩
  rintro e route input rfl
  have hmem : (route, input) ∈ g.routed := by
    refine List.mem_filterMap.2 ⟨.apply e route input, ?_, rfl⟩
    simp [hready]
  exact hg.routed _ hmem

theorem attends_settleWithin (fuel : Nat) (g : Gateway W) : Attends g (g.settleWithin fuel) := by
  induction fuel generalizing g with
  | zero => exact .refl g
  | succ fuel ih =>
    unfold settleWithin
    split
    · exact .refl g
    · rename_i job rest hready
      exact (attends_work hready).trans (ih _)

/-- **All that is ready**, and all that comes of it. -/
theorem attends_settle (g : Gateway W) : Attends g g.settle := attends_settleWithin _ g

theorem attends_leapTo (g : Gateway W) (time : Nat) : Attends g (g.leapTo time) := by
  have hnow : Byplay g { g with now := time } := .of_core rfl
  have hpassed := (Still.pass g time).attends (.of_byplay (hnow.trans (.ring _)))
  exact hpassed.trans (attends_settle _)

/-- **All that a gateway does while time passes.** -/
theorem attends_waitUntil (met : Gateway W → Bool) (limit fuel : Nat) (g : Gateway W) :
    Attends g (waitUntil met limit fuel g).2 := by
  have hlate : ∀ g : Gateway W, Attends g { g with now := limit } := fun g =>
    Still.attends ⟨rfl, rfl⟩ ⟨rfl, rfl, fun _ => id⟩
  induction fuel generalizing g with
  | zero => exact .refl g
  | succ fuel ih =>
    unfold waitUntil
    split
    · exact .refl g
    · split
      · split
        · exact (attends_leapTo g _).trans (ih _)
        · exact hlate g
      · exact hlate g

omit [Outside W] in
/-- Nothing is under way, so no delivery is. -/
theorem afoot_eq_zero (h : g.underway = 0) : g.afoot = 0 := by
  simp only [underway, Nat.add_eq_zero_iff, List.countP_eq_zero] at h
  obtain ⟨⟨hready, htimers⟩, herrands⟩ := h
  have hjob : ∀ j : Job, ¬ j.isDelivery → j.delivery? = none := by
    intro j hj
    by_contra hsome
    obtain ⟨d, hd⟩ := Option.ne_none_iff_exists'.1 hsome
    exact hj (Job.isDelivery_of_delivery? hd)
  refine (Multiset.coe_eq_zero _).2 (List.append_eq_nil_iff.2 ⟨?_, ?_⟩)
  · rw [List.filterMap_eq_nil_iff]
    intro j hj
    rcases List.mem_append.1 hj with hj | hj
    · exact hjob j (hready j hj)
    · obtain ⟨x, hx, rfl⟩ := List.mem_map.1 hj
      exact hjob x.2 (htimers x hx)
  · rw [List.filterMap_eq_nil_iff]
    intro e he
    obtain ⟨x, hx, rfl⟩ := List.mem_map.1 he
    by_contra hsome
    obtain ⟨d, hd⟩ := Option.ne_none_iff_exists'.1 hsome
    exact herrands x hx (Errand.isDelivery_of_delivery? hd)

end

end Gateway

end LedgerGate
