/-
  The floor of a gateway: what goes on when every wait is a wait.

  A gateway that runs does one job after the other, and a job is done in one go.  On the floor
  whatever may have to wait does: a request is suspended at each question of its plan and of
  the work on it, a scan at each question about an id, and a receipt that was handed out lies
  in the post until who waits for it takes it.  Any of them may go on at any time, and any
  answer may come.

  * `Progress`, `Task`: a request and how far it is; `Letter`: a receipt in the post;
  * `Floor`: a gateway with its tasks and its post, and a log of what concerns trackers;
  * `Task.Turn`, `Floor.Step`: all that can happen; what it does to the gateway is done by the
    gateway's own `conclude`, `prepare` and `handOver`, and by the moves of its trackers;
  * `prepare_handsOn`, `handOver_handsOn`, `tend_spec`: what these do to what requests depend on.
-/
import LedgerGate.Proofs.Delegate.Decided
import LedgerGate.Proofs.Gateway.Keeping
import LedgerGate.Proofs.Gateway.Trackers

namespace LedgerGate

/-! ## Responses -/

/-- The response that an event is. -/
def Event.response? : Event → Option Response
  | .response r => some r
  | _ => none

namespace Gateway

variable {W : Type} {g g' g'' : Gateway W}

/-- The responses that a gateway has sent. -/
def responses (g : Gateway W) : List Response := g.events.toList.filterMap Event.response?

/-- The responses that a gateway has sent since it was another. -/
def responsesSince (g g' : Gateway W) : List Response := g'.responses.drop g.responses.length

@[simp]
theorem responsesSince_self (g : Gateway W) : g.responsesSince g = [] := List.drop_length

/-- Two gateways route requests the same way, and the same errands wait for tickets. -/
structure SameDealings (g g' : Gateway W) : Prop where
  depth : g'.maxDepth = g.maxDepth
  ledgers : g'.ledgers = g.ledgers
  delegates : g'.delegates = g.delegates
  tickets : g'.tickets = g.tickets
  errands : g'.errands = g.errands
  responses : g'.responses = g.responses

namespace SameDealings

theorem refl (g : Gateway W) : SameDealings g g := ⟨rfl, rfl, rfl, rfl, rfl, rfl⟩

theorem symm (h : SameDealings g g') : SameDealings g' g where
  depth := h.depth.symm
  ledgers := h.ledgers.symm
  delegates := h.delegates.symm
  tickets := h.tickets.symm
  errands := h.errands.symm
  responses := h.responses.symm

theorem trans (h : SameDealings g g') (h' : SameDealings g' g'') : SameDealings g g'' where
  depth := h'.depth.trans h.depth
  ledgers := h'.ledgers.trans h.ledgers
  delegates := h'.delegates.trans h.delegates
  tickets := h'.tickets.trans h.tickets
  errands := h'.errands.trans h.errands
  responses := h'.responses.trans h.responses

end SameDealings

/-- One gateway differs from another at most in what requests do not depend on. -/
structure Aside (g g' : Gateway W) : Prop extends SameDealings g g' where
  trackers : ∀ ledgerId, g'.trackerAt ledgerId = g.trackerAt ledgerId

namespace Aside

theorem refl (g : Gateway W) : Aside g g := ⟨.refl g, fun _ => rfl⟩

theorem symm (h : Aside g g') : Aside g' g := ⟨h.toSameDealings.symm, fun k => (h.trackers k).symm⟩

theorem trans (h : Aside g g') (h' : Aside g' g'') : Aside g g'' :=
  ⟨h.toSameDealings.trans h'.toSameDealings, fun k => (h'.trackers k).trans (h.trackers k)⟩

/-- A desk has changed, but not its tracker. -/
theorem updateDesk {k : String} {f : Desk → Desk} (hid : ∀ d, d.ledgerId = k → (f d).ledgerId = k)
    (hf : ∀ d, (f d).tracker = d.tracker) : Aside g (g.updateDesk k f) :=
  ⟨⟨rfl, rfl, rfl, rfl, rfl, rfl⟩, (SameTrackers.updateDesk hid hf).trackers⟩

end Aside

/-! ## Trackers at work -/

/-- A move of the tracker of a ledger: what it hands out, and the gateway after it, in which
    those have been told whose handlers were dropped. -/
def tend (g : Gateway W) (ledgerId : String) (m : Receipt.Move Waiter) :
    List (Waiter × Confirmation) × Gateway W :=
  let changed := g.withDesk ledgerId ([], []) fun d =>
    let result := d.tracker.after m
    ((result.2, d.tracker.lost result.1 result.2), { d with tracker := result.1 })
  (Receipt.dispatches changed.1.1, { changed.2 with
    meters := changed.2.meters.observeAll changed.1.1 }.abandonAll ledgerId changed.1.2)

/-- A desk on which something was done, if there is one, with the others as they were. -/
theorem withDesk_spec {α : Type} (g : Gateway W) (k : String) (missing : α)
    {f : Desk → α × Desk} (hf : ∀ d, (f d).2.ledgerId = d.ledgerId) :
    SameDealings g (g.withDesk k missing f).2 ∧
      (∀ ledgerId, (g.withDesk k missing f).2.trackerAt ledgerId =
        if ledgerId = k then (g.desk? k).map fun d => (f d).2.tracker
        else g.trackerAt ledgerId) ∧
      (g.withDesk k missing f).1 = (g.desk? k).elim missing fun d => (f d).1 := by
  unfold withDesk
  cases hd : g.desk? k with
  | none =>
    refine ⟨⟨rfl, rfl, rfl, rfl, rfl, rfl⟩, fun ledgerId => ?_, rfl⟩
    show g.trackerAt ledgerId = _
    split
    · rename_i hk
      subst hk
      rw [trackerAt, hd]
      rfl
    · rfl
  | some d =>
    have hid : ∀ e : Desk, e.ledgerId = k → (f d).2.ledgerId = k := by
      intro e _
      rw [hf d, ledgerId_of_desk? hd]
    refine ⟨⟨rfl, rfl, rfl, rfl, rfl, rfl⟩, fun ledgerId => ?_, rfl⟩
    rw [trackerAt_updateDesk hid, hd]
    rfl

/-- **A move of a tracker in a gateway.** -/
theorem tend_spec (g : Gateway W) (k : String) (m : Receipt.Move Waiter) :
    SameDealings g (g.tend k m).2 ∧
      (∀ ledgerId, (g.tend k m).2.trackerAt ledgerId =
        if ledgerId = k then (g.trackerAt k).map fun t => (t.after m).1
        else g.trackerAt ledgerId) ∧
      (g.tend k m).1 = (g.trackerAt k).elim [] fun t => Receipt.dispatches (t.after m).2 := by
  obtain ⟨hsame, htrackers, hnotices⟩ := g.withDesk_spec k ([], []) (f := fun d =>
    (((d.tracker.after m).2, d.tracker.lost (d.tracker.after m).1 (d.tracker.after m).2),
      { d with tracker := (d.tracker.after m).1 })) fun _ => rfl
  have hkept : (g.withDesk k ([], []) fun d =>
      (((d.tracker.after m).2, d.tracker.lost (d.tracker.after m).1 (d.tracker.after m).2),
        { d with tracker := (d.tracker.after m).1 })).1.2 = [] := by
    rw [hnotices]
    cases g.desk? k with
    | none => rfl
    | some d => exact d.tracker.lost_after m
  unfold tend
  dsimp only
  rw [hkept, abandonAll_nil]
  refine ⟨⟨hsame.depth, hsame.ledgers, hsame.delegates, hsame.tickets, hsame.errands,
    hsame.responses⟩, fun ledgerId => (htrackers ledgerId).trans ?_, ?_⟩
  · have hafter : (g.trackerAt k).map (fun t => (t.after m).1) =
        (g.desk? k).map fun d => (d.tracker.after m).1 := Option.map_map ..
    rw [hafter]
  · show Receipt.dispatches _ = _
    rw [hnotices, trackerAt]
    cases g.desk? k <;> rfl

/-! ## Responses of outcomes -/

@[simp]
theorem responses_ensuing (g : Gateway W) (told : Array Event) (waiting : List (Nat × Errand)) :
    (g.ensuing told waiting).responses =
      g.responses ++ told.toList.filterMap Event.response? := by
  simp [responses, ensuing, List.filterMap_append]

/-- The responses since a gateway with the same are those that were told. -/
theorem responsesSince_ensuing (h : g'.responses = g.responses) (told : Array Event)
    (waiting : List (Nat × Errand)) :
    g.responsesSince (g'.ensuing told waiting) = told.toList.filterMap Event.response? := by
  rw [responsesSince, responses_ensuing, h, List.drop_left]

/-- The last response of a delivery. -/
theorem concludeWithin_last (g : Gateway W) (fuel : Nat) (d : Delivery) (o : Output) :
    concludeWithin (fuel + 1) (.delivery d true) (.ok ⟨o, none⟩) g = g.ensuing
      #[.response (d.success o), .delivered d.inReplyTo.messageId (.ok (d.sequence + 1))] [] := by
  simp [concludeWithin, Delivery.step, Delivery.sent, send_eq, tell_eq, ensuing_ensuing]

/-- The first of two responses, if the second is known. -/
theorem conclude_known (g : Gateway W) (d : Delivery) (o : Output)
    (next : Except Fault (Reply Sequel)) (hdepth : d.sequence + 1 ≤ g.maxDepth) :
    g.conclude (.delivery d true) (.ok ⟨o, some (.known next)⟩) =
      concludeWithin (Sequel.reachOf next + 2) (.delivery d.advanced true) next
        (g.ensuing #[.response (d.success o)] []) := by
  have hlimit : ¬g.maxDepth < d.sequence + 1 := UInt32.not_lt.2 hdepth
  have hfuel : Sequel.reachOf (.ok ⟨o, some (.known next)⟩) = Sequel.reachOf next + 1 := rfl
  have hsend : g.send [d.success o] = g.ensuing #[.response (d.success o)] [] := by
    simp [send, tell, ensuing]
  simp only [conclude, hfuel, concludeWithin, if_true, Delivery.step, if_neg hlimit, hsend]

/-- The first of two responses, if the second waits for a receipt. -/
theorem conclude_receipt (g : Gateway W) (d : Delivery) (o : Output) (ticket : Nat)
    (hdepth : d.sequence + 1 ≤ g.maxDepth) :
    g.conclude (.delivery d true) (.ok ⟨o, some (.receipt ticket)⟩) =
      g.ensuing #[.response (d.success o)] [(ticket, .delivery d.advanced true)] := by
  have hlimit : ¬g.maxDepth < d.sequence + 1 := UInt32.not_lt.2 hdepth
  simp [conclude, concludeWithin, Delivery.step, hlimit, send, tell, awaitTicket,
    ensuing]

/-! ## Preparing work -/

/-- The tracker of a ledger polls for work and lets the next ticket wait for its receipt. -/
def enrolled (g : Gateway W) (k : String) (workId : WorkId) : Gateway W :=
  let prepared := g.withDesk k ([], .awaited) fun d =>
    let (d, notices, prospect) := d.prepare workId (.ticket g.tickets)
    ((notices, prospect), d)
  { prepared.2 with
    tickets := g.tickets + 1
    meters := prepared.2.meters.observeAll prepared.1.1 }

/-- The receipt that is at hand for work on a ledger. -/
def atHand? (g : Gateway W) (k : String) (workId : WorkId) : Option Confirmation :=
  (g.trackerAt k).bind (·.held? workId)

/-- Preparing is enrolling, and then the outcome is handed on as far as it is known; no
    handler is dropped. -/
theorem prepare_eq (g : Gateway W) (e : Errand) (k : String) (mode : ReplyMode)
    (workId : WorkId) (recent : Option UInt64) : g.prepare e k mode workId recent =
      match mode, g.atHand? k workId with
      | .result, some c => (g.enrolled k workId).conclude e (Sequel.ofReceipt c)
      | .result, none => (g.enrolled k workId).awaitTicket g.tickets e
      | .id, some c => (g.enrolled k workId).conclude e
        (.ok (.pending (.pending workId recent) (.known (Sequel.ofReceipt c))))
      | .id, none => (g.enrolled k workId).conclude e
        (.ok (.pending (.pending workId recent) (.receipt g.tickets))) := by
  have hprospect : (g.withDesk k ([], .awaited) fun d =>
      (((d.prepare workId (.ticket g.tickets)).2.1, (d.prepare workId (.ticket g.tickets)).2.2),
        (d.prepare workId (.ticket g.tickets)).1)).1.2 = .of (g.atHand? k workId) := by
    rw [(g.withDesk_spec k ([], Receipt.Prospect.awaited) fun _ => rfl).2.2, atHand?, trackerAt]
    cases g.desk? k with
    | none => rfl
    | some d => exact d.prospect_prepare workId _
  unfold prepare
  dsimp only
  rw [hprospect]
  cases mode <;> cases g.atHand? k workId <;> rfl

/-- What enrolling does: two moves of one tracker, and a ticket. -/
theorem enrolled_spec (g : Gateway W) (k : String) (workId : WorkId) :
    SameDealings { g with tickets := g.tickets + 1 } (g.enrolled k workId) ∧
      ∀ ledgerId, (g.enrolled k workId).trackerAt ledgerId =
        if ledgerId = k then (g.trackerAt k).map fun t =>
          ((t.after (.track workId)).1.after (.register workId (.ticket g.tickets) false)).1
        else g.trackerAt ledgerId := by
  obtain ⟨hsame, htrackers, -⟩ := g.withDesk_spec k ([], Receipt.Prospect.awaited) (f := fun d =>
    (((d.prepare workId (.ticket g.tickets)).2.1, (d.prepare workId (.ticket g.tickets)).2.2),
      (d.prepare workId (.ticket g.tickets)).1)) fun _ => rfl
  refine ⟨⟨hsame.depth, hsame.ledgers, hsame.delegates, rfl, hsame.errands, hsame.responses⟩,
    fun ledgerId => (htrackers ledgerId).trans ?_⟩
  have hafter : (g.trackerAt k).map (fun t =>
      ((t.after (.track workId)).1.after (.register workId (.ticket g.tickets) false)).1) =
      (g.desk? k).map fun d => (d.prepare workId (.ticket g.tickets)).1.tracker :=
    Option.map_map ..
  rw [hafter]

/-- What an outcome leaves behind: the trackers, the tickets and the routes as they were, and
    perhaps errands for its tickets. -/
structure HandsOn (due : Nat → Prop) (g g' : Gateway W) : Prop where
  depth : g'.maxDepth = g.maxDepth
  ledgers : g'.ledgers = g.ledgers
  delegates : g'.delegates = g.delegates
  trackers : ∀ ledgerId, g'.trackerAt ledgerId = g.trackerAt ledgerId
  tickets : g'.tickets = g.tickets
  errands : ∃ waiting, g'.errands = g.errands ++ waiting ∧ ∀ x ∈ waiting, due x.1

theorem Ensues.handsOn {due : Nat → Prop} {outcome : Except Fault (Reply Sequel)}
    (h : Ensues outcome g g') (hdue : Awaits due outcome) : HandsOn due g g' := by
  obtain ⟨told, waiting, rfl, hall⟩ := h
  exact ⟨rfl, rfl, rfl, fun _ => rfl, rfl, waiting, rfl, hall due hdue⟩

theorem awaits_ofReceipt (tickets : Nat → Prop) (c : Confirmation) :
    Awaits tickets (Sequel.ofReceipt c) := by
  unfold Sequel.ofReceipt Reply.result
  split
  · exact .error _
  · exact .last _

theorem Aside.handsOn (h : Aside g g') : HandsOn (fun _ => False) g g' :=
  ⟨h.depth, h.ledgers, h.delegates, h.trackers, h.tickets, [], by simp [h.errands],
    fun x hx => by cases hx⟩

/-- **Preparing work** leaves what enrolling leaves, and perhaps an errand for the ticket. -/
theorem prepare_handsOn (g : Gateway W) (e : Errand) (k : String) (mode : ReplyMode)
    (workId : WorkId) (recent : Option UInt64) :
    HandsOn (· = g.tickets) (g.enrolled k workId) (g.prepare e k mode workId recent) := by
  rw [prepare_eq]
  split
  · exact (ensues_conclude _ _ _).handsOn (awaits_ofReceipt _ _)
  · refine ⟨rfl, rfl, rfl, fun _ => rfl, rfl, [(g.tickets, e)], rfl, fun x hx => ?_⟩
    rw [List.mem_singleton.1 hx]
  · exact (ensues_conclude _ _ _).handsOn (.known (awaits_ofReceipt _ _))
  · exact (ensues_conclude _ _ _).handsOn (.receipt rfl)

section
variable {d : Delivery} {k : String} {workId : WorkId}
  (hdepth : d.sequence + 1 ≤ (g.enrolled k workId).maxDepth) (recent : Option UInt64)
include hdepth

/-- A delivery of prepared work that wants its id gets the id, and waits for the receipt. -/
theorem prepare_absent (hhand : g.atHand? k workId = none) :
    g.prepare (.delivery d true) k .id workId recent = (g.enrolled k workId).ensuing
      #[.response (d.success (.transaction (.pending workId recent)))]
      [(g.tickets, .delivery d.advanced true)] := by
  rw [prepare_eq, hhand]
  exact conclude_receipt _ _ _ _ hdepth

/-- If the receipt is at hand the delivery gets both. -/
theorem prepare_atHand {c : Confirmation} (hhand : g.atHand? k workId = some c) :
    g.prepare (.delivery d true) k .id workId recent = (g.enrolled k workId).ensuing
      #[.response (d.success (.transaction (.pending workId recent))),
        .response (d.advanced.success (.transaction c.result)),
        .delivered d.inReplyTo.messageId (.ok (d.advanced.sequence + 1))] [] := by
  have hreceipt : Sequel.ofReceipt c = .ok ⟨.transaction c.result, none⟩ :=
    Reply.result_confirmation c
  rw [prepare_eq, hhand]
  refine (conclude_known _ _ _ _ hdepth).trans ?_
  rw [hreceipt, concludeWithin_last, ensuing_ensuing]
  rfl

end

/-! ## Handing receipts over -/

/-- An event that is no response is no matter of requests, -/
theorem Aside.tell (g : Gateway W) {e : Event} (h : e.response? = none) : Aside g (g.tell e) := by
  refine ⟨⟨rfl, rfl, rfl, rfl, rfl, ?_⟩, fun _ => rfl⟩
  rw [tell_eq, responses_ensuing]
  simp [h]

/-- and neither is a receipt that no ticket waits for. -/
theorem handOver_aside (g : Gateway W) (k : String) {w : Waiter} (hw : ∀ n, w ≠ .ticket n)
    (c : Confirmation) : Aside g (g.handOver k w c) := by
  cases w with
  | watcher name view =>
    cases view with
    | outcome => exact .tell g rfl
    | confirmation => exact .tell g rfl
    | nothing => exact .refl g
  | ticket n => exact absurd rfl (hw n)
  | escrow => exact ⟨⟨rfl, rfl, rfl, rfl, rfl, rfl⟩, (SameTrackers.handOver g k .escrow c).trackers⟩

/-- The gateway without the errand that a receipt is for. -/
def without (g : Gateway W) : Waiter → Gateway W
  | .ticket n => g.dropErrand n
  | _ => g

/-- **A receipt that is handed over** has its errand taken up, if there is one, and leaves
    none. -/
theorem handOver_handsOn (g : Gateway W) (k : String) (w : Waiter) (c : Confirmation) :
    HandsOn (fun _ => False) (g.without w) (g.handOver k w c) := by
  cases w with
  | ticket n =>
    unfold handOver
    dsimp only
    split
    · exact (ensues_conclude _ _ _).handsOn (awaits_ofReceipt _ c)
    · rename_i hnone
      have hfind : g.errands.find? (·.1 == n) = none := Option.map_eq_none_iff.1 hnone
      have hsame : g.errands.eraseP (·.1 == n) = g.errands :=
        List.eraseP_of_forall_not (List.find?_eq_none.1 hfind)
      refine ⟨rfl, rfl, rfl, fun _ => rfl, rfl, [], ?_, fun x hx => by cases hx⟩
      simp [without, dropErrand, hsame]
  | watcher name view => exact (g.handOver_aside k (by simp) c).handsOn
  | escrow => exact (g.handOver_aside k (by simp) c).handsOn

/-- Nothing is changed that trackers, tickets and routes depend on, and no errand is new. -/
structure Narrows (g g' : Gateway W) : Prop where
  depth : g'.maxDepth = g.maxDepth
  ledgers : g'.ledgers = g.ledgers
  delegates : g'.delegates = g.delegates
  trackers : ∀ ledgerId, g'.trackerAt ledgerId = g.trackerAt ledgerId
  tickets : g'.tickets = g.tickets
  errands : g'.errands ⊆ g.errands

theorem Narrows.refl (g : Gateway W) : Narrows g g :=
  ⟨rfl, rfl, rfl, fun _ => rfl, rfl, List.Subset.refl _⟩

theorem Narrows.trans (h : Narrows g g') (h' : Narrows g' g'') : Narrows g g'' where
  depth := h'.depth.trans h.depth
  ledgers := h'.ledgers.trans h.ledgers
  delegates := h'.delegates.trans h.delegates
  trackers ledgerId := (h'.trackers ledgerId).trans (h.trackers ledgerId)
  tickets := h'.tickets.trans h.tickets
  errands _ he := h.errands (h'.errands he)

/-- An outcome that waits for nothing leaves no errand. -/
theorem HandsOn.errands_eq (h : HandsOn (fun _ => False) g g') : g'.errands = g.errands := by
  obtain ⟨waiting, herrands, hnone⟩ := h.errands
  rw [herrands, List.eq_nil_iff_forall_not_mem.2 hnone, List.append_nil]

theorem HandsOn.narrows (h : HandsOn (fun _ => False) g g') : Narrows g g' :=
  ⟨h.depth, h.ledgers, h.delegates, h.trackers, h.tickets, by rw [h.errands_eq]; exact fun _ => id⟩

theorem narrows_without (g : Gateway W) (w : Waiter) : Narrows g (g.without w) := by
  cases w with
  | ticket n => exact ⟨rfl, rfl, rfl, fun _ => rfl, rfl, List.eraseP_subset⟩
  | watcher name view => exact .refl g
  | escrow => exact .refl g

theorem narrows_handOver (g : Gateway W) (k : String) (w : Waiter) (c : Confirmation) :
    Narrows g (g.handOver k w c) :=
  (g.narrows_without w).trans (g.handOver_handsOn k w c).narrows

/-- A delivery that waits for the receipt of a ticket gets it as its last response. -/
theorem handOver_delivery {g : Gateway W} {n : Nat} {d : Delivery}
    (h : g.errand? n = some (.delivery d true)) (k : String) (c : Confirmation) :
    g.handOver k (.ticket n) c = (g.dropErrand n).ensuing
      #[.response (d.success (.transaction c.result)),
        .delivered d.inReplyTo.messageId (.ok (d.sequence + 1))] [] := by
  have hreceipt : Sequel.ofReceipt c = .ok ⟨.transaction c.result, none⟩ :=
    Reply.result_confirmation c
  unfold handOver
  dsimp only
  rw [h]
  dsimp only
  rw [hreceipt]
  exact concludeWithin_last _ _ d _

end Gateway

/-! ## Requests under way -/

/-- How far a request is. -/
inductive Progress where
  /-- it is planned; the plan may have to wait for the directories -/
  | planning (plan : Store.Inquiry (Except Fault (Route Delegate)))
  /-- a delegate works on it for a ledger, and may have to wait for an answer -/
  | working (ledgerId : String) (work : Delegate.Work)
  /-- the work that it submitted was prepared under a ticket -/
  | prepared (ticket : Nat)
  /-- its outcome was handed on -/
  | concluded

/-- Who waits for a receipt on behalf of a request. -/
def Progress.waiter? : Progress → Option Waiter
  | prepared ticket => some (.ticket ticket)
  | _ => none

/-- A request that was taken: who gets its outcome, how far it is, and the responses to it. -/
structure Floor.Task where
  errand : Errand
  operation : String
  input : Option Input
  progress : Progress
  said : List Response

/-- What a request hears when somebody is handed a receipt: what is said then, if it is the one
    that waited. -/
def Floor.Task.hears (t : Task) (w : Waiter) (more : List Response) : Task :=
  { t with said := if t.progress.waiter? = some w then t.said ++ more else t.said }

/-- A receipt that the tracker of a ledger handed out. -/
structure Letter where
  ledgerId : String
  waiter : Waiter
  receipt : Confirmation

/-- The letters with which a ledger hands receipts out. -/
def lettersFrom (ledgerId : String) (handed : List (Waiter × Confirmation)) : List Letter :=
  handed.map fun d => ⟨ledgerId, d.1, d.2⟩

/-! ## The log -/

/-- What is noted about trackers, and about the requests that are theirs to follow. -/
inductive Note where
  /-- the call of a request was taken by a ledger -/
  | submitted (request : Nat) (ledgerId : String) (workId : WorkId)
  /-- work of a request was tracked, and a ticket registered for its receipt -/
  | registered (request : Nat) (ledgerId : String) (workId : WorkId) (ticket : Nat)
  /-- the tracker of a ledger made some other move -/
  | moved (ledgerId : String) (m : Receipt.Move Waiter)

namespace Note

/-- The request that a note is about. -/
def request? : Note → Option Nat
  | submitted i _ _ => some i
  | registered i _ _ _ => some i
  | moved _ _ => none

/-- The ticket that a note is about. -/
def ticket? : Note → Option Nat
  | registered _ _ _ ticket => some ticket
  | _ => none

/-- The moves of the tracker of a ledger that a note is about. -/
def moves (ledgerId : String) : Note → List (Receipt.Move Waiter)
  | submitted _ _ _ => []
  | registered _ k workId ticket =>
    if k = ledgerId then [.track workId, .register workId (.ticket ticket) false] else []
  | moved k m => if k = ledgerId then [m] else []

/-- What is noted of the answer to a question of a delegate that works on a request. -/
def ofAnswer (request : Nat) (ledgerId : String) :
    (q : Delegate.Question) → q.Answer → List Note
  | .ledger (.submit _), .ok workId => [.submitted request ledgerId workId]
  | _, _ => []

end Note

/-- The moves of the tracker of a ledger, in their order. -/
def movesOf (log : List Note) (ledgerId : String) : List (Receipt.Move Waiter) :=
  log.flatMap (Note.moves ledgerId)

/-- The notes about a request. -/
def notesOn (log : List Note) (request : Nat) : List Note :=
  log.filter (·.request? = some request)

/-! ## The floor -/

/-- A request gets on, in a gateway: how far it is then, what becomes of the gateway, and what
    is noted. -/
inductive Floor.Task.Turn {W : Type} (g : Gateway W) (i : Nat) (t : Task) :
    Progress → Gateway W → List Note → Prop
  /-- the directories answer a question of its plan -/
  | learn {l resume} (answer : Store.Lookup.Answer l) : t.progress = .planning (.ask l resume) →
      Turn g i t (.planning (resume answer)) g []
  /-- it has no route -/
  | reject {fault} : t.progress = .planning (.done (.error fault)) →
      Turn g i t .concluded (g.conclude t.errand (.error fault)) []
  /-- a delegate begins to work on it -/
  | route {route} : t.progress = .planning (.done (.ok route)) →
      Turn g i t (.working route.ledger.id (route.delegate.apply route.ledger t.input)) g []
  /-- a question of the delegate is answered -/
  | consult {k q resume} (answer : Delegate.Question.Answer q) :
      t.progress = .working k (.ask q resume) →
      Turn g i t (.working k (resume answer)) g (Note.ofAnswer i k q answer)
  /-- the delegate has a reply -/
  | settle {k outcome} : t.progress = .working k (.done (.settled outcome)) →
      Turn g i t .concluded (g.conclude t.errand outcome) []
  /-- the delegate has submitted work, which is prepared -/
  | prepare {k mode workId recent} :
      t.progress = .working k (.done (.submitted mode workId recent)) →
      Turn g i t (.prepared g.tickets) (g.prepare t.errand k mode workId recent)
        [.registered i k workId g.tickets]

/-- A gateway, the requests it has taken, the receipts in the post, and the log. -/
structure Floor (W : Type) where
  gateway : Gateway W
  tasks : List Floor.Task
  post : List Letter
  log : List Note

namespace Floor

variable {W : Type}

/-- The floor of a gateway that has taken no requests. -/
def opened (g : Gateway W) : Floor W := ⟨g, [], [], []⟩

/-- A request that was taken gets planned. -/
def takes (f : Floor W) (e : Errand) (operation : String) (input : Option Input) : Floor W :=
  { f with tasks := f.tasks ++ [⟨e, operation, input,
      .planning (Route.plan f.gateway.ledgers f.gateway.delegates operation input), []⟩] }

/-- A request gets on, and what the gateway says meanwhile it says to that request. -/
def turns (f : Floor W) (i : Nat) (t : Task) (p : Progress) (g : Gateway W)
    (more : List Note) : Floor W where
  gateway := g
  tasks := f.tasks.set i { t with progress := p, said := t.said ++ f.gateway.responsesSince g }
  post := f.post
  log := f.log ++ more

/-- The tracker of a ledger makes a move, and what it hands out is put into the post. -/
def tends (f : Floor W) (k : String) (m : Receipt.Move Waiter) : Floor W where
  gateway := (f.gateway.tend k m).2
  tasks := f.tasks
  post := f.post ++ lettersFrom k (f.gateway.tend k m).1
  log := f.log ++ [.moved k m]

/-- A letter is taken out of the post, and who waits for it hears of it. -/
def delivers (f : Floor W) (letter : Letter) (post : List Letter) : Floor W :=
  let g := f.gateway.handOver letter.ledgerId letter.waiter letter.receipt
  { f with
    gateway := g
    post
    tasks := f.tasks.map (·.hears letter.waiter (f.gateway.responsesSince g)) }

/-- All that can happen on a floor. -/
inductive Step : Floor W → Floor W → Prop
  /-- a request comes in -/
  | take {f} (e : Errand) (operation : String) (input : Option Input) :
      Step f (f.takes e operation input)
  /-- a request gets on -/
  | turn {f : Floor W} {i t p g more} : f.tasks[i]? = some t → t.Turn f.gateway i p g more →
      Step f (f.turns i t p g more)
  /-- a tracker makes a move; tickets are registered by requests alone -/
  | tend {f} (k : String) (m : Receipt.Move Waiter) :
      (∀ workId ticket, m.registration? ≠ some (workId, .ticket ticket)) → Step f (f.tends k m)
  /-- a receipt is handed over -/
  | deliver {f : Floor W} {first letter rest} : f.post = first ++ letter :: rest →
      Step f (f.delivers letter (first ++ rest))
  /-- something else happens to the gateway -/
  | aside {f : Floor W} {g : Gateway W} : f.gateway.Aside g → Step f { f with gateway := g }

/-- What can happen on the floor of a gateway from its beginning on. -/
def Run (g : Gateway W) (f : Floor W) : Prop := Relation.ReflTransGen Step (opened g) f

end Floor

end LedgerGate
