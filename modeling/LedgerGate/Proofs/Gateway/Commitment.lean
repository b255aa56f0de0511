/-
  Commitment: what a ledger has taken is followed up, and what is refused no ledger has taken.

  Once a ledger has taken a call there is no way back.  Its latest block is asked for, the id is
  tracked and the receipt awaited, and none of this can fail: a ledger that can be asked to take
  a call has a tracker, at any time, and a tracker drops no handler, so who awaits the receipt
  does until it is there.

  * `Delegate.taken`: the calls that ledgers took in some exchanges, and their ids;
  * `Delegate.Submission`: where the work of submitting a call stands, `Submission.leads` also
    after some exchanges;
  * `Gateway.Equipped`: which ledgers have trackers, `Floor.equipped_run` at any time;
  * `Gateway.Undertakes`: what becomes of work that is prepared;
  * `commits_of`: **submitting a call is all or nothing**, on every ledger.
-/
import LedgerGate.Proofs.Dialogue.Exchanges
import LedgerGate.Proofs.Gateway.Awaiting
import LedgerGate.Proofs.Gateway.TwoPhase
import LedgerGate.Proofs.Receipt.Polling

namespace LedgerGate

open Dialogue (Exchange)

/-! ## Submitting a call -/

namespace Delegate

/-- The call that a ledger took by its answer, and the id for it. -/
def Question.taken? : (q : Question) → q.Answer → Option (Ledger.Call × WorkId)
  | .ledger (.submit call), .ok workId => some (call, workId)
  | _, _ => none

/-- The calls that ledgers took in some exchanges, with the ids for them. -/
def taken (exchanges : List (Exchange Question.Answer)) : List (Ledger.Call × WorkId) :=
  exchanges.filterMap fun x => x.1.taken? x.2

/-- An input asks for a call, and a ledger can be asked to take it. -/
structure Callable (l : LedgerEntry) (input : Option Input) (sender : String) (data : List UInt8)
    (mode : ReplyMode) : Prop where
  external : l.isInternal = false
  call : ∃ text, input = some (.call sender text mode) ∧ callData text = .ok data

/-- Where the work of submitting a call stands, and what the ledger has taken. -/
inductive Submission (l : LedgerEntry) (input : Option Input) :
    List (Ledger.Call × WorkId) → Work → Prop
  /-- it is refused, here or by the ledger -/
  | refused (f : Fault) : Submission l input [] (refused f)
  /-- the ledger is asked to take the call -/
  | asked {sender data mode} {resume : Except Ledger.Error WorkId → Work} :
      Callable l input sender data mode →
      (∀ e, resume (.error e) = Delegate.refused (.ofLedger e)) →
      (∀ workId, resume (.ok workId) =
        .ask .recentBlock fun recent => .done (.submitted mode workId recent)) →
      Submission l input [] (.ask (.ledger (.submit (.invoke sender data))) resume)
  /-- the ledger took it, and its latest block is asked for -/
  | accepted {sender data mode} (workId : WorkId) : Callable l input sender data mode →
      Submission l input [(.invoke sender data, workId)]
        (.ask .recentBlock fun recent => .done (.submitted mode workId recent))
  /-- it is to be prepared, whichever block is the latest -/
  | submitted {sender data mode} (workId : WorkId) (recent : Option UInt64) :
      Callable l input sender data mode →
      Submission l input [(.invoke sender data, workId)] (.done (.submitted mode workId recent))

variable {l : LedgerEntry} {input : Option Input} {calls : List (Ledger.Call × WorkId)}
  {work left : Work} {exchanges : List (Exchange Question.Answer)}

/-- The work of submitting a call begins with nothing taken, and who takes it has a tracker. -/
theorem submission_apply (hl : l.Fitted) (brand : Brand) (input : Option Input) :
    Submission l input [] ((submitCall brand).apply l input) := by
  have hcall : ∀ sender text mode, input = some (.call sender text mode) →
      Submission l input [] (submitEncoded l sender text mode) := by
    rintro sender text mode hinput
    unfold submitEncoded
    split
    · rename_i data hdata
      unfold submit
      cases hclient : l.requireClient with
      | error f => exact .refused _
      | ok _ =>
        have hexternal := hl.requireClient_iff.1 hclient
        rw [hl.requireTracker_iff.2 hexternal]
        exact .asked ⟨hexternal, text, hinput, hdata⟩ (fun e => rfl) fun workId => rfl
    · exact .refused _
  rcases input with _ | i
  · exact .refused _
  · cases i with
    | call sender text mode => exact hcall sender text mode rfl
    | _ => exact .refused _

/-- **One more answer**: what is taken is noted, and nothing else can fail then. -/
theorem Submission.answer {q : Question} {resume : q.Answer → Work}
    (h : Submission l input calls (.ask q resume)) (answer : q.Answer) :
    Submission l input (calls ++ (q.taken? answer).toList) (resume answer) := by
  cases h with
  | asked hcallable herror hok =>
    rcases answer with e | workId
    · rw [herror]
      exact .refused _
    · rw [hok]
      exact .accepted workId hcallable
  | accepted workId hcallable => exact .submitted workId answer hcallable

/-- Where the work stands after some exchanges. -/
theorem Submission.leads (h : Submission l input calls work)
    (hleads : work.Leads exchanges left) :
    Submission l input (calls ++ taken exchanges) left := by
  induction hleads generalizing calls with
  | refl d =>
    rw [taken, List.filterMap_nil, List.append_nil]
    exact h
  | @ask q resume rest d answer _ ih =>
    have hrest := ih (h.answer answer)
    have htaken : taken (⟨q, answer⟩ :: rest) = (q.taken? answer).toList ++ taken rest := by
      unfold taken
      rw [List.filterMap_cons]
      cases q.taken? answer <;> rfl
    rwa [htaken, ← List.append_assoc]

/-- How the work of submitting a call ends: refused and nothing taken, or submitted and just
    the one call taken. -/
theorem Submission.ends {outcome : Outcome} (h : Submission l input calls (.done outcome)) :
    (calls = [] ∧ ∃ f, outcome = .settled (.error f)) ∨
      ∃ sender data mode workId recent, Callable l input sender data mode ∧
        calls = [(.invoke sender data, workId)] ∧ outcome = .submitted mode workId recent := by
  generalize hwork : Dialogue.done outcome = work at h
  cases h with
  | refused f =>
    cases hwork
    exact .inl ⟨rfl, f, rfl⟩
  | asked | accepted => cases hwork
  | submitted workId recent hcallable =>
    cases hwork
    exact .inr ⟨_, _, _, workId, recent, hcallable, rfl, rfl⟩

/-- Once the latest block is asked for the work is submitted, whatever the answer is. -/
theorem Submission.recentBlock {resume : Option UInt64 → Work}
    (h : Submission l input calls (.ask .recentBlock resume)) :
    ∃ mode workId, ∀ recent, resume recent = .done (.submitted mode workId recent) := by
  cases h with
  | accepted workId _ => exact ⟨_, workId, fun recent => rfl⟩

end Delegate

/-! ## Trackers of ledgers -/

namespace Gateway

variable {W : Type} {g g' : Gateway W}

/-- All ledgers that a name stands for have clients and trackers, but the internal one has
    neither. -/
def Equipped (g : Gateway W) : Prop :=
  ∀ name l, g.ledgers.find? name = some l →
    l.Fitted ∧ ((g.trackerAt l.id).isSome = true ↔ l.isInternal = false)

/-- A gateway that is built is equipped. -/
theorem Built.equipped {c : Config} {fit : Fittings} (h : Built c fit g) : g.Equipped := by
  intro name l hl
  have hmem : (g.trackerAt l.id).isSome = true ↔ l.id ∈ g.ledgerIds := by
    rw [h.trackerAt]
    split
    · exact iff_of_true rfl ‹_›
    · exact iff_of_false Bool.false_ne_true ‹_›
  rw [hmem, h.ledgerIds]
  refine ⟨h.fitted hl, fun hid => ?_, fun hinternal => ?_⟩
  · obtain ⟨settings, hsettings, hsame⟩ := List.mem_map.1 hid
    have hexternal := (Config.validate_eq_ok_iff.1 h.valid).unreserved settings hsettings
    rw [LedgerEntry.isInternal, ← hsame]
    exact beq_false_of_ne hexternal
  · rcases h.of_find? hl with rfl | ⟨settings, hsettings, -, rfl⟩
    · cases hinternal
    · exact List.mem_map_of_mem hsettings

/-- Two gateways route to the same ledgers, and the same ledgers have trackers. -/
structure SameLedgers (g g' : Gateway W) : Prop where
  ledgers : g'.ledgers = g.ledgers
  trackers : ∀ k, (g'.trackerAt k).isSome = (g.trackerAt k).isSome

theorem Equipped.same (h : g.Equipped) (hsame : SameLedgers g g') : g'.Equipped := by
  intro name l hl
  rw [hsame.ledgers] at hl
  rw [hsame.trackers]
  exact h name l hl

theorem sameLedgers_conclude (g : Gateway W) (e : Errand) (outcome : Except Fault (Reply Sequel)) :
    SameLedgers g (g.conclude e outcome) := by
  obtain ⟨told, waiting, hg, -⟩ := ensues_conclude g e outcome
  rw [hg]
  exact ⟨rfl, fun k => rfl⟩

/-- A tracker that is put back into its place is a tracker still. -/
theorem isSome_ite_map {k k' : String} {f : Receipt.Tracker Waiter → Receipt.Tracker Waiter} :
    (if k' = k then (g.trackerAt k).map f else g.trackerAt k').isSome =
      (g.trackerAt k').isSome := by
  split
  · rename_i hk
    rw [hk, Option.isSome_map]
  · rfl

theorem sameLedgers_prepare (g : Gateway W) (e : Errand) (k : String) (mode : ReplyMode)
    (workId : WorkId) (recent : Option UInt64) :
    SameLedgers g (g.prepare e k mode workId recent) := by
  obtain ⟨hsame, htrackers⟩ := g.enrolled_spec k workId
  have hprepared := g.prepare_handsOn e k mode workId recent
  refine ⟨hprepared.ledgers.trans hsame.ledgers, fun k' => ?_⟩
  rw [hprepared.trackers, htrackers]
  exact isSome_ite_map

theorem sameLedgers_tend (g : Gateway W) (k : String) (m : Receipt.Move Waiter) :
    SameLedgers g (g.tend k m).2 := by
  obtain ⟨hsame, htrackers, -⟩ := g.tend_spec k m
  refine ⟨hsame.ledgers, fun k' => ?_⟩
  rw [htrackers]
  exact isSome_ite_map

end Gateway

namespace Floor

variable {W : Type} {f f' : Floor W}

/-- **No step changes which ledgers have trackers.** -/
theorem Step.sameLedgers (h : Step f f') : f.gateway.SameLedgers f'.gateway := by
  cases h with
  | take e operation input => exact ⟨rfl, fun k => rfl⟩
  | turn _ hturn =>
    cases hturn with
    | learn | route | consult => exact ⟨rfl, fun k => rfl⟩
    | reject | settle => exact Gateway.sameLedgers_conclude _ _ _
    | prepare => exact Gateway.sameLedgers_prepare _ _ _ _ _ _
  | tend k m _ => exact Gateway.sameLedgers_tend _ k m
  | @deliver first letter rest _ =>
    have hnarrows := f.gateway.narrows_handOver letter.ledgerId letter.waiter letter.receipt
    exact ⟨hnarrows.ledgers, fun k => congrArg _ (hnarrows.trackers k)⟩
  | aside haside => exact ⟨haside.ledgers, fun k => congrArg _ (haside.trackers k)⟩

/-- A gateway is equipped at any time. -/
theorem equipped_run {c : Config} {fit : Fittings} {world : W} {g : Gateway W}
    (hbuild : Gateway.build c fit world = .ok g) (hrun : Run g f) : f.gateway.Equipped := by
  induction hrun with
  | refl => exact (Gateway.built_of hbuild).equipped
  | tail _ hstep ih => exact ih.same hstep.sameLedgers

end Floor

/-! ## Work that is prepared -/

/-- An id is polled for once it is prepared. -/
theorem Receipt.Tracker.attempts?_prepare {H : Type} (t : Tracker H) (workId : WorkId) (h : H) :
    ((t.prepare workId h).1.attempts? workId).isSome = true := by
  show (((t.track workId).1.register workId h false).1.attempts? workId).isSome = true
  have hpending := ((t.track workId).1.register_keeps workId h false).1
  rw [attempts?, hpending]
  show ((t.track workId).1.attempts? workId).isSome = true
  rw [attempts?_track]
  split
  · rfl
  · rename_i hpolled
    exact Option.isSome_iff_ne_none.2 fun hnone => hpolled ⟨rfl, hnone⟩

/-- The handler of work that is prepared is dispatched if the receipt is at hand. -/
theorem Receipt.Tracker.dispatches_prepare {H : Type} {t : Tracker H} {workId : WorkId}
    {c : Confirmation} (hheld : t.held? workId = some c) (h : H) :
    dispatches (t.prepare workId h).2 = [(h, c)] := by
  have htrack : dispatches (t.track workId).2 = [] := rfl
  have hsame : (t.track workId).1.held? workId = some c := hheld
  show dispatches ((t.track workId).2 ++ ((t.track workId).1.register workId h false).2) = _
  rw [dispatches_append, htrack, dispatches_register, hsame]
  rfl

/-- What comes of a receipt is a reply, and no fault. -/
theorem Sequel.ofReceipt_eq (c : Confirmation) :
    Sequel.ofReceipt c = .ok ⟨.transaction c.result, none⟩ :=
  Reply.result_confirmation c

namespace Gateway

variable {W : Type}

/-- The reply to work that is prepared under a ticket, if it need not be waited for: when a
    receipt is at hand, or the id is enough. -/
def replyAtOnce? (mode : ReplyMode) (workId : WorkId) (recent : Option UInt64) (ticket : Nat) :
    Option Confirmation → Option (Reply Sequel)
  | none =>
    match mode with
    | .result => none
    | .id => some (.pending (.pending workId recent) (.receipt ticket))
  | some c =>
    match mode with
    | .result => some ⟨.transaction c.result, none⟩
    | .id => some (.pending (.pending workId recent) (.known (.ok ⟨.transaction c.result, none⟩)))

/-- Work that is prepared is replied to at once or when its receipt is there. -/
theorem prepare_eq_reply (g : Gateway W) (e : Errand) (k : String) (mode : ReplyMode)
    (workId : WorkId) (recent : Option UInt64) : g.prepare e k mode workId recent =
      match replyAtOnce? mode workId recent g.tickets (g.atHand? k workId) with
      | some r => (g.enrolled k workId).conclude e (.ok r)
      | none => (g.enrolled k workId).awaitTicket g.tickets e := by
  rw [prepare_eq]
  rcases g.atHand? k workId with _ | c
  · cases mode <;> rfl
  · cases mode <;> simp only [replyAtOnce?, Sequel.ofReceipt_eq]

/-- What a gateway does for work that it prepares: it polls for the id, has a handler wait for
    the receipt or dispatched with it, and replies, now or when the receipt is there. -/
structure Undertakes (g : Gateway W) (e : Errand) (k : String) (mode : ReplyMode)
    (workId : WorkId) (recent : Option UInt64) : Prop where
  /-- the id is pending in the tracker of the ledger -/
  pending : ∃ t, (g.prepare e k mode workId recent).trackerAt k = some t ∧
    (t.attempts? workId).isSome = true
  /-- its handler waits there if no receipt is at hand, -/
  waits : g.atHand? k workId = none → ∃ t,
    (g.prepare e k mode workId recent).trackerAt k = some t ∧
      .ticket g.tickets ∈ t.handlersOf workId
  /-- and has been dispatched if one is -/
  dispatched : ∀ c, g.atHand? k workId = some c → ∃ t, g.trackerAt k = some t ∧
    (g.prepare e k mode workId recent).trackerAt k =
      some (t.prepare workId (.ticket g.tickets)).1 ∧
    Receipt.dispatches (t.prepare workId (.ticket g.tickets)).2 = [(.ticket g.tickets, c)]
  /-- a reply, and no fault, is handed on at once, -/
  replied : ∀ r, replyAtOnce? mode workId recent g.tickets (g.atHand? k workId) = some r →
    g.prepare e k mode workId recent = (g.enrolled k workId).conclude e (.ok r)
  /-- or the errand waits under the ticket of the handler -/
  awaited : replyAtOnce? mode workId recent g.tickets (g.atHand? k workId) = none →
    g.prepare e k mode workId recent = (g.enrolled k workId).awaitTicket g.tickets e
  /-- where no other does, if none waits for tickets to come, -/
  own : g.Punctual → replyAtOnce? mode workId recent g.tickets (g.atHand? k workId) = none →
    (g.prepare e k mode workId recent).errand? g.tickets = some e
  /-- and whatever then waits under that ticket may still be handed the receipt -/
  outstanding : g.atHand? k workId = none → ∀ e' (f : Floor W),
    f.gateway = g.prepare e k mode workId recent → f.gateway.errand? g.tickets = some e' →
      f.Outstanding k g.tickets e'

/-- **Work that a ledger with a tracker has taken is undertaken.** -/
theorem undertakes_of {g : Gateway W} {k : String} (htracker : (g.trackerAt k).isSome = true)
    (e : Errand) (mode : ReplyMode) (workId : WorkId) (recent : Option UInt64) :
    g.Undertakes e k mode workId recent := by
  obtain ⟨t, ht⟩ := Option.isSome_iff_exists.1 htracker
  have hafter : (g.prepare e k mode workId recent).trackerAt k =
      some (t.prepare workId (.ticket g.tickets)).1 := by
    rw [(g.prepare_handsOn e k mode workId recent).trackers, (g.enrolled_spec k workId).2,
      if_pos rfl, ht]
    rfl
  have hhand : g.atHand? k workId = t.held? workId := by
    rw [atHand?, ht]
    rfl
  have hprepare := g.prepare_eq_reply e k mode workId recent
  constructor
  · exact ⟨_, hafter, t.attempts?_prepare workId _⟩
  · intro hnone
    rw [hhand] at hnone
    exact ⟨_, hafter, Receipt.Tracker.mem_handlersOf_prepare hnone _⟩
  · intro c hc
    rw [hhand] at hc
    exact ⟨t, ht, hafter, Receipt.Tracker.dispatches_prepare hc _⟩
  · intro r hr
    rw [hprepare, hr]
  · intro hnone
    rw [hprepare, hnone]
  · intro hpunctual hnone
    rw [hprepare, hnone]
    exact hpunctual.errand?_awaitTicket e
  · intro hnone e' f hf herrand
    rw [hhand] at hnone
    refine ⟨herrand, ?_, .inl ⟨_, hf ▸ hafter, ?_⟩⟩
    · rw [hf, (g.prepare_handsOn e k mode workId recent).tickets,
        (g.enrolled_spec k workId).1.tickets]
      exact Nat.lt_succ_self g.tickets
    · exact Receipt.Tracker.mem_handlers.2
        ⟨workId, Receipt.Tracker.mem_handlersOf_prepare hnone _⟩

/-! ## All or nothing -/

/-- A gateway commits itself on a ledger: whatever is answered while a call is submitted, it is
    reported as refused just if the ledger has not taken it. -/
structure Commits (g : Gateway W) (l : LedgerEntry) : Prop where
  /-- a ledger has a client just if it has a tracker: all but the internal one have both -/
  equipped : (l.requireClient = .ok () ↔ l.requireTracker = .ok ()) ∧
    (l.requireTracker = .ok () ↔ (g.trackerAt l.id).isSome = true) ∧
    ((g.trackerAt l.id).isSome = true ↔ l.isInternal = false)
  /-- the work ends with a fault just if no call was taken, -/
  refused : ∀ brand input exchanges outcome,
    ((Delegate.submitCall brand).apply l input).Leads exchanges (.done outcome) →
      ((∃ f, outcome = .settled (.error f)) ↔ Delegate.taken exchanges = [])
  /-- and else just one was, the one that the input asks for, and it is undertaken -/
  submitted : ∀ brand input exchanges outcome,
    ((Delegate.submitCall brand).apply l input).Leads exchanges (.done outcome) →
    (¬∃ f, outcome = .settled (.error f)) →
      ∃ sender text mode data workId recent, input = some (.call sender text mode) ∧
        Delegate.callData text = .ok data ∧
        Delegate.taken exchanges = [(.invoke sender data, workId)] ∧
        outcome = .submitted mode workId recent ∧ ∀ e, g.Undertakes e l.id mode workId recent
  /-- no block, or any, may be known as the latest after that -/
  recentBlock : ∀ brand input exchanges resume,
    ((Delegate.submitCall brand).apply l input).Leads exchanges (.ask .recentBlock resume) →
      ∃ mode workId, ∀ recent, resume recent = .done (.submitted mode workId recent)
  /-- an errand that waits for a receipt waits until it is handed it, whatever goes on: nobody
      tells it that its handler was dropped -/
  lasting : ∀ ticket e (f f' : Floor W), f.gateway = g → f.Outstanding l.id ticket e →
    Relation.ReflTransGen Floor.Step f f' → f'.Outstanding l.id ticket e ∨
      ∃ f₁ f₂, Relation.ReflTransGen Floor.Step f f₁ ∧ f₁.Outstanding l.id ticket e ∧
        f₁.Receives ticket e f₂ ∧ Relation.ReflTransGen Floor.Step f₂ f'
  /-- what comes of a receipt in the end is a reply, and no fault -/
  received : ∀ ticket e c, g.errand? ticket = some e → g.handOver l.id (.ticket ticket) c =
    (g.dropErrand ticket).conclude e (.ok ⟨.transaction c.result, none⟩)

/-- **Submitting a call is all or nothing**, on every ledger of a gateway and at any time.
    With the standard delegates, no errand waits for tickets to come. -/
theorem commits_of {c : Config} {fit : Fittings} {world : W} {g : Gateway W} {f : Floor W}
    (hbuild : build c fit world = .ok g) (hrun : Floor.Run g f) {name : Option String}
    {l : LedgerEntry} (hl : f.gateway.ledgers.find? name = some l) :
    f.gateway.Commits l ∧ (fit.delegates = [] → f.gateway.Punctual) := by
  obtain ⟨hfitted, hequipped⟩ := Floor.equipped_run hbuild hrun name l hl
  have hstands : ∀ brand input exchanges left,
      ((Delegate.submitCall brand).apply l input).Leads exchanges left →
        Delegate.Submission l input (Delegate.taken exchanges) left := by
    intro brand input exchanges left hleads
    exact (Delegate.submission_apply hfitted brand input).leads hleads
  refine ⟨?_, fun hstandard => (Floor.inOrder_run hbuild hstandard hrun).errands⟩
  constructor
  · refine ⟨?_, ?_, hequipped⟩
    · rw [hfitted.requireClient_iff, hfitted.requireTracker_iff]
    · rw [hfitted.requireTracker_iff, hequipped]
  · intro brand input exchanges outcome hleads
    rcases (hstands _ _ _ _ hleads).ends with
      ⟨htaken, hrefused⟩ | ⟨_, _, _, _, _, _, htaken, rfl⟩
    · exact iff_of_true hrefused htaken
    · refine iff_of_false ?_ (by simp [htaken])
      rintro ⟨fault, hfault⟩
      cases hfault
  · intro brand input exchanges outcome hleads hnot
    rcases (hstands _ _ _ _ hleads).ends with
      ⟨-, hrefused⟩ | ⟨sender, data, mode, workId, recent, hcallable, htaken, houtcome⟩
    · exact absurd hrefused hnot
    · obtain ⟨text, hinput, hdata⟩ := hcallable.call
      exact ⟨sender, text, mode, data, workId, recent, hinput, hdata, htaken, houtcome,
        fun e => undertakes_of (hequipped.2 hcallable.external) e mode workId recent⟩
  · intro brand input exchanges resume hleads
    exact (hstands _ _ _ _ hleads).recentBlock
  · exact fun _ _ _ _ _ hwaits hrun => hwaits.run hrun
  · exact fun _ _ receipt herrand => handOver_errand herrand l.id receipt

/-- A ledger takes an empty call and then does not tell its latest block. -/
theorem commits_oneLedger : build Floor.oneLedger plainFittings () = .ok Floor.oneLedgerGateway ∧
    Floor.Run Floor.oneLedgerGateway (.opened Floor.oneLedgerGateway) ∧
    Floor.oneLedgerGateway.ledgers.find? (some "a") = some ⟨"a", .besu, false⟩ ∧
    Floor.oneLedgerGateway.Commits ⟨"a", .besu, false⟩ ∧
    ((Delegate.submitCall .besu).apply ⟨"a", .besu, false⟩ (Floor.emptyCall "m").input).Leads
      [⟨.ledger (.submit (.invoke "0xa" [])), .ok "0x1"⟩, ⟨.recentBlock, none⟩]
      (.done (.submitted .id "0x1" none)) ∧
    ∀ e, Floor.oneLedgerGateway.Undertakes e "a" .id "0x1" none := by
  have hfind : Floor.oneLedgerGateway.ledgers.find? (some "a") = some ⟨"a", .besu, false⟩ := by
    rfl
  have hleads : ((Delegate.submitCall .besu).apply ⟨"a", .besu, false⟩
      (Floor.emptyCall "m").input).Leads
      [⟨.ledger (.submit (.invoke "0xa" [])), .ok "0x1"⟩, ⟨.recentBlock, none⟩]
      (.done (.submitted .id "0x1" none)) := by
    rw [Floor.apply_emptyCall "m"]
    exact .ask _ (.ask _ (.refl _))
  obtain ⟨hcommits, -⟩ := commits_of (f := .opened Floor.oneLedgerGateway)
    (show build Floor.oneLedger plainFittings () = .ok Floor.oneLedgerGateway from rfl) .refl hfind
  refine ⟨rfl, .refl, hfind, hcommits, hleads, ?_⟩
  obtain ⟨_, _, _, _, _, _, -, -, -, houtcome, hundertakes⟩ :=
    hcommits.submitted _ _ _ _ hleads fun ⟨fault, hfault⟩ => by cases hfault
  cases houtcome
  exact hundertakes

end Gateway

end LedgerGate
