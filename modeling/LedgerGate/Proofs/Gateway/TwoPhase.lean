/-
  Two-phase delivery: a call that was submitted is pending first, and decided later.

  A request to submit a call that wants no more than an id is answered twice at most: with the
  id as soon as its ledger has taken the call, and with the outcome when a receipt is there.

  * `Task.Submits`: the requests that this is about;
  * `Floor.Stands`: where such a request stands;
  * `Floor.twoPhases_run`: **both responses come as they are due, whatever else goes on**, and
    a gateway that runs is on such a floor.
-/
import LedgerGate.Proofs.Gateway.Routine
import LedgerGate.Proofs.Gateway.Tickets

namespace LedgerGate

open Receipt (Move History)

/-- Whether a request that was taken is to submit a call, wants its id and has a sink that
    accepts everything. -/
structure Floor.Task.Submits (t : Task) (r : Request) (sender text : String) : Prop where
  errand : t.errand = .delivery (.ofRequest r) true
  operation : t.operation = r.operation
  input : t.input = r.input
  submit : r.operation = "TX.SUBMIT_CALL"
  call : r.input = some (.call sender text .id)

namespace Floor

variable {W : Type} {f f' : Floor W} {ids : List String} {capacity : Nat}

/-! ## Where a request stands -/

/-- Where a request to submit a call stands, and what has been said to it. -/
inductive Stands (ids : List String) (capacity : Nat) (r : Request) (input : Option Input)
    (i : Nat) (f : Floor W) : Progress → List Response → Prop
  /-- it is planned, and whatever the plan is, the work will be that of submitting -/
  | planning {plan : Store.Inquiry (Except Fault (Route Delegate))} : notesOn f.log i = [] →
      plan.Yields (fun o => ∀ route, o = .ok route → Delegate.Submitting (route.ledger.id ∈ ids)
        none (route.delegate.apply route.ledger input)) →
      Stands ids capacity r input i f (.planning plan) []
  /-- it is worked on, and its ledger has taken the call or not yet -/
  | working {k : String} {w? : Option WorkId} {work : Delegate.Work} :
      notesOn f.log i = w?.toList.map (.submitted i k) →
      Delegate.Submitting (k ∈ ids) w? work →
      Stands ids capacity r input i f (.working k work) []
  /-- its work was prepared, so a ticket serves it -/
  | prepared {k : String} {w : WorkId} {recent : Option UInt64} {n : Nat} {said : List Response}
      (before after : List Note) : k ∈ ids →
      f.log = before ++ .registered i k w n :: after →
      notesOn f.log i = [.submitted i k w, .registered i k w n] →
      Served capacity r w recent k n f said →
      Stands ids capacity r input i f (.prepared n) said
  /-- it was refused -/
  | concluded {said : List Response} : notesOn f.log i = [] →
      Stands ids capacity r input i f .concluded said

section
variable {r : Request} {input : Option Input} {i : Nat} {p : Progress} {said : List Response}

/-- A request stands where it stood if nothing is noted of it and its ticket is spared. -/
theorem Stands.frame (h : Stands ids capacity r input i f p said) (h' : InOrder ids capacity f')
    (hlog : ∃ more, f'.log = f.log ++ more) (hnotes : notesOn f'.log i = notesOn f.log i)
    (hspared : ∀ k w n, k ∈ ids → p = .prepared n → .registered i k w n ∈ f.log →
      Spared capacity k n f f') :
    Stands ids capacity r input i f' p said := by
  cases h with
  | planning hnone hyields => exact .planning (hnotes.trans hnone) hyields
  | working hsubmitted hwork => exact .working (hnotes.trans hsubmitted) hwork
  | @prepared k w recent n _ before after hk hsplit hnoted hserved =>
    obtain ⟨more, hmore⟩ := hlog
    have hsplit' : f'.log = before ++ .registered i k w n :: (after ++ more) := by
      rw [hmore, hsplit, List.append_assoc, List.cons_append]
    have hmem : .registered i k w n ∈ f.log := hsplit ▸ List.mem_append_right _ List.mem_cons_self
    exact .prepared before (after ++ more) hk hsplit' (hnotes.trans hnoted)
      (hserved.spared (hspared k w n hk rfl hmem) (h'.dispatchedFor_le hsplit'))
  | concluded hnone => exact .concluded (hnotes.trans hnone)

end

/-! ## Getting on -/

/-- Work on a submission goes on as one, and if its ledger takes the call this is noted. -/
theorem submitting_answered {can : Prop} {i : Nat} {k : String} {q : Delegate.Question}
    {resume : q.Answer → Delegate.Work} {w? : Option WorkId}
    (hwork : Delegate.Submitting can w? (.ask q resume)) (answer : q.Answer) :
    ∃ w?' : Option WorkId, Delegate.Submitting can w?' (resume answer) ∧
      w?'.toList.map (Note.submitted i k) =
        w?.toList.map (.submitted i k) ++ notesOn (Note.ofAnswer i k q answer) i := by
  cases hwork with
  | asked hcan herror hok =>
    rcases answer with e | w
    · exact ⟨none, herror e ▸ .refused _, rfl⟩
    · exact ⟨some w, hok w ▸ .taken w hcan, by simp [Note.ofAnswer, notesOn, Note.request?]⟩
  | taken w hcan => exact ⟨some w, .done w answer hcan, rfl⟩

/-- **However a request to submit a call gets on, it stands where it should.** -/
theorem Stands.turn (h : InOrder ids capacity f) {r : Request} {input : Option Input} {i : Nat}
    {t : Task} {p : Progress} {said : List Response} {more : List Note}
    (hstands : Stands ids capacity r input i f t.progress said)
    (herrand : t.errand = .delivery (.ofRequest r) true) (hinput : t.input = input)
    (ht : t.Turn f.gateway i p f'.gateway more) (hpost : f'.post = f.post)
    (hlog : f'.log = f.log ++ more) :
    Stands ids capacity r input i f' p (said ++ f.gateway.responsesSince f'.gateway) := by
  have hnotes : notesOn f'.log i = notesOn f.log i ++ notesOn more i := by
    rw [hlog]
    exact List.filter_append ..
  generalize hnext : f'.gateway = g at ht
  subst hinput
  cases ht with
  | learn answer hp =>
    rw [hp] at hstands
    cases hstands with
    | planning hnone hyields =>
      rw [Gateway.responsesSince_self]
      exact .planning (by rw [hnotes, hnone]; rfl) (hyields answer)
  | reject hp =>
    rw [hp] at hstands
    cases hstands with
    | planning hnone => exact .concluded (by rw [hnotes, hnone]; rfl)
  | route hp =>
    rw [hp] at hstands
    cases hstands with
    | planning hnone hyields =>
      rw [Gateway.responsesSince_self]
      exact .working (by rw [hnotes, hnone]; rfl) (hyields _ rfl)
  | consult answer hp =>
    rw [hp] at hstands
    cases hstands with
    | working hsubmitted hwork =>
      obtain ⟨w?', hnext', hsubmitted'⟩ := submitting_answered hwork answer
      rw [Gateway.responsesSince_self]
      exact .working (by rw [hnotes, hsubmitted, hsubmitted']) hnext'
  | settle hp =>
    rw [hp] at hstands
    cases hstands with
    | working hsubmitted hwork =>
      cases hwork with
      | refused => exact .concluded (by rw [hnotes, hsubmitted]; rfl)
  | @prepare k mode w recent hp =>
    rw [hp] at hstands
    cases hstands with
    | working hsubmitted hwork =>
      cases hwork with
      | done _ _ hcan =>
        rw [herrand] at hnext ⊢
        have hserved := h.served_prepare hcan hnext hpost hlog
        rw [hnext] at hserved
        refine .prepared f.log [] hcan hlog ?_ hserved
        rw [hnotes, hsubmitted]
        simp [notesOn, Note.request?]

/-! ## All requests -/

/-- Every request to submit a call stands where it should. -/
def AllStand (ids : List String) (capacity : Nat) (f : Floor W) : Prop :=
  ∀ (i : Nat) (t : Task) (r : Request) (sender text : String), f.tasks[i]? = some t →
    t.Submits r sender text → Stands ids capacity r t.input i f t.progress t.said

/-- A new request stands at its beginning. -/
theorem stands_new (h : InOrder ids capacity f) {r : Request} {sender text : String} {t : Task}
    (ht : t.Submits r sender text) :
    Stands ids capacity r t.input f.tasks.length f
      (.planning (Route.plan f.gateway.ledgers f.gateway.delegates t.operation t.input)) [] := by
  refine .planning ?_ ?_
  · refine List.filter_eq_nil_iff.2 fun note hnote heq => ?_
    exact absurd (h.requests note hnote _ (of_decide_eq_true heq)) (Nat.lt_irrefl _)
  · rw [ht.operation, ht.submit, ht.input, ht.call]
    exact Route.submitting_plan h.routing sender text

section
variable (h : InOrder ids capacity f) (h' : InOrder ids capacity f')
include h h'

/-- Whatever a step deals with, a request of which nothing is noted stands where it stood. -/
theorem Stands.deals {r : Request} {input : Option Input} {i : Nat} {p : Progress}
    {said : List Response} (hstands : Stands ids capacity r input i f p said) (hd : Deals f f')
    (hnotes : notesOn f'.log i = notesOn f.log i) : Stands ids capacity r input i f' p said :=
  hstands.frame h' hd.log hnotes fun _ _ _ hk _ hmem => h.spared h' hd hk hmem

/-- A request that is handed its receipt, or is not, stands where it should. -/
theorem Stands.delivers {r : Request} {input : Option Input} {i : Nat} {p : Progress}
    {said : List Response} {first rest : List Letter} {letter : Letter}
    (hpost : f.post = first ++ letter :: rest) (hf' : f' = f.delivers letter (first ++ rest))
    (hstands : Stands ids capacity r input i f p said) :
    Stands ids capacity r input i f' p
      (if p.waiter? = some letter.waiter then said ++ f.gateway.responsesSince f'.gateway
        else said) := by
  subst hf'
  split
  · rename_i hwaiter
    cases hstands with
    | @prepared k w recent n _ before after hk hsplit hnoted hserved =>
      have hletter : letter.waiter = .ticket n := (Option.some.inj hwaiter).symm
      exact .prepared before after hk hsplit hnoted
        (hserved.delivers hpost hletter (h.dispatchedFor_le hsplit))
    | _ => cases hwaiter
  · rename_i hwaiter
    refine hstands.frame h' ⟨[], (List.append_nil _).symm⟩ rfl fun k w n _ hp _ => ?_
    refine spared_delivers hpost fun hletter => hwaiter ?_
    rw [hp, hletter]
    rfl

/-- **Every step leaves every request where it should stand.** -/
theorem AllStand.step (hall : AllStand ids capacity f) (hs : Step f f') :
    AllStand ids capacity f' := by
  intro i t r sender text hi ht
  have hquiet : Gateway.HandsOn (fun _ => False) f.gateway f.gateway :=
    (Gateway.Ensues.refl f.gateway).handsOn (.error (.own ""))
  cases hs with
  | take e operation input =>
    have hd : Deals f (f.takes e operation input) :=
      .talk (by simp) (List.append_nil _).symm rfl hquiet
    rcases Nat.lt_or_ge i f.tasks.length with hlt | hge
    · have hi : f.tasks[i]? = some t := List.getElem?_append_left hlt ▸ hi
      exact (hall i t r sender text hi ht).deals h h' hd rfl
    · have hlt := (List.getElem?_eq_some_iff.1 hi).1
      rw [takes, List.length_append, List.length_singleton] at hlt
      obtain rfl : i = f.tasks.length := by omega
      rw [takes, List.getElem?_concat_length] at hi
      cases hi
      exact (stands_new h ht).deals h h' hd rfl
  | @turn j u p g more hj hturn =>
    have hd := deals_turn (h.ends u (List.mem_of_getElem? hj)) hturn
    have hset : (f.tasks.set j _)[i]? = some t := hi
    by_cases hij : j = i
    · subst hij
      rw [List.getElem?_set_self (List.getElem?_eq_some_iff.1 hj).1] at hset
      cases hset
      have hu : u.Submits r sender text :=
        ⟨ht.errand, ht.operation, ht.input, ht.submit, ht.call⟩
      exact (hall j u r sender text hj hu).turn h hu.errand rfl hturn rfl rfl
    · rw [List.getElem?_set_ne hij] at hset
      refine (hall i t r sender text hset ht).deals h h' hd ?_
      have hnone : notesOn more i = [] := by
        refine List.filter_eq_nil_iff.2 fun note hnote heq => hij ?_
        have hrequest := request_of_turn hturn note hnote
        rw [of_decide_eq_true heq] at hrequest
        exact (Option.some.inj hrequest).symm
      show notesOn (f.log ++ more) i = _
      rw [notesOn, List.filter_append]
      exact (congrArg _ hnone).trans (List.append_nil _)
  | tend k m hm =>
    refine (hall i t r sender text hi ht).deals h h' (.tend hm rfl rfl rfl) ?_
    simp [notesOn, tends, Note.request?]
  | @deliver first letter rest hpost =>
    obtain ⟨u, hu₀, rfl⟩ := Option.map_eq_some_iff.1 ((List.getElem?_map ..).symm.trans hi)
    have hu : u.Submits r sender text := ⟨ht.errand, ht.operation, ht.input, ht.submit, ht.call⟩
    exact (hall i u r sender text hu₀ hu).delivers h h' hpost rfl
  | aside ha =>
    exact (hall i t r sender text hi ht).deals h h'
      (.talk (by simp) (List.append_nil _).symm rfl ha.handsOn) rfl

end

/-! ## Two phases -/

/-- How a request to submit a call was answered, if its ledger has taken the call as some work
    and a ticket was registered for it between some notes. -/
structure TwoPhases (capacity : Nat) (f : Floor W) (r : Request) (k : String) (w : WorkId)
    (before since : List Note) (said : List Response) : Prop where
  /-- The tracker of the ledger is the one that the log tells of. -/
  tracker : f.gateway.trackerAt k = some (historyOf capacity f.log k).tracker
  /-- The first response passes, and says that the work is pending. -/
  pending : ∃ recent, said[0]? = some (.success r.correlation r.operation
    (.transaction (.pending w recent)) 0)
  /-- At most one more follows. -/
  atMostTwo : said.length ≤ 2
  /-- It answers the same request, under the next number, and says how the work was decided,
      as a scan has obtained it for the id. -/
  final : ∀ s, said[1]? = some s → ∃ (a : Confirmation) (result : TransactionResult),
    (w, a) ∈ (historyOf capacity f.log k).obtained ∧
      s = .success r.correlation r.operation (.transaction result) 1 ∧
      result.workId = w ∧ result.status = if a.success then .success else .failure
  /-- It does not come before it is due, -/
  onlyDue : said.length = 2 → Due capacity before since k w
  /-- and once every receipt was handed over it has come if it is. -/
  sent : f.post = [] → Due capacity before since k w → said.length = 2

/-- A request whose ticket is served was answered as it is due. -/
theorem Served.twoPhases (h : InOrder ids capacity f) {r : Request} {i : Nat} {k : String}
    {w : WorkId} {recent : Option UInt64} {n : Nat} {before after : List Note}
    {said : List Response} (hk : k ∈ ids)
    (hlog : f.log = before ++ .registered i k w n :: after)
    (hserved : Served capacity r w recent k n f said) :
    TwoPhases capacity f r k w before (.registered i k w n :: after) said := by
  have htracker : f.gateway.trackerAt k = some (historyOf capacity f.log k).tracker := by
    rw [h.trackers, if_pos hk]
  have hdispatched := h.dispatchedFor_eq hlog
  have hdue := isSome_due? capacity before after i k w n
  cases hserved with
  | waiting _ hletters =>
    refine ⟨htracker, ⟨recent, rfl⟩, by simp, fun s hs => ?_, fun hlen => ?_, fun hpost hduty => ?_⟩
    · cases hs
    · cases hlen
    -- with no letter in the post nothing was handed out, so nothing is due
    have hnone : dispatchedFor capacity f.log k n = [] := by
      rw [← hletters, lettersFor, hpost]
      rfl
    rw [hdispatched] at hnone
    obtain ⟨c, hc⟩ := Option.isSome_iff_exists.1 (hdue.2 hduty)
    rw [hc] at hnone
    cases hnone
  | @served c _ _ hgot =>
    have hc : due? capacity before after k w n = some c := by
      rw [hdispatched] at hgot
      cases hd : due? capacity before after k w n with
      | none =>
        rw [hd] at hgot
        cases hgot
      | some c' =>
        rw [hd] at hgot
        simpa using hgot
    obtain ⟨a, hobtained, rfl⟩ := History.origin_award hc
    have hmoves : movesOf f.log k = (movesOf before k ++ [.track w]) ++
        .register w (.ticket n) false :: movesOf after k := by
      rw [hlog, movesOf_split]
    refine ⟨htracker, ⟨recent, rfl⟩, le_refl _, fun s hs => ?_,
      fun _ => hdue.1 (by rw [hc]; rfl), fun _ _ => rfl⟩
    refine ⟨a, (Receipt.receipt w a).result, ?_, (Option.some.inj hs).symm, ?_, ?_⟩
    · rw [historyOf, hmoves]
      exact hobtained
    · rw [Confirmation.workId_result, Receipt.receipt_workId]
    · rw [Confirmation.status_result, Receipt.success_receipt]

/-- Every request to submit a call stands where it should at any time. -/
theorem allStand_run {c : Config} {fit : Fittings} {world : W} {g : Gateway W}
    (hbuild : Gateway.build c fit world = .ok g) (hstandard : fit.delegates = [])
    (hrun : Run g f) : AllStand g.ledgerIds c.recentReceipts.toNat f := by
  induction hrun with
  | refl =>
    intro i t r sender text hi
    cases hi
  | tail hrun hs ih =>
    have h := inOrder_run hbuild hstandard hrun
    exact ih.step h (h.step hs) hs

/-- A gateway delivers in two phases what is submitted to it. -/
structure DeliversTwice (capacity : Nat) (g : Gateway W) : Prop where
  /-- Whatever goes on on its floor and in whatever order: a request to submit a call that
      wants its id and was taken as some work waits for the latest block of its ledger, or it
      was answered in two phases. -/
  answered : ∀ f, Run g f → ∀ (i : Nat) (t : Task) (r : Request) (sender text : String),
    f.tasks[i]? = some t → t.Submits r sender text → ∀ k w, .submitted i k w ∈ f.log →
      (t.said = [] ∧ ((∃ resume, t.progress = .working k (.ask .recentBlock resume)) ∨
          ∃ recent, t.progress = .working k (.done (.submitted .id w recent)))) ∨
        ∃ before after n, f.log = before ++ .registered i k w n :: after ∧
          TwoPhases capacity f r k w before (.registered i k w n :: after) t.said
  /-- And wherever the gateway comes to when it runs, it comes to on its floor, with nothing
      left in the post. -/
  running : ∀ [Outside W] (view : W → String → Option String) g',
    Relation.ReflTransGen (Gateway.MovesOn view) g g' → g.OnFloor g'

/-- **Two-phase delivery**, by every gateway with standard delegates. -/
theorem twoPhases_run {c : Config} {fit : Fittings} {world : W} {g : Gateway W}
    (hbuild : Gateway.build c fit world = .ok g) (hstandard : fit.delegates = []) :
    DeliversTwice c.recentReceipts.toNat g where
  answered f hrun i t r sender text ht hsubmits k w htaken := by
    have h := inOrder_run hbuild hstandard hrun
    have hmem : .submitted i k w ∈ notesOn f.log i :=
      List.mem_filter.2 ⟨htaken, by simp [Note.request?]⟩
    have hstands := allStand_run hbuild hstandard hrun i t r sender text ht hsubmits
    generalize t.progress = p, t.said = said at hstands
    cases hstands with
    | planning hnone =>
      rw [hnone] at hmem
      cases hmem
    | @working k' w? work hsubmitted hwork =>
      rw [hsubmitted] at hmem
      obtain ⟨w', hw', heq⟩ := List.mem_map.1 hmem
      cases heq
      rw [Option.mem_toList.1 hw'] at hwork
      cases hwork with
      | taken => exact Or.inl ⟨rfl, Or.inl ⟨_, rfl⟩⟩
      | done _ recent => exact Or.inl ⟨rfl, Or.inr ⟨recent, rfl⟩⟩
    | @prepared k' w' recent n _ before after hk hlog hnoted hserved =>
      rw [hnoted] at hmem
      have heq : Note.submitted i k w = .submitted i k' w' := by simpa using hmem
      cases heq
      exact Or.inr ⟨before, after, n, hlog, hserved.twoPhases h hk hlog⟩
    | concluded hnone =>
      rw [hnone] at hmem
      cases hmem
  running _ _ hmoves := Gateway.onFloor_of hbuild hmoves

/-! ## Two calls with one id -/

/-- A configuration of one ledger. -/
def oneLedger : Config := { ledgers := [{ id := "a", brand := .besu }] }

/-- The gateway of that configuration, before its start. -/
def oneLedgerGateway : Gateway Unit :=
  .ofParts oneLedger ⟨[⟨"a", .besu, false⟩], "a"⟩
    ⟨(standardDelegates [.besu]).map fun d => (d.key, d)⟩ [.new "a" 1024 10000 none] ()

/-- A request to submit an empty call. -/
def emptyCall (messageId : String) : Request :=
  ⟨messageId, none, "TX.SUBMIT_CALL", some (.call "0xa" "" .id)⟩

/-- The address that calls, as the directories know it. -/
def caller : Store.AddressRecord := ⟨"0xa", some "a", .besu, .notApplicable⟩

theorem apply_emptyCall (messageId : String) :
    Delegate.apply (.submitCall .besu) ⟨"a", .besu, false⟩ (emptyCall messageId).input =
      .ask (.ledger (.submit (.invoke "0xa" []))) fun
        | .error e => Delegate.refused (.ofLedger e)
        | .ok workId => .ask .recentBlock fun recent => .done (.submitted .id workId recent) := by
  have hdata : Delegate.callData "" = .ok [] := by decide +kernel
  show Delegate.submitEncoded _ _ _ _ = _
  rw [Delegate.submitEncoded, hdata]
  exact congrArg (Dialogue.ask _) (funext fun answer => by cases answer <;> rfl)

/-- Two calls are taken as the same work, one of them prepared before the receipt comes and the
    other one after it. -/
theorem run_shared : ∃ (f : Floor Unit) (t t' : Task), Run oneLedgerGateway f ∧
    f.tasks = [t, t'] ∧ t.Submits (emptyCall "m") "0xa" "" ∧ t'.Submits (emptyCall "n") "0xa" "" ∧
    t.said.length = 2 ∧ t'.said.length = 2 ∧
    f.log = [.submitted 0 "a" "0x1", .registered 0 "a" "0x1" 0, .submitted 1 "a" "0x1",
      .moved "a" (.scan ["0x1"]), .moved "a" (.answer (.ok (some (.succeeded "0x1" 7 .empty)))),
      .registered 1 "a" "0x1" 1] := by
  have hfirst := congrArg (Progress.working "a") (apply_emptyCall "m")
  have hsecond := congrArg (Progress.working "a") (apply_emptyCall "n")
  have h : Run oneLedgerGateway (opened _) := .refl
  have h := h.tail (.take (.delivery (.ofRequest (emptyCall "m")) true) "TX.SUBMIT_CALL"
    (emptyCall "m").input)
  have h := h.tail (.turn (i := 0) rfl (.learn (l := .address "0xa") (.ok (some caller)) rfl))
  have h := h.tail (.turn (i := 0) rfl (.route rfl))
  have h := h.tail (.turn (i := 0) rfl
    (.consult (q := .ledger (.submit (.invoke "0xa" []))) (.ok "0x1") hfirst))
  have h := h.tail (.turn (i := 0) rfl (.consult (q := .recentBlock) (some 7) rfl))
  have h := h.tail (.turn (i := 0) rfl (.prepare rfl))
  have h := h.tail (.take (.delivery (.ofRequest (emptyCall "n")) true) "TX.SUBMIT_CALL"
    (emptyCall "n").input)
  have h := h.tail (.turn (i := 1) rfl (.learn (l := .address "0xa") (.ok (some caller)) rfl))
  have h := h.tail (.turn (i := 1) rfl (.route rfl))
  have h := h.tail (.turn (i := 1) rfl
    (.consult (q := .ledger (.submit (.invoke "0xa" []))) (.ok "0x1") hsecond))
  have h := h.tail (.tend "a" (.scan ["0x1"]) (by simp [Move.registration?]))
  have h := h.tail (.tend "a" (.answer (.ok (some (.succeeded "0x1" 7 .empty))))
    (by simp [Move.registration?]))
  have h := h.tail (.turn (i := 1) rfl (.consult (q := .recentBlock) (some 8) rfl))
  have h := h.tail (.turn (i := 1) rfl (.prepare rfl))
  have h := h.tail (.deliver (List.nil_append _).symm)
  exact ⟨_, _, _, h, rfl, ⟨rfl, rfl, rfl, rfl, rfl⟩, ⟨rfl, rfl, rfl, rfl, rfl⟩, rfl, rfl, rfl⟩

/-- Both calls are answered in two phases. -/
theorem twoPhases_shared : ∃ (f : Floor Unit) (t t' : Task), Run oneLedgerGateway f ∧
    f.tasks = [t, t'] ∧ t.said.length = 2 ∧ t'.said.length = 2 ∧
    (∃ before since, TwoPhases 1024 f (emptyCall "m") "a" "0x1" before since t.said) ∧
    ∃ before since, TwoPhases 1024 f (emptyCall "n") "a" "0x1" before since t'.said := by
  have hbuild : Gateway.build oneLedger Gateway.plainFittings () = .ok oneLedgerGateway := rfl
  obtain ⟨f, t, t', hrun, htasks, ht, ht', hsaid, hsaid', hlog⟩ := run_shared
  have hdelivers := twoPhases_run hbuild rfl
  refine ⟨f, t, t', hrun, htasks, hsaid, hsaid', ?_, ?_⟩
  · have hfirst : f.tasks[0]? = some t := by rw [htasks]; rfl
    rcases hdelivers.answered f hrun 0 t _ _ _ hfirst ht "a" "0x1" (by simp [hlog]) with
      ⟨hnone, -⟩ | ⟨before, after, n, -, h⟩
    · simp [hnone] at hsaid
    · exact ⟨before, _, h⟩
  · have hsecond : f.tasks[1]? = some t' := by rw [htasks]; rfl
    rcases hdelivers.answered f hrun 1 t' _ _ _ hsecond ht' "a" "0x1" (by simp [hlog]) with
      ⟨hnone, -⟩ | ⟨before, after, n, -, h⟩
    · simp [hnone] at hsaid'
    · exact ⟨before, _, h⟩

end Floor

end LedgerGate
