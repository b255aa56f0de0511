/-
  The work of the standard delegates, whatever they are answered.

  * `Dialogue.Reaches`: the results that a dialogue can have; `Dialogue.Yields`: what holds of
    all of them;
  * `LedgerEntry.Fitted`: a client and a tracker come together, and
    `Gateway.Built.fitted`: so they do on every ledger of a gateway that is built;
  * `Delegate.final_apply`, `ends_apply`: every reply of a standard delegate ends its chain, so
    it waits for no receipt; what waits is work that was submitted;
  * `Delegate.Submitting`: where the work of submitting a call stands;
  * `Route.submitting_plan`: **a request to submit a call leads to such work and to no other.**
-/
import LedgerGate.Delegate.Standard
import LedgerGate.Gateway.Build
import LedgerGate.Proofs.Delivery.Chain
import LedgerGate.Proofs.Gateway.Trackers

namespace LedgerGate

/-! ## Results of dialogues -/

namespace Dialogue

variable {Q : Type} {A : Q → Type} {α β : Type}

/-- A result that a dialogue has if the answers are right for it. -/
inductive Reaches : Dialogue A α → α → Prop
  | done (a : α) : Reaches (.done a) a
  | ask {q : Q} {resume : A q → Dialogue A α} {a : α} (answer : A q) :
      Reaches (resume answer) a → Reaches (.ask q resume) a

theorem reaches_interrogate (answer : (q : Q) → A q) (d : Dialogue A α) :
    d.Reaches (d.interrogate answer).1 := by
  induction d with
  | done a => exact .done a
  | ask q resume ih => exact .ask (answer q) (ih _)

/-- Something holds of every result, whatever the answers are. -/
def Yields (P : α → Prop) : Dialogue A α → Prop
  | done a => P a
  | ask _ resume => ∀ r, (resume r).Yields P

theorem Yields.imp {P P' : α → Prop} {d : Dialogue A α} (h : d.Yields P)
    (himp : ∀ a, P a → P' a) : d.Yields P' := by
  induction d with
  | done a => exact himp a h
  | ask q resume ih => exact fun r => ih r (h r)

/-- What every continuation yields is what the whole yields. -/
theorem Yields.bind {P : β → Prop} {P' : α → Prop} {d : Dialogue A α} {f : α → Dialogue A β}
    (h : d.Yields P') (hf : ∀ a, P' a → (f a).Yields P) : (d.bind f).Yields P := by
  induction d with
  | done a => exact hf a h
  | ask q resume ih => exact fun r => ih r (h r)

theorem yields_true (d : Dialogue A α) : d.Yields fun _ => True := by
  induction d with
  | done a => trivial
  | ask q resume ih => exact ih

/-- What holds of every result holds of those that a dialogue reaches, -/
theorem Yields.of_reaches {P : α → Prop} {d : Dialogue A α} {a : α} (h : d.Yields P)
    (ha : d.Reaches a) : P a := by
  induction ha with
  | done a => exact h
  | ask answer _ ih => exact ih (h answer)

/-- and of the one that it has when somebody answers. -/
theorem Yields.of_run {σ : Type} {P : α → Prop} {d : Dialogue A α} (h : d.Yields P)
    (answer : (q : Q) → σ → A q × σ) (s : σ) : P (d.run answer s).1 := by
  induction d generalizing s with
  | done a => exact h
  | ask q resume ih => exact ih _ (h _) _

end Dialogue

/-! ## Facilities of ledgers -/

namespace LedgerEntry

/-- A ledger has all that requests to it are served with, or nothing of it, as the internal
    one. -/
def Fitted (l : LedgerEntry) : Prop :=
  l.facilities = if l.isInternal then .none else .outside l.hostsEscrow

variable {l : LedgerEntry}

/-- Such a ledger can be asked just if it is not the internal one, -/
theorem Fitted.requireClient_iff (hl : l.Fitted) :
    l.requireClient = .ok () ↔ l.isInternal = false := by
  rw [requireClient, hl]
  cases l.isInternal <;> simp [Facilities.none, Facilities.outside]

/-- and then its work is tracked. -/
theorem Fitted.requireTracker_iff (hl : l.Fitted) :
    l.requireTracker = .ok () ↔ l.isInternal = false := by
  rw [requireTracker, hl]
  cases l.isInternal <;> simp [Facilities.none, Facilities.outside]

end LedgerEntry

/-! ## Work that ends or is submitted -/

namespace Delegate

/-- A reply that comes of the work is the end of a chain. -/
def Outcome.Final : Outcome → Prop
  | .settled reply => ∃ l : Link Sequel, l.ending?.isSome ∧ reply = l.outcome
  | .submitted _ _ _ => True

/-- A reply that comes of the work waits for no receipt. -/
def Outcome.Ends : Outcome → Prop
  | .settled reply => Awaits (fun _ => False) reply
  | .submitted _ _ _ => True

/-- What ends a chain waits for nothing. -/
theorem Outcome.Final.ends {o : Outcome} (h : o.Final) : o.Ends := by
  cases o with
  | submitted mode workId recent => trivial
  | settled reply =>
    obtain ⟨l, hl, rfl⟩ := h
    obtain ⟨e, he⟩ := Option.isSome_iff_exists.1 hl
    rcases Link.outcome_of_ending he with ⟨f, -, houtcome⟩ | ⟨o, -, houtcome, -⟩
    · exact houtcome ▸ .error f
    · exact houtcome ▸ .last o

theorem final_refused (f : Fault) : (refused f).Yields Outcome.Final := ⟨.failed f, rfl, rfl⟩

theorem final_answered (o : Output) : (answered o).Yields Outcome.Final := ⟨.done o, rfl, rfl⟩

theorem final_result (r : TransactionResult) : Outcome.Final (.settled (Reply.result r)) :=
  ⟨.result r, rfl, rfl⟩

theorem final_provided {requirement : Except Fault Unit} {work : Work}
    (h : work.Yields Outcome.Final) : (provided requirement work).Yields Outcome.Final := by
  rcases requirement with f | _
  · exact final_refused f
  · exact h

theorem final_submit (l : LedgerEntry) (sender : String) (data : List UInt8) (mode : ReplyMode) :
    (submit l sender data mode).Yields Outcome.Final := by
  refine final_provided fun answer => ?_
  rcases answer with e | workId
  · exact final_refused _
  · intro recent
    exact final_provided trivial

theorem final_reportWork (l : LedgerEntry) (workId : WorkId) :
    (reportWork l workId).Yields Outcome.Final := by
  refine final_provided ((Dialogue.yields_true _).bind fun known _ => ?_)
  rcases known with e | _ | _ | _
  · exact final_result _
  · exact final_result _
  · intro recent
    exact final_provided trivial
  · exact final_result _

theorem final_searchForToken (l : LedgerEntry) (symbol : String) (time : Timestamp) :
    (searchForToken l symbol time).Yields Outcome.Final := by
  intro answer
  rcases answer with e | _ | t
  · exact final_refused _
  · exact final_refused _
  · show Dialogue.Yields _ (if t.loading then _ else _)
    split
    · exact final_refused _
    · refine final_provided ((Dialogue.yields_true _).bind fun block _ => ?_)
      rcases block with e | block
      · exact final_refused _
      · exact final_answered _

/-- Whether a delegate is one that every gateway has. -/
def IsStandard : Delegate → Prop
  | custom _ _ => False
  | _ => True

/-- **Every reply of a standard delegate ends its chain**: what has a sequel is submitted. -/
theorem final_apply {d : Delegate} (hd : d.IsStandard) (l : LedgerEntry) (input : Option Input) :
    (d.apply l input).Yields Outcome.Final := by
  unfold apply
  split
  case h_1 => exact fun time => final_answered _
  case h_3 =>
    refine final_provided fun answer => ?_
    rcases answer with e | block
    · exact final_refused _
    · exact final_answered _
  case h_5 => exact final_reportWork _ _
  case h_7 => exact final_searchForToken _ _ _
  case h_9 =>
    unfold submitEncoded
    split
    · exact final_submit _ _ _ _
    · exact final_refused _
  case h_11 =>
    refine final_provided fun identity => ?_
    rcases identity with f | i
    · exact final_refused _
    · exact final_answered _
  case h_13 => exact hd.elim
  -- an input that the delegate does not take
  all_goals exact final_refused _

/-- No standard delegate makes a reply that waits for a receipt. -/
theorem ends_apply {d : Delegate} (hd : d.IsStandard) (l : LedgerEntry) (input : Option Input) :
    (d.apply l input).Yields Outcome.Ends :=
  (final_apply hd l input).imp fun _ => Outcome.Final.ends

/-! ## Submitting a call -/

/-- Where the work of submitting a call to a ledger stands, and under which id the ledger took
    the call, if it did.  Only a ledger that `can` take it is asked to. -/
inductive Submitting (can : Prop) : Option WorkId → Work → Prop
  /-- it is refused, here or by the ledger -/
  | refused (f : Fault) : Submitting can none (refused f)
  /-- the ledger is asked to take the call -/
  | asked {call : Ledger.Call} {resume : Except Ledger.Error WorkId → Work} : can →
      (∀ e, resume (.error e) = Delegate.refused (.ofLedger e)) →
      (∀ workId, resume (.ok workId) =
        .ask .recentBlock fun recent => .done (.submitted .id workId recent)) →
      Submitting can none (.ask (.ledger (.submit call)) resume)
  /-- the ledger took it, and its latest block is asked for -/
  | taken (workId : WorkId) : can → Submitting can (some workId)
      (.ask .recentBlock fun recent => .done (.submitted .id workId recent))
  /-- it is to be prepared -/
  | done (workId : WorkId) (recent : Option UInt64) : can →
      Submitting can (some workId) (.done (.submitted .id workId recent))

theorem submitting_submitEncoded {can : Prop} {l : LedgerEntry} (hfitted : l.Fitted)
    (hl : l.isInternal = false → can) (sender text : String) :
    Submitting can none (submitEncoded l sender text .id) := by
  unfold submitEncoded
  split
  · unfold submit
    cases hclient : l.requireClient with
    | error f => exact .refused _
    | ok _ =>
      have hexternal := hfitted.requireClient_iff.1 hclient
      rw [hfitted.requireTracker_iff.2 hexternal]
      exact .asked (hl hexternal) (fun e => rfl) fun workId => rfl
  · exact .refused _

end Delegate

/-! ## Routes -/

/-- A delegate that is found is one of those that were registered, under the key that was
    looked for or the same for ledgers of every brand. -/
theorem Assignments.of_find? {D : Type} {keyOf : D → RouteKey} {ds : List D} {a : Assignments D}
    (h : ofList keyOf ds = .ok a) {key : RouteKey} {d : D} (hd : a.find? key = some d) :
    d ∈ ds ∧ (keyOf d = key ∨ keyOf d = key.anyBrand) := by
  obtain ⟨hkeys, rfl⟩ := ofList_eq_ok_iff.1 h
  rcases Option.or_eq_some_iff.1 hd with hown | ⟨-, hany⟩
  · obtain ⟨hmem, hkey⟩ := (get?_under_eq_some_iff hkeys).1 hown
    exact ⟨hmem, Or.inl hkey⟩
  · obtain ⟨hmem, hkey⟩ := (get?_under_eq_some_iff hkeys).1 hany
    exact ⟨hmem, Or.inr hkey⟩

theorem Delegate.isStandard_of_mem {brands : List Brand} {d : Delegate}
    (h : d ∈ standardDelegates brands) : d.IsStandard := by
  rcases List.mem_cons.1 h with rfl | hmem
  · trivial
  · obtain ⟨brand, -, hd⟩ := List.mem_flatMap.1 hmem
    simp only [forBrand, List.mem_cons, List.not_mem_nil, or_false] at hd
    rcases hd with rfl | rfl | rfl | rfl | rfl <;> trivial

/-- Among the standard delegates only those for submitted calls have this operation. -/
theorem Delegate.eq_submitCall {d : Delegate} (hd : d.IsStandard)
    (h : d.key.operation = "TX.SUBMIT_CALL") : ∃ brand, d = .submitCall brand := by
  cases d with
  | submitCall brand => exact ⟨brand, rfl⟩
  | custom key reply => exact hd.elim
  | _ => exact absurd h (by simp [key])

/-- Routes lead to standard delegates, and to ledgers of a list or to the internal one. -/
structure Routing (ids : List String) (ledgers : LedgerTable) (delegates : Assignments Delegate) :
    Prop where
  fitted : ∀ {name l}, ledgers.find? name = some l → l.Fitted
  ledgers : ∀ {name l}, ledgers.find? name = some l → l.isInternal = false → l.id ∈ ids
  delegates : ∀ {key d}, delegates.find? key = some d →
    d.IsStandard ∧ d.key.operation = key.operation

/-- Every ledger that a name stands for is configured, or the internal one. -/
theorem LedgerTable.of_find? {t : LedgerTable} {name : Option String} {l : LedgerEntry}
    (h : t.find? name = some l) : l = .internal ∨ l ∈ t.configured := by
  have hget : ∀ {id : String}, t.get? id = some l → l = .internal ∨ l ∈ t.configured := by
    intro id hid
    unfold get? at hid
    split at hid
    · cases hid
      exact Or.inl rfl
    · exact Or.inr (List.mem_of_find?_eq_some hid)
  unfold find? at h
  split at h
  · exact hget h
  · split at h
    · exact hget h
    · exact hget h

namespace Gateway.Built

variable {W : Type} {c : Config} {fit : Fittings} {g : Gateway W}

/-- Every ledger of a gateway that is built is made from its settings, or the internal one. -/
theorem of_find? (h : Built c fit g) {name : Option String} {l : LedgerEntry}
    (hl : g.ledgers.find? name = some l) :
    l = .internal ∨ ∃ settings ∈ c.ledgers, settings.id ≠ internalLedger ∧ settings.entry = l := by
  refine (LedgerTable.of_find? hl).imp_right fun hmem => ?_
  rw [h.table] at hmem
  obtain ⟨settings, hsettings, hentry⟩ := List.mem_map.1 hmem
  exact ⟨settings, hsettings, (Config.validate_eq_ok_iff.1 h.valid).unreserved _ hsettings, hentry⟩

/-- **No ledger of a gateway that is built has a client without a tracker**, nor a tracker
    without a client. -/
theorem fitted (h : Built c fit g) {name : Option String} {l : LedgerEntry}
    (hl : g.ledgers.find? name = some l) : l.Fitted := by
  rcases h.of_find? hl with rfl | ⟨settings, -, hexternal, rfl⟩
  · rfl
  · have hother : settings.entry.isInternal = false := beq_false_of_ne hexternal
    rw [LedgerEntry.Fitted, hother]
    rfl

/-- **A gateway without delegates of the embedder has standard routes.** -/
theorem routing (h : Built c fit g) (hstandard : fit.delegates = []) :
    Routing g.ledgerIds g.ledgers g.delegates where
  fitted hfind := h.fitted hfind
  ledgers := by
    intro name l hfind hl
    rcases h.of_find? hfind with rfl | ⟨settings, hsettings, -, rfl⟩
    · cases hl
    · rw [h.ledgerIds]
      exact List.mem_map_of_mem hsettings
  delegates := by
    intro key d hfind
    have hdelegates := h.delegates
    rw [hstandard, List.append_nil] at hdelegates
    obtain ⟨hmem, hkey⟩ := Assignments.of_find? hdelegates hfind
    refine ⟨Delegate.isStandard_of_mem hmem, ?_⟩
    rcases hkey with hkey | hkey
    · rw [hkey]
    · rw [hkey]
      rfl

end Gateway.Built

namespace Route

variable {ids : List String} {ledgers : LedgerTable} {delegates : Assignments Delegate}
  {operation : String} {input : Option Input}

/-- The route of a request names a ledger of the table and the delegate for its key. -/
theorem of_ofCandidate {candidate : Candidate} {route : Route Delegate}
    (h : ofCandidate ledgers delegates operation input candidate = .ok route) :
    (∃ name, ledgers.find? name = some route.ledger) ∧
      delegates.find? ⟨operation, Input.shapeOf input, route.ledger.brand⟩ =
        some route.delegate := by
  unfold ofCandidate at h
  split at h
  · cases h
  · rename_i ledger hledger
    dsimp only at h
    split at h
    · cases h
    · rename_i delegate hdelegate
      cases h
      exact ⟨⟨_, hledger⟩, hdelegate⟩

/-- Whatever the directories answer, a route is that of some candidate. -/
theorem yields_plan {P : Except Fault (Route Delegate) → Prop} (herror : ∀ f, P (.error f))
    (hroute : ∀ candidate, P (ofCandidate ledgers delegates operation input candidate)) :
    (plan ledgers delegates operation input).Yields P := by
  refine (Dialogue.yields_true _).bind fun found _ => ?_
  rcases found with f | _ | candidate
  · exact herror f
  · exact herror _
  · exact hroute candidate

/-- No route leads to work whose reply waits for a receipt. -/
theorem ends_plan (h : Routing ids ledgers delegates) :
    (plan ledgers delegates operation input).Yields fun o => ∀ route, o = .ok route →
      (route.delegate.apply route.ledger input).Yields Delegate.Outcome.Ends := by
  refine yields_plan (fun f route hroute => by cases hroute) fun candidate route hroute => ?_
  obtain ⟨-, hdelegate⟩ := of_ofCandidate hroute
  exact Delegate.ends_apply (h.delegates hdelegate).1 _ _

/-- **A request to submit a call leads to the work of submitting it**, on a ledger that is
    listed if it can be asked at all. -/
theorem submitting_plan (h : Routing ids ledgers delegates) (sender text : String) :
    (plan ledgers delegates "TX.SUBMIT_CALL" (some (.call sender text .id))).Yields fun o =>
      ∀ route, o = .ok route → Delegate.Submitting (route.ledger.id ∈ ids) none
        (route.delegate.apply route.ledger (some (.call sender text .id))) := by
  refine yields_plan (fun f route hroute => by cases hroute) fun candidate route hroute => ?_
  obtain ⟨⟨name, hledger⟩, hdelegate⟩ := of_ofCandidate hroute
  obtain ⟨hstandard, hkey⟩ := h.delegates hdelegate
  obtain ⟨brand, hbrand⟩ := Delegate.eq_submitCall hstandard hkey
  rw [hbrand]
  exact Delegate.submitting_submitEncoded (h.fitted hledger) (h.ledgers hledger) sender text

end Route

end LedgerGate
