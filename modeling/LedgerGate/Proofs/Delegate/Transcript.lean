/-
  What is asked while a request is planned and worked on, whatever the answers are.

  What a dialogue asked can be told from the exchanges that led to what is left of it, and
  what it may ask from its text alone.

  * `Dialogue.Asks`: what holds of every question that a dialogue may ask;
  * `LedgerTable.named`: the id of the ledger that a name stands for;
  * `Route.of_plan_call`: on whose behalf a call is made, and where it goes;
  * `Delegate.quiet_apply`: no delegate but one has a ledger execute anything for a sender;
  * `Route.warranted_of`: **what a ledger is to execute was asked for**, and no more than once;
  * `Route.silent_of`: call data that is not hexadecimal is no matter of any ledger.
-/
import LedgerGate.Proofs.Delegate.Submission
import LedgerGate.Proofs.Dialogue.Exchanges

namespace LedgerGate

/-! ## Along exchanges -/

namespace Dialogue

variable {Q : Type} {A : Q → Type} {α β : Type} {d d' : Dialogue A α}
  {exchanges : List (Exchange A)}

theorem Yields.of_leads {P : α → Prop} {a : α} (h : d.Yields P)
    (hleads : d.Leads exchanges (.done a)) : P a := by
  generalize hleft : Dialogue.done a = left at hleads
  induction hleads with
  | refl d =>
    subst hleft
    exact h
  | ask answer _ ih => exact ih (h answer) hleft

/-- Something holds of every question that may be asked, whatever the answers are. -/
def Asks (P : Q → Prop) : Dialogue A α → Prop
  | done _ => True
  | ask q resume => P q ∧ ∀ r, (resume r).Asks P

variable {P : Q → Prop}

theorem Asks.bind {f : α → Dialogue A β} (h : d.Asks P) (hf : ∀ a, (f a).Asks P) :
    (d.bind f).Asks P := by
  induction d with
  | done a => exact hf a
  | ask q resume ih => exact ⟨h.1, fun r => ih r (h.2 r)⟩

/-- Questions that are put through hold what all such questions hold. -/
theorem asks_relay {Q' : Type} {A' : Q' → Type} {P : Q' → Prop} {f : Q → Q'}
    (g : (q : Q) → A' (f q) → A q) (hf : ∀ q, P (f q)) (d : Dialogue A α) :
    (d.relay f g).Asks P := by
  induction d with
  | done a => trivial
  | ask q resume ih => exact ⟨hf q, fun r => ih _⟩

theorem Asks.of_leads (h : d.Asks P) (hleads : d.Leads exchanges d') : ∀ x ∈ exchanges, P x.1 := by
  induction hleads with
  | refl d => exact fun x hx => by cases hx
  | ask answer _ ih =>
    intro x hx
    rcases List.mem_cons.1 hx with rfl | hx
    · exact h.1
    · exact ih (h.2 answer) x hx

end Dialogue

/-! ## Invocations -/

/-- For whom a ledger is asked to execute something, and what. -/
def Ledger.Query.invocation? : Query → Option (String × List UInt8)
  | submit (.invoke sender data) => some (sender, data)
  | _ => none

namespace Delegate

open Dialogue (Exchange)

def Question.invocation? : Question → Option (String × List UInt8)
  | ledger q => q.invocation?
  | _ => none

/-- What ledgers were asked to execute in some exchanges. -/
def invocations (exchanges : List (Exchange Question.Answer)) : List (String × List UInt8) :=
  exchanges.filterMap (·.1.invocation?)

/-- No ledger is ever asked to execute anything for a sender. -/
abbrev Quiet (work : Work) : Prop := work.Asks (·.invocation? = none)

variable {l : LedgerEntry} {input : Option Input} {sender text : String} {mode : ReplyMode}
  {exchanges : List (Exchange Question.Answer)} {work left : Work}

theorem Quiet.invocations (h : Quiet work) (hleads : work.Leads exchanges left) :
    invocations exchanges = [] :=
  List.filterMap_eq_nil_iff.2 (h.of_leads hleads)

theorem quiet_refused (f : Fault) : Quiet (refused f) := trivial

theorem quiet_answered (o : Output) : Quiet (answered o) := trivial

theorem quiet_provided {requirement : Except Fault Unit} (h : Quiet work) :
    Quiet (provided requirement work) := by
  rcases requirement with f | _
  · exact quiet_refused f
  · exact h

theorem quiet_reportBlock (l : LedgerEntry) : Quiet (reportBlock l) := by
  refine quiet_provided ⟨rfl, fun answer => ?_⟩
  rcases answer with e | block
  · exact quiet_refused _
  · exact quiet_answered _

theorem quiet_reportEscrow (l : LedgerEntry) : Quiet (reportEscrow l) := by
  refine quiet_provided ⟨rfl, fun identity => ?_⟩
  rcases identity with f | i
  · exact quiet_refused _
  · exact quiet_answered _

/-- A search asks a ledger about blocks alone. -/
theorem quiet_onLedger (horizon : UInt64) (time : Timestamp) :
    (Ledger.BlockSearch.onLedger horizon time).Asks (·.invocation? = none) := by
  refine Dialogue.asks_relay _ (fun probe => ?_) _
  cases probe <;> rfl

/-- What is asked of a ledger for a delegate is asked of it by the delegate. -/
theorem quiet_relay {α : Type} {d : Ledger.Conversation α} (h : d.Asks (·.invocation? = none)) :
    (d.relay Question.ledger (fun _ answer => answer) : Dialogue Question.Answer α).Asks
      (·.invocation? = none) := by
  induction d with
  | done a => trivial
  | ask q resume ih => exact ⟨h.1, fun r => ih r (h.2 r)⟩

theorem quiet_searchForToken (l : LedgerEntry) (symbol : String) (time : Timestamp) :
    Quiet (searchForToken l symbol time) := by
  refine ⟨rfl, fun answer => ?_⟩
  rcases answer with e | _ | t
  · exact quiet_refused _
  · exact quiet_refused _
  · show Quiet (if t.loading then _ else _)
    split
    · exact quiet_refused _
    · refine quiet_provided ((quiet_relay (quiet_onLedger _ _)).bind fun block => ?_)
      rcases block with e | block
      · exact quiet_refused _
      · exact quiet_answered _

theorem quiet_lookUp (workId : WorkId) : (lookUp workId).Asks (·.invocation? = none) := by
  refine ⟨rfl, fun answer => ?_⟩
  rcases answer with e | _ | c
  · trivial
  · refine ⟨rfl, fun known => ?_⟩
    rcases known with e | _ | _ <;> trivial
  · trivial

theorem quiet_reportWork (l : LedgerEntry) (workId : WorkId) : Quiet (reportWork l workId) := by
  refine quiet_provided ((quiet_relay (quiet_lookUp workId)).bind fun known => ?_)
  rcases known with e | _ | _ | _
  · trivial
  · trivial
  · exact ⟨rfl, fun recent => quiet_provided trivial⟩
  · trivial

/-- **No standard delegate has a ledger execute anything**, but that for submitted calls, with a
    call as its input. -/
theorem quiet_apply {d : Delegate} (hd : d.IsStandard) (hother : ∀ brand sender text mode,
    d = .submitCall brand → input ≠ some (.call sender text mode)) : Quiet (d.apply l input) := by
  unfold apply
  split
  case h_1 => exact ⟨rfl, fun time => quiet_answered _⟩
  case h_3 => exact quiet_reportBlock l
  case h_5 => exact quiet_reportWork l _
  case h_7 => exact quiet_searchForToken l _ _
  case h_9 => exact absurd rfl (hother _ _ _ _ rfl)
  case h_11 => exact quiet_reportEscrow l
  case h_13 => exact hd.elim
  -- an input that the delegate does not take
  all_goals exact quiet_refused _

/-- Call data is what its hexadecimal text spells, an `0x` at its start apart. -/
theorem decodeHex_of_callData {data : List UInt8} (h : callData text = .ok data) :
    Text.decodeHex (String.ofList (Crypto.Key.dropMark text.toList)) = .ok data := by
  unfold callData at h
  split at h
  · rename_i data' hdecoded
    rw [hdecoded, Except.ok.inj h]
  · cases h

/-- The work of submitting a call has its ledger execute that call, at most once. -/
theorem invocations_submitEncoded (h : (submitEncoded l sender text mode).Leads exchanges left) :
    invocations exchanges = [] ∨
      ∃ data, callData text = .ok data ∧ invocations exchanges = [(sender, data)] := by
  unfold submitEncoded at h
  split at h
  · rename_i data hdata
    unfold submit provided at h
    split at h
    · cases h with
      | refl => exact Or.inl rfl
      | ask answer hrest =>
        refine Or.inr ⟨data, hdata, ?_⟩
        refine congrArg ((sender, data) :: ·) (Quiet.invocations ?_ hrest)
        rcases answer with e | workId
        · exact quiet_refused _
        · exact ⟨rfl, fun recent => quiet_provided trivial⟩
    · exact Or.inl ((quiet_refused _).invocations h)
  · exact Or.inl ((quiet_refused _).invocations h)

/-- A call whose data is not hexadecimal is refused by every delegate. -/
theorem apply_call_refused {d : Delegate} (hd : d.IsStandard) (l : LedgerEntry) (sender : String)
    (mode : ReplyMode) {f : Fault} (htext : callData text = .error f) :
    ∃ f, d.apply l (some (.call sender text mode)) = refused f := by
  cases d with
  | submitCall brand => exact ⟨f, by simp [apply, submitEncoded, htext]⟩
  | custom key reply => exact hd.elim
  | _ => exact ⟨_, rfl⟩

end Delegate

/-! ## Routes -/

/-- The id of the ledger that a name stands for: no name, or an empty one, is the default. -/
def LedgerTable.named (t : LedgerTable) : Option String → String
  | none => t.defaultId
  | some id => if id.isEmpty then t.defaultId else id

/-- A ledger that is found has the id that its name stands for. -/
theorem LedgerTable.id_of_find? {t : LedgerTable} {name : Option String} {l : LedgerEntry}
    (h : t.find? name = some l) : l.id = t.named name := by
  have hget : ∀ {id : String}, t.get? id = some l → l.id = id := by
    intro id hid
    unfold get? at hid
    split at hid
    · rename_i hinternal
      cases hid
      exact hinternal.symm
    · simpa using List.find?_some hid
  cases name with
  | none => exact hget h
  | some id =>
    simp only [find?, named] at h ⊢
    split at h
    · rename_i hempty
      rw [if_pos hempty]
      exact hget h
    · rename_i hempty
      rw [if_neg hempty]
      exact hget h

namespace Route

open Dialogue (Exchange)

variable {ids : List String} {ledgers : LedgerTable} {delegates : Assignments Delegate}
  {operation sender text : String} {input : Option Input} {mode : ReplyMode}
  {learned : List (Exchange Store.Lookup.Answer)} {route : Route Delegate}
  {exchanges : List (Exchange Delegate.Question.Answer)} {left : Delegate.Work}

/-- A call has a route only if its sender is known, and then to the ledger that the sender's
    record names. -/
theorem of_plan_call (h : (plan ledgers delegates operation (some (.call sender text mode))).Leads
    learned (.done (.ok route))) :
    ∃ record, learned = [⟨.address sender, .ok (some record)⟩] ∧
      ofCandidate ledgers delegates operation (some (.call sender text mode))
        (.ofAddress (some record)) = .ok route := by
  cases h with
  | @ask _ _ rest _ answer hrest =>
    rcases answer with e | _ | record
    · cases hrest.of_done.2
    · cases hrest.of_done.2
    · obtain ⟨hnone, hroute⟩ := hrest.of_done
      refine ⟨record, by rw [hnone], ?_⟩
      exact (Dialogue.done.inj hroute).symm

/-- The route of a candidate leads to the ledger that it selects, with a delegate for the
    operation. -/
theorem id_of_ofCandidate {candidate : Candidate}
    (h : ofCandidate ledgers delegates operation input candidate = .ok route) :
    route.ledger.id = ledgers.named candidate.ledgerId := by
  unfold ofCandidate at h
  split at h
  · cases h
  · rename_i ledger hledger
    dsimp only at h
    split at h
    · cases h
    · cases h
      exact LedgerTable.id_of_find? hledger

/-- How a ledger came to be asked to execute something for a sender: by a request to submit a
    call, from an address that the directory knew. -/
structure Warranted (ledgers : LedgerTable) (operation : String) (input : Option Input)
    (learned : List (Exchange Store.Lookup.Answer)) (ledgerId sender : String)
    (data : List UInt8) : Prop where
  operation : operation = "TX.SUBMIT_CALL"
  input : ∃ text mode, input = some (.call sender text mode) ∧
    Text.decodeHex (String.ofList (Crypto.Key.dropMark text.toList)) = .ok data
  known : ∃ record, learned = [⟨.address sender, .ok (some record)⟩] ∧
    ledgerId = ledgers.named record.ledgerId

/-- The delegate of a route is a standard one for the operation. -/
theorem delegate_of_plan (h : Routing ids ledgers delegates)
    (hplan : (plan ledgers delegates operation input).Leads learned (.done (.ok route))) :
    route.delegate.IsStandard ∧ route.delegate.key.operation = operation := by
  have hyields : (plan ledgers delegates operation input).Yields fun o => ∀ route, o = .ok route →
      route.delegate.IsStandard ∧ route.delegate.key.operation = operation := by
    refine yields_plan (fun f route hroute => by cases hroute) fun candidate route hroute => ?_
    exact h.delegates (of_ofCandidate hroute).2
  exact hyields.of_leads hplan route rfl

/-- **What a ledger is to execute was asked for**: whatever else the work on a request asks, it
    has a ledger execute one thing at most, and that with warrant. -/
theorem warranted_of (h : Routing ids ledgers delegates)
    (hplan : (plan ledgers delegates operation input).Leads learned (.done (.ok route)))
    (hwork : (route.delegate.apply route.ledger input).Leads exchanges left) :
    Delegate.invocations exchanges = [] ∨ ∃ sender data,
      Delegate.invocations exchanges = [(sender, data)] ∧
        Warranted ledgers operation input learned route.ledger.id sender data := by
  obtain ⟨hstandard, hoperation⟩ := delegate_of_plan h hplan
  by_cases hcall : ∃ brand sender text mode,
    route.delegate = .submitCall brand ∧ input = some (.call sender text mode)
  · obtain ⟨brand, sender, text, mode, hbrand, rfl⟩ := hcall
    rw [hbrand] at hwork hoperation
    rcases Delegate.invocations_submitEncoded hwork with hnone | ⟨data, hdata, hone⟩
    · exact Or.inl hnone
    · obtain ⟨record, hlearned, hroute⟩ := of_plan_call hplan
      exact Or.inr ⟨sender, data, hone, hoperation.symm,
        ⟨text, mode, rfl, Delegate.decodeHex_of_callData hdata⟩,
        ⟨record, hlearned, id_of_ofCandidate hroute⟩⟩
  · refine Or.inl (Delegate.Quiet.invocations ?_ hwork)
    exact Delegate.quiet_apply hstandard fun brand sender text mode hbrand hinput =>
      hcall ⟨brand, sender, text, mode, hbrand, hinput⟩

/-- **Call data that is not hexadecimal is no matter of any ledger**, whichever delegate the
    request has come to. -/
theorem silent_of (h : Routing ids ledgers delegates) {e : Text.HexError}
    (htext : Text.decodeHex (String.ofList (Crypto.Key.dropMark text.toList)) = .error e)
    (hplan : (plan ledgers delegates operation (some (.call sender text mode))).Leads learned
      (.done (.ok route)))
    (hwork : (route.delegate.apply route.ledger (some (.call sender text mode))).Leads exchanges
      left) : exchanges = [] := by
  have hdata : ∃ f, Delegate.callData text = .error f := by
    unfold Delegate.callData
    rw [htext]
    exact ⟨_, rfl⟩
  obtain ⟨f, hf⟩ := hdata
  obtain ⟨f', hrefused⟩ := Delegate.apply_call_refused (delegate_of_plan h hplan).1 route.ledger
    sender mode hf
  rw [hrefused] at hwork
  exact hwork.of_done.1

end Route

end LedgerGate
