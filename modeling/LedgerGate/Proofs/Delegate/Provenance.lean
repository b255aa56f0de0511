/-
  Where submitted work comes from: what a delegate has heard of its ledger before it has work
  prepared.

  Two delegates submit work.  One has its ledger take a call and gets the id for it; the other
  asks about an id that it is given, and goes on only if the ledger has no confirmation for it
  and knows it all the same.

  * `Testimony`: an answer of a ledger; `Accepted`, `recognition`: answers that vouch for an id;
  * `Delegate.Question.Testifies`, `Testifies`: what ledgers answer for a delegate;
  * `Delegate.replies_apply`: **all other delegates have a reply in the end**;
  * `Delegate.submitted_apply`: what the two have heard when they submit work;
  * `Route.vouched_of`: **work that is submitted for a request is vouched for** by its ledger.
-/
import LedgerGate.Proofs.Delegate.Transcript

namespace LedgerGate

open Dialogue (Exchange)

/-! ## Testimony -/

/-- What a ledger answered, with its id. -/
abbrev Testimony : Type := String × Exchange Ledger.Query.Answer

/-- The ledger took a call under an id. -/
def Accepted (said : List Testimony) (ledgerId : String) (workId : WorkId) : Prop :=
  ∃ call, (ledgerId, ⟨.submit call, .ok workId⟩) ∈ said

/-- The ledger has no confirmation for an id, and then knows it. -/
def recognition (ledgerId : String) (workId : WorkId) : List Testimony :=
  [(ledgerId, ⟨.confirmationOf workId, .ok none⟩), (ledgerId, ⟨.isKnown workId, .ok true⟩)]

theorem Accepted.mono {said said' : List Testimony} {k : String} {workId : WorkId}
    (h : Accepted said k workId) (hsub : said ⊆ said') : Accepted said' k workId :=
  h.imp fun _ hmem => hsub hmem

namespace Delegate

/-- What a ledger answers while a question of a delegate is answered.  Its latest block may be
    known. -/
inductive Question.Testifies (ledgerId : String) :
    (q : Question) → q.Answer → List Testimony → Prop
  | ledger (q : Ledger.Query) (answer : q.Answer) :
      Testifies ledgerId (.ledger q) answer [(ledgerId, ⟨q, answer⟩)]
  | lookup (l : Store.Lookup) (answer : l.Answer) : Testifies ledgerId (.lookup l) answer []
  | remembered (answer : Option UInt64) : Testifies ledgerId .recentBlock answer []
  | renewed (answer : Option UInt64) (block : Except Ledger.Error UInt64) :
      Testifies ledgerId .recentBlock answer [(ledgerId, ⟨.blockNumber, block⟩)]
  | escrow (answer : Except Fault Escrow.Identity) : Testifies ledgerId .escrow answer []
  | clock (answer : Timestamp) : Testifies ledgerId .clock answer []

/-- What a ledger answers in some exchanges of a delegate. -/
inductive Testifies (ledgerId : String) :
    List (Exchange Question.Answer) → List Testimony → Prop
  | nil : Testifies ledgerId [] []
  | cons {q : Question} {answer : q.Answer} {exchanges said more} :
      q.Testifies ledgerId answer said → Testifies ledgerId exchanges more →
      Testifies ledgerId (⟨q, answer⟩ :: exchanges) (said ++ more)

namespace Testifies

variable {k : String} {exchanges : List (Exchange Question.Answer)} {said : List Testimony}

/-- One more question is answered. -/
theorem snoc (h : Testifies k exchanges said) {q : Question} {answer : q.Answer}
    {more : List Testimony} (hq : q.Testifies k answer more) :
    Testifies k (exchanges ++ [⟨q, answer⟩]) (said ++ more) := by
  induction h with
  | nil =>
    have hone := Testifies.cons hq .nil
    rwa [List.append_nil] at hone
  | cons hfirst _ ih =>
    rw [List.append_assoc]
    exact .cons hfirst ih

/-- What is asked of the ledger itself it answers itself. -/
theorem mem (h : Testifies k exchanges said) {q : Ledger.Query} {answer : q.Answer}
    (hmem : (⟨.ledger q, answer⟩ : Exchange Question.Answer) ∈ exchanges) :
    (k, ⟨q, answer⟩) ∈ said := by
  induction h with
  | nil => cases hmem
  | cons hfirst _ ih =>
    rcases List.mem_cons.1 hmem with heq | hmem
    · cases heq
      cases hfirst
      exact List.mem_append_left _ List.mem_cons_self
    · exact List.mem_append_right _ (ih hmem)

/-- A question to the ledger that comes first is answered first. -/
theorem of_cons {q : Ledger.Query} {answer : q.Answer}
    (h : Testifies k (⟨.ledger q, answer⟩ :: exchanges) said) :
    ∃ more, said = (k, ⟨q, answer⟩) :: more ∧ Testifies k exchanges more := by
  cases h with
  | cons hfirst hrest =>
    cases hfirst
    exact ⟨_, rfl, hrest⟩

end Testifies

/-! ## Replies -/

variable {l : LedgerEntry} {input : Option Input} {mode : ReplyMode} {workId : WorkId}
  {recent : Option UInt64} {exchanges : List (Exchange Question.Answer)}

/-- The work ends with a reply. -/
def Outcome.IsReply : Outcome → Prop
  | .settled _ => True
  | .submitted _ _ _ => False

theorem replies_provided {requirement : Except Fault Unit} {work : Work}
    (h : work.Yields Outcome.IsReply) : (provided requirement work).Yields Outcome.IsReply := by
  rcases requirement with f | _
  · trivial
  · exact h

theorem replies_searchForToken (l : LedgerEntry) (symbol : String) (time : Timestamp) :
    (searchForToken l symbol time).Yields Outcome.IsReply := by
  intro answer
  rcases answer with e | _ | t
  · trivial
  · trivial
  · show Dialogue.Yields _ (if t.loading then _ else _)
    split
    · trivial
    · refine replies_provided ((Dialogue.yields_true _).bind fun block _ => ?_)
      rcases block with e | block <;> trivial

/-- **A standard delegate has a reply in the end**, unless it submits a call or asks about
    work. -/
theorem replies_apply {d : Delegate} (hd : d.IsStandard)
    (hcall : ∀ brand sender text mode,
      d = .submitCall brand → input ≠ some (.call sender text mode))
    (hquery : ∀ brand name workId,
      d = .transactionResult brand → input ≠ some (.transactionQuery name workId)) :
    (d.apply l input).Yields Outcome.IsReply := by
  unfold apply
  split
  case h_1 => exact fun time => trivial
  case h_3 =>
    refine replies_provided fun answer => ?_
    rcases answer with e | block <;> trivial
  case h_5 => exact absurd rfl (hquery _ _ _ rfl)
  case h_7 => exact replies_searchForToken l _ _
  case h_9 => exact absurd rfl (hcall _ _ _ _ rfl)
  case h_11 =>
    refine replies_provided fun identity => ?_
    rcases identity with f | i <;> trivial
  case h_13 => exact hd.elim
  -- an input that the delegate does not take
  all_goals trivial

/-! ## Submitted work -/

/-- A call that is submitted was taken by the ledger under the id that is tracked. -/
theorem submitted_submitEncoded {sender text : String} {mode' : ReplyMode}
    (h : (submitEncoded l sender text mode').Leads exchanges
      (.done (.submitted mode workId recent))) :
    ∃ call, (⟨.ledger (.submit call), .ok workId⟩ : Exchange Question.Answer) ∈ exchanges := by
  unfold submitEncoded at h
  split at h
  · unfold submit provided at h
    split at h
    · cases h with
      | ask answer h =>
        rcases answer with e | taken
        · cases h.of_done.2
        · cases h with
          | ask block h =>
            dsimp only at h
            split at h
            · cases h.of_done.2
              exact ⟨_, List.mem_cons_self⟩
            · cases h.of_done.2
    · cases h.of_done.2
  · cases h.of_done.2

/-- Work that is asked about is tracked only if the ledger has no confirmation for it, and knows
    it all the same. -/
theorem submitted_reportWork {asked : WorkId}
    (h : (reportWork l asked).Leads exchanges (.done (.submitted mode workId recent))) :
    workId = asked ∧ ∃ rest, exchanges = ⟨.ledger (.confirmationOf asked), .ok none⟩ ::
      ⟨.ledger (.isKnown asked), .ok true⟩ :: rest := by
  unfold reportWork provided at h
  split at h
  · cases h with
    | ask answer h =>
      rcases answer with e | _ | c
      · cases h.of_done.2
      · cases h with
        | ask known h =>
          rcases known with e | _ | _
          · cases h.of_done.2
          · cases h.of_done.2
          · cases h with
            | ask block h =>
              dsimp only at h
              split at h
              · cases h.of_done.2
                exact ⟨rfl, _, rfl⟩
              · cases h.of_done.2
      · cases h.of_done.2
  · cases h.of_done.2

/-- **What a standard delegate has heard** of its ledger when it submits work. -/
theorem submitted_apply {d : Delegate} (hd : d.IsStandard)
    (h : (d.apply l input).Leads exchanges (.done (.submitted mode workId recent))) :
    (∃ call, (⟨.ledger (.submit call), .ok workId⟩ : Exchange Question.Answer) ∈ exchanges) ∨
      ∃ brand name rest, d = .transactionResult brand ∧
        input = some (.transactionQuery name workId) ∧
        exchanges = ⟨.ledger (.confirmationOf workId), .ok none⟩ ::
          ⟨.ledger (.isKnown workId), .ok true⟩ :: rest := by
  by_cases hcall : ∃ brand sender text mode,
    d = .submitCall brand ∧ input = some (.call sender text mode)
  · obtain ⟨brand, sender, text, mode', rfl, rfl⟩ := hcall
    exact Or.inl (submitted_submitEncoded h)
  by_cases hquery : ∃ brand name asked,
    d = .transactionResult brand ∧ input = some (.transactionQuery name asked)
  · obtain ⟨brand, name, asked, rfl, rfl⟩ := hquery
    obtain ⟨rfl, rest, hexchanges⟩ := submitted_reportWork h
    exact Or.inr ⟨brand, name, rest, rfl, rfl, hexchanges⟩
  -- any other delegate has a reply
  have hreplies : (d.apply l input).Yields Outcome.IsReply :=
    replies_apply hd
      (fun brand sender text mode hd' hinput => hcall ⟨brand, sender, text, mode, hd', hinput⟩)
      (fun brand name asked hd' hinput => hquery ⟨brand, name, asked, hd', hinput⟩)
  exact (hreplies.of_leads h).elim

end Delegate

/-! ## Requests -/

/-- A request that asks its ledger about work. -/
def AsksAbout (operation : String) (input : Option Input) (workId : WorkId) : Prop :=
  operation = "TX.GET_TRANSACTION_RESULT" ∧ ∃ name, input = some (.transactionQuery name workId)

/-- **Work that is submitted for a request is vouched for**: its ledger took a call under the id,
    or the request asks about that id, which its ledger has no confirmation for and knows. -/
theorem Route.vouched_of {ids : List String} {ledgers : LedgerTable}
    {delegates : Assignments Delegate} {operation : String} {input : Option Input}
    {learned : List (Exchange Store.Lookup.Answer)} {route : Route Delegate}
    {exchanges : List (Exchange Delegate.Question.Answer)} {said : List Testimony}
    {mode : ReplyMode} {workId : WorkId} {recent : Option UInt64}
    (hrouting : Routing ids ledgers delegates)
    (hplan : (plan ledgers delegates operation input).Leads learned (.done (.ok route)))
    (hwork : (route.delegate.apply route.ledger input).Leads exchanges
      (.done (.submitted mode workId recent)))
    (hsaid : Delegate.Testifies route.ledger.id exchanges said) :
    Accepted said route.ledger.id workId ∨
      AsksAbout operation input workId ∧ recognition route.ledger.id workId <+: said := by
  obtain ⟨hstandard, hoperation⟩ := delegate_of_plan hrouting hplan
  rcases Delegate.submitted_apply hstandard hwork with
    ⟨call, hmem⟩ | ⟨brand, name, rest, hbrand, hinput, rfl⟩
  · exact Or.inl ⟨call, hsaid.mem hmem⟩
  · rw [hbrand] at hoperation
    obtain ⟨more, rfl, hmore⟩ := hsaid.of_cons
    obtain ⟨further, rfl, -⟩ := hmore.of_cons
    exact Or.inr ⟨⟨hoperation.symm, name, hinput⟩, further, rfl⟩

end LedgerGate
