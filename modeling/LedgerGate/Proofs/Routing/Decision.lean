/-
  The decision where a request goes.

  A request names principals in an order.  The first one that is valid, or that cannot be
  looked up, decides; what stands behind it is not even looked up.

  * `Principal.Selects`: what a principal selects, and what is looked up for it;
  * `Passes`: principals that are all invalid;
  * `Settles`: where a request goes on whose behalf a candidate acts;
  * `Decision`: how the principals of a request decide;
  * `Decision.interrogate`: a plan comes to its decision, and to no other;
  * `exists_decision_plan`: so it does in a gateway;
  * `firstDecides_of`: the first principal that is valid decides alone.
-/
import LedgerGate.Proofs.Delegate.Transcript
import LedgerGate.Proofs.Dialogue.Exchanges
import LedgerGate.Routing.Plan
import Mathlib.Data.List.Basic

namespace LedgerGate

/-! ## Principals -/

/-- What a principal selects when the directories answer in a way, and what is looked up for
    it, in this order. -/
inductive Principal.Selects (directory : (l : Store.Lookup) → l.Answer) :
    Principal → Except Store.Error Candidate → List Store.Lookup → Prop
  | anyone : Selects directory .anyone (.ok (.accepted (some internalLedger) .notApplicable)) []
  | ledger (ledgerId : Option String) :
      Selects directory (.ledger ledgerId) (.ok (.accepted ledgerId .notApplicable)) []
  | wallet (walletId : Int32) (ledgerId : Option String) :
      Selects directory (.wallet walletId ledgerId)
        (.ok (.accepted (some (ledgerId.getD internalLedger)) (.id walletId))) []
  | known {a : String} {r : Store.AddressRecord} : directory (.address a) = .ok (some r) →
      Selects directory (.address a) (.ok (.accepted r.ledgerId r.wallet)) [.address a]
  | unknown {a : String} : directory (.address a) = .ok none →
      Selects directory (.address a) (.ok .invalid) [.address a]
  | unread {a : String} {e : Store.Error} : directory (.address a) = .error e →
      Selects directory (.address a) (.error e) [.address a]
  | controlled {symbol : String} {t : Store.TokenRecord} {selected : Except Store.Error Candidate}
      {looked : List Store.Lookup} : directory (.token symbol) = .ok (some t) →
      Selects directory (.address t.controller) selected looked →
      Selects directory (.token symbol) selected (.token symbol :: looked)
  | unissued {symbol : String} : directory (.token symbol) = .ok none →
      Selects directory (.token symbol) (.ok .invalid) [.token symbol]
  | unreadToken {symbol : String} {e : Store.Error} : directory (.token symbol) = .error e →
      Selects directory (.token symbol) (.error e) [.token symbol]

namespace Principal

variable {directory : (l : Store.Lookup) → l.Answer} {p : Principal}
  {selected : Except Store.Error Candidate} {looked : List Store.Lookup}

/-- An address selects something. -/
theorem exists_selects_address (directory : (l : Store.Lookup) → l.Answer) (a : String) :
    ∃ selected looked, (address a).Selects directory selected looked := by
  rcases hread : directory (.address a) with e | _ | r
  · exact ⟨_, _, .unread hread⟩
  · exact ⟨_, _, .unknown hread⟩
  · exact ⟨_, _, .known hread⟩

/-- Every principal selects something. -/
theorem exists_selects (directory : (l : Store.Lookup) → l.Answer) (p : Principal) :
    ∃ selected looked, p.Selects directory selected looked := by
  cases p with
  | anyone => exact ⟨_, _, .anyone⟩
  | ledger ledgerId => exact ⟨_, _, .ledger ledgerId⟩
  | wallet walletId ledgerId => exact ⟨_, _, .wallet walletId ledgerId⟩
  | address a => exact exists_selects_address directory a
  | token symbol =>
    rcases hread : directory (.token symbol) with e | _ | t
    · exact ⟨_, _, .unreadToken hread⟩
    · exact ⟨_, _, .unissued hread⟩
    · obtain ⟨selected, looked, hcontroller⟩ := exists_selects_address directory t.controller
      exact ⟨_, _, .controlled hread hcontroller⟩

/-- A principal resolves to what it selects, after these lookups. -/
theorem Selects.interrogate (h : p.Selects directory selected looked) :
    p.resolve.interrogate directory = (selected.mapError Fault.ofStore, looked) := by
  induction h with
  | anyone => rfl
  | ledger ledgerId => rfl
  | wallet walletId ledgerId => rfl
  | known hread =>
    simp only [resolve, addressCandidate, Dialogue.interrogate, hread]
    rfl
  | unknown hread =>
    simp only [resolve, addressCandidate, Dialogue.interrogate, hread]
    rfl
  | unread hread =>
    simp only [resolve, addressCandidate, Dialogue.interrogate, hread]
    rfl
  | controlled hread _ ih =>
    rw [resolve] at ih
    simp only [resolve, Dialogue.interrogate, hread, ih]
  | unissued hread =>
    simp only [resolve, Dialogue.interrogate, hread]
    rfl
  | unreadToken hread =>
    simp only [resolve, Dialogue.interrogate, hread]
    rfl

end Principal

/-! ## Tables -/

/-- A ledger is found under the id that its name stands for. -/
theorem LedgerTable.find?_eq (t : LedgerTable) (name : Option String) :
    t.find? name = t.get? (t.named name) := by
  cases name with
  | none => rfl
  | some id =>
    simp only [find?, named]
    split <;> rfl

/-- No ledger is found under an id just if neither the internal one nor a configured one has
    it. -/
theorem LedgerTable.get?_eq_none_iff {t : LedgerTable} {id : String} :
    t.get? id = none ↔ ∀ l ∈ LedgerEntry.internal :: t.configured, l.id ≠ id := by
  unfold get?
  split
  · rename_i hinternal
    simp [hinternal, LedgerEntry.internal]
  · rename_i hinternal
    simp [LedgerEntry.internal, Ne.symm hinternal]

/-- No delegate is found for a key just if none is registered under it, or under the key for
    every brand. -/
theorem Assignments.find?_eq_none_iff {D : Type} {a : Assignments D} {key : RouteKey} :
    a.find? key = none ↔ ∀ x ∈ a.entries, x.1 ≠ key ∧ x.1 ≠ key.anyBrand := by
  simp [find?, get?, Option.or_eq_none_iff, forall_and]

namespace Route

variable {D : Type}

/-! ## Decisions -/

/-- These principals are all invalid, and this is looked up to find it out. -/
inductive Passes (directory : (l : Store.Lookup) → l.Answer) :
    List Principal → List Store.Lookup → Prop
  | nil : Passes directory [] []
  | cons {p : Principal} {ps : List Principal} {c : Candidate} {looked rest : List Store.Lookup} :
      p.Selects directory (.ok c) looked → c.valid = false → Passes directory ps rest →
      Passes directory (p :: ps) (looked ++ rest)

section
variable (ledgers : LedgerTable) (delegates : Assignments D) (operation : String) (shape : Shape)

/-- Where a request goes on whose behalf a candidate acts: the candidate's ledger counts, and
    no other. -/
inductive Settles (c : Candidate) : Except Fault (Route D) → Prop
  /-- no ledger has the id -/
  | noLedger : (∀ l ∈ LedgerEntry.internal :: ledgers.configured,
        l.id ≠ ledgers.named c.ledgerId) →
      Settles c (.error (.noSuchLedger (c.ledgerId.getD ledgers.defaultId)))
  /-- no delegate is registered for ledgers of the brand, or for ledgers of every brand -/
  | noDelegate {l : LedgerEntry} : ledgers.get? (ledgers.named c.ledgerId) = some l →
      (∀ x ∈ delegates.entries, x.1 ≠ ⟨operation, shape, l.brand⟩ ∧
        x.1 ≠ ⟨operation, shape, .none⟩) →
      Settles c (.error (.noImplementation ⟨operation, shape, l.brand⟩))
  /-- there is a delegate for the brand -/
  | own {l : LedgerEntry} {d : D} : ledgers.get? (ledgers.named c.ledgerId) = some l →
      delegates.get? ⟨operation, shape, l.brand⟩ = some d → Settles c (.ok ⟨c, l, d⟩)
  /-- there is one for every brand only -/
  | shared {l : LedgerEntry} {d : D} : ledgers.get? (ledgers.named c.ledgerId) = some l →
      delegates.get? ⟨operation, shape, l.brand⟩ = none →
      delegates.get? ⟨operation, shape, .none⟩ = some d → Settles c (.ok ⟨c, l, d⟩)

/-- How some principals decide where a request goes, and what is looked up for the decision. -/
inductive Decision (directory : (l : Store.Lookup) → l.Answer) (principals : List Principal) :
    Except Fault (Route D) → List Store.Lookup → Prop
  /-- all of them are invalid -/
  | denied {looked : List Store.Lookup} : Passes directory principals looked →
      Decision directory principals (.error (.accessDenied operation)) looked
  /-- one cannot be looked up before a valid one is found -/
  | failed {before after : List Principal} {p : Principal} {e : Store.Error}
      {looked here : List Store.Lookup} : principals = before ++ p :: after →
      Passes directory before looked → p.Selects directory (.error e) here →
      Decision directory principals (.error (.ofStore e)) (looked ++ here)
  /-- one is the first that is valid -/
  | chosen {before after : List Principal} {p : Principal} {c : Candidate}
      {looked here : List Store.Lookup} {outcome : Except Fault (Route D)} :
      principals = before ++ p :: after → Passes directory before looked →
      p.Selects directory (.ok c) here → c.valid = true →
      Settles ledgers delegates operation shape c outcome →
      Decision directory principals outcome (looked ++ here)

end

variable {ledgers : LedgerTable} {delegates : Assignments D} {operation : String}
  {shape : Shape} {input : Option Input} {directory : (l : Store.Lookup) → l.Answer}
  {principals : List Principal} {outcome : Except Fault (Route D)} {looked : List Store.Lookup}

/-- One more invalid principal in front changes nothing but what is looked up. -/
theorem Decision.cons {p : Principal} {c : Candidate} {here : List Store.Lookup}
    (hp : p.Selects directory (.ok c) here) (hc : c.valid = false)
    (h : Decision ledgers delegates operation shape directory principals outcome looked) :
    Decision ledgers delegates operation shape directory (p :: principals) outcome
      (here ++ looked) := by
  cases h with
  | denied hpass => exact .denied (.cons hp hc hpass)
  | failed hsplit hpass hread =>
    rw [hsplit, ← List.append_assoc]
    exact .failed rfl (.cons hp hc hpass) hread
  | chosen hsplit hpass hselect hvalid hsettles =>
    rw [hsplit, ← List.append_assoc]
    exact .chosen rfl (.cons hp hc hpass) hselect hvalid hsettles

/-- The route of a candidate is where its request goes. -/
theorem settles_ofCandidate (c : Candidate) :
    Settles ledgers delegates operation (Input.shapeOf input) c
      (ofCandidate ledgers delegates operation input c) := by
  unfold ofCandidate
  rw [LedgerTable.find?_eq]
  rcases hledger : ledgers.get? (ledgers.named c.ledgerId) with _ | l
  · exact .noLedger (LedgerTable.get?_eq_none_iff.1 hledger)
  · dsimp only
    rcases hfind : delegates.find? ⟨operation, Input.shapeOf input, l.brand⟩ with _ | d
    · exact .noDelegate hledger (Assignments.find?_eq_none_iff.1 hfind)
    · rcases Option.or_eq_some_iff.1 hfind with hown | ⟨hnone, hshared⟩
      · exact .own hledger hown
      · exact .shared hledger hnone hshared

/-- A request goes nowhere else. -/
theorem Settles.eq_ofCandidate {c : Candidate}
    (h : Settles ledgers delegates operation (Input.shapeOf input) c outcome) :
    outcome = ofCandidate ledgers delegates operation input c := by
  unfold ofCandidate
  rw [LedgerTable.find?_eq]
  cases h with
  | noLedger hnone => rw [LedgerTable.get?_eq_none_iff.2 hnone]
  | noDelegate hledger hnone =>
    have hfind := Assignments.find?_eq_none_iff.2 hnone
    simp only [hledger, hfind]
  | @own l d hledger hown =>
    have hfind : delegates.find? ⟨operation, Input.shapeOf input, l.brand⟩ = some d :=
      Option.or_eq_some_iff.2 (.inl hown)
    simp only [hledger, hfind]
  | @shared l d hledger hnone hshared =>
    have hfind : delegates.find? ⟨operation, Input.shapeOf input, l.brand⟩ = some d :=
      Option.or_eq_some_iff.2 (.inr ⟨hnone, hshared⟩)
    simp only [hledger, hfind]

/-! ## Plans -/

/-- The plan once the first valid candidate is known. -/
def settle (ledgers : LedgerTable) (delegates : Assignments D) (operation : String)
    (input : Option Input) : Except Fault (Option Candidate) → Except Fault (Route D)
  | .error f => .error f
  | .ok none => .error (.accessDenied operation)
  | .ok (some c) => ofCandidate ledgers delegates operation input c

/-- A plan looks up what the search for a valid candidate looks up. -/
theorem interrogate_plan_eq : (plan ledgers delegates operation input).interrogate directory =
    (settle ledgers delegates operation input ((firstValid input).interrogate directory).1,
      ((firstValid input).interrogate directory).2) := by
  rw [plan, Dialogue.interrogate_bind]
  rcases ((firstValid input).interrogate directory).1 with f | _ | c
  · simp [Dialogue.interrogate, settle]
  · simp [Dialogue.interrogate, settle]
  · simp [Dialogue.interrogate, settle]

/-- The search goes on behind invalid principals. -/
theorem Passes.interrogate {before : List Principal} (h : Passes directory before looked)
    (after : List Principal) : (firstValidOf (before ++ after)).interrogate directory =
      (((firstValidOf after).interrogate directory).1,
        looked ++ ((firstValidOf after).interrogate directory).2) := by
  induction h with
  | nil => rfl
  | @cons p ps c here rest hp hc _ ih =>
    rw [List.cons_append, firstValidOf, Dialogue.interrogate_bind, hp.interrogate]
    simp only [Except.mapError, hc, Bool.false_eq_true, if_false, ih, List.append_assoc]

/-- **A decision is what a plan comes to.** -/
theorem Decision.interrogate (h : Decision ledgers delegates operation (Input.shapeOf input)
    directory (principalsOf input) outcome looked) :
    (plan ledgers delegates operation input).interrogate directory = (outcome, looked) := by
  rw [interrogate_plan_eq, firstValid]
  cases h with
  | denied hpass =>
    have hsearch := hpass.interrogate []
    rw [List.append_nil] at hsearch
    rw [hsearch]
    simp [firstValidOf, Dialogue.interrogate, settle]
  | @failed before after p e looked here hsplit hpass hread =>
    have hstop : (firstValidOf (p :: after)).interrogate directory =
        (.error (.ofStore e), here) := by
      rw [firstValidOf, Dialogue.interrogate_bind, hread.interrogate]
      simp [Except.mapError, Dialogue.interrogate]
    rw [hsplit, hpass.interrogate, hstop, settle]
  | @chosen before after p c looked here outcome hsplit hpass hselect hvalid hsettles =>
    have hstop : (firstValidOf (p :: after)).interrogate directory = (.ok (some c), here) := by
      rw [firstValidOf, Dialogue.interrogate_bind, hselect.interrogate]
      simp [Except.mapError, Dialogue.interrogate, hvalid]
    rw [hsplit, hpass.interrogate, hstop, settle, hsettles.eq_ofCandidate]

/-- Principals always decide. -/
theorem exists_decision (ledgers : LedgerTable) (delegates : Assignments D) (operation : String)
    (input : Option Input) (directory : (l : Store.Lookup) → l.Answer)
    (principals : List Principal) : ∃ outcome looked,
      Decision ledgers delegates operation (Input.shapeOf input) directory principals outcome
        looked := by
  induction principals with
  | nil => exact ⟨_, _, .denied .nil⟩
  | cons p ps ih =>
    obtain ⟨selected, here, hp⟩ := p.exists_selects directory
    rcases selected with e | c
    · exact ⟨_, _, .failed (List.nil_append _).symm .nil hp⟩
    · by_cases hc : c.valid = true
      · exact ⟨_, _, .chosen (List.nil_append _).symm .nil hp hc (settles_ofCandidate c)⟩
      · obtain ⟨outcome, looked, hrest⟩ := ih
        exact ⟨outcome, _, hrest.cons hp (Bool.eq_false_iff.2 hc)⟩

/-- A gateway plans a request as its principals decide, by what the directories know now. -/
theorem exists_decision_plan {W : Type} [Outside W] (g : Gateway W) (operation : String)
    (input : Option Input) : ∃ looked,
      Decision g.ledgers g.delegates operation (Input.shapeOf input)
        (fun l => Outside.lookup l g.outside) (principalsOf input) (g.plan operation input).1
        looked := by
  obtain ⟨outcome, looked, hdecision⟩ := exists_decision g.ledgers g.delegates operation
    input (fun l => Outside.lookup l g.outside) (principalsOf input)
  have houtcome : (g.plan operation input).1 = outcome := by
    unfold Gateway.plan
    rw [hdecision.interrogate]
    cases outcome <;> rfl
  exact ⟨looked, houtcome ▸ hdecision⟩

/-- How requests of one kind are decided, whatever the directories know. -/
structure FirstDecides (ledgers : LedgerTable) (delegates : Assignments D) (operation : String)
    (input : Option Input) : Prop where
  /-- a plan comes to the decision of the principals, and makes the lookups of the decision
      and no others -/
  decided : ∀ directory outcome looked,
    (plan ledgers delegates operation input).interrogate directory = (outcome, looked) ↔
      Decision ledgers delegates operation (Input.shapeOf input) directory (principalsOf input)
        outcome looked
  /-- directories that answer these lookups alike give the same plan, by the same lookups -/
  lazy : ∀ directory directory' outcome looked,
    (plan ledgers delegates operation input).interrogate directory = (outcome, looked) →
    (∀ l ∈ looked, directory' l = directory l) →
      (plan ledgers delegates operation input).interrogate directory' = (outcome, looked)
  /-- and so every gateway plans such a request, by its own tables and what its directories
      know at that time -/
  planned : ∀ (W : Type) [Outside W] (g : Gateway W), ∃ looked,
    Decision g.ledgers g.delegates operation (Input.shapeOf input)
      (fun l => Outside.lookup l g.outside) (principalsOf input) (g.plan operation input).1 looked

/-- **The first principal that is valid decides, and nothing behind it matters.** -/
theorem firstDecides_of (ledgers : LedgerTable) (delegates : Assignments D) (operation : String)
    (input : Option Input) : FirstDecides ledgers delegates operation input where
  decided directory outcome looked := by
    constructor
    · intro hplan
      obtain ⟨outcome', looked', hdecision⟩ := exists_decision ledgers delegates operation input
        directory (principalsOf input)
      obtain ⟨rfl, rfl⟩ := Prod.mk.inj (hplan.symm.trans hdecision.interrogate)
      exact hdecision
    · exact Decision.interrogate
  lazy directory directory' outcome looked hplan hagree := by
    rw [← hplan]
    refine Dialogue.interrogate_congr fun l hl => hagree l ?_
    rw [hplan] at hl
    exact hl
  planned _ _ g := exists_decision_plan g operation input

/-- A sender on a ledger that is gone, and the token's controller on one that is there. -/
example : (plan ⟨[⟨"main", .besu, false⟩], "main"⟩
      (⟨[(⟨"TOKEN.STATE", .token, .besu⟩, ())]⟩ : Assignments Unit) "TOKEN.STATE"
      (some (.token "T" (some "0xa") .empty))).interrogate
      (Store.Directory.answer ⟨[("0xa", ⟨"0xa", some "gone", .besu, .notApplicable⟩),
        ("0xc", ⟨"0xc", none, .besu, .notApplicable⟩)],
        [("T", ⟨"T", "T", .besu, none, "0xc", false, none, none, ⟨0⟩⟩)], []⟩) =
    (.error (.noSuchLedger "gone"), [.address "0xa"]) := by
  rfl

end Route

end LedgerGate
