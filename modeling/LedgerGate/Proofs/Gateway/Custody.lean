/-
  Custody: whose ids trackers take in, however requests, scans and bootstraps get on beside each
  other.

  As in `Traffic` a request is suspended at every question and any answer may come; here the
  answers of ledgers are kept, each with the party it was for, and so are the trackers that
  requests, scans and bootstraps work on.

  * `Heard`: an answer of a ledger, with the party it was for;
  * `Petition.Hears`: a request gets on and hears of its ledger; `Petition.Account`: where it
    stands, and what it has heard until then;
  * `Custody`: the state of all this; `Custody.Beside`, `Custody.Step`: all that can happen;
  * `Custody.Vouched`: what speaks for an id; `Custody.Sound`: what holds at any time;
  * `Custody.within_run`: **trackers are only about ids that their ledgers vouched for.**
-/
import LedgerGate.Proofs.Delegate.Provenance
import LedgerGate.Proofs.Escrow.Contest
import LedgerGate.Proofs.Gateway.Traffic
import LedgerGate.Proofs.Receipt.Contents

namespace LedgerGate

open Dialogue (Exchange)

/-! ## What parties hear -/

/-- An answer of a ledger, and on whose behalf it was asked. -/
structure Heard where
  party : Party
  testimony : Testimony

namespace Petition

/-- A request gets on, and a ledger may answer it. -/
inductive Hears (p : Petition) : Petition → List Testimony → Prop
  /-- the directories answer a question of its plan -/
  | learn {l resume} (answer : Store.Lookup.Answer l) : p.progress = .planning (.ask l resume) →
      Hears p { p with
        learned := p.learned ++ [⟨l, answer⟩]
        progress := .planning (resume answer) } []
  /-- it has no route -/
  | reject {fault} : p.progress = .planning (.done (.error fault)) →
      Hears p (p.reaching .concluded) []
  /-- a delegate begins to work on it -/
  | route {route : Route Delegate} : p.progress = .planning (.done (.ok route)) →
      Hears p (p.reaching (.working route.ledger.id
        (route.delegate.apply route.ledger p.input))) []
  /-- a question of the delegate is answered -/
  | consult {k q resume said} {answer : Delegate.Question.Answer q} :
      p.progress = .working k (.ask q resume) → q.Testifies k answer said →
      Hears p (p.reaching (.working k (resume answer))) said
  /-- the delegate has a reply -/
  | settle {k outcome} : p.progress = .working k (.done (.settled outcome)) →
      Hears p (p.reaching .concluded) []

/-- Where a request stands, and what it has heard of its ledger until then. -/
inductive Account (ledgers : LedgerTable) (delegates : Assignments Delegate) (p : Petition) :
    List Testimony → Prop
  /-- it is planned -/
  | planned {rest} : (Route.plan ledgers delegates p.operation p.input).Leads p.learned rest →
      p.progress = .planning rest → Account ledgers delegates p []
  /-- a delegate works on it -/
  | worked {route : Route Delegate} {exchanges left said} :
      (Route.plan ledgers delegates p.operation p.input).Leads p.learned (.done (.ok route)) →
      (route.delegate.apply route.ledger p.input).Leads exchanges left →
      Delegate.Testifies route.ledger.id exchanges said →
      p.progress = .working route.ledger.id left → Account ledgers delegates p said
  /-- it is done with -/
  | concluded {said} : p.progress = .concluded → Account ledgers delegates p said

variable {ledgers : LedgerTable} {delegates : Assignments Delegate} {p p' : Petition}
  {said more : List Testimony}

/-- A request that gets on stays the request that it is. -/
theorem Hears.same (h : p.Hears p' said) : p'.operation = p.operation ∧ p'.input = p.input := by
  cases h <;> exact ⟨rfl, rfl⟩

/-- **The account of a request goes on** with all that it hears. -/
theorem Account.turn (h : p.Account ledgers delegates said) (ht : p.Hears p' more) :
    p'.Account ledgers delegates (said ++ more) := by
  cases h with
  | @planned rest hplan hp =>
    have hrest : ∀ {plan}, p.progress = .planning plan → rest = plan := fun hplanning => by
      rw [hp] at hplanning
      exact Progress.planning.inj hplanning
    cases ht with
    | learn answer hplanning =>
      rw [hrest hplanning] at hplan
      exact .planned (hplan.snoc answer) rfl
    | reject hplanning => exact .concluded rfl
    | route hplanning =>
      rw [hrest hplanning] at hplan
      exact .worked hplan (.refl _) .nil rfl
    | consult hworking => cases hp.symm.trans hworking
    | settle hworking => exact .concluded rfl
  | @worked route exchanges left said hplan hwork hsaid hp =>
    cases ht with
    | learn answer hplanning => cases hp.symm.trans hplanning
    | reject hplanning => exact .concluded rfl
    | route hplanning => cases hp.symm.trans hplanning
    | consult hworking hmore =>
      cases hp.symm.trans hworking
      exact .worked hplan (hwork.snoc _) (hsaid.snoc hmore) rfl
    | settle hworking => exact .concluded rfl
  | concluded hp =>
    cases ht with
    | learn answer hplanning => cases hp.symm.trans hplanning
    | reject hplanning => exact .concluded rfl
    | route hplanning => cases hp.symm.trans hplanning
    | consult hworking => cases hp.symm.trans hworking
    | settle hworking => exact .concluded rfl

/-- Work that a request has prepared was vouched for by what it has heard. -/
theorem Account.vouched {ids : List String} (h : p.Account ledgers delegates said)
    (hrouting : Routing ids ledgers delegates) {k : String} {mode : ReplyMode} {workId : WorkId}
    {recent : Option UInt64}
    (hp : p.progress = .working k (.done (.submitted mode workId recent))) :
    Accepted said k workId ∨ AsksAbout p.operation p.input workId ∧
      recognition k workId <+: said := by
  cases h with
  | planned _ hplanning => cases hp.symm.trans hplanning
  | worked hplan hwork hsaid hworking =>
    cases hp.symm.trans hworking
    exact Route.vouched_of hrouting hplan hwork hsaid
  | concluded hconcluded => cases hp.symm.trans hconcluded

end Petition

/-! ## Bootstraps -/

namespace Escrow

/-- What a bootstrap hears of its ledger by an act. -/
def Act.heard (ledgerId : String) : Act → List Heard
  | ledger q answer => [⟨.bootstrap, (ledgerId, ⟨q, answer⟩)⟩]
  | _ => []

variable {s : Settings} {p : Phase} {a : Act} {keys : Crypto.KeyPair} {workId : WorkId}

/-- A bootstrap is about to have work tracked when its ledger has taken it, -/
theorem Phase.Goes.accepted (h : p.Goes s a (.tracking keys workId)) :
    ∃ call, a = .ledger (.submit call) (.ok workId) := by
  generalize hp' : Phase.tracking keys workId = p' at h
  cases h.turn with
  | looked =>
    unfold found at hp'
    split at hp'
    · split at hp' <;> cases hp'
    · split at hp'
      · split at hp' <;> cases hp'
      · cases hp'
  | priced =>
    unfold priced at hp'
    split at hp' <;> cases hp'
  | receive c =>
    unfold judged at hp'
    split at hp'
    · split at hp'
      · split at hp' <;> cases hp'
      · cases hp'
    · cases hp'
  | submitted =>
    cases hp'
    exact ⟨_, rfl⟩
  | _ => cases hp'

/-- and has no other work tracked. -/
theorem Phase.Goes.tracked {p' : Phase} (h : p.Goes s (.track workId) p') :
    ∃ keys, p = .tracking keys workId := by
  cases h.turn with
  | track => exact ⟨_, rfl⟩

end Escrow

/-! ## The state -/

/-- The requests that came in, the trackers of the ledgers and the bootstraps on them, and all
    that ledgers have answered. -/
structure Custody where
  petitions : List Petition
  trackers : String → Receipt.Tracker Waiter
  phases : String → Escrow.Phase
  log : List Heard

namespace Custody

/-- Before the first request. -/
def opened (capacity : Nat) : Custody :=
  ⟨[], fun _ => .new capacity, fun _ => .idle, []⟩

/-- The requests, in the order in which they came in. -/
def requests (c : Custody) : List (String × Option Input) :=
  c.petitions.map fun p => (p.operation, p.input)

/-- What ledgers have answered, whoever asked. -/
def said (c : Custody) : List Testimony := c.log.map (·.testimony)

/-- What ledgers have answered to a request. -/
def saidTo (c : Custody) (i : Nat) : List Testimony :=
  (c.log.filter (·.party = .request i)).map (·.testimony)

/-- Somebody hears of a ledger. -/
def hears (c : Custody) (more : List Heard) : Custody := { c with log := c.log ++ more }

/-- A request gets on. -/
def turns (c : Custody) (i : Nat) (p : Petition) (said : List Testimony) : Custody :=
  { c.hears (said.map (⟨.request i, ·⟩)) with petitions := c.petitions.set i p }

/-- The tracker of a ledger is changed. -/
def updates (c : Custody) (k : String) (t : Receipt.Tracker Waiter) : Custody :=
  { c with trackers := Function.update c.trackers k t }

/-- Work is prepared on a ledger. -/
def prepares (c : Custody) (k : String) (workId : WorkId) (w : Waiter) : Custody :=
  c.updates k ((c.trackers k).prepare workId w).1

/-- A bootstrap acts. -/
def acts (c : Custody) (k : String) (a : Escrow.Act) (p : Escrow.Phase) : Custody :=
  let moved := { c.hears (a.heard k) with phases := Function.update c.phases k p }
  match a with
  | .track workId => moved.prepares k workId .escrow
  | _ => moved

/-- An act that has no work tracked is heard of, and leads to the next phase. -/
theorem acts_eq (c : Custody) (k : String) {a : Escrow.Act} (ha : ∀ workId, a ≠ .track workId)
    (p : Escrow.Phase) :
    c.acts k a p = { c.hears (a.heard k) with phases := Function.update c.phases k p } := by
  cases a with
  | track workId => exact absurd rfl (ha workId)
  | _ => rfl

/-- A request that gets on stays among the requests as it is. -/
theorem requests_turns {c : Custody} {i : Nat} {p p' : Petition} (said : List Testimony)
    (hp : c.petitions[i]? = some p) (hsame : p'.operation = p.operation ∧ p'.input = p.input) :
    (c.turns i p' said).requests = c.requests := Petition.map_set hp hsame

theorem said_hears (c : Custody) (more : List Heard) :
    (c.hears more).said = c.said ++ more.map (·.testimony) := List.map_append

theorem said_turns (c : Custody) (i : Nat) (p : Petition) (said : List Testimony) :
    (c.turns i p said).said = c.said ++ said := by
  refine (said_hears c _).trans ?_
  rw [List.map_map]
  exact congrArg (c.said ++ ·) (List.map_id _)

section
variable (ledgers : LedgerTable) (delegates : Assignments Delegate)
  (settings : String → Escrow.Settings)

/-- What goes on beside requests. -/
inductive Beside : Custody → Custody → Prop
  /-- a ledger is scanned, over its ids in some order -/
  | scan {c : Custody} (k : String) (order : List WorkId) :
      Beside c (c.updates k ((c.trackers k).after (.scan order)).1)
  /-- the ledger answers a scan -/
  | answer {c : Custody} {k s} (a : Except Ledger.Error (Option Confirmation)) :
      (c.trackers k).scan = some s →
      Beside c ((c.hears [⟨.scan, (k, ⟨.confirmationOf s.current, a⟩)⟩]).updates k
        ((c.trackers k).after (.answer a)).1)
  /-- the bootstrap on a ledger goes on -/
  | act {c : Custody} {k a p} : (c.phases k).Goes (settings k) a p → Beside c (c.acts k a p)

/-- All that can happen. -/
inductive Step : Custody → Custody → Prop
  /-- a request comes in -/
  | take {c : Custody} (operation : String) (input : Option Input) :
      Step c { c with petitions := c.petitions ++ [.new ledgers delegates operation input] }
  /-- a request gets on -/
  | turn {c : Custody} {i p p' said} : c.petitions[i]? = some p → p.Hears p' said →
      Step c (c.turns i p' said)
  /-- the work that was submitted for a request is prepared -/
  | prepare {c : Custody} {i p k mode workId recent} (w : Waiter) : c.petitions[i]? = some p →
      p.progress = .working k (.done (.submitted mode workId recent)) →
      Step c ((c.turns i (p.reaching .concluded) []).prepares k workId w)
  /-- scans and bootstraps go on -/
  | beside {c c' : Custody} : Beside settings c c' → Step c c'

/-- All that can have happened since before the first request. -/
def Run (capacity : Nat) (c : Custody) : Prop :=
  Relation.ReflTransGen (Step ledgers delegates settings) (opened capacity) c

end

/-- No request gets on meanwhile. -/
theorem petitions_beside {settings : String → Escrow.Settings} {c c' : Custody}
    (h : Relation.ReflTransGen (Beside settings) c c') : c'.petitions = c.petitions := by
  induction h with
  | refl => rfl
  | tail _ hs ih =>
    cases hs with
    | scan k order => exact ih
    | answer a hscan => exact ih
    | @act k a p hgoes =>
      rw [← ih]
      cases a <;> rfl

theorem Run.beside {ledgers : LedgerTable} {delegates : Assignments Delegate}
    {settings : String → Escrow.Settings} {capacity : Nat} {c c' : Custody}
    (h : Run ledgers delegates settings capacity c)
    (hs : Relation.ReflTransGen (Beside settings) c c') :
    Run ledgers delegates settings capacity c' := by
  induction hs with
  | refl => exact h
  | tail _ hs ih => exact .tail ih (.beside hs)

/-! ## What speaks for an id -/

/-- What speaks for an id: its ledger took a call under it, or a request asked about it, and the
    ledger had no confirmation for it and knew it all the same. -/
def Vouched (c : Custody) (k : String) (workId : WorkId) : Prop :=
  Accepted c.said k workId ∨ ∃ i p, c.petitions[i]? = some p ∧
    AsksAbout p.operation p.input workId ∧ recognition k workId <+: c.saidTo i

/-- Requests stay what they are, and what was said stays said. -/
structure Extends (c c' : Custody) : Prop where
  petitions : ∀ {i : Nat} {p : Petition}, c.petitions[i]? = some p →
    ∃ p', c'.petitions[i]? = some p' ∧ p'.operation = p.operation ∧ p'.input = p.input
  log : c.log <+: c'.log

variable {c c' c'' : Custody} {k : String} {workId : WorkId}

namespace Extends

theorem refl (c : Custody) : Extends c c := ⟨fun hp => ⟨_, hp, rfl, rfl⟩, List.prefix_rfl⟩

theorem of_eq (hpetitions : c'.petitions = c.petitions) (hlog : c'.log = c.log) :
    Extends c c' := ⟨fun hp => ⟨_, hpetitions ▸ hp, rfl, rfl⟩, hlog ▸ List.prefix_rfl⟩

theorem hears (c : Custody) (more : List Heard) : Extends c (c.hears more) :=
  ⟨fun hp => ⟨_, hp, rfl, rfl⟩, List.prefix_append _ _⟩

theorem turns {i : Nat} {p p' : Petition} (hp : c.petitions[i]? = some p)
    (hsame : p'.operation = p.operation ∧ p'.input = p.input) (said : List Testimony) :
    Extends c (c.turns i p' said) := by
  refine ⟨fun {j q} hq => ?_, List.prefix_append _ _⟩
  by_cases hij : i = j
  · subst hij
    cases hp.symm.trans hq
    exact ⟨p', List.getElem?_set_self (List.getElem?_eq_some_iff.1 hp).1, hsame⟩
  · exact ⟨q, (List.getElem?_set_ne hij).trans hq, rfl, rfl⟩

theorem said (h : Extends c c') : c.said <+: c'.said := h.log.map _

theorem saidTo (h : Extends c c') (i : Nat) : c.saidTo i <+: c'.saidTo i :=
  (h.log.filter _).map _

/-- What speaks for an id goes on to do so. -/
theorem vouched (h : Extends c c') (hw : c.Vouched k workId) : c'.Vouched k workId := by
  rcases hw with haccepted | ⟨i, p, hp, hasks, hrecognised⟩
  · exact Or.inl (haccepted.mono h.said.subset)
  · obtain ⟨p', hp', hoperation, hinput⟩ := h.petitions hp
    refine Or.inr ⟨i, p', hp', ?_, hrecognised.trans (h.saidTo i)⟩
    rwa [hoperation, hinput]

end Extends

/-! ## Soundness -/

section
variable (ledgers : LedgerTable) (delegates : Assignments Delegate)

/-- What holds at any time. -/
structure Sound (c : Custody) : Prop where
  /-- What requests have heard is their account. -/
  accounts : ∀ {i : Nat} {p : Petition}, c.petitions[i]? = some p →
    p.Account ledgers delegates (c.saidTo i)
  /-- Only requests that came in have heard something. -/
  parties : ∀ x ∈ c.log, ∀ i, x.party = .request i → i < c.petitions.length
  /-- A bootstrap has work tracked that its ledger took. -/
  phases : ∀ {k keys workId}, c.phases k = .tracking keys workId → Accepted c.said k workId
  /-- Trackers are about ids that something speaks for. -/
  trackers : ∀ k, (c.trackers k).Within (c.Vouched k)

end

variable {ids : List String} {ledgers : LedgerTable} {delegates : Assignments Delegate}
  {settings : String → Escrow.Settings}

theorem sound_opened (capacity : Nat) : (opened capacity).Sound ledgers delegates where
  accounts hp := by cases hp
  parties x hx := by cases hx
  phases hp := by cases hp
  trackers _ := .new capacity

/-- What is said to others is said to a request only if it is one of them. -/
theorem saidTo_hears (c : Custody) (more : List Heard) (i : Nat) :
    (c.hears more).saidTo i =
      c.saidTo i ++ (more.filter (·.party = .request i)).map (·.testimony) := by
  simp only [saidTo, hears, List.filter_append, List.map_append]

theorem saidTo_turns (c : Custody) (i j : Nat) (p : Petition) (said : List Testimony) :
    (c.turns i p said).saidTo j = c.saidTo j ++ if i = j then said else [] := by
  have hhears : (c.turns i p said).saidTo j =
      (c.hears (said.map (⟨.request i, ·⟩))).saidTo j := rfl
  rw [hhears, saidTo_hears, Party.filter_map Heard.party _ i j fun _ => rfl]
  refine congrArg (c.saidTo j ++ ·) ?_
  split
  · rw [List.map_map]
    exact List.map_id _
  · rfl

namespace Sound

/-- A request that did not come in has heard nothing. -/
theorem saidTo_none (h : c.Sound ledgers delegates) {i : Nat} (hi : c.petitions.length ≤ i) :
    c.saidTo i = [] := by
  refine List.map_eq_nil_iff.2 (List.filter_eq_nil_iff.2 fun x hx hparty => ?_)
  have hlt := h.parties x hx i (of_decide_eq_true hparty)
  omega

/-- A request comes in, -/
theorem take (h : c.Sound ledgers delegates) (operation : String) (input : Option Input) :
    ({ c with petitions := c.petitions ++ [.new ledgers delegates operation input] } :
      Custody).Sound ledgers delegates := by
  have hextends : Extends c
      { c with petitions := c.petitions ++ [.new ledgers delegates operation input] } := by
    refine ⟨fun hp => ⟨_, ?_, rfl, rfl⟩, List.prefix_rfl⟩
    rw [List.getElem?_append_left (List.getElem?_eq_some_iff.1 hp).1]
    exact hp
  refine ⟨fun {i p} hp => ?_, fun x hx i hi => ?_, h.phases,
    fun k => (h.trackers k).mono fun w => hextends.vouched⟩
  · by_cases hi : i < c.petitions.length
    · rw [List.getElem?_append_left hi] at hp
      exact h.accounts hp
    · have hnone : c.saidTo i = [] := h.saidTo_none (Nat.le_of_not_lt hi)
      have hnew : p = .new ledgers delegates operation input :=
        (List.mem_singleton.1 (List.mem_of_getElem? (by
          rwa [List.getElem?_append_right (Nat.le_of_not_lt hi)] at hp)))
      subst hnew
      show Petition.Account ledgers delegates _ (c.saidTo i)
      rw [hnone]
      exact .planned (.refl _) rfl
  · have hlt := h.parties x hx i hi
    rw [List.length_append]
    omega

/-- gets on, -/
theorem turns (h : c.Sound ledgers delegates) {i : Nat} {p p' : Petition} {said : List Testimony}
    (hp : c.petitions[i]? = some p) (hsame : p'.operation = p.operation ∧ p'.input = p.input)
    (haccount : p'.Account ledgers delegates (c.saidTo i ++ said)) :
    (c.turns i p' said).Sound ledgers delegates := by
  have hi := (List.getElem?_eq_some_iff.1 hp).1
  have hextends : Extends c (c.turns i p' said) := .turns hp hsame said
  refine ⟨fun {j q} hq => ?_, fun x hx j hj => ?_,
    fun hphase => (h.phases hphase).mono hextends.said.subset,
    fun k => (h.trackers k).mono fun w => hextends.vouched⟩
  · rw [saidTo_turns]
    by_cases hij : i = j
    · subst hij
      have hset : (c.turns i p' said).petitions[i]? = some p' := List.getElem?_set_self hi
      cases hset.symm.trans hq
      rwa [if_pos rfl]
    · have hset : (c.turns i p' said).petitions[j]? = c.petitions[j]? := List.getElem?_set_ne hij
      rw [if_neg hij, List.append_nil]
      exact h.accounts (hset.symm.trans hq)
  · have hlength : (c.turns i p' said).petitions.length = c.petitions.length := List.length_set
    rw [hlength]
    rcases List.mem_append.1 hx with hx | hx
    · exact h.parties x hx j hj
    · obtain ⟨t, -, rfl⟩ := List.mem_map.1 hx
      cases hj
      exact hi

/-- others hear of a ledger, -/
theorem hears (h : c.Sound ledgers delegates) {more : List Heard}
    (hmore : ∀ x ∈ more, ∀ i, x.party ≠ .request i) :
    (c.hears more).Sound ledgers delegates := by
  have hextends : Extends c (c.hears more) := .hears c more
  refine ⟨fun {i p} hp => ?_, fun x hx i hi => ?_,
    fun hphase => (h.phases hphase).mono hextends.said.subset,
    fun k => (h.trackers k).mono fun w => hextends.vouched⟩
  · have hnone : more.filter (·.party = .request i) = [] :=
      List.filter_eq_nil_iff.2 fun x hx => by simpa using hmore x hx i
    rw [saidTo_hears, hnone, List.map_nil, List.append_nil]
    exact h.accounts hp
  · rcases List.mem_append.1 hx with hx | hx
    · exact h.parties x hx i hi
    · exact absurd hi (hmore x hx i)

/-- and the tracker of a ledger changes within what speaks for its ids. -/
theorem updates (h : c.Sound ledgers delegates) {t : Receipt.Tracker Waiter}
    (ht : t.Within (c.Vouched k)) : (c.updates k t).Sound ledgers delegates := by
  have hextends : Extends c (c.updates k t) := .of_eq rfl rfl
  refine ⟨h.accounts, h.parties, h.phases, fun j => ?_⟩
  by_cases hj : j = k
  · subst hj
    have hupdated : (c.updates j t).trackers j = t := Function.update_self ..
    rw [hupdated]
    exact ht.mono fun w => hextends.vouched
  · have hupdated : (c.updates k t).trackers j = c.trackers j := Function.update_of_ne hj ..
    rw [hupdated]
    exact (h.trackers j).mono fun w => hextends.vouched

/-- A request that has submitted work has it prepared. -/
theorem prepare (h : c.Sound ledgers delegates) (hrouting : Routing ids ledgers delegates)
    {i : Nat} {p : Petition} {mode : ReplyMode} {recent : Option UInt64} (w : Waiter)
    (hp : c.petitions[i]? = some p)
    (hsubmitted : p.progress = .working k (.done (.submitted mode workId recent))) :
    ((c.turns i (p.reaching .concluded) []).prepares k workId w).Sound ledgers delegates := by
  have hsame : (p.reaching .concluded).operation = p.operation ∧
      (p.reaching .concluded).input = p.input := ⟨rfl, rfl⟩
  have hturned : (c.turns i (p.reaching .concluded) []).Sound ledgers delegates :=
    h.turns hp hsame (.concluded rfl)
  have hvouched : c.Vouched k workId := by
    rcases (h.accounts hp).vouched hrouting hsubmitted with haccepted | ⟨hasks, hrecognised⟩
    · refine Or.inl (haccepted.mono fun x hx => ?_)
      obtain ⟨y, hy, rfl⟩ := List.mem_map.1 hx
      exact List.mem_map_of_mem (List.mem_of_mem_filter hy)
    · exact Or.inr ⟨i, p, hp, hasks, hrecognised⟩
  have hextends : Extends c (c.turns i (p.reaching .concluded) []) := .turns hp hsame []
  exact hturned.updates ((hturned.trackers k).prepare (hextends.vouched hvouched) w)

/-- A bootstrap acts: only what its ledger took does it go on to track. -/
theorem act (h : c.Sound ledgers delegates) {a : Escrow.Act} {p : Escrow.Phase}
    (hgoes : (c.phases k).Goes (settings k) a p) : (c.acts k a p).Sound ledgers delegates := by
  have hparties : ∀ x ∈ a.heard k, ∀ i, x.party ≠ .request i := by
    intro x hx i
    cases a with
    | ledger q answer =>
      cases List.mem_singleton.1 hx
      exact Party.noConfusion
    | _ => cases hx
  have hheard : (c.hears (a.heard k)).Sound ledgers delegates := h.hears hparties
  have hmoved : ({ c.hears (a.heard k) with phases := Function.update c.phases k p } :
      Custody).Sound ledgers delegates := by
    refine { hheard with phases := fun {j keys w} hphase => ?_ }
    by_cases hj : j = k
    · subst hj
      rw [show p = .tracking keys w from (Function.update_self ..).symm.trans hphase] at hgoes
      obtain ⟨call, rfl⟩ := hgoes.accepted
      exact ⟨call, List.mem_map_of_mem (List.mem_append_right _ List.mem_cons_self)⟩
    · exact hheard.phases ((Function.update_of_ne hj ..).symm.trans hphase)
  cases a with
  | track workId =>
    obtain ⟨keys, hphase⟩ := hgoes.tracked
    have haccepted := (h.phases hphase).mono (Extends.hears c []).said.subset
    exact hmoved.updates ((hmoved.trackers k).prepare (Or.inl haccepted) .escrow)
  | _ => exact hmoved

/-- **Whatever goes on beside requests** keeps trackers within what speaks for their ids, -/
theorem beside (h : c.Sound ledgers delegates) (hs : Beside settings c c') :
    c'.Sound ledgers delegates := by
  cases hs with
  | scan k order => exact h.updates ((h.trackers k).after (.scan order) fun _ hw => by cases hw)
  | @answer k s a hscan =>
    have hheard : (c.hears [⟨.scan, (k, ⟨.confirmationOf s.current, a⟩)⟩]).Sound ledgers
        delegates := by
      refine h.hears fun x hx i => ?_
      rw [List.mem_singleton.1 hx]
      exact Party.noConfusion
    exact hheard.updates ((hheard.trackers k).after (.answer a) fun _ hw => by cases hw)
  | act hgoes => exact h.act hgoes

/-- **and so does all that happens.** -/
theorem step (h : c.Sound ledgers delegates) (hrouting : Routing ids ledgers delegates)
    (hs : Step ledgers delegates settings c c') : c'.Sound ledgers delegates := by
  cases hs with
  | take operation input => exact h.take operation input
  | turn hp hhears => exact h.turns hp hhears.same ((h.accounts hp).turn hhears)
  | prepare w hp hsubmitted => exact h.prepare hrouting w hp hsubmitted
  | beside hs => exact h.beside hs

end Sound

theorem sound_run {capacity : Nat} (hrouting : Routing ids ledgers delegates)
    (h : Run ledgers delegates settings capacity c) : c.Sound ledgers delegates := by
  induction h with
  | refl => exact sound_opened capacity
  | tail _ hs ih => exact ih.step hrouting hs

/-- **Trackers are only about ids that their ledgers vouched for**, however requests, scans and
    bootstraps get on beside each other. -/
theorem within_run {capacity : Nat} (hrouting : Routing ids ledgers delegates)
    (h : Run ledgers delegates settings capacity c) (k : String) :
    (c.trackers k).Within (c.Vouched k) := (sound_run hrouting h).trackers k

end Custody

end LedgerGate
