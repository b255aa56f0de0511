/-
  The traffic between a gateway and its ledgers, however requests get on beside each other.

  A request is planned with the directories, and then a delegate works on it and asks its
  ledger.  Here it is suspended at every question, others go on meanwhile, and any answer may
  come.  Scans and the bootstraps of escrows ask ledgers too.

  * `Asked`: who asked which ledger what; `Asked.Background`: what is asked for no request;
  * `Petition`: a request, what the directories said on the way, and how far it is;
  * `Petition.Turn`, `Traffic.Step`: all that can happen;
  * `Petition.Story`: where a request stands, and what was asked for it until then;
  * `Traffic.authorised_run`: **only authorised calls reach a ledger.**
-/
import LedgerGate.Proofs.Delegate.Transcript
import LedgerGate.Proofs.Gateway.Floor

namespace LedgerGate

open Dialogue (Exchange)

/-! ## Questions -/

/-- On whose behalf a ledger is asked: that of a request, of a scan for receipts or of the
    bootstrap of an escrow. -/
inductive Party where
  | request (i : Nat)
  | scan
  | bootstrap
  deriving DecidableEq

/-- What is logged on behalf of one party is on behalf of no other. -/
theorem Party.filter_map {α β : Type} (party : β → Party) (f : α → β) (i j : Nat)
    (hf : ∀ a, party (f a) = .request i) (as : List α) :
    (as.map f).filter (party · = .request j) = if i = j then as.map f else [] := by
  split
  · rename_i hij
    subst hij
    refine List.filter_eq_self.2 fun b hb => ?_
    obtain ⟨a, -, rfl⟩ := List.mem_map.1 hb
    exact decide_eq_true (hf a)
  · rename_i hij
    refine List.filter_eq_nil_iff.2 fun b hb => ?_
    obtain ⟨a, -, rfl⟩ := List.mem_map.1 hb
    simpa [hf a] using hij

/-- A question that was put to a ledger. -/
structure Asked where
  party : Party
  ledgerId : String
  query : Ledger.Query

/-- The question, whoever asked it. -/
def Asked.put (a : Asked) : String × Ledger.Query := (a.ledgerId, a.query)

/-- What is asked for no request: a scan asks about work, and a bootstrap what its next step
    is. -/
inductive Asked.Background : Asked → Prop
  | scan (ledgerId : String) (workId : WorkId) :
      Background ⟨.scan, ledgerId, .confirmationOf workId⟩
  | bootstrap {s : Escrow.Settings} {now : Nat} {phase : Escrow.Phase} {q : Ledger.Query}
      {resume : q.Answer → Escrow.Phase} : phase.step s now = .ledger q resume →
      Background ⟨.bootstrap, s.ledgerId, q⟩

theorem Asked.Background.party {a : Asked} (h : a.Background) (i : Nat) :
    a.party ≠ .request i := by
  cases h <;> exact Party.noConfusion

/-- A bootstrap deploys an escrow, and executes nothing for a sender. -/
theorem Asked.Background.invocation {a : Asked} (h : a.Background) :
    a.query.invocation? = none := by
  cases h with
  | scan => rfl
  | @bootstrap s now phase q resume hstep =>
    cases phase with
    | leaving outcome => cases outcome <;> cases hstep
    | pricing =>
      cases hstep
      rfl
    | submitting keys =>
      cases hstep
      rfl
    | _ => cases hstep

namespace Delegate

/-- What a ledger is asked when a delegate asks a question.  Its latest block may be known. -/
inductive Question.Puts (ledgerId : String) : Question → List (String × Ledger.Query) → Prop
  | ledger (q : Ledger.Query) : Puts ledgerId (.ledger q) [(ledgerId, q)]
  | lookup (l : Store.Lookup) : Puts ledgerId (.lookup l) []
  | remembered : Puts ledgerId .recentBlock []
  | renewed : Puts ledgerId .recentBlock [(ledgerId, .blockNumber)]
  | escrow : Puts ledgerId .escrow []
  | clock : Puts ledgerId .clock []

/-- What a ledger is asked in some exchanges of a delegate. -/
inductive PutsAll (ledgerId : String) :
    List (Exchange Question.Answer) → List (String × Ledger.Query) → Prop
  | nil : PutsAll ledgerId [] []
  | snoc {exchanges asked q more} (answer : Question.Answer q) :
      PutsAll ledgerId exchanges asked → q.Puts ledgerId more →
      PutsAll ledgerId (exchanges ++ [⟨q, answer⟩]) (asked ++ more)

variable {ledgerId : String} {exchanges : List (Exchange Question.Answer)}
  {asked : List (String × Ledger.Query)}

/-- What ledgers are asked to execute is what the delegate asked to have executed. -/
theorem PutsAll.executed (h : PutsAll ledgerId exchanges asked) :
    asked.filterMap (·.2.invocation?) = invocations exchanges := by
  induction h with
  | nil => rfl
  | snoc answer _ hputs ih =>
    rw [List.filterMap_append, ih, invocations, invocations, List.filterMap_append]
    refine congrArg (_ ++ ·) ?_
    cases hputs with
    | ledger q => rfl
    | _ => rfl

/-- A delegate asks the ledger of its route, -/
theorem PutsAll.ledger (h : PutsAll ledgerId exchanges asked) : ∀ x ∈ asked, x.1 = ledgerId := by
  induction h with
  | nil => exact fun x hx => by cases hx
  | snoc answer _ hputs ih =>
    intro x hx
    rcases List.mem_append.1 hx with hx | hx
    · exact ih x hx
    · cases hputs with
      | ledger q => rw [List.mem_singleton.1 hx]
      | renewed => rw [List.mem_singleton.1 hx]
      | _ => cases hx

/-- and nothing before its first question. -/
theorem PutsAll.of_nil (h : PutsAll ledgerId [] asked) : asked = [] := by
  generalize hnil : ([] : List (Exchange Question.Answer)) = exchanges at h
  cases h with
  | nil => rfl
  | snoc answer _ _ => simp at hnil

end Delegate

/-! ## Petitions -/

/-- A request: what the directories were asked on its behalf, with their answers, and how far
    it is. -/
structure Petition where
  operation : String
  input : Option Input
  learned : List (Exchange Store.Lookup.Answer)
  progress : Progress

namespace Petition

/-- A request that nothing was done about. -/
def new (ledgers : LedgerTable) (delegates : Assignments Delegate) (operation : String)
    (input : Option Input) : Petition :=
  ⟨operation, input, [], .planning (Route.plan ledgers delegates operation input)⟩

/-- The request when it is so far. -/
def reaching (p : Petition) (progress : Progress) : Petition := { p with progress }

/-- A request gets on, and a ledger may be asked for it. -/
inductive Turn (p : Petition) : Petition → List (String × Ledger.Query) → Prop
  /-- the directories answer a question of its plan -/
  | learn {l resume} (answer : Store.Lookup.Answer l) : p.progress = .planning (.ask l resume) →
      Turn p { p with
        learned := p.learned ++ [⟨l, answer⟩]
        progress := .planning (resume answer) } []
  /-- it has no route -/
  | reject {fault} : p.progress = .planning (.done (.error fault)) →
      Turn p (p.reaching .concluded) []
  /-- a delegate begins to work on it -/
  | route {route : Route Delegate} : p.progress = .planning (.done (.ok route)) →
      Turn p (p.reaching (.working route.ledger.id
        (route.delegate.apply route.ledger p.input))) []
  /-- a question of the delegate is answered -/
  | consult {k q resume asked} (answer : Delegate.Question.Answer q) :
      p.progress = .working k (.ask q resume) → q.Puts k asked →
      Turn p (p.reaching (.working k (resume answer))) asked
  /-- the delegate is done -/
  | finish {k outcome} : p.progress = .working k (.done outcome) →
      Turn p (p.reaching .concluded) []

/-- Where a request stands, and what was asked for it until then. -/
inductive Story (ledgers : LedgerTable) (delegates : Assignments Delegate) (p : Petition) :
    List (String × Ledger.Query) → Prop
  /-- it is planned, or has no route -/
  | planned {rest} : (Route.plan ledgers delegates p.operation p.input).Leads p.learned rest →
      p.progress = .planning rest ∨
        p.progress = .concluded ∧ (∃ fault, rest = .done (.error fault)) →
      Story ledgers delegates p []
  /-- a delegate works on it, or has done so -/
  | worked {route : Route Delegate} {exchanges left asked} :
      (Route.plan ledgers delegates p.operation p.input).Leads p.learned (.done (.ok route)) →
      (route.delegate.apply route.ledger p.input).Leads exchanges left →
      Delegate.PutsAll route.ledger.id exchanges asked →
      p.progress = .working route.ledger.id left ∨ p.progress = .concluded →
      Story ledgers delegates p asked

/-- A request that gets on stays among the requests as it is. -/
theorem map_set {petitions : List Petition} {i : Nat} {p p' : Petition}
    (hp : petitions[i]? = some p) (hsame : p'.operation = p.operation ∧ p'.input = p.input) :
    (petitions.set i p').map (fun p => (p.operation, p.input)) =
      petitions.map fun p => (p.operation, p.input) := by
  obtain ⟨hi, rfl⟩ := List.getElem?_eq_some_iff.1 hp
  have hlength : i < (petitions.map fun p => (p.operation, p.input)).length := by
    rwa [List.length_map]
  rw [List.map_set, hsame.1, hsame.2]
  refine Eq.trans (congrArg _ ?_) (List.set_getElem_self hlength)
  rw [List.getElem_map]

variable {ids : List String} {ledgers : LedgerTable} {delegates : Assignments Delegate}
  {p p' : Petition} {asked more : List (String × Ledger.Query)}

theorem story_new (operation : String) (input : Option Input) :
    (new ledgers delegates operation input).Story ledgers delegates [] :=
  .planned (.refl _) (Or.inl rfl)

/-- **The story of a request goes on** with each of its turns. -/
theorem Story.turn (h : p.Story ledgers delegates asked) (ht : p.Turn p' more) :
    p'.Story ledgers delegates (asked ++ more) := by
  cases h with
  | @planned rest hplan hp =>
    have hrest : ∀ {plan}, p.progress = .planning plan → rest = plan := by
      intro plan hplanning
      rcases hp with hp | ⟨hp, -⟩ <;> rw [hp] at hplanning <;> cases hplanning
      rfl
    have hnever : ∀ {k work}, p.progress ≠ .working k work := by
      intro k work hworking
      rcases hp with hp | ⟨hp, -⟩ <;> rw [hp] at hworking <;> cases hworking
    cases ht with
    | learn answer hplanning =>
      rw [hrest hplanning] at hplan
      exact .planned (hplan.snoc answer) (Or.inl rfl)
    | reject hplanning =>
      rw [hrest hplanning] at hplan
      exact .planned hplan (Or.inr ⟨rfl, _, rfl⟩)
    | route hplanning =>
      rw [hrest hplanning] at hplan
      exact .worked hplan (.refl _) .nil (Or.inl rfl)
    | consult answer hworking => exact absurd hworking hnever
    | finish hworking => exact absurd hworking hnever
  | @worked route exchanges left asked hplan hwork hputs hp =>
    have hleft : ∀ {k work}, p.progress = .working k work →
        route.ledger.id = k ∧ left = work := by
      intro k work hworking
      rcases hp with hp | hp <;> rw [hp] at hworking <;> cases hworking
      exact ⟨rfl, rfl⟩
    have hnever : ∀ {plan}, p.progress ≠ .planning plan := by
      intro plan hplanning
      rcases hp with hp | hp <;> rw [hp] at hplanning <;> cases hplanning
    cases ht with
    | learn answer hplanning => exact absurd hplanning hnever
    | reject hplanning => exact absurd hplanning hnever
    | route hplanning => exact absurd hplanning hnever
    | consult answer hworking hmore =>
      obtain ⟨rfl, rfl⟩ := hleft hworking
      exact .worked hplan (hwork.snoc answer) (hputs.snoc answer hmore) (Or.inl rfl)
    | finish hworking =>
      rw [List.append_nil]
      exact .worked hplan hwork hputs (Or.inr rfl)

/-- What was asked for a request executes one thing at most, and that with warrant. -/
theorem Story.warranted (h : p.Story ledgers delegates asked)
    (hrouting : Routing ids ledgers delegates) :
    asked.filterMap (·.2.invocation?) = [] ∨ ∃ sender data k,
      asked.filterMap (·.2.invocation?) = [(sender, data)] ∧ (∀ x ∈ asked, x.1 = k) ∧
        Route.Warranted ledgers p.operation p.input p.learned k sender data := by
  cases h with
  | planned => exact Or.inl rfl
  | worked hplan hwork hputs =>
    rw [hputs.executed]
    rcases Route.warranted_of hrouting hplan hwork with hnone | ⟨sender, data, hone, hwarrant⟩
    · exact Or.inl hnone
    · exact Or.inr ⟨sender, data, _, hone, hputs.ledger, hwarrant⟩

/-- A ledger is asked only for a request that has a route, -/
theorem Story.routed (h : p.Story ledgers delegates asked) (hasked : asked ≠ []) :
    ∃ route, (Route.plan ledgers delegates p.operation p.input).Leads p.learned
      (.done (.ok route)) := by
  cases h with
  | planned => exact absurd rfl hasked
  | worked hplan => exact ⟨_, hplan⟩

/-- and so for none that fails in routing, -/
theorem Story.unrouted (h : p.Story ledgers delegates asked) {fault : Fault}
    (hfault : (Route.plan ledgers delegates p.operation p.input).Leads p.learned
      (.done (.error fault))) : asked = [] := by
  by_contra hasked
  obtain ⟨route, hplan⟩ := h.routed hasked
  cases hplan.unique hfault

/-- nor for a call whose data is not hexadecimal. -/
theorem Story.undecoded (h : p.Story ledgers delegates asked)
    (hrouting : Routing ids ledgers delegates) {sender text : String} {mode : ReplyMode}
    (hinput : p.input = some (.call sender text mode)) {e : Text.HexError}
    (htext : Text.decodeHex (String.ofList (Crypto.Key.dropMark text.toList)) = .error e) :
    asked = [] := by
  cases h with
  | planned => rfl
  | worked hplan hwork hputs =>
    rw [hinput] at hplan hwork
    rw [Route.silent_of hrouting htext hplan hwork] at hputs
    exact hputs.of_nil

end Petition

/-! ## Traffic -/

/-- The requests that came in, and all that ledgers were asked. -/
structure Traffic where
  petitions : List Petition
  log : List Asked

namespace Traffic

/-- Before the first request. -/
def empty : Traffic := ⟨[], []⟩

/-- The requests, in the order in which they came in. -/
def requests (t : Traffic) : List (String × Option Input) :=
  t.petitions.map fun p => (p.operation, p.input)

/-- What ledgers were asked, whoever asked it. -/
def asked (t : Traffic) : List (String × Ledger.Query) := t.log.map Asked.put

/-- What ledgers were asked for a request. -/
def askedFor (t : Traffic) (i : Nat) : List (String × Ledger.Query) :=
  (t.log.filter (·.party = .request i)).map Asked.put

/-- A request gets on. -/
def turns (t : Traffic) (i : Nat) (p : Petition) (asked : List (String × Ledger.Query)) :
    Traffic :=
  ⟨t.petitions.set i p, t.log ++ asked.map fun x => ⟨.request i, x.1, x.2⟩⟩

section
variable (ledgers : LedgerTable) (delegates : Assignments Delegate)

/-- All that can happen. -/
inductive Step : Traffic → Traffic → Prop
  /-- a request comes in -/
  | take {t : Traffic} (operation : String) (input : Option Input) :
      Step t { t with petitions := t.petitions ++ [.new ledgers delegates operation input] }
  /-- a request gets on -/
  | turn {t : Traffic} {i p p' asked} : t.petitions[i]? = some p → p.Turn p' asked →
      Step t (t.turns i p' asked)
  /-- a scan or a bootstrap asks a ledger -/
  | ask {t : Traffic} {a : Asked} : a.Background → Step t { t with log := t.log ++ [a] }

/-- All that can have happened since before the first request. -/
def Run (t : Traffic) : Prop := Relation.ReflTransGen (Step ledgers delegates) empty t

/-- What is asked in the background is asked one after the other. -/
theorem asks_all {asked : List Asked} (h : ∀ a ∈ asked, a.Background) (t : Traffic) :
    Relation.ReflTransGen (Step ledgers delegates) t { t with log := t.log ++ asked } := by
  induction asked generalizing t with
  | nil => rw [List.append_nil]
  | cons a asked ih =>
    obtain ⟨ha, hrest⟩ := List.forall_mem_cons.1 h
    have hall := ih hrest { t with log := t.log ++ [a] }
    rw [List.append_assoc] at hall
    exact .head (.ask ha) hall

/-- What is asked for a request belongs to its story, and whatever else is asked is asked in
    the background. -/
structure Sound (t : Traffic) : Prop where
  stories : ∀ {i : Nat} {p : Petition}, t.petitions[i]? = some p →
    p.Story ledgers delegates (t.askedFor i)
  parties : ∀ a ∈ t.log, a.Background ∨ ∃ i < t.petitions.length, a.party = .request i

end

variable {ids : List String} {ledgers : LedgerTable} {delegates : Assignments Delegate}
  {t t' : Traffic}

theorem askedFor_append (petitions : List Petition) (log more : List Asked) (i : Nat) :
    (⟨petitions, log ++ more⟩ : Traffic).askedFor i =
      (⟨petitions, log⟩ : Traffic).askedFor i ++
        (more.filter (·.party = .request i)).map Asked.put := by
  simp only [askedFor, List.filter_append, List.map_append]

/-- What a request asks is asked for that request alone. -/
theorem askedFor_turns (i j : Nat) (p : Petition) (asked : List (String × Ledger.Query)) :
    (t.turns i p asked).askedFor j = t.askedFor j ++ if i = j then asked else [] := by
  rw [turns, askedFor_append, Party.filter_map Asked.party _ i j fun _ => rfl]
  refine congrArg (t.askedFor j ++ ·) ?_
  split
  · rw [List.map_map]
    exact List.map_id _
  · rfl

/-- Nothing was asked for a request that did not come in. -/
theorem Sound.askedFor_none (h : t.Sound ledgers delegates) {i : Nat}
    (hi : t.petitions[i]? = none) : t.askedFor i = [] := by
  refine List.map_eq_nil_iff.2 (List.filter_eq_nil_iff.2 fun a ha hparty => ?_)
  have hparty : a.party = .request i := of_decide_eq_true hparty
  rcases h.parties a ha with hback | ⟨j, hj, hj'⟩
  · exact hback.party _ hparty
  · rw [hparty] at hj'
    cases hj'
    have hle := List.getElem?_eq_none_iff.1 hi
    omega

/-- A request that gets on stays the request that it is. -/
theorem requests_turns {i : Nat} {p p' : Petition} {asked : List (String × Ledger.Query)}
    (hp : t.petitions[i]? = some p) (hturn : p.Turn p' asked) :
    (t.turns i p' asked).requests = t.requests := by
  have hsame : p'.operation = p.operation ∧ p'.input = p.input := by
    cases hturn <;> exact ⟨rfl, rfl⟩
  exact Petition.map_set hp hsame

@[simp]
theorem asked_turns (i : Nat) (p : Petition) (asked : List (String × Ledger.Query)) :
    (t.turns i p asked).asked = t.asked ++ asked := by
  rw [Traffic.asked, turns, List.map_append, List.map_map]
  exact congrArg (t.asked ++ ·) (List.map_id _)

/-- A request that came in has nothing asked for it yet, -/
theorem Sound.take (h : t.Sound ledgers delegates) (operation : String) (input : Option Input) :
    ({ t with petitions := t.petitions ++ [.new ledgers delegates operation input] } :
      Traffic).Sound ledgers delegates := by
  refine ⟨fun {i p} hp => ?_, fun a ha => ?_⟩
  · by_cases hi : i < t.petitions.length
    · rw [List.getElem?_append_left hi] at hp
      exact h.stories hp
    · have hlast : i = t.petitions.length := by
        have hlt := (List.getElem?_eq_some_iff.1 hp).1
        rw [List.length_append, List.length_singleton] at hlt
        omega
      subst hlast
      rw [List.getElem?_concat_length] at hp
      cases hp
      have hnone := h.askedFor_none (List.getElem?_eq_none (Nat.le_refl t.petitions.length))
      rw [askedFor] at hnone ⊢
      rw [hnone]
      exact Petition.story_new operation input
  · rcases h.parties a ha with hback | ⟨i, hi, hparty⟩
    · exact Or.inl hback
    · exact Or.inr ⟨i, by rw [List.length_append]; omega, hparty⟩

/-- a turn of a request belongs to its story and to no other, -/
theorem Sound.turn (h : t.Sound ledgers delegates) {i : Nat} {p p' : Petition}
    {asked : List (String × Ledger.Query)} (hp : t.petitions[i]? = some p)
    (hturn : p.Turn p' asked) : (t.turns i p' asked).Sound ledgers delegates := by
  have hi := (List.getElem?_eq_some_iff.1 hp).1
  refine ⟨fun {j p''} hp'' => ?_, fun a ha => ?_⟩
  · rw [askedFor_turns]
    by_cases hij : i = j
    · subst hij
      have hset : (t.turns i p' asked).petitions[i]? = some p' := List.getElem?_set_self hi
      rw [hset] at hp''
      cases hp''
      rw [if_pos rfl]
      exact (h.stories hp).turn hturn
    · have hset : (t.turns i p' asked).petitions[j]? = t.petitions[j]? :=
        List.getElem?_set_ne hij
      rw [hset] at hp''
      rw [if_neg hij, List.append_nil]
      exact h.stories hp''
  · have hlength : (t.turns i p' asked).petitions.length = t.petitions.length := List.length_set
    rw [hlength]
    rcases List.mem_append.1 ha with ha | ha
    · exact h.parties a ha
    · obtain ⟨x, -, rfl⟩ := List.mem_map.1 ha
      exact Or.inr ⟨i, hi, rfl⟩

/-- and what is asked in the background belongs to none. -/
theorem Sound.ask (h : t.Sound ledgers delegates) {a : Asked} (ha : a.Background) :
    ({ t with log := t.log ++ [a] } : Traffic).Sound ledgers delegates := by
  refine ⟨fun {i p} hp => ?_, fun a' ha' => ?_⟩
  · have hsame : ({ t with log := t.log ++ [a] } : Traffic).askedFor i = t.askedFor i := by
      rw [askedFor_append, List.filter_eq_nil_iff.2 fun a' ha' => ?_]
      · exact List.append_nil _
      · rw [List.mem_singleton.1 ha']
        simpa using ha.party i
    rw [hsame]
    exact h.stories hp
  · rcases List.mem_append.1 ha' with ha' | ha'
    · exact h.parties a' ha'
    · exact Or.inl (List.mem_singleton.1 ha' ▸ ha)

/-- **Whatever happens, the stories of all requests stay sound.** -/
theorem Sound.step (h : t.Sound ledgers delegates) (hs : Step ledgers delegates t t') :
    t'.Sound ledgers delegates := by
  cases hs with
  | take operation input => exact h.take operation input
  | turn hp hturn => exact h.turn hp hturn
  | ask ha => exact h.ask ha

/-- The stories of all that can have happened are sound. -/
theorem sound_run (h : Run ledgers delegates t) : t.Sound ledgers delegates := by
  induction h with
  | refl =>
    refine ⟨fun hp => ?_, fun a ha => ?_⟩
    · cases hp
    · cases ha
  | tail _ hs ih => exact ih.step hs

/-! ## Authority -/

/-- Whatever a ledger was asked to execute for a sender was asked for one request, which
    had every right to it. -/
structure Authorised (ledgers : LedgerTable) (delegates : Assignments Delegate) (t : Traffic) :
    Prop where
  /-- What is to be executed was asked for a request with warrant. -/
  invoked : ∀ a ∈ t.log, ∀ {sender data}, a.query = .submit (.invoke sender data) →
    ∃ i p, a.party = .request i ∧ t.petitions[i]? = some p ∧
      Route.Warranted ledgers p.operation p.input p.learned a.ledgerId sender data
  /-- Nothing more is to be executed for the same request. -/
  once : ∀ i, ((t.askedFor i).filterMap (·.2.invocation?)).length ≤ 1
  /-- Only for a request that has a route is a ledger asked anything, -/
  routed : ∀ {i : Nat} {p : Petition}, t.petitions[i]? = some p → t.askedFor i ≠ [] →
    ∃ route, (Route.plan ledgers delegates p.operation p.input).Leads p.learned
      (.done (.ok route))
  /-- so for none that fails in routing, -/
  unrouted : ∀ {i : Nat} {p : Petition} {fault}, t.petitions[i]? = some p →
    (Route.plan ledgers delegates p.operation p.input).Leads p.learned (.done (.error fault)) →
    t.askedFor i = []
  /-- nor for one whose call data is not hexadecimal. -/
  undecoded : ∀ {i : Nat} {p : Petition} {sender text mode e}, t.petitions[i]? = some p →
    p.input = some (.call sender text mode) →
    Text.decodeHex (String.ofList (Crypto.Key.dropMark text.toList)) = .error e →
    t.askedFor i = []

/-- What was asked for a request is in the log on its behalf. -/
theorem mem_askedFor {a : Asked} (ha : a ∈ t.log) {i : Nat} (hi : a.party = .request i) :
    a.put ∈ t.askedFor i :=
  List.mem_map.2 ⟨a, List.mem_filter.2 ⟨ha, decide_eq_true hi⟩, rfl⟩

theorem Sound.authorised (h : t.Sound ledgers delegates)
    (hrouting : Routing ids ledgers delegates) : t.Authorised ledgers delegates where
  invoked := by
    intro a ha sender data hquery
    have hinvocation : a.query.invocation? = some (sender, data) := by rw [hquery]; rfl
    rcases h.parties a ha with hback | ⟨i, hi, hparty⟩
    · rw [hback.invocation] at hinvocation
      cases hinvocation
    · have hp : t.petitions[i]? = some t.petitions[i] := List.getElem?_eq_getElem hi
      have hmem := mem_askedFor ha hparty
      have hone : (sender, data) ∈ (t.askedFor i).filterMap (·.2.invocation?) :=
        List.mem_filterMap.2 ⟨a.put, hmem, hinvocation⟩
      rcases (h.stories hp).warranted hrouting with hnone | ⟨sender', data', k, hall, hk, hwarrant⟩
      · rw [hnone] at hone
        cases hone
      · rw [hall] at hone
        cases List.mem_singleton.1 hone
        have hledger : a.ledgerId = k := hk a.put hmem
        exact ⟨i, _, hparty, hp, hledger ▸ hwarrant⟩
  once i := by
    cases hp : t.petitions[i]? with
    | none => simp [h.askedFor_none hp]
    | some p =>
      rcases (h.stories hp).warranted hrouting with hnone | ⟨sender, data, k, hone, -⟩
      · simp [hnone]
      · simp [hone]
  routed hp hasked := (h.stories hp).routed hasked
  unrouted hp hfault := (h.stories hp).unrouted hfault
  undecoded hp hinput htext := (h.stories hp).undecoded hrouting hinput htext

/-- **Only authorised calls reach a ledger**, in whatever order requests get on. -/
theorem authorised_run (hrouting : Routing ids ledgers delegates) (h : Run ledgers delegates t) :
    t.Authorised ledgers delegates :=
  (sound_run h).authorised hrouting

end Traffic

end LedgerGate
