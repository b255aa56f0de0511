/-
  Authority: whatever a gateway does, only authorised calls reach a ledger.

  Whatever happens to a gateway that runs is traffic with its ledgers like any other: a request
  is taken, planned with what the directories say at that time, and worked on question by
  question, and everything else goes on in the background.

  * `Happening`: what can happen to a gateway; `Gateway.happens`, `Gateway.after`: what comes
    of it;
  * `Gateway.Carried`: which job is about which request;
  * `Gateway.Explains`: traffic by which a gateway may have come to where it is;
  * `Explains.planJob`, `Explains.applyJob`: **requests**, in two jobs; `Explains.happens`:
    whatever else happens;
  * `Gateway.Justifies`: an account of all that ledgers were asked;
  * `Gateway.authorises_of`: **a gateway with the standard delegates authorises what it has
    ledgers execute.**
-/
import LedgerGate.Proofs.Gateway.Record
import LedgerGate.Stage

namespace LedgerGate

open Dialogue (Exchange)

/-! ## What happens -/

/-- What can happen to a gateway. -/
inductive Happening (W : Type) where
  /-- a request comes in -/
  | request (e : Errand) (operation : String) (input : Option Input)
  /-- the first of its jobs is done -/
  | work
  /-- time passes, or timers go off -/
  | pass (time : Nat)
  | ring
  /-- the world outside changes: ledgers, directories or whatever else -/
  | change (w : W)
  | start
  /-- work is to be tracked, or its receipt is waited for -/
  | track (ledgerId : String) (workId : WorkId)
  | register (ledgerId : String) (workId : WorkId) (w : Waiter) (isDone : Bool)
  /-- a ledger is scanned, answers are held back or let through -/
  | scan (ledgerId : String) (audience : Option String)
  | hold
  | finishScan (ledgerId : String)
  | release
  /-- a ledger takes its time for the questions of its bootstrap -/
  | delay (ledgerId : String) (durations : List Nat)
  /-- somebody listens for shutdown, hears of it or signals it, now or later -/
  | listen (sh : Shutdown Listener)
  | signal
  | signalLater (time : Nat)
  | abort

/-- The request that comes in. -/
def Happening.request? {W : Type} : Happening W → Option (String × Option Input)
  | request _ operation input => some (operation, input)
  | _ => none

namespace Gateway

variable {W : Type}

section
variable [Outside W]

/-- What comes of something that happens. -/
def happens (g : Gateway (Recorded W)) : Happening W → Gateway (Recorded W)
  | .request e operation input => g.enqueue (.plan e operation input)
  | .work =>
    match g.ready with
    | [] => g
    | job :: rest => { g with ready := rest }.perform job
  | .pass time => { g with now := time }
  | .ring => { g with ready := g.ready ++ g.timers.due g.now, timers := g.timers.after g.now }
  | .change w => { g with outside := { g.outside with world := w } }
  | .start => g.start
  | .track ledgerId workId => g.track ledgerId workId
  | .register ledgerId workId w isDone => g.register ledgerId workId w isDone
  | .scan ledgerId audience => (g.scan ledgerId audience).2
  | .hold => g.hold
  | .finishScan ledgerId => (g.finishScan ledgerId).2
  | .release => { g with held := false }
  | .delay ledgerId durations => g.delay ledgerId durations
  | .listen sh => { g with shutdown := sh }
  | .signal => g.triggerShutdown
  | .signalLater time => { g with timers := g.timers.set time .shutdown }
  | .abort => g.abort

/-- The gateway after all that has happened to it. -/
def after (g : Gateway (Recorded W)) (hs : List (Happening W)) : Gateway (Recorded W) :=
  hs.foldl happens g

theorem after_concat (g : Gateway (Recorded W)) (hs : List (Happening W)) (h : Happening W) :
    g.after (hs ++ [h]) = (g.after hs).happens h := by
  rw [after, after, List.foldl_append]
  rfl

/-- All moves of a gateway are such, a change of what is outside apart. -/
theorem exists_happening {view : Recorded W → String → Option String}
    {g g' : Gateway (Recorded W)} (h : Moves view g g') :
    (∃ w, g' = { g with outside := w }) ∨ ∃ h, g' = g.happens h := by
  cases h with
  | @work job rest hready => exact Or.inr ⟨.work, by simp only [happens, hready]⟩
  | change w _ => exact Or.inl ⟨w, rfl⟩
  | pass time => exact Or.inr ⟨.pass time, rfl⟩
  | ring => exact Or.inr ⟨.ring, rfl⟩
  | start => exact Or.inr ⟨.start, rfl⟩
  | handle r accepting => exact Or.inr ⟨.request _ r.operation r.input, rfl⟩
  | call name operation input limit => exact Or.inr ⟨.request _ operation input, rfl⟩
  | track ledgerId workId => exact Or.inr ⟨.track ledgerId workId, rfl⟩
  | register ledgerId workId w isDone => exact Or.inr ⟨.register ledgerId workId w isDone, rfl⟩
  | scan ledgerId audience => exact Or.inr ⟨.scan ledgerId audience, rfl⟩
  | hold => exact Or.inr ⟨.hold, rfl⟩
  | finishScan ledgerId => exact Or.inr ⟨.finishScan ledgerId, rfl⟩
  | release => exact Or.inr ⟨.release, rfl⟩
  | delay ledgerId durations => exact Or.inr ⟨.delay ledgerId durations, rfl⟩
  | listen sh => exact Or.inr ⟨.listen sh, rfl⟩
  | signal => exact Or.inr ⟨.signal, rfl⟩
  | signalLater time => exact Or.inr ⟨.signalLater time, rfl⟩
  | abort => exact Or.inr ⟨.abort, rfl⟩

end

/-! ## Traffic that explains a gateway -/

/-- The request that a job is about is the one with a number, and as far as the job says. -/
def Carries (ledgers : LedgerTable) (delegates : Assignments Delegate)
    (petitions : List Petition) : Job → Nat → Prop
  | .plan _ operation input, i =>
    petitions[i]? = some (.new ledgers delegates operation input)
  | .apply _ route input, i =>
    ∃ p, petitions[i]? = some p ∧ p.input = input ∧ p.progress = .planning (.done (.ok route))
  | _, _ => False

section
variable {ledgers : LedgerTable} {delegates : Assignments Delegate} {petitions : List Petition}
  {job : Job} {i j : Nat}

/-- What a job is about depends on one request alone. -/
theorem Carries.congr {petitions' : List Petition} (h : Carries ledgers delegates petitions job i)
    (hsame : petitions'[i]? = petitions[i]?) : Carries ledgers delegates petitions' job i := by
  cases job with
  | plan e operation input => exact hsame.trans h
  | apply e route input =>
    obtain ⟨p, hp, hrest⟩ := h
    exact ⟨p, hsame.trans hp, hrest⟩
  | _ => exact h

theorem Carries.lt (h : Carries ledgers delegates petitions job i) : i < petitions.length := by
  cases job with
  | plan e operation input => exact (List.getElem?_eq_some_iff.1 h).1
  | apply e route input =>
    obtain ⟨p, hp, -⟩ := h
    exact (List.getElem?_eq_some_iff.1 hp).1
  | _ => exact h.elim

/-- Jobs are about requests that have come in. -/
theorem forall₂_carries_lt {jobs : List Job} {is : List Nat}
    (h : List.Forall₂ (Carries ledgers delegates petitions) jobs is) :
    ∀ i ∈ is, i < petitions.length := by
  induction h with
  | nil => exact List.forall_mem_nil _
  | cons hjob _ ih => exact List.forall_mem_cons.2 ⟨hjob.lt, ih⟩

/-- What jobs are about depends on their own requests alone. -/
theorem forall₂_carries_congr {petitions' : List Petition} {jobs : List Job} {is : List Nat}
    (h : List.Forall₂ (Carries ledgers delegates petitions) jobs is)
    (hsame : ∀ i ∈ is, petitions'[i]? = petitions[i]?) :
    List.Forall₂ (Carries ledgers delegates petitions') jobs is := by
  induction h with
  | nil => exact .nil
  | cons hjob _ ih =>
    obtain ⟨hfirst, hrest⟩ := List.forall_mem_cons.1 hsame
    exact .cons (hjob.congr hfirst) (ih hrest)

variable {V : Type} {g g' : Gateway V} {free : List Nat}

/-- Every request under way is a job of a gateway, but perhaps a `free` one, and no two jobs are
    about one request. -/
def Carried (ledgers : LedgerTable) (delegates : Assignments Delegate)
    (petitions : List Petition) (free : List Nat) (g : Gateway V) : Prop :=
  ∃ is : List Nat, (free ++ is).Nodup ∧
    List.Forall₂ (Carries ledgers delegates petitions) g.requests is

namespace Carried

theorem congr (h : Carried ledgers delegates petitions free g)
    (hrequests : g'.requests = g.requests) : Carried ledgers delegates petitions free g' := by
  rwa [Carried, hrequests]

/-- A request that is let go is under way no more. -/
theorem letGo (h : Carried ledgers delegates petitions [i] g) :
    Carried ledgers delegates petitions [] g := by
  obtain ⟨is, hnodup, hall⟩ := h
  exact ⟨is, hnodup.of_cons, hall⟩

/-- No job is about a request that is free, so it may change. -/
theorem set (h : Carried ledgers delegates petitions [i] g) (p : Petition) :
    Carried ledgers delegates (petitions.set i p) [i] g := by
  obtain ⟨is, hnodup, hall⟩ := h
  obtain ⟨hfree, -⟩ := List.nodup_cons.1 hnodup
  refine ⟨is, hnodup, forall₂_carries_congr hall fun j hj => List.getElem?_set_ne ?_⟩
  rintro rfl
  exact hfree hj

/-- The first of the requests under way is taken up, -/
theorem takeUp (h : Carried ledgers delegates petitions [] g) {rest : List Job}
    (hready : g.ready = job :: rest) (hjob : job.isRequest = true) :
    ∃ i, Carried ledgers delegates petitions [i] { g with ready := rest } ∧
      Carries ledgers delegates petitions job i := by
  obtain ⟨is, hnodup, hall⟩ := h
  have hrequests : g.requests = job :: rest.filter Job.isRequest := by
    rw [Gateway.requests, hready, List.filter_cons_of_pos hjob]
  rw [hrequests] at hall
  cases hall with
  | @cons _ i _ is hi hrest => exact ⟨i, ⟨is, hnodup, hrest⟩, hi⟩

/-- one that is taken up is handed on to another job, -/
theorem handOn (h : Carried ledgers delegates petitions [i] g)
    (hi : Carries ledgers delegates petitions job i) (hjob : job.isRequest = true) :
    Carried ledgers delegates petitions [] (g.enqueue job) := by
  obtain ⟨is, hnodup, hall⟩ := h
  refine ⟨is ++ [i], ?_, ?_⟩
  · show (is ++ [i]).Nodup
    exact List.perm_append_comm.nodup_iff.1 hnodup
  · rw [Gateway.requests, enqueue, List.filter_append, List.filter_cons_of_pos hjob]
    exact List.rel_append hall (.cons hi .nil)

/-- and one that comes in is under way. -/
theorem take (h : Carried ledgers delegates petitions [] g) (e : Errand) (operation : String)
    (input : Option Input) :
    Carried ledgers delegates (petitions ++ [.new ledgers delegates operation input]) []
      (g.enqueue (.plan e operation input)) := by
  obtain ⟨is, hnodup, hall⟩ := h
  have hlt := forall₂_carries_lt hall
  have hfresh : ([petitions.length] ++ is).Nodup :=
    List.nodup_cons.2 ⟨fun hmem => (hlt _ hmem).false, hnodup⟩
  refine handOn ⟨is, hfresh, forall₂_carries_congr hall fun i hi => ?_⟩
    List.getElem?_concat_length rfl
  exact List.getElem?_append_left (hlt i hi)

end Carried

end

/-- Traffic with the requests that came in to a gateway, by which it may have come to where it
    is, and with the answers that directories gave it.  Every request under way is a job of the
    gateway, but perhaps a `free` one that it is about to take up or has just let go. -/
structure Explains (g₀ : Gateway (Recorded W)) (rs : List (String × Option Input))
    (told : Exchange Store.Lookup.Answer → Prop) (free : List Nat) (t : Traffic)
    (g : Gateway (Recorded W)) : Prop where
  ledgers : g.ledgers = g₀.ledgers
  delegates : g.delegates = g₀.delegates
  run : Traffic.Run g₀.ledgers g₀.delegates t
  requests : t.requests = rs
  asked : t.asked = g.outside.asked
  learned : ∀ p ∈ t.petitions, ∀ x ∈ p.learned, told x
  clear : g.Clear
  /-- No two jobs are about one request. -/
  carried : ∃ is : List Nat, (free ++ is).Nodup ∧
    List.Forall₂ (Carries g₀.ledgers g₀.delegates t.petitions) g.requests is

namespace Explains

variable {g₀ g g' : Gateway (Recorded W)} {rs : List (String × Option Input)}
  {told told' : Exchange Store.Lookup.Answer → Prop} {free : List Nat} {t t' : Traffic}
  {more : List (String × Ledger.Query)} {i : Nat} {p p' : Petition}

theorem mono (h : Explains g₀ rs told free t g) (himp : ∀ x, told x → told' x) :
    Explains g₀ rs told' free t g :=
  { h with learned := fun p hp x hx => himp x (h.learned p hp x hx) }

/-- A request that is let go is under way no more. -/
theorem letGo (h : Explains g₀ rs told [i] t g) : Explains g₀ rs told [] t g :=
  { h with carried := Carried.letGo h.carried }

/-- **Whatever goes on beside requests** is traffic. -/
theorem beside (h : Explains g₀ rs told free t g) (hbeside : Beside g g') :
    ∃ t', Explains g₀ rs told free t' g' := by
  obtain ⟨asked, hbackground, hasks⟩ := hbeside
  refine ⟨{ t with log := t.log ++ asked }, hasks.ledgers.trans h.ledgers,
    hasks.delegates.trans h.delegates,
    Relation.ReflTransGen.trans h.run (Traffic.asks_all _ _ hbackground t), h.requests, ?_,
    h.learned, hasks.clear h.clear, Carried.congr h.carried (hasks.requests h.clear)⟩
  rw [hasks.asked, ← h.asked]
  exact List.map_append

/-- **A request gets on**, and what is asked for it is asked by the gateway. -/
theorem turn (h : Explains g₀ rs told [i] t g) (hp : t.petitions[i]? = some p)
    (hturn : p.Turn p' more) (hlearned : ∀ x ∈ p'.learned, x ∈ p.learned ∨ told x)
    (hasks : Asks more g g') :
    Explains g₀ rs told [i] (t.turns i p' more) g' ∧
      (t.turns i p' more).petitions[i]? = some p' := by
  refine ⟨?_, List.getElem?_set_self (List.getElem?_eq_some_iff.1 hp).1⟩
  refine ⟨hasks.ledgers.trans h.ledgers, hasks.delegates.trans h.delegates,
    Relation.ReflTransGen.tail h.run (.turn hp hturn), ?_, ?_, fun p'' hp'' => ?_,
    hasks.clear h.clear, (Carried.set h.carried p').congr (hasks.requests h.clear)⟩
  · rw [Traffic.requests_turns hp hturn, h.requests]
  · rw [Traffic.asked_turns, h.asked, hasks.asked]
  · rcases List.mem_or_eq_of_mem_set hp'' with hold | rfl
    · exact h.learned p'' hold
    · intro x hx
      exact (hlearned x hx).elim (h.learned p (List.mem_of_getElem? hp) x) id

/-- The first of the requests under way is taken up. -/
theorem takeUp (h : Explains g₀ rs told [] t g) {job : Job} {rest : List Job}
    (hready : g.ready = job :: rest) (hjob : job.isRequest = true) :
    ∃ i, Explains g₀ rs told [i] t { g with ready := rest } ∧
      Carries g₀.ledgers g₀.delegates t.petitions job i := by
  obtain ⟨i, hcarried, hi⟩ := Carried.takeUp h.carried hready hjob
  exact ⟨i, { h with carried := hcarried }, hi⟩

/-- A request comes in. -/
theorem take (h : Explains g₀ rs told [] t g) (e : Errand) (operation : String)
    (input : Option Input) :
    ∃ t', Explains g₀ (rs ++ [(operation, input)]) told [] t'
      (g.enqueue (.plan e operation input)) := by
  let new : Petition := .new g₀.ledgers g₀.delegates operation input
  refine ⟨{ t with petitions := t.petitions ++ [new] }, h.ledgers, h.delegates,
    Relation.ReflTransGen.tail h.run (.take operation input), ?_, h.asked, fun p hp => ?_,
    h.clear, Carried.take h.carried e operation input⟩
  · rw [← h.requests, Traffic.requests, List.map_append]
    rfl
  · rcases List.mem_append.1 hp with hp | hp
    · exact h.learned p hp
    · rw [List.mem_singleton.1 hp]
      exact fun x hx => by cases hx

variable [Outside W]

/-- **A request is planned** with what the directories say now. -/
theorem learns {plan : Store.Inquiry (Except Fault (Route Delegate))}
    (h : Explains g₀ rs told [i] t g) (htold : ∀ l, told ⟨l, Outside.lookup l g.outside⟩)
    (hp : t.petitions[i]? = some p) (hplan : p.progress = .planning plan) :
    ∃ t' p', Explains g₀ rs told [i] t' g ∧ t'.petitions[i]? = some p' ∧ p'.input = p.input ∧
      p'.progress = .planning (.done (plan.interrogate fun l => Outside.lookup l g.outside).1) := by
  induction plan generalizing t p with
  | done result => exact ⟨t, p, h, hp, rfl, hplan⟩
  | ask l resume ih =>
    have hlearned : ∀ x ∈ p.learned ++ [⟨l, Outside.lookup l g.outside⟩],
        x ∈ p.learned ∨ told x := by
      intro x hx
      rcases List.mem_append.1 hx with hx | hx
      · exact Or.inl hx
      · exact Or.inr (List.mem_singleton.1 hx ▸ htold l)
    obtain ⟨hturn, hp'⟩ :=
      h.turn hp (.learn (Outside.lookup l g.outside) hplan) hlearned (Idle.refl g)
    -- what is left is planned for the same request, which has learned one thing more
    obtain ⟨t', p', h', hp', hinput, hplanned⟩ := ih _ hturn hp' rfl
    exact ⟨t', p', h', hp', hinput, hplanned⟩

/-- **A request is worked on**, and whatever is outside answers. -/
theorem works {k : String} {work : Delegate.Work} (h : Explains g₀ rs told [i] t g)
    (hp : t.petitions[i]? = some p) (hwork : p.progress = .working k work) :
    ∃ t' p', Explains g₀ rs told [i] t' (work.run (consult k) g).2 ∧
      t'.petitions[i]? = some p' ∧
      p'.progress = .working k (.done (work.run (consult k) g).1) := by
  induction work generalizing t p g with
  | done outcome => exact ⟨t, p, h, hp, hwork⟩
  | ask q resume ih =>
    obtain ⟨more, hputs, hasks⟩ := asks_consult k q g
    obtain ⟨hturn, hp'⟩ :=
      h.turn hp (.consult (consult k q g).1 hwork hputs) (fun _ => Or.inl) hasks
    exact ih _ hturn hp' rfl

/-- **A request that is to be planned** is let go if it has no route, and else it is to be
    worked on. -/
theorem planJob (h : Explains g₀ rs told [i] t g)
    (htold : ∀ l, told ⟨l, Outside.lookup l g.outside⟩) {e : Errand} {operation : String}
    {input : Option Input}
    (hi : Carries g₀.ledgers g₀.delegates t.petitions (.plan e operation input) i) :
    ∃ t', Explains g₀ rs told [] t' (g.planJob e operation input) := by
  obtain ⟨t₁, p₁, h₁, hp₁, hinput, hplanned⟩ := h.learns htold hi rfl
  rw [← h.ledgers, ← h.delegates] at hplanned
  unfold Gateway.planJob Gateway.plan
  rcases hresult : (Route.plan g.ledgers g.delegates operation input).interrogate
    fun l => Outside.lookup l g.outside with ⟨fault | route, asked⟩
  · rw [hresult] at hplanned
    obtain ⟨hreject, -⟩ := h₁.turn hp₁ (.reject hplanned) (fun _ => Or.inl) (Idle.refl g)
    have hmeters : Idle g { g with meters := g.meters.grow 1 .unroutable } := .of_bearing rfl
    obtain ⟨t', h'⟩ := hreject.beside (hmeters.trans (.conclude _ e _)).beside
    exact ⟨t', h'.letGo⟩
  · rw [hresult] at hplanned
    -- the request is the last of the jobs now
    exact ⟨t₁, { h₁ with
      carried := Carried.handOn h₁.carried ⟨p₁, hp₁, hinput, hplanned⟩ rfl }⟩

/-- **A request that is to be worked on** is worked on to the end. -/
theorem applyJob (h : Explains g₀ rs told [i] t g) {e : Errand} {route : Route Delegate}
    {input : Option Input}
    (hi : Carries g₀.ledgers g₀.delegates t.petitions (.apply e route input) i) :
    ∃ t', Explains g₀ rs told [] t' (g.applyJob e route input) := by
  obtain ⟨p, hp, rfl, hplanned⟩ := hi
  obtain ⟨hroute, hp'⟩ := h.turn hp (.route hplanned) (fun _ => Or.inl) (Idle.refl g)
  obtain ⟨t₁, p₁, h₁, hp₁, hworked⟩ := hroute.works hp' rfl
  obtain ⟨hfinish, -⟩ := h₁.turn hp₁ (.finish hworked) (fun _ => Or.inl) (Idle.refl _)
  unfold Gateway.applyJob
  dsimp only
  rcases hrun : (route.delegate.apply route.ledger p.input).run (consult route.ledger.id) g with
    ⟨outcome | ⟨mode, workId, recent⟩, g'⟩ <;> rw [hrun] at hfinish
  · obtain ⟨t', h'⟩ := hfinish.beside (Idle.conclude g' e outcome).beside
    exact ⟨t', h'.letGo⟩
  · obtain ⟨t', h'⟩ := hfinish.beside (Idle.prepare g' e _ mode workId recent).beside
    exact ⟨t', h'.letGo⟩

/-- **A job that is done** is traffic. -/
theorem work (h : Explains g₀ rs told [] t g)
    (htold : ∀ l, told ⟨l, Outside.lookup l g.outside⟩) {job : Job} {rest : List Job}
    (hready : g.ready = job :: rest) :
    ∃ t', Explains g₀ rs told [] t' ({ g with ready := rest }.perform job) := by
  have hidle : job.isRequest = false → Idle g { g with ready := rest } := by
    intro hjob
    refine ⟨rfl, rfl, id, fun _ => ?_, (List.append_nil _).symm⟩
    rw [Gateway.requests, Gateway.requests, hready, List.filter_cons_of_neg (by simp [hjob])]
  have hbeside : job.isRequest = false → ∀ {g'}, Beside { g with ready := rest } g' →
      ∃ t', Explains g₀ rs told [] t' g' := by
    intro hjob g' hbeside
    exact h.beside ((hidle hjob).beside.trans hbeside)
  cases job with
  | plan e operation input =>
    obtain ⟨i, h', hi⟩ := h.takeUp hready rfl
    exact h'.planJob htold hi
  | apply e route input =>
    obtain ⟨i, h', hi⟩ := h.takeUp hready rfl
    exact h'.applyJob hi
  | scan k audience => exact hbeside rfl (.scan _ k audience)
  | scanner => exact hbeside rfl ((Idle.discard _ _).trans (.runScanner _)).beside
  | bootstrap k => exact hbeside rfl (.runEscrow _ k)
  | wake k => exact hbeside rfl (.wakeEscrow _ k)
  | answer k => exact hbeside rfl (.answerEscrow _ k)
  | shutdown => exact hbeside rfl (Idle.withShutdown _ _).beside

/-- **Whatever happens to a gateway is traffic**, with the requests that come in. -/
theorem happens (h : Explains g₀ rs told [] t g) (event : Happening W) :
    ∃ t', Explains g₀ (rs ++ event.request?.toList)
      (fun x => told x ∨ x.2 = Outside.lookup x.1 g.outside) [] t' (g.happens event) := by
  have htold : ∀ l, (fun x => told x ∨ x.2 = Outside.lookup x.1 g.outside)
      (⟨l, Outside.lookup l g.outside⟩ : Exchange Store.Lookup.Answer) := fun l => Or.inr rfl
  have h := h.mono fun x => @Or.inl (told x) (x.2 = Outside.lookup x.1 g.outside)
  generalize (fun x => told x ∨ x.2 = Outside.lookup x.1 g.outside) = told' at h htold ⊢
  have hbeside : ∀ g', Beside g g' → ∃ t', Explains g₀ (rs ++ []) told' [] t' g' := by
    intro g' hbeside
    rw [List.append_nil]
    exact h.beside hbeside
  have hidle : ∀ g', Idle g g' → ∃ t', Explains g₀ (rs ++ []) told' [] t' g' :=
    fun g' hidle => hbeside g' hidle.beside
  cases event with
  | request e operation input => exact h.take e operation input
  | work =>
    simp only [Gateway.happens]
    split
    · exact hidle g (.refl g)
    · rename_i job rest hready
      rw [show (Happening.work : Happening W).request?.toList = [] from rfl, List.append_nil]
      exact h.work htold hready
  | pass time => exact hidle _ (.of_bearing rfl)
  | ring => exact hidle _ (.ring g)
  | change w => exact hidle _ ⟨rfl, rfl, id, fun _ => rfl, (List.append_nil _).symm⟩
  | start => exact hidle _ (.start g)
  | track k workId => exact hidle _ (.withTracker g k (.track workId))
  | register k workId w isDone =>
    exact hidle _ (.withTracker g k (.register workId w isDone))
  | scan k audience => exact hbeside _ (.scan g k audience)
  | hold => exact hidle _ (.of_bearing rfl)
  | finishScan k => exact hbeside _ (.finishScan g k)
  | release => exact hidle _ (.of_bearing rfl)
  | delay => exact hidle _ (.of_bearing rfl)
  | listen sh => exact hidle _ (.of_bearing rfl)
  | signal => exact hidle _ (.withShutdown g _)
  | signalLater time => exact hidle _ (.setTimer g time rfl)
  | abort => exact hidle _ (.abort g)

end Explains

/-! ## Authority -/

variable [Outside W]

/-- The requests that come in. -/
def requestsOf (hs : List (Happening W)) : List (String × Option Input) :=
  hs.filterMap Happening.request?

/-- The directories gave an answer at some time. -/
def Told (g₀ : Gateway (Recorded W)) (hs : List (Happening W))
    (x : Exchange Store.Lookup.Answer) : Prop :=
  ∃ past, past <+: hs ∧ x.2 = Outside.lookup x.1 (g₀.after past).outside

/-- An account of all that ledgers were asked by a gateway, with the requests that came in and
    what the directories said: what was to be executed was authorised. -/
structure Justifies (g₀ : Gateway (Recorded W)) (hs : List (Happening W)) (t : Traffic) :
    Prop where
  requests : t.requests = requestsOf hs
  asked : t.asked = (g₀.after hs).outside.asked
  told : ∀ p ∈ t.petitions, ∀ x ∈ p.learned, Told g₀ hs x
  authorised : t.Authorised g₀.ledgers g₀.delegates

/-- A gateway with a default ledger authorises what it has ledgers execute. -/
structure Authorises (defaultId : String) (g₀ : Gateway (Recorded W)) : Prop where
  /-- A name that is missing or empty stands for the default ledger. -/
  fallback : g₀.ledgers.defaultId = defaultId
  /-- However requests get on beside each other, only authorised calls reach a ledger. -/
  interleaved : ∀ t, Traffic.Run g₀.ledgers g₀.delegates t →
    t.Authorised g₀.ledgers g₀.delegates
  /-- Whatever happens to the gateway, all that ledgers were asked is accounted for, -/
  running : ∀ hs, ∃ t, Traffic.Run g₀.ledgers g₀.delegates t ∧ Justifies g₀ hs t
  /-- and nothing else can happen to it: each of its moves is such a happening, but for a
      change of the world outside. -/
  complete : ∀ (hs : List (Happening W)) (view : Recorded W → String → Option String) g',
    Moves view (g₀.after hs) g' →
      (∃ w, g' = { g₀.after hs with outside := w }) ∨ ∃ h, g' = g₀.after (hs ++ [h])

theorem Told.concat {g₀ : Gateway (Recorded W)} {hs : List (Happening W)}
    {x : Exchange Store.Lookup.Answer} (event : Happening W)
    (h : Told g₀ hs x ∨ x.2 = Outside.lookup x.1 (g₀.after hs).outside) :
    Told g₀ (hs ++ [event]) x := by
  rcases h with ⟨past, hpast, hx⟩ | hx
  · exact ⟨past, hpast.trans (List.prefix_append hs [event]), hx⟩
  · exact ⟨hs, List.prefix_append hs [event], hx⟩

/-- **There is traffic that explains a gateway**, whatever has happened to it since it was
    built. -/
theorem explains_after {c : Config} {fit : Fittings} {w : W} {g₀ : Gateway (Recorded W)}
    (hbuild : build c fit ⟨w, []⟩ = .ok g₀) (hs : List (Happening W)) :
    ∃ t, Explains g₀ (requestsOf hs) (Told g₀ hs) [] t (g₀.after hs) := by
  induction hs using List.reverseRecOn with
  | nil =>
    have hfresh := (built_of hbuild).fresh
    have hoffice : g₀.outside = ⟨w, []⟩ := (build_ok hbuild).2.1
    refine ⟨.empty, rfl, rfl, .refl, rfl, ?_, List.forall_mem_nil _, fun e he => ?_, [],
      List.nodup_nil, ?_⟩
    · show [] = g₀.outside.asked
      rw [hoffice]
    · rw [hfresh] at he
      cases he
    · rw [hfresh]
      exact .nil
  | append_singleton hs event ih =>
    obtain ⟨t, h⟩ := ih
    obtain ⟨t', h'⟩ := h.happens event
    have hrequests : requestsOf (hs ++ [event]) = requestsOf hs ++ event.request?.toList := by
      rw [requestsOf, List.filterMap_append]
      cases hrequest : event.request? <;> simp [requestsOf, hrequest]
    rw [after_concat, hrequests]
    exact ⟨t', h'.mono fun x => Told.concat event⟩

omit [Outside W] in
/-- The default ledger is the one that the configuration says. -/
theorem Built.defaultId {c : Config} {fit : Fittings} {g : Gateway W} (h : Built c fit g) :
    g.ledgers.defaultId = c.defaultLedgerId := by
  rw [h.table]
  rfl

/-- **A gateway with the standard delegates authorises what it has ledgers execute.** -/
theorem authorises_of {c : Config} {fit : Fittings} {w : W} {g₀ : Gateway (Recorded W)}
    (hbuild : build c fit ⟨w, []⟩ = .ok g₀) (hstandard : fit.delegates = []) :
    Authorises c.defaultLedgerId g₀ := by
  have hrouting := (built_of hbuild).routing hstandard
  refine ⟨(built_of hbuild).defaultId, fun t => Traffic.authorised_run hrouting, fun hs => ?_,
    fun hs view g' hmoves => ?_⟩
  · obtain ⟨t, h⟩ := explains_after hbuild hs
    exact ⟨t, h.run, h.requests, h.asked, h.learned, Traffic.authorised_run hrouting h.run⟩
  · refine (exists_happening hmoves).imp_right fun ⟨h, hg⟩ => ⟨h, ?_⟩
    rw [hg, after_concat]

/-- The configuration of one ledger. -/
def mainLedger : Config := { ledgers := [{ id := "main", brand := .besu }] }

/-- A world whose directories know one address. -/
def acquainted : Stage :=
  { Stage.empty with directory := Store.Directory.empty.putAddress ⟨"0xa", none, .besu, .id 7⟩ }

/-- The gateway of that configuration in that world, before its start. -/
def mainGateway : Gateway (Recorded Stage) :=
  .ofParts mainLedger ⟨[⟨"main", .besu, false⟩], "main"⟩
    ⟨(standardDelegates [.besu]).map fun d => (d.key, d)⟩ [.new "main" 1024 10000 none]
    ⟨acquainted, []⟩

/-- Three calls: one from the address that is known, one from another, and one whose data is not
    hexadecimal. -/
def threeCalls : List (Happening Stage) :=
  [("0xa", "0xdead"), ("0xb", "0xdead"), ("0xa", "0xzz")].flatMap fun call =>
    [.request (.call "call" 0) "TX.SUBMIT_CALL" (some (.call call.1 call.2 .id)), .work, .work]

/-- Of the three calls one reaches the ledger, and it is accounted for. -/
theorem authorises_threeCalls :
    build mainLedger plainFittings ⟨acquainted, []⟩ = .ok mainGateway ∧
      ((mainGateway.after threeCalls).outside.asked.map fun x => (x.1, x.2.invocation?)) =
        [("main", some ("0xa", [0xde, 0xad])), ("main", none)] ∧
      ∃ t, Justifies mainGateway threeCalls t ∧ t.petitions.length = 3 := by
  have hbuild : build mainLedger plainFittings ⟨acquainted, []⟩ = .ok mainGateway := rfl
  obtain ⟨t, -, h⟩ := (authorises_of hbuild rfl).running threeCalls
  refine ⟨hbuild, by decide +kernel, t, h, ?_⟩
  have hlength : t.requests.length = 3 := congrArg List.length h.requests
  rwa [Traffic.requests, List.length_map] at hlength

end Gateway

end LedgerGate
