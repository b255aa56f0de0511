/-
  Provenance: whatever a gateway does, its trackers are only about ids that their ledgers vouched
  for.

  Whatever happens to a gateway that runs, custody can follow: requests get on as they do there,
  one job at a time, and scans and bootstraps go on beside them.  So what holds in custody holds
  of the trackers on the desks.

  * `Happening.tracks`: work is tracked for somebody outside; `Gateway.befalls`,
    `Gateway.since`: what comes of happenings in a world that keeps what was said;
  * `Gateway.Covers`: custody by which a gateway may have come to where it is;
  * `Covers.planJob`, `Covers.applyJob`: **requests**, in two jobs; `Covers.befalls`: whatever
    else happens;
  * `Gateway.vouches_of`: **a gateway with the standard delegates tracks nothing that its ledgers
    have not vouched for.**
-/
import LedgerGate.Ledger.Rehearsal
import LedgerGate.Proofs.Gateway.Authority
import LedgerGate.Proofs.Gateway.Mirror

namespace LedgerGate

open Dialogue (Exchange)

/-! ## What happens -/

namespace Happening

variable {V W : Type}

/-- What happens where a world is part of another. -/
def map (f : V → W) : Happening V → Happening W
  | request e operation input => request e operation input
  | work => work
  | pass time => pass time
  | ring => ring
  | change w => change (f w)
  | start => start
  | track ledgerId workId => track ledgerId workId
  | register ledgerId workId w isDone => register ledgerId workId w isDone
  | scan ledgerId audience => scan ledgerId audience
  | hold => hold
  | finishScan ledgerId => finishScan ledgerId
  | release => release
  | delay ledgerId durations => delay ledgerId durations
  | listen sh => listen sh
  | signal => signal
  | signalLater time => signalLater time
  | abort => abort

/-- Somebody outside has work tracked, or waits for a receipt. -/
def tracks : Happening W → Bool
  | track _ _ => true
  | register _ _ _ _ => true
  | _ => false

end Happening

namespace Gateway

variable {W : Type}

section
variable [Outside W]

/-- What comes of something that happens.  The world may change, but what was said was said. -/
def befalls (g : Gateway (Recorded (Attesting W))) (h : Happening W) :
    Gateway (Recorded (Attesting W)) := g.happens (h.map fun w => ⟨w, g.outside.said⟩)

/-- The gateway after all that has happened to it. -/
def since (g : Gateway (Recorded (Attesting W))) (hs : List (Happening W)) :
    Gateway (Recorded (Attesting W)) := hs.foldl befalls g

theorem since_concat (g : Gateway (Recorded (Attesting W))) (hs : List (Happening W))
    (h : Happening W) : g.since (hs ++ [h]) = (g.since hs).befalls h := by
  rw [since, since, List.foldl_append]
  rfl

end

/-! ## Custody that covers a gateway -/

/-- Custody with the requests that came in to a gateway, by which it may have come to where it
    is.  Every request under way is a job of the gateway, but perhaps a `free` one that it is
    about to take up or has just let go. -/
structure Covers (g₀ : Gateway (Recorded (Attesting W))) (settings : String → Escrow.Settings)
    (capacity : Nat) (rs : List (String × Option Input)) (free : List Nat) (c : Custody)
    (g : Gateway (Recorded (Attesting W))) : Prop where
  ledgers : g.ledgers = g₀.ledgers
  delegates : g.delegates = g₀.delegates
  run : Custody.Run g₀.ledgers g₀.delegates settings capacity c
  requests : c.requests = rs
  mirrors : Mirrors settings nobody c g
  clear : g.Clear
  carried : Carried g₀.ledgers g₀.delegates c.petitions free g

namespace Covers

variable {g₀ g g' : Gateway (Recorded (Attesting W))} {settings : String → Escrow.Settings}
  {capacity : Nat} {rs : List (String × Option Input)} {free : List Nat} {c c' : Custody}
  {i : Nat} {p p' : Petition}

/-- A request that is let go is under way no more. -/
theorem letGo (h : Covers g₀ settings capacity rs [i] c g) :
    Covers g₀ settings capacity rs [] c g := { h with carried := h.carried.letGo }

/-- **Whatever goes on beside requests** goes on in custody. -/
theorem beside (h : Covers g₀ settings capacity rs free c g) (hbeside : Beside g g')
    (hkept : Kept settings nobody c g') : ∃ c', Covers g₀ settings capacity rs free c' g' := by
  obtain ⟨_, -, hasks⟩ := hbeside
  obtain ⟨c', hfollowed, hmirrors⟩ := hkept
  have hpetitions := Custody.petitions_beside hfollowed
  refine ⟨c', hasks.ledgers.trans h.ledgers, hasks.delegates.trans h.delegates,
    h.run.beside hfollowed, ?_, hmirrors, hasks.clear h.clear, ?_⟩
  · rw [Custody.requests, hpetitions]
    exact h.requests
  · rw [hpetitions]
    exact h.carried.congr (hasks.requests h.clear)

/-- **A request gets on**, and what ledgers answer it is heard. -/
theorem turn (h : Covers g₀ settings capacity rs [i] c g) (hp : c.petitions[i]? = some p)
    {said : List Testimony} (hhears : p.Hears p' said) {asked : List (String × Ledger.Query)}
    (hasks : Asks asked g g') (hattests : Attests said g g') :
    Covers g₀ settings capacity rs [i] (c.turns i p' said) g' ∧
      (c.turns i p' said).petitions[i]? = some p' := by
  refine ⟨⟨hasks.ledgers.trans h.ledgers, hasks.delegates.trans h.delegates,
    Relation.ReflTransGen.tail h.run (.turn hp hhears), ?_, ?_, hasks.clear h.clear,
    (h.carried.set p').congr (hasks.requests h.clear)⟩,
    List.getElem?_set_self (List.getElem?_eq_some_iff.1 hp).1⟩
  · rw [Custody.requests_turns said hp hhears.same]
    exact h.requests
  · exact h.mirrors.attests hattests (Custody.said_turns c i p' said) rfl rfl

/-- A request comes in. -/
theorem take (h : Covers g₀ settings capacity rs [] c g) (e : Errand) (operation : String)
    (input : Option Input) :
    ∃ c', Covers g₀ settings capacity (rs ++ [(operation, input)]) [] c'
      (g.enqueue (.plan e operation input)) := by
  let new : Petition := .new g₀.ledgers g₀.delegates operation input
  refine ⟨{ c with petitions := c.petitions ++ [new] }, h.ledgers, h.delegates,
    Relation.ReflTransGen.tail h.run (.take operation input), ?_,
    ⟨h.mirrors.ledgers, h.mirrors.said, h.mirrors.trackers, h.mirrors.told, h.mirrors.phases⟩,
    h.clear, h.carried.take e operation input⟩
  rw [← h.requests, Custody.requests, List.map_append]
  rfl

variable [Outside W]

/-- **A request is planned** with what the directories say now. -/
theorem learns {plan : Store.Inquiry (Except Fault (Route Delegate))}
    (h : Covers g₀ settings capacity rs [i] c g) (hp : c.petitions[i]? = some p)
    (hplan : p.progress = .planning plan) :
    ∃ c' p', Covers g₀ settings capacity rs [i] c' g ∧ c'.petitions[i]? = some p' ∧
      p'.input = p.input ∧
      p'.progress = .planning (.done (plan.interrogate fun l => Outside.lookup l g.outside).1) := by
  induction plan generalizing c p with
  | done result => exact ⟨c, p, h, hp, rfl, hplan⟩
  | ask l resume ih =>
    obtain ⟨hturn, hp'⟩ := h.turn hp (.learn (Outside.lookup l g.outside) hplan) (Idle.refl g)
      (.refl g)
    -- what is left is planned for the same request
    obtain ⟨c', p', h', hp', hinput, hplanned⟩ := ih _ hturn hp' rfl
    exact ⟨c', p', h', hp', hinput, hplanned⟩

/-- **A request is worked on**, and whatever is outside answers. -/
theorem works {k : String} {work : Delegate.Work} (h : Covers g₀ settings capacity rs [i] c g)
    (hp : c.petitions[i]? = some p) (hwork : p.progress = .working k work) :
    ∃ c' p', Covers g₀ settings capacity rs [i] c' (work.run (consult k) g).2 ∧
      c'.petitions[i]? = some p' ∧
      p'.progress = .working k (.done (work.run (consult k) g).1) := by
  induction work generalizing c p g with
  | done outcome => exact ⟨c, p, h, hp, hwork⟩
  | ask q resume ih =>
    obtain ⟨asked, -, hasks⟩ := asks_consult k q g
    obtain ⟨said, htestifies, hattests⟩ := attests_consult k q g
    obtain ⟨hturn, hp'⟩ := h.turn hp (.consult hwork htestifies) hasks hattests
    exact ih _ hturn hp' rfl

/-- **A request that is to be planned** is let go if it has no route, and else it is to be
    worked on. -/
theorem planJob (h : Covers g₀ settings capacity rs [i] c g) {e : Errand} {operation : String}
    {input : Option Input}
    (hi : Carries g₀.ledgers g₀.delegates c.petitions (.plan e operation input) i) :
    ∃ c', Covers g₀ settings capacity rs [] c' (g.planJob e operation input) := by
  obtain ⟨c₁, p₁, h₁, hp₁, hinput, hplanned⟩ := h.learns hi rfl
  rw [← h.ledgers, ← h.delegates] at hplanned
  unfold Gateway.planJob Gateway.plan
  rcases hresult : (Route.plan g.ledgers g.delegates operation input).interrogate
    fun l => Outside.lookup l g.outside with ⟨fault | route, asked⟩
  · rw [hresult] at hplanned
    let counted : Gateway (Recorded (Attesting W)) :=
      { g with meters := g.meters.grow 1 .unroutable }
    have hcounted : Idle g counted := .of_bearing rfl
    have hplace : (counted.conclude e (.error fault)).place = g.place := place_conclude ..
    obtain ⟨hreject, -⟩ := h₁.turn hp₁ (.reject hplanned)
      (hcounted.trans (.conclude counted e (.error fault))) (.of_place hplace)
    exact ⟨_, hreject.letGo⟩
  · rw [hresult] at hplanned
    let counted : Gateway (Recorded (Attesting W)) := { g with meters := g.meters.grow 1 .routed }
    have hcarried : Carried g₀.ledgers g₀.delegates c₁.petitions [i] counted := h₁.carried
    exact ⟨c₁, { h₁ with
      mirrors := h₁.mirrors.still rfl
      carried := hcarried.handOn ⟨p₁, hp₁, hinput, hplanned⟩ rfl }⟩

/-- **A request that is to be worked on** is worked on to the end. -/
theorem applyJob (h : Covers g₀ settings capacity rs [i] c g) {e : Errand}
    {route : Route Delegate} {input : Option Input}
    (hi : Carries g₀.ledgers g₀.delegates c.petitions (.apply e route input) i) :
    ∃ c', Covers g₀ settings capacity rs [] c' (g.applyJob e route input) := by
  obtain ⟨p, hp, rfl, hplanned⟩ := hi
  obtain ⟨hroute, hp'⟩ := h.turn hp (.route hplanned) (Idle.refl g) (.refl g)
  obtain ⟨c₁, p₁, h₁, hp₁, hworked⟩ := hroute.works hp' rfl
  unfold Gateway.applyJob
  dsimp only
  rcases hrun : (route.delegate.apply route.ledger p.input).run (consult route.ledger.id) g with
    ⟨outcome | ⟨mode, workId, recent⟩, g'⟩ <;> rw [hrun] at h₁ hworked
  · obtain ⟨hsettled, -⟩ := h₁.turn hp₁ (.settle hworked) (Idle.conclude g' e outcome)
      (.of_place (place_conclude g' e outcome))
    exact ⟨_, hsettled.letGo⟩
  · have hprepared := Idle.prepare g' e route.ledger.id mode workId recent
    refine ⟨(c₁.turns i (p₁.reaching .concluded) []).prepares route.ledger.id workId
      (.ticket g'.tickets), hprepared.ledgers.trans h₁.ledgers,
      hprepared.delegates.trans h₁.delegates,
      Relation.ReflTransGen.tail h₁.run (.prepare _ hp₁ hworked), ?_, ?_,
      hprepared.clear h₁.clear,
      ((h₁.carried.set (p₁.reaching .concluded)).congr (hprepared.requests h₁.clear)).letGo⟩
    · have hsame : (p₁.reaching .concluded).operation = p₁.operation ∧
          (p₁.reaching .concluded).input = p₁.input := ⟨rfl, rfl⟩
      exact (Custody.requests_turns [] hp₁ hsame).trans h₁.requests
    · have hturned : Mirrors settings nobody (c₁.turns i (p₁.reaching .concluded) []) g' :=
        h₁.mirrors.attests (.refl g') (Custody.said_turns c₁ i _ []) rfl rfl
      exact hturned.prepare e route.ledger.id mode workId recent

/-- **A job that is done** is done in custody. -/
theorem work (hown : ∀ k, (settings k).ledgerId = k) (h : Covers g₀ settings capacity rs [] c g)
    {job : Job} {rest : List Job} (hready : g.ready = job :: rest) :
    ∃ c', Covers g₀ settings capacity rs [] c' ({ g with ready := rest }.perform job) := by
  let taken : Gateway (Recorded (Attesting W)) := { g with ready := rest }
  have hbeside : job.isRequest = false → ∀ {g'}, Beside taken g' →
      (∀ {c}, Mirrors settings nobody c taken → Kept settings nobody c g') →
      ∃ c', Covers g₀ settings capacity rs [] c' g' := by
    intro hjob g' hbeside hkept
    have hidle : Idle g taken := by
      refine ⟨rfl, rfl, id, fun _ => ?_, (List.append_nil _).symm⟩
      rw [Gateway.requests, Gateway.requests, hready, List.filter_cons_of_neg (by simp [hjob])]
    exact h.beside (hidle.beside.trans hbeside) (hkept (h.mirrors.still rfl))
  have hstill : job.isRequest = false → ∀ {g'}, Idle taken g' → g'.place = taken.place →
      ∃ c', Covers g₀ settings capacity rs [] c' g' :=
    fun hjob _ hidle hplace =>
      hbeside hjob hidle.beside fun hmirrors => (hmirrors.still hplace).kept
  have htakeUp : job.isRequest = true → ∃ i, Covers g₀ settings capacity rs [i] c taken ∧
      Carries g₀.ledgers g₀.delegates c.petitions job i := by
    intro hjob
    obtain ⟨i, hcarried, hi⟩ := h.carried.takeUp hready hjob
    exact ⟨i, { h with mirrors := h.mirrors.still rfl, carried := hcarried }, hi⟩
  cases job with
  | plan e operation input =>
    obtain ⟨i, h', hi⟩ := htakeUp rfl
    exact h'.planJob hi
  | apply e route input =>
    obtain ⟨i, h', hi⟩ := htakeUp rfl
    exact h'.applyJob hi
  | scan k audience => exact hbeside rfl (.scan _ k audience) fun hm => kept_scan hm k audience
  | scanner =>
    exact hstill rfl ((Idle.discard _ _).trans (.runScanner _)) (place_runScanner _)
  | bootstrap k => exact hbeside rfl (.runEscrow _ k) fun hm => kept_runEscrow hown hm k
  | wake k => exact hbeside rfl (.wakeEscrow _ k) fun hm => kept_wakeEscrow hown hm k
  | answer k => exact hbeside rfl (.answerEscrow _ k) fun hm => kept_answerEscrow hown hm k
  | shutdown => exact hstill rfl (Idle.withShutdown _ _) (place_withShutdown _ _)

/-- **Whatever happens to a gateway happens in custody**, with the requests that come in, as long
    as nobody outside has work tracked. -/
theorem befalls (hown : ∀ k, (settings k).ledgerId = k)
    (h : Covers g₀ settings capacity rs [] c g) (event : Happening W)
    (hevent : event.tracks = false) :
    ∃ c', Covers g₀ settings capacity (rs ++ event.request?.toList) [] c' (g.befalls event) := by
  have hbeside : ∀ {g'}, Beside g g' → Kept settings nobody c g' →
      ∃ c', Covers g₀ settings capacity (rs ++ []) [] c' g' := by
    intro g' hbeside hkept
    rw [List.append_nil]
    exact h.beside hbeside hkept
  have hstill : ∀ {g'}, Idle g g' → g'.place = g.place →
      ∃ c', Covers g₀ settings capacity (rs ++ []) [] c' g' :=
    fun hidle hplace => hbeside hidle.beside (h.mirrors.still hplace).kept
  cases event with
  | request e operation input => exact h.take e operation input
  | work =>
    simp only [Gateway.befalls, Happening.map, Gateway.happens]
    split
    · exact hstill (.refl g) rfl
    · rename_i job rest hready
      rw [show (Happening.work : Happening W).request?.toList = [] from rfl, List.append_nil]
      exact h.work hown hready
  | pass time => exact hstill (.of_bearing rfl) rfl
  | ring => exact hstill (.ring g) rfl
  | change w =>
    have hchanged : Attests [] g (g.befalls (.change w)) := .of_desks rfl (List.append_nil _).symm
    have hidle : Idle g (g.befalls (.change w)) :=
      ⟨rfl, rfl, id, fun _ => rfl, (List.append_nil _).symm⟩
    exact hbeside hidle.beside (h.mirrors.attests hchanged (List.append_nil _).symm
      rfl rfl).kept
  | start => exact hbeside (Idle.start g).beside (kept_start h.mirrors)
  | track k workId => cases hevent
  | register k workId w isDone => cases hevent
  | scan k audience => exact hbeside (.scan g k audience) (kept_scan h.mirrors k audience)
  | hold => exact hstill (.of_bearing rfl) rfl
  | finishScan k => exact hbeside (.finishScan g k) (kept_finishScan h.mirrors k)
  | release => exact hstill (.of_bearing rfl) rfl
  | delay => exact hstill (.of_bearing rfl) rfl
  | listen sh => exact hstill (.of_bearing rfl) rfl
  | signal => exact hstill (.withShutdown g _) (place_withShutdown _ _)
  | signalLater time => exact hstill (.setTimer g time rfl) rfl
  | abort => exact hbeside (Idle.abort g).beside h.mirrors.abort.kept

end Covers

/-! ## The beginning -/

/-- What the bootstrap on the desk of a ledger is told; without one, whatever. -/
def instructions {V : Type} (g : Gateway V) (k : String) : Escrow.Settings :=
  ((g.escrowAt k).map (·.settings)).getD (.standard .besu k 0)

/-- A bootstrap is new, and on the desk of its own ledger. -/
theorem Built.escrowAt {V : Type} {config : Config} {fit : Fittings} {g : Gateway V}
    (h : Built config fit g) {k : String} {b : Escrow.Bootstrap} (hb : g.escrowAt k = some b) :
    b.phase = .idle ∧ b.settings.ledgerId = k := by
  obtain ⟨d, hd, hdesk⟩ := Option.bind_eq_some_iff.1 hb
  obtain ⟨l, -, hid, fee, -, rfl⟩ :=
    (escrow_of_desks h.desks).2 d (List.mem_of_find?_eq_some hd) b hdesk
  exact ⟨rfl, hid.trans (ledgerId_of_desk? hd)⟩

theorem Built.instructions {V : Type} {config : Config} {fit : Fittings} {g : Gateway V}
    (h : Built config fit g) (k : String) : (g.instructions k).ledgerId = k := by
  unfold Gateway.instructions
  cases hb : g.escrowAt k with
  | none => rfl
  | some b => exact (h.escrowAt hb).2

/-- **A gateway that was built is covered**, before anything has happened. -/
theorem covers_build {config : Config} {fit : Fittings} {w : W}
    {g₀ : Gateway (Recorded (Attesting W))} (hbuild : build config fit ⟨⟨w, []⟩, []⟩ = .ok g₀) :
    Covers g₀ g₀.instructions config.recentReceipts.toNat [] []
      (.opened config.recentReceipts.toNat) g₀ := by
  have hbuilt := built_of hbuild
  have houtside : g₀.outside = ⟨⟨w, []⟩, []⟩ := (build_ok hbuild).2.1
  have hfresh := hbuilt.fresh
  refine ⟨rfl, rfl, .refl, rfl, ⟨hbuilt.nodup, ?_, fun {k t} ht => ?_, fun hb => ?_, fun hb => ?_⟩,
    fun e he => ?_, [], List.nodup_nil, ?_⟩
  · rw [houtside]
    rfl
  · rw [hbuilt.trackerAt] at ht
    split at ht
    · exact Option.some.inj ht
    · cases ht
  · rw [Gateway.instructions, hb]
    rfl
  · rw [(hbuilt.escrowAt hb).1]
    rfl
  · rw [hfresh] at he
    cases he
  · rw [hfresh]
    exact .nil

/-! ## Provenance -/

variable [Outside W]

/-- **A gateway stays covered**, whatever has happened to it since it was built. -/
theorem covers_since {config : Config} {fit : Fittings} {w : W}
    {g₀ : Gateway (Recorded (Attesting W))} (hbuild : build config fit ⟨⟨w, []⟩, []⟩ = .ok g₀)
    (hs : List (Happening W)) (htracks : ∀ h ∈ hs, h.tracks = false) :
    ∃ c, Covers g₀ g₀.instructions config.recentReceipts.toNat (requestsOf hs) [] c
      (g₀.since hs) := by
  induction hs using List.reverseRecOn with
  | nil => exact ⟨_, covers_build hbuild⟩
  | append_singleton hs event ih =>
    obtain ⟨hpast, hevent⟩ := List.forall_mem_append.1 htracks
    obtain ⟨c, h⟩ := ih hpast
    have hrequests : requestsOf (hs ++ [event]) = requestsOf hs ++ event.request?.toList := by
      rw [requestsOf, List.filterMap_append]
      cases hrequest : event.request? <;> simp [requestsOf, hrequest]
    rw [since_concat, hrequests]
    exact h.befalls (built_of hbuild).instructions event (hevent event List.mem_cons_self)

/-- Custody has the requests that came in to a gateway, what its ledgers answered, and its
    trackers, which are only about ids that something speaks for. -/
structure Attested (g₀ : Gateway (Recorded (Attesting W))) (hs : List (Happening W))
    (c : Custody) : Prop where
  requests : c.requests = requestsOf hs
  said : c.said = (g₀.since hs).outside.said
  trackers : ∀ {k t}, (g₀.since hs).trackerAt k = some t →
    c.trackers k = t ∧ t.Within (c.Vouched k)

/-- A gateway tracks nothing that its ledgers have not vouched for. -/
structure Vouches (capacity : Nat) (g₀ : Gateway (Recorded (Attesting W))) : Prop where
  /-- However requests, scans and bootstraps get on beside each other, trackers are only about
      ids that their ledgers vouched for. -/
  interleaved : ∀ settings c, Custody.Run g₀.ledgers g₀.delegates settings capacity c →
    ∀ k, (c.trackers k).Within (c.Vouched k)
  /-- Whatever happens to the gateway happens in custody, as long as nobody outside has work
      tracked. -/
  running : ∀ hs : List (Happening W), (∀ h ∈ hs, h.tracks = false) → ∃ settings c,
    Custody.Run g₀.ledgers g₀.delegates settings capacity c ∧ Attested g₀ hs c

/-- **A gateway with the standard delegates tracks nothing that its ledgers have not vouched
    for.** -/
theorem vouches_of {config : Config} {fit : Fittings} {w : W}
    {g₀ : Gateway (Recorded (Attesting W))} (hbuild : build config fit ⟨⟨w, []⟩, []⟩ = .ok g₀)
    (hstandard : fit.delegates = []) : Vouches config.recentReceipts.toNat g₀ := by
  have hrouting := (built_of hbuild).routing hstandard
  refine ⟨fun settings c => Custody.within_run hrouting, fun hs htracks => ?_⟩
  obtain ⟨c, h⟩ := covers_since hbuild hs htracks
  refine ⟨_, c, h.run, h.requests, h.mirrors.said, fun {k t} ht => ?_⟩
  have htracker : c.trackers k = t := h.mirrors.trackers ht
  exact ⟨htracker, htracker ▸ Custody.within_run hrouting h.run k⟩

/-- A world whose ledger knows one unit of work that nobody here submitted. -/
def announcing : Stage := acquainted.setLedger "main" (Ledger.Rehearsal.new.announce "0xfee")

/-- The gateway of one ledger in that world, before its start. -/
def mainOffice : Gateway (Recorded (Attesting Stage)) :=
  .ofParts mainLedger ⟨[⟨"main", .besu, false⟩], "main"⟩
    ⟨(standardDelegates [.besu]).map fun d => (d.key, d)⟩ [.new "main" 1024 10000 none]
    ⟨⟨announcing, []⟩, []⟩

/-- A call, and two questions about work: the ledger knows of the one, and nothing of the other.
    Then the ledger is scanned. -/
def oneCall : List (Happening Stage) :=
  [.request (.call "call" 0) "TX.SUBMIT_CALL" (some (.call "0xa" "0xdead" .id)), .work, .work] ++
    ["0xfee", "0xbad"].flatMap (fun workId =>
      [.request (.call workId 0) "TX.GET_TRANSACTION_RESULT"
        (some (.transactionQuery "main" workId)), .work, .work]) ++
    [.scan "main" none]

/-- The call and the work that is known are polled for, and nothing else; something speaks for
    both. -/
theorem vouches_oneCall :
    build mainLedger plainFittings ⟨⟨announcing, []⟩, []⟩ = .ok mainOffice ∧
      ((mainOffice.since oneCall).trackerAt "main").map (fun t => Entries.keys t.pending) =
        some [Ledger.Rehearsal.nthWorkId 1, "0xfee"] ∧
      ∃ c, Attested mainOffice oneCall c ∧
        c.Vouched "main" (Ledger.Rehearsal.nthWorkId 1) ∧ c.Vouched "main" "0xfee" := by
  have hbuild : build mainLedger plainFittings ⟨⟨announcing, []⟩, []⟩ = .ok mainOffice := rfl
  have hpending : ((mainOffice.since oneCall).trackerAt "main").map
      (fun t => Entries.keys t.pending) = some [Ledger.Rehearsal.nthWorkId 1, "0xfee"] := by
    decide +kernel
  obtain ⟨settings, c, -, h⟩ := (vouches_of hbuild rfl).running oneCall (by decide)
  obtain ⟨t, ht, hkeys⟩ := Option.map_eq_some_iff.1 hpending
  have hwithin := (h.trackers ht).2.pending
  rw [hkeys] at hwithin
  exact ⟨hbuild, hpending, c, h, hwithin _ List.mem_cons_self,
    hwithin _ (List.mem_cons_of_mem _ List.mem_cons_self)⟩

end Gateway

end LedgerGate
