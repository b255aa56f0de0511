/-
  The routine of a gateway: whatever a gateway does when it runs happens on its floor.

  A gateway that runs does one job after the other, each in one go.  On the floor this is a
  run like any other: a request is taken, planned and worked on question by question, a scan
  goes from answer to answer, and what a tracker hands out is delivered at once.

  * `Gateway.Plays`: a gateway comes to another by what can happen on a floor, and leaves
    nothing in the post;
  * `plays_absorb`: **moves of a tracker, with the receipts that they hand out**;
  * `Proceeds`: the same, and no request is routed anew;
  * `plays_planJob`, `proceeds_applyJob`: **requests**, in two jobs;
  * `OnFloor.moves`: **whatever happens to a gateway** that was built keeps it on its floor.
-/
import LedgerGate.Proofs.Delegate.Submission
import LedgerGate.Proofs.Gateway.Byplay

namespace LedgerGate

/-! ## Moves in a row -/

/-- No ticket is registered by some moves. -/
def Unlisted (ms : List (Receipt.Move Waiter)) : Prop :=
  ∀ m ∈ ms, ∀ workId ticket, m.registration? ≠ some (workId, .ticket ticket)

theorem Unlisted.nil : Unlisted [] := fun m hm => by cases hm

theorem Unlisted.cons {m : Receipt.Move Waiter} {ms : List (Receipt.Move Waiter)}
    (h : Unlisted ms) (hm : ∀ workId ticket, m.registration? ≠ some (workId, .ticket ticket)) :
    Unlisted (m :: ms) :=
  List.forall_mem_cons.2 ⟨hm, h⟩

theorem unlisted_answers (answers : List (Except Ledger.Error (Option Confirmation))) :
    Unlisted (answers.map .answer) := by
  induction answers with
  | nil => exact .nil
  | cons a answers ih => exact ih.cons (by simp [Receipt.Move.registration?])

/-! ## Runs on a floor -/

namespace Floor

variable {W : Type}

/-- A request is where it has got on to. -/
theorem getElem?_turns {f : Floor W} {i : Nat} {t : Task} (ht : f.tasks[i]? = some t)
    (p : Progress) (g : Gateway W) (more : List Note) : (f.turns i t p g more).tasks[i]? =
      some { t with progress := p, said := t.said ++ f.gateway.responsesSince g } :=
  List.getElem?_set_self (List.getElem?_eq_some_iff.1 ht).1

/-- Letters are delivered in their order. -/
theorem delivers_all (k : String) (handed : List (Waiter × Confirmation)) {f : Floor W}
    (hpost : f.post = lettersFrom k handed) :
    ∃ f', Relation.ReflTransGen Step f f' ∧ f'.post = [] ∧
      f'.gateway = handed.foldl (fun g h => g.handOver k h.1 h.2) f.gateway := by
  induction handed generalizing f with
  | nil => exact ⟨f, .refl, hpost, rfl⟩
  | cons h hs ih =>
    obtain ⟨f', hrun, hpost', hgateway⟩ :=
      ih (f := f.delivers ⟨k, h.1, h.2⟩ (lettersFrom k hs)) rfl
    exact ⟨f', .head (.deliver (hpost.trans (List.nil_append _).symm)) hrun, hpost', hgateway⟩

/-- A tracker makes some moves, and nothing is delivered meanwhile. -/
theorem tends_all (k : String) {ms : List (Receipt.Move Waiter)} (hms : Unlisted ms)
    (f : Floor W) : ∃ f', Relation.ReflTransGen Step f f' ∧
      Gateway.SameDealings f.gateway f'.gateway ∧
      (∀ ledgerId, f'.gateway.trackerAt ledgerId =
        if ledgerId = k then (f.gateway.trackerAt k).map fun t => (t.afterAll ms).1
        else f.gateway.trackerAt ledgerId) ∧
      f'.post = f.post ++ lettersFrom k ((f.gateway.trackerAt k).elim [] fun t =>
        Receipt.dispatches (t.afterAll ms).2) := by
  induction ms generalizing f with
  | nil =>
    refine ⟨f, .refl, .refl _, fun ledgerId => ?_, ?_⟩
    · split
      · rename_i hk
        rw [hk]
        exact Option.map_id'.symm
      · rfl
    · cases f.gateway.trackerAt k <;> exact (List.append_nil _).symm
  | cons m ms ih =>
    obtain ⟨hsame, htrackers, hdispatched⟩ := f.gateway.tend_spec k m
    obtain ⟨f', hrun, hsame', htrackers', hpost⟩ :=
      ih (fun m' hm' => hms m' (List.mem_cons_of_mem m hm')) (f.tends k m)
    refine ⟨f', .head (.tend k m (hms m List.mem_cons_self)) hrun, hsame.trans hsame',
      fun ledgerId => ?_, ?_⟩
    · rw [htrackers']
      show (if _ then ((f.gateway.tend k m).2.trackerAt k).map _
        else (f.gateway.tend k m).2.trackerAt ledgerId) = _
      rw [htrackers, htrackers, if_pos rfl]
      split
      · rw [Option.map_map]
        rfl
      · rfl
    · rw [hpost]
      show (f.post ++ lettersFrom k (f.gateway.tend k m).1) ++
        lettersFrom k (((f.gateway.tend k m).2.trackerAt k).elim _ _) = _
      rw [hdispatched, htrackers, if_pos rfl, List.append_assoc]
      cases f.gateway.trackerAt k with
      | none => rfl
      | some t =>
        simp only [Option.elim_some, Option.map_some, lettersFrom, ← List.map_append,
          ← Receipt.dispatches_append]
        rfl

/-- The directories answer until a request is planned. -/
theorem learns_all {plan : Store.Inquiry (Except Fault (Route Delegate))}
    {result : Except Fault (Route Delegate)} (hplan : plan.Reaches result) {f : Floor W} {i : Nat}
    {t : Task} (ht : f.tasks[i]? = some t) (hp : t.progress = .planning plan) :
    ∃ f' t', Relation.ReflTransGen Step f f' ∧ f'.gateway = f.gateway ∧ f'.post = f.post ∧
      f'.tasks[i]? = some t' ∧ t'.errand = t.errand ∧ t'.input = t.input ∧
      t'.progress = .planning (.done result) := by
  induction hplan generalizing f t with
  | done a => exact ⟨f, t, .refl, rfl, rfl, ht, rfl, rfl, hp⟩
  | @ask l resume a answer _ ih =>
    have hstep : Step f (f.turns i t (.planning (resume answer)) f.gateway []) :=
      .turn ht (.learn answer hp)
    obtain ⟨f', t', hrun, h⟩ := ih (getElem?_turns ht _ _ _) rfl
    exact ⟨f', t', .head hstep hrun, h⟩

/-- A delegate works until it has an outcome, and whatever is outside answers it. -/
theorem works_all [Outside W] {k : String} (work : Delegate.Work) {f : Floor W} {i : Nat}
    {t : Task} (ht : f.tasks[i]? = some t) (hp : t.progress = .working k work) :
    ∃ f' t', Relation.ReflTransGen Step f f' ∧
      f'.gateway = (work.run (Gateway.consult k) f.gateway).2 ∧ f'.post = f.post ∧
      f'.tasks[i]? = some t' ∧ t'.errand = t.errand ∧
      t'.progress = .working k (.done (work.run (Gateway.consult k) f.gateway).1) := by
  induction work generalizing f t with
  | done outcome => exact ⟨f, t, .refl, rfl, rfl, ht, rfl, hp⟩
  | ask q resume ih =>
    let answer := (Gateway.consult k q f.gateway).1
    let f₁ := f.turns i t (.working k (resume answer)) f.gateway (Note.ofAnswer i k q answer)
    have hturn : Step f f₁ := .turn ht (.consult answer hp)
    have haside : Step f₁ { f₁ with gateway := (Gateway.consult k q f.gateway).2 } :=
      .aside (Gateway.Byplay.consult k q f.gateway).toAside
    have hi : f₁.tasks[i]? = some _ := getElem?_turns ht ..
    obtain ⟨f', t', hrun, h⟩ :=
      ih answer (f := { f₁ with gateway := (Gateway.consult k q f.gateway).2 }) hi rfl
    exact ⟨f', t', .head hturn (.head haside hrun), h⟩

end Floor

/-! ## What a gateway does -/

namespace Gateway

open Floor (Step)

variable {W : Type} {g g' g'' g₀ : Gateway W}

/-- A gateway comes to another by what can happen on a floor, whatever else there is, and
    leaves nothing in the post. -/
def Plays (g g' : Gateway W) : Prop :=
  ∀ f : Floor W, f.gateway = g → f.post = [] →
    ∃ f', Relation.ReflTransGen Step f f' ∧ f'.gateway = g' ∧ f'.post = []

theorem Plays.refl (g : Gateway W) : Plays g g := fun f hg hpost => ⟨f, .refl, hg, hpost⟩

theorem Plays.trans (h : Plays g g') (h' : Plays g' g'') : Plays g g'' := by
  intro f hg hpost
  obtain ⟨f', hrun, hg', hpost'⟩ := h f hg hpost
  obtain ⟨f'', hrun', hg'', hpost''⟩ := h' f' hg' hpost'
  exact ⟨f'', hrun.trans hrun', hg'', hpost''⟩

theorem Aside.plays (h : Aside g g') : Plays g g' := by
  rintro f rfl hpost
  exact ⟨_, .single (.aside h), rfl, hpost⟩

/-- **Moves of a tracker, with the receipts that they hand out.**  What else changes meanwhile
    is no matter of requests. -/
theorem plays_absorb {k : String} {t : Receipt.Tracker Waiter} (ht : g.trackerAt k = some t)
    {ms : List (Receipt.Move Waiter)} (hms : Unlisted ms) (hsame : SameDealings g g')
    (htrackers : ∀ ledgerId, g'.trackerAt ledgerId =
      if ledgerId = k then some (t.afterAll ms).1 else g.trackerAt ledgerId) :
    Plays g (g'.absorb k (t.afterAll ms).2) := by
  rintro f rfl hpost
  obtain ⟨f₁, htends, hsame₁, htrackers₁, hpost₁⟩ := f.tends_all k hms
  rw [hpost, ht] at hpost₁
  let g₁ : Gateway W := { g' with meters := g'.meters.observeAll (t.afterAll ms).2 }
  have hmeters : Aside g' g₁ := .of_core rfl
  have haside : Aside f₁.gateway g₁ := by
    refine ⟨(hsame₁.symm.trans hsame).trans hmeters.toSameDealings, fun ledgerId => ?_⟩
    rw [hmeters.trackers, htrackers, htrackers₁, ht]
    rfl
  obtain ⟨f₂, hdelivers, hpost₂, hgateway⟩ :=
    Floor.delivers_all k (Receipt.dispatches (t.afterAll ms).2)
      (f := { f₁ with gateway := g₁ }) hpost₁
  exact ⟨f₂, htends.trans (.head (.aside haside) hdelivers), hgateway, hpost₂⟩

/-- What a gateway does on a floor, if it routes no request. -/
structure Proceeds (g g' : Gateway W) : Prop extends SameRoutes g g' where
  plays : Plays g g'

theorem Proceeds.refl (g : Gateway W) : Proceeds g g := ⟨.refl g, .refl g⟩

theorem Proceeds.trans (h : Proceeds g g') (h' : Proceeds g' g'') : Proceeds g g'' :=
  ⟨h.toSameRoutes.trans h'.toSameRoutes, h.plays.trans h'.plays⟩

theorem Byplay.proceeds (h : Byplay g g') : Proceeds g g' := ⟨.of_byplay h, h.toAside.plays⟩

theorem Proceeds.byplay (h : Proceeds g g') (h' : Byplay g' g'') : Proceeds g g'' :=
  h.trans h'.proceeds

/-! ## Receipts and scans -/

/-- Moves of the tracker on a desk, while the desk changes in other ways too. -/
theorem proceeds_desk {k : String} {d : Desk} (hd : g.desk? k = some d)
    {ms : List (Receipt.Move Waiter)} (hms : Unlisted ms) (change : Desk → Desk)
    (hid : ∀ d, d.ledgerId = k → (change d).ledgerId = k)
    (hchange : (change d).tracker = (d.tracker.afterAll ms).1) (w : W) :
    Proceeds g (({ g with outside := w }.updateDesk k change).absorb k
      (d.tracker.afterAll ms).2) := by
  have ht : g.trackerAt k = some d.tracker := by rw [trackerAt, hd]; rfl
  have hchanged : SameRoutes g ({ g with outside := w }.updateDesk k change) :=
    ⟨rfl, rfl, fun _ => id⟩
  refine ⟨hchanged.trans (.absorb _ k _),
    plays_absorb ht hms ⟨rfl, rfl, rfl, rfl, rfl, rfl⟩ fun ledgerId => ?_⟩
  have hafter := trackerAt_updateDesk (g := { g with outside := w }) hid ledgerId
  have hd' : ({ g with outside := w } : Gateway W).desk? k = some d := hd
  rw [hafter, hd', Option.map_some, hchange]
  rfl

/-- **An operation of a tracker.** -/
theorem proceeds_withTracker (g : Gateway W) (k : String) {m : Receipt.Move Waiter}
    (hm : ∀ workId ticket, m.registration? ≠ some (workId, .ticket ticket)) :
    Proceeds g (g.withTracker k (·.after m)) := by
  rw [withTracker_after, withDesk]
  cases hd : g.desk? k with
  | none => exact Byplay.proceeds (.of_core rfl)
  | some d =>
    have hid : d.ledgerId = k := ledgerId_of_desk? hd
    have h := proceeds_desk hd (Unlisted.nil.cons hm)
      (fun _ => { d with tracker := (d.tracker.after m).1 })
      (fun _ _ => hid) (by rw [Receipt.Tracker.afterAll_singleton]) g.outside
    rwa [Receipt.Tracker.afterAll_singleton] at h

section
variable [Outside W]

theorem proceeds_finishScan (g : Gateway W) (k : String) : Proceeds g (g.finishScan k).2 := by
  rw [finishScan_eq]
  split
  · exact .refl g
  · rename_i d hd
    split
    · exact .refl g
    · rename_i sc _
      obtain ⟨answers, hrun⟩ := d.tracker.runScan_eq_afterAll (askOutside k) (sc.rest.length + 1)
        g.outside
      rcases hscan : d.tracker.runScan (askOutside k) (sc.rest.length + 1) g.outside with
        ⟨tracker, notices, report, outside⟩
      rw [hscan] at hrun
      have h := proceeds_desk hd (unlisted_answers answers)
        (fun d => { d with tracker, audience := none }) (fun _ h => h)
        (by rw [hrun]) outside
      rw [hrun] at h
      dsimp only
      split
      · exact h.byplay (.reportScan ..)
      · exact h

/-- **A scan**, from its beginning on. -/
theorem proceeds_scan (g : Gateway W) (k : String) (audience : Option String) :
    Proceeds g (g.scan k audience).2 := by
  rw [scan_eq]
  split
  · exact .refl g
  · rename_i d hd
    have hms : Unlisted [.scan d.tracker.pendingIds] :=
      Unlisted.nil.cons (by simp [Receipt.Move.registration?])
    have hafter : d.tracker.afterAll [.scan d.tracker.pendingIds] =
        (d.tracker.beginScan.1, d.tracker.beginScan.2.1) := Receipt.Tracker.afterAll_singleton _ _
    split
    · rename_i tracker notices report hbegin
      rw [hbegin] at hafter
      have h := proceeds_desk hd hms (fun d => { d with tracker }) (fun _ h => h)
        (by rw [hafter]) g.outside
      rw [hafter] at h
      exact h.byplay (.reportScan ..)
    · rename_i tracker notices hbegin
      rw [hbegin] at hafter
      have h := proceeds_desk hd hms (fun d => { d with tracker, audience })
        (fun _ h => h) (by rw [hafter]) g.outside
      rw [hafter] at h
      dsimp only
      split
      · exact h
      · exact h.trans (proceeds_finishScan _ k)

/-! ## Requests -/

omit [Outside W] in
/-- A request without a route is taken, planned and concluded. -/
theorem plays_reject {e : Errand} {operation : String} {input : Option Input} {fault : Fault}
    (hplan : (Route.plan g.ledgers g.delegates operation input).Reaches (.error fault)) :
    Plays g (g.conclude e (.error fault)) := by
  rintro f rfl hpost
  obtain ⟨f', t', hlearns, hgateway, hpost', ht', herrand, -, hp⟩ := Floor.learns_all hplan
    (f := f.takes e operation input) List.getElem?_concat_length rfl
  have htake : Step f (f.takes e operation input) := .take e operation input
  refine ⟨_, .head htake (hlearns.tail (.turn ht' (.reject hp))), ?_, hpost'.trans hpost⟩
  show f'.gateway.conclude t'.errand (.error fault) = _
  rw [hgateway, herrand]
  rfl

/-- **A request that is planned** is concluded if it has no route, and else it is routed. -/
theorem planJob_cases (g : Gateway W) (e : Errand) (operation : String) (input : Option Input) :
    Proceeds g (g.planJob e operation input) ∨
      ∃ route, (Route.plan g.ledgers g.delegates operation input).Reaches (.ok route) ∧
        g.planJob e operation input = { g with meters := g.meters.grow 1 .routed }.enqueue
          (.apply e route input) := by
  have hreaches := Dialogue.reaches_interrogate (fun l => Outside.lookup l g.outside)
    (Route.plan g.ledgers g.delegates operation input)
  unfold planJob plan
  rcases hresult : (Route.plan g.ledgers g.delegates operation input).interrogate
    fun l => Outside.lookup l g.outside with ⟨fault | route, asked⟩
  · rw [hresult] at hreaches
    let g₁ : Gateway W := { g with meters := g.meters.grow 1 .unroutable }
    have hmeters : Byplay g g₁ := .of_core rfl
    exact Or.inl (hmeters.proceeds.trans ⟨.conclude g₁ e _, plays_reject hreaches⟩)
  · rw [hresult] at hreaches
    exact Or.inr ⟨route, hreaches, rfl⟩

theorem byplay_run (k : String) (work : Delegate.Work) (g : Gateway W) :
    Byplay g (work.run (consult k) g).2 := by
  induction work generalizing g with
  | done outcome => exact .refl g
  | ask q resume ih => exact (Byplay.consult k q g).trans (ih _ _)

/-- A request that has a route is taken, planned and worked on to the end. -/
theorem works_request (e : Errand) {operation : String} {input : Option Input}
    {route : Route Delegate} {f : Floor W} (hplan : (Route.plan f.gateway.ledgers
      f.gateway.delegates operation input).Reaches (.ok route)) :
    ∃ f' t', Relation.ReflTransGen Step f f' ∧ f'.post = f.post ∧
      f'.tasks[f.tasks.length]? = some t' ∧ t'.errand = e ∧
      f'.gateway = ((route.delegate.apply route.ledger input).run (consult route.ledger.id)
        f.gateway).2 ∧
      t'.progress = .working route.ledger.id (.done ((route.delegate.apply route.ledger input).run
        (consult route.ledger.id) f.gateway).1) := by
  obtain ⟨f₁, t₁, hlearns, hgateway₁, hpost₁, ht₁, herrand₁, hinput₁, hp₁⟩ :=
    Floor.learns_all hplan (f := f.takes e operation input) List.getElem?_concat_length rfl
  let f₂ := f₁.turns f.tasks.length t₁
    (.working route.ledger.id (route.delegate.apply route.ledger t₁.input)) f₁.gateway []
  have htake : Step f (f.takes e operation input) := .take e operation input
  have hroute : Step f₁ f₂ := .turn ht₁ (.route hp₁)
  have ht₂ : f₂.tasks[f.tasks.length]? = some _ := Floor.getElem?_turns ht₁ ..
  obtain ⟨f₃, t₃, hworks, hgateway₃, hpost₃, ht₃, herrand₃, hp₃⟩ := Floor.works_all _ ht₂ rfl
  have hgateway : f₂.gateway = f.gateway := hgateway₁
  rw [hgateway] at hgateway₃ hp₃
  rw [hinput₁] at hgateway₃ hp₃
  exact ⟨f₃, t₃, .head htake (hlearns.trans (.head hroute hworks)), hpost₃.trans hpost₁, ht₃,
    herrand₃.trans herrand₁, hgateway₃, hp₃⟩

/-- **A request that was routed** is worked on, and then it is concluded or prepared. -/
theorem proceeds_applyJob {e : Errand} {operation : String} {input : Option Input}
    {route : Route Delegate}
    (hplan : (Route.plan g.ledgers g.delegates operation input).Reaches (.ok route)) :
    Proceeds g (g.applyJob e route input) := by
  have hanswered := g.byplay_run route.ledger.id (route.delegate.apply route.ledger input)
  unfold applyJob
  dsimp only
  rcases hrun : (route.delegate.apply route.ledger input).run (consult route.ledger.id) g with
    ⟨outcome | ⟨mode, workId, recent⟩, g'⟩ <;> rw [hrun] at hanswered
  · refine ⟨(SameRoutes.of_byplay hanswered).trans (.conclude _ _ _), ?_⟩
    rintro f rfl hpost
    obtain ⟨f', t', hworks, hpost', ht', herrand, hgateway, hp⟩ := works_request e hplan
    rw [hrun] at hgateway hp
    refine ⟨_, hworks.tail (.turn ht' (.settle hp)), ?_, hpost'.trans hpost⟩
    show f'.gateway.conclude t'.errand outcome = _
    rw [hgateway, herrand]
  · refine ⟨(SameRoutes.of_byplay hanswered).trans (.prepare _ _ _ _ _ _), ?_⟩
    rintro f rfl hpost
    obtain ⟨f', t', hworks, hpost', ht', herrand, hgateway, hp⟩ := works_request e hplan
    rw [hrun] at hgateway hp
    refine ⟨_, hworks.tail (.turn ht' (.prepare hp)), ?_, hpost'.trans hpost⟩
    show f'.gateway.prepare t'.errand _ mode workId recent = _
    rw [hgateway, herrand]

/-! ## Escrows -/

omit [Outside W] in
/-- Receipts that no ticket waits for are no matter of requests. -/
theorem absorb_aside (g : Gateway W) (k : String) {notices : List (Receipt.Notice Waiter)}
    (h : ∀ d ∈ Receipt.dispatches notices, ∀ n, d.1 ≠ .ticket n) :
    Aside g (g.absorb k notices) := by
  have hfold : ∀ (handed : List (Waiter × Confirmation)) (g : Gateway W),
      (∀ d ∈ handed, ∀ n, d.1 ≠ .ticket n) →
        Aside g (handed.foldl (fun g h => g.handOver k h.1 h.2) g) := by
    intro handed
    induction handed with
    | nil => exact fun g _ => .refl g
    | cons d ds ih =>
      intro g h
      exact (g.handOver_aside k (h d List.mem_cons_self) d.2).trans
        (ih _ fun d' hd' => h d' (List.mem_cons_of_mem d hd'))
  have hmeters : Aside g { g with meters := g.meters.observeAll notices } :=
    .of_core rfl
  exact hmeters.trans (hfold _ _ h)

theorem proceeds_track (s : Escrow.Settings) (workId : WorkId) (g : Gateway W) :
    Proceeds g ((surroundings s).track workId g).2 := by
  simp only [surroundings, withDesk]
  cases hd : g.desk? s.ledgerId with
  | none => exact Byplay.proceeds (.of_core rfl)
  | some d =>
    have hid : d.ledgerId = s.ledgerId := ledgerId_of_desk? hd
    have ht : g.trackerAt s.ledgerId = some d.tracker := by rw [trackerAt, hd]; rfl
    have hms : Unlisted [.track workId, .register workId .escrow false] :=
      (Unlisted.nil.cons (by simp [Receipt.Move.registration?])).cons
        (by simp [Receipt.Move.registration?])
    have hafter : d.tracker.afterAll [.track workId, .register workId .escrow false] =
        d.tracker.prepare workId .escrow := by
      rw [Receipt.Tracker.afterAll, Receipt.Tracker.afterAll_singleton]
      rfl
    -- the bootstrap that waits hears of the receipt at once, so the letter to it is of no use
    let g₁ := g.updateDesk s.ledgerId fun _ => (d.prepare workId .escrow).1
    have htrackers : ∀ ledgerId, g₁.trackerAt ledgerId = if ledgerId = s.ledgerId then
        some (d.tracker.prepare workId .escrow).1 else g.trackerAt ledgerId := by
      intro ledgerId
      have hupdated := trackerAt_updateDesk (g := g) (f := fun _ => (d.prepare workId .escrow).1)
        (fun _ _ => hid) ledgerId
      rwa [hd] at hupdated
    have hplays : Plays g (g₁.absorb s.ledgerId (d.tracker.prepare workId .escrow).2) := by
      rw [← hafter] at htrackers ⊢
      exact plays_absorb ht hms ⟨rfl, rfl, rfl, rfl, rfl, rfl⟩ htrackers
    have habsorbed : Aside g₁ (g₁.absorb s.ledgerId (d.tracker.prepare workId .escrow).2) := by
      refine g₁.absorb_aside s.ledgerId fun h hh n => ?_
      rw [d.tracker.waiter_of_prepare workId .escrow h hh]
      exact Waiter.noConfusion
    have hmeters : Aside g₁ { g₁ with
        meters := g₁.meters.observeAll (d.tracker.prepare workId .escrow).2 } :=
      .of_core rfl
    exact ⟨⟨rfl, rfl, fun _ => id⟩, hplays.trans (habsorbed.symm.trans hmeters).plays⟩

/-- **The work of a bootstrap** goes on beside requests. -/
theorem keeps_proceeds (s : Escrow.Settings) (g : Gateway W) :
    (surroundings s).Keeps fun g' : Gateway W => Proceeds g g' where
  lease h := h.byplay (.of_core rfl)
  unlease {g'} h := by
    have hdropped : Byplay g' { g' with leases := (g'.leases.drop s.ledgerId).cleanup } :=
      .of_core rfl
    exact h.byplay (hdropped.trans (.grantLeases _))
  store q _ h := h.byplay (.of_core rfl)
  ledger q g' h := h.byplay (.askLedger g' s.ledgerId q)
  draw h := h.byplay (.of_core rfl)
  sleep _ _ h := h.byplay (.setTimer _ _ rfl)
  track workId g' h := h.trans (proceeds_track s workId g')
  alarm _ g' h := h.byplay (.withShutdown g' _)

theorem proceeds_runEscrow (g : Gateway W) (k : String) : Proceeds g (g.runEscrow k) := by
  rcases g.runEscrow_cases k with h | ⟨b, -, -, h⟩ <;> rw [h]
  · exact .refl g
  · have hdriven := Escrow.drive_keeps (keeps_proceeds b.settings g) b.settings Escrow.stretch
      b.phase (.refl g)
    exact hdriven.byplay (.tellEscrow _ k _)

theorem proceeds_answerEscrow (g : Gateway W) (k : String) : Proceeds g (g.answerEscrow k) := by
  rcases g.answerEscrow_cases k with h | ⟨b, -, -, phase, outside, -, h⟩ <;> rw [h]
  · exact .refl g
  · have hanswered : Byplay g { g with outside } := .of_core rfl
    exact (hanswered.trans (.tellEscrow _ k _)).proceeds.trans (proceeds_runEscrow _ k)

/-! ## On the floor -/

/-- A gateway is where it can come to on the floor of another, nothing is in the post, and the
    requests that are to be worked on were planned. -/
structure OnFloor (g₀ g : Gateway W) : Prop where
  run : ∃ f, Floor.Run g₀ f ∧ f.gateway = g ∧ f.post = []
  planned : ∀ x ∈ g.routed, ∃ operation,
    (Route.plan g.ledgers g.delegates operation x.2).Reaches (.ok x.1)

omit [Outside W] in
theorem OnFloor.proceeds (h : OnFloor g₀ g) (hp : Proceeds g g') : OnFloor g₀ g' where
  run := by
    obtain ⟨f, hrun, hg, hpost⟩ := h.run
    obtain ⟨f', hrun', hg', hpost'⟩ := hp.plays f hg hpost
    exact ⟨f', Relation.ReflTransGen.trans hrun hrun', hg', hpost'⟩
  planned x hx := by
    rw [hp.ledgers, hp.delegates]
    exact h.planned x (hp.routed hx)

omit [Outside W] in
theorem OnFloor.byplay (h : OnFloor g₀ g) (hp : Byplay g g') : OnFloor g₀ g' :=
  h.proceeds hp.proceeds

theorem OnFloor.planJob (h : OnFloor g₀ g) (e : Errand) (operation : String)
    (input : Option Input) : OnFloor g₀ (g.planJob e operation input) := by
  rcases g.planJob_cases e operation input with hp | ⟨route, hplan, heq⟩
  · exact h.proceeds hp
  · have hrouted : Aside g (g.planJob e operation input) := by
      rw [heq]
      exact ⟨⟨rfl, rfl, rfl, rfl, rfl, rfl⟩, fun _ => rfl⟩
    obtain ⟨f, hrun, hg, hpost⟩ := h.run
    obtain ⟨f', hrun', hg', hpost'⟩ := hrouted.plays f hg hpost
    refine ⟨⟨f', Relation.ReflTransGen.trans hrun hrun', hg', hpost'⟩, fun x hx => ?_⟩
    rw [hrouted.ledgers, hrouted.delegates]
    rw [heq] at hx
    rcases of_routed_enqueue hx with hx | rfl
    · exact h.planned x hx
    · exact ⟨operation, hplan⟩

/-- **A job that is done** keeps a gateway on its floor. -/
theorem OnFloor.work (h : OnFloor g₀ g) {job : Job} {rest : List Job}
    (hready : g.ready = job :: rest) : OnFloor g₀ ({ g with ready := rest }.perform job) := by
  have h' := h.byplay (.takeUp hready)
  cases job with
  | plan e operation input => exact h'.planJob e operation input
  | apply e route input =>
    have hmem : (route, input) ∈ g.routed := by
      refine List.mem_filterMap.2 ⟨.apply e route input, List.mem_append_left _ ?_, rfl⟩
      rw [hready]
      exact List.mem_cons_self
    obtain ⟨operation, hplan⟩ := h.planned _ hmem
    exact h'.proceeds (proceeds_applyJob hplan)
  | scan k audience => exact h'.proceeds (proceeds_scan _ k audience)
  | scanner => exact (h'.byplay (.timers _ List.filter_sublist)).byplay (.runScanner _)
  | bootstrap k => exact h'.proceeds (proceeds_runEscrow _ k)
  | wake k => exact (h'.byplay (.tellEscrow _ k _)).proceeds (proceeds_runEscrow _ k)
  | answer k => exact h'.proceeds (proceeds_answerEscrow _ k)
  | shutdown => exact h'.byplay (.withShutdown _ _)

variable {view : W → String → Option String}

/-- Something happens to a gateway, and nobody else registers a ticket with a tracker. -/
def MovesOn (view : W → String → Option String) (g g' : Gateway W) : Prop :=
  Moves view g g' ∧ ∀ k workId n, g' = g.register k workId (.ticket n) false → g' = g

/-- **Whatever happens to a gateway keeps it on its floor.** -/
theorem OnFloor.moves (h : OnFloor g₀ g) (hm : MovesOn view g g') : OnFloor g₀ g' := by
  obtain ⟨hm, htickets⟩ := hm
  cases hm with
  | work hready => exact h.work hready
  | pass => exact h.byplay (.of_core rfl)
  | ring => exact h.byplay (.ring g)
  | change => exact h.byplay (.of_core rfl)
  | start => exact h.byplay (.start g)
  | handle => exact h.byplay (.enqueue g rfl)
  | call => exact h.byplay (.enqueue g rfl)
  | track k workId =>
    exact h.proceeds
      (proceeds_withTracker g k (m := .track workId) (by simp [Receipt.Move.registration?]))
  | register k workId w isDone =>
    by_cases hw : isDone = false ∧ ∃ n, w = .ticket n
    · obtain ⟨rfl, n, rfl⟩ := hw
      rw [htickets k workId n rfl]
      exact h
    · refine h.proceeds (proceeds_withTracker g k (m := .register workId w isDone) ?_)
      intro workId' n hregistered
      cases isDone with
      | true => cases hregistered
      | false =>
        cases hregistered
        exact hw ⟨rfl, n, rfl⟩
  | scan k audience => exact h.proceeds (proceeds_scan g k audience)
  | hold => exact h.byplay (.of_core rfl)
  | finishScan k => exact h.proceeds (proceeds_finishScan g k)
  | release => exact h.byplay (.of_core rfl)
  | delay => exact h.byplay (.of_core rfl)
  | listen => exact h.byplay (.of_core rfl)
  | signal => exact h.byplay (.withShutdown g _)
  | signalLater time => exact h.byplay (.setTimer g time rfl)
  | abort => exact h.byplay (.abort g)

omit [Outside W] in
/-- A gateway that was built is on its floor. -/
theorem onFloor_build {c : Config} {fit : Fittings} {w : W} (hbuild : build c fit w = .ok g₀) :
    OnFloor g₀ g₀ := by
  refine ⟨⟨.opened g₀, .refl, rfl, rfl⟩, fun x hx => ?_⟩
  rw [(built_of hbuild).fresh] at hx
  cases hx

/-- **Whatever a gateway has come to since it was built**, its floor leads there. -/
theorem onFloor_of {c : Config} {fit : Fittings} {w : W} (hbuild : build c fit w = .ok g₀)
    (hrun : Relation.ReflTransGen (MovesOn view) g₀ g) : OnFloor g₀ g := by
  induction hrun with
  | refl => exact onFloor_build hbuild
  | tail _ hm ih => exact ih.moves hm

end

end Gateway

end LedgerGate
