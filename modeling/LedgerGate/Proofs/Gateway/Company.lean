/-
  Gateways in company: whatever happens to a gateway, in whatever order, while others use
  the same store.

  The jobs of a gateway, time, the world outside, its callers and its end come in any order.
  The others are members of a contest like its own bootstraps, be they those of other
  gateways or of earlier and later ones.

  * `Gateway.Moves`: all that can happen to a gateway;
  * `follows_moves`: **the contest follows a gateway** through all of it;
  * `Seating`, `seated_build`: every gateway finds its seats when it is built;
  * `InCompany`: a gateway and the others, from its beginning on.
-/
import LedgerGate.Proofs.Gateway.Building
import LedgerGate.Proofs.Gateway.Seats
import Mathlib.Logic.Relation

namespace LedgerGate

open Escrow

/-! ## Crashes -/

namespace Escrow.Contest

variable {I : Type} [DecidableEq I]

/-- Some members crash, those that have not crashed before. -/
theorem run_crashes (settings : I → Settings) (members : List I) (c : Contest I) :
    ∃ acts c', Run settings c acts c' ∧ c'.values = c.values ∧ c'.phase = c.phase ∧
      ∀ i, c'.crashed i = (c.crashed i || decide (i ∈ members)) := by
  induction members generalizing c with
  | nil => exact ⟨[], c, .refl c, rfl, rfl, fun i => by simp⟩
  | cons member members ih =>
    cases hcrashed : c.crashed member with
    | true =>
      obtain ⟨acts, c', hrun, hvalues, hphase, hall⟩ := ih c
      refine ⟨acts, c', hrun, hvalues, hphase, fun i => ?_⟩
      rw [hall]
      by_cases hi : i = member
      · subst hi; simp [hcrashed]
      · simp [hi]
    | false =>
      obtain ⟨acts, c', hrun, hvalues, hphase, hall⟩ :=
        ih { c with crashed := Function.update c.crashed member true }
      refine ⟨_, c', .cons (.crash hcrashed) hrun, hvalues, hphase, fun i => ?_⟩
      rw [hall]
      by_cases hi : i = member
      · subst hi; simp [Function.update_self]
      · simp [hi]

end Escrow.Contest

namespace Gateway

/-! ## Moves -/

section
variable {W : Type} [Outside W]

/-- All that can happen to a gateway. -/
inductive Moves (view : W → String → Option String) : Gateway W → Gateway W → Prop
  /-- the first of its jobs is done -/
  | work {g : Gateway W} {job rest} : g.ready = job :: rest →
      Moves view g ({ g with ready := rest }.perform job)
  /-- time passes -/
  | pass {g} (time : Nat) : Moves view g { g with now := time }
  /-- the timers that are due go off -/
  | ring {g : Gateway W} : Moves view g
      { g with ready := g.ready ++ g.timers.due g.now, timers := g.timers.after g.now }
  /-- the world outside changes, but not its store -/
  | change {g : Gateway W} (w : W) : view w = view g.outside → Moves view g { g with outside := w }
  /-- it is started -/
  | start {g} : Moves view g g.start
  /-- a request comes in -/
  | handle {g} (r : Request) (accepting : Bool) : Moves view g (g.handle r accepting)
  | call {g} (name operation : String) (input : Option Input) (limit : Nat) :
      Moves view g (g.call name operation input limit)
  /-- work is to be tracked, or its receipt is waited for -/
  | track {g} (ledgerId : String) (workId : WorkId) : Moves view g (g.track ledgerId workId)
  | register {g} (ledgerId : String) (workId : WorkId) (w : Waiter) (isDone : Bool) :
      Moves view g (g.register ledgerId workId w isDone)
  /-- a ledger is scanned, answers are held back or let through -/
  | scan {g} (ledgerId : String) (audience : Option String) :
      Moves view g (g.scan ledgerId audience).2
  | hold {g} : Moves view g g.hold
  | finishScan {g} (ledgerId : String) : Moves view g (g.finishScan ledgerId).2
  | release {g} : Moves view g { g with held := false }
  /-- a ledger takes its time for the questions of its bootstrap -/
  | delay {g} (ledgerId : String) (durations : List Nat) :
      Moves view g (g.delay ledgerId durations)
  /-- somebody listens for shutdown, hears of it or signals it, now or later -/
  | listen {g} (sh : Shutdown Listener) : Moves view g { g with shutdown := sh }
  | signal {g} : Moves view g g.triggerShutdown
  | signalLater {g} (time : Nat) :
      Moves view g { g with timers := g.timers.set time .shutdown }
  /-- what is under way is ended where it stands -/
  | abort {g} : Moves view g g.abort

variable {view : W → String → Option String}

theorem settle_moves (g : Gateway W) : Relation.ReflTransGen (Moves view) g g.settle := by
  have hwithin : ∀ (fuel : Nat) (g : Gateway W),
      Relation.ReflTransGen (Moves view) g (g.settleWithin fuel) := by
    intro fuel
    induction fuel with
    | zero => exact fun g => .refl
    | succ fuel ih =>
      intro g
      unfold settleWithin
      split
      · exact .refl
      · rename_i job rest hready
        exact .head (.work hready) (ih _)
  exact hwithin _ g

theorem leapTo_moves (g : Gateway W) (time : Nat) :
    Relation.ReflTransGen (Moves view) g (g.leapTo time) :=
  .head (.pass time) (.head .ring (settle_moves _))

theorem waitUntil_moves (met : Gateway W → Bool) (limit fuel : Nat) (g : Gateway W) :
    Relation.ReflTransGen (Moves view) g (waitUntil met limit fuel g).2 := by
  induction fuel generalizing g with
  | zero => exact .refl
  | succ fuel ih =>
    unfold waitUntil
    split
    · exact .refl
    · split
      · split
        · exact (leapTo_moves g _).trans (ih _)
        · exact .single (.pass limit)
      · exact .single (.pass limit)

/-- **A stop is some moves**: the signal, what comes of it, and the end. -/
theorem stop_moves (g : Gateway W) : Relation.ReflTransGen (Moves view) g g.stop := by
  have hsignalled : Relation.ReflTransGen (Moves view) g g.triggerShutdown.settle :=
    .head .signal (settle_moves _)
  have hwait : Relation.ReflTransGen (Moves view) g.triggerShutdown.settle
      (waitUntil isIdle (g.triggerShutdown.settle.now + patience - 1) (2 * patience)
        g.triggerShutdown.settle).2 := waitUntil_moves ..
  refine hsignalled.trans ?_
  unfold stop
  rcases hw : waitUntil isIdle (g.triggerShutdown.settle.now + patience - 1) (2 * patience)
    g.triggerShutdown.settle with ⟨_ | _, g'⟩ <;> rw [hw] at hwait <;> simp only [hw]
  · exact hwait.trans (.head (.pass _) (.single .abort))
  · exact hwait

end

/-! ## The start and the end -/

section
variable {W : Type} {g : Gateway W}

/-- The ledgers whose bootstraps are under way. -/
def runningEscrows (g : Gateway W) : List String :=
  (g.desks.filter fun d => d.escrow.any (·.isRunning)).map (·.ledgerId)

/-- The desk after those of some ledgers were halted. -/
def haltIn (halted : List String) (d : Desk) : Desk :=
  if halted.contains d.ledgerId then
    { d with escrow := d.escrow.map fun b => { b with halted := true } }
  else d

@[simp]
theorem ledgerId_haltIn (halted : List String) (d : Desk) :
    (haltIn halted d).ledgerId = d.ledgerId := by
  unfold haltIn
  split <;> rfl

@[simp]
theorem tracker_haltIn (halted : List String) (d : Desk) :
    (haltIn halted d).tracker = d.tracker := by
  unfold haltIn
  split <;> rfl

theorem desks_abort (g : Gateway W) : g.abort.desks = g.desks.map (haltIn g.runningEscrows) := rfl

theorem ledgerIds_abort (g : Gateway W) : g.abort.ledgerIds = g.ledgerIds := by
  rw [ledgerIds, desks_abort, List.map_map]
  exact List.map_congr_left fun d _ => ledgerId_haltIn _ d

theorem desk?_abort (g : Gateway W) (k : String) :
    g.abort.desk? k = (g.desk? k).map (haltIn g.runningEscrows) := by
  have hsame : (fun d : Desk => d.ledgerId == k) ∘ haltIn g.runningEscrows =
      fun d => d.ledgerId == k := by
    funext d
    rw [Function.comp, ledgerId_haltIn]
  rw [desk?, desk?, desks_abort, List.find?_map, hsame]

/-- An abort stops the bootstraps that are under way, and leaves the others as they are. -/
theorem escrowAt_abort (g : Gateway W) (k : String) :
    g.abort.escrowAt k = (g.escrowAt k).map fun b =>
      { b with halted := b.halted || decide (k ∈ g.runningEscrows) } := by
  rw [escrowAt, escrowAt, desk?_abort]
  cases hd : g.desk? k with
  | none => rfl
  | some d =>
    obtain rfl := ledgerId_of_desk? hd
    by_cases hrunning : d.ledgerId ∈ g.runningEscrows
    · simp [haltIn, hrunning]
    · simp [haltIn, hrunning]

/-- After an abort no bootstrap is under way. -/
theorem not_isRunning_abort {k : String} {b : Bootstrap} (h : g.abort.escrowAt k = some b) :
    b.isRunning = false := by
  rw [escrowAt_abort] at h
  obtain ⟨b₀, hb₀, rfl⟩ := Option.map_eq_some_iff.1 h
  by_cases hrunning : k ∈ g.runningEscrows
  · simp [Bootstrap.isRunning, hrunning]
  · obtain ⟨d, hd, hd₀⟩ := Option.bind_eq_some_iff.1 hb₀
    have hid := ledgerId_of_desk? hd
    have hmem : d ∈ g.desks := List.mem_of_find?_eq_some hd
    have hnot : b₀.isRunning = false := by
      by_contra hb
      refine hrunning (List.mem_map.2 ⟨d, List.mem_filter.2 ⟨hmem, ?_⟩, hid⟩)
      simpa [hd₀] using hb
    simpa [Bootstrap.isRunning, hrunning] using hnot

/-- A gateway at rest has no bootstrap under way. -/
theorem not_isRunning_of_idle (hidle : g.isIdle) {k : String} {b : Bootstrap}
    (h : g.escrowAt k = some b) : b.isRunning = false := by
  obtain ⟨d, hd, hb⟩ := Option.bind_eq_some_iff.1 h
  have hmem : d ∈ g.desks := List.mem_of_find?_eq_some hd
  by_contra hrunning
  have hany : g.hasRunningEscrow = true :=
    List.any_eq_true.2 ⟨d, hmem, by simpa [hb] using hrunning⟩
  simp [isIdle, hany] at hidle

variable [Outside W]

theorem waitUntil_met {met : Gateway W → Bool} {limit fuel : Nat}
    (h : (waitUntil met limit fuel g).1) : met (waitUntil met limit fuel g).2 := by
  induction fuel generalizing g with
  | zero => exact h
  | succ fuel ih =>
    unfold waitUntil at h ⊢
    split
    · assumption
    · rename_i hmet
      rw [if_neg hmet] at h
      split at h
      · split at h
        · rename_i htime
          rw [if_pos htime]
          exact ih h
        · cases h
      · cases h

/-- **After a stop no bootstrap is under way.** -/
theorem not_isRunning_stop {k : String} {b : Bootstrap} (h : g.stop.escrowAt k = some b) :
    b.isRunning = false := by
  unfold stop at h
  have hmet := @waitUntil_met W g.triggerShutdown.settle _ isIdle
    (g.triggerShutdown.settle.now + patience - 1) (2 * patience)
  rcases hw : waitUntil isIdle (g.triggerShutdown.settle.now + patience - 1) (2 * patience)
    g.triggerShutdown.settle with ⟨_ | _, g'⟩ <;> rw [hw] at hmet <;> simp only [hw] at h
  · exact not_isRunning_abort h
  · exact not_isRunning_of_idle (hmet rfl) h

end

/-! ## Following -/

section
variable {I W : Type} [DecidableEq I] [Outside W] {view : W → String → Option String}
  {settings : I → Settings} {seat : String → I} {g g' : Gateway W} {c : Contest I}

omit [Outside W] [DecidableEq I] in
/-- Starting the bootstrap on one desk leaves the other desks as they are. -/
theorem desk?_startEscrow (g : Gateway W) (d : Desk) {j : String} (hj : j ≠ d.ledgerId) :
    (g.startEscrow d).desk? j = g.desk? j := by
  unfold startEscrow
  split
  · rename_i p _
    exact desk?_updateDesk_ne (f := (·.tellEscrow fun _ => p)) (fun _ h => h) hj
  · rfl

omit [Outside W] [DecidableEq I] in
theorem Receptive.startEscrow {P : Gateway W → Prop} (h : Receptive P) (hg : P g) {d : Desk}
    (hd : g.desk? d.ledgerId = some d) : P (g.startEscrow d) := by
  unfold Gateway.startEscrow
  split
  · rename_i p hp
    obtain ⟨b, hb, hstart⟩ := Option.bind_eq_some_iff.1 hp
    refine h.still (h.tell hg fun b' hb' => ?_) (place_enqueue _ _)
    rw [escrowAt, hd, Option.bind_some, hb] at hb'
    obtain rfl := Option.some.inj hb'
    exact Phase.shifts_start hstart
  · exact hg

omit [Outside W] [DecidableEq I] in
/-- The start brings news to every bootstrap. -/
theorem Receptive.start {P : Gateway W → Prop} (h : Receptive P) (hg : P g)
    (hids : g.ledgerIds.Nodup) : P g.start := by
  have hfold : ∀ (ds : List Desk) {g : Gateway W}, P g → (ds.map (·.ledgerId)).Nodup →
      (∀ d ∈ ds, g.desk? d.ledgerId = some d) → P (ds.foldl Gateway.startEscrow g) := by
    intro ds
    induction ds with
    | nil => exact fun hg _ _ => hg
    | cons d ds ih =>
      intro g hg hnodup hfound
      obtain ⟨hfresh, hrest⟩ := List.nodup_cons.1 hnodup
      refine ih (h.startEscrow hg (hfound d List.mem_cons_self)) hrest fun e he => ?_
      have hne : e.ledgerId ≠ d.ledgerId := fun heq => hfresh (List.mem_map.2 ⟨e, he, heq⟩)
      rw [desk?_startEscrow g d hne]
      exact hfound e (List.mem_cons_of_mem d he)
  unfold Gateway.start
  split
  · exact hg
  · have hbegun : P { g with started := true, shutdown := g.shutdown.subscribe .scanner } :=
      h.still hg rfl
    exact h.still (hfold g.desks hbegun hids fun d hd => desk?_of_mem hids hd) rfl

omit [Outside W] in
theorem follows_start (hseat : Function.Injective seat)
    (h : Seated view settings seat nobody g c) :
    Follows view settings seat nobody c g.start :=
  (receptive_follows hseat).start h.follows h.ledgers

omit [Outside W] in
theorem follows_abort (hseat : Function.Injective seat)
    (h : Seated view settings seat nobody g c) :
    Follows view settings seat nobody c g.abort := by
  obtain ⟨acts, c', hrun, hvalues, hphase, hcrashed⟩ :=
    Contest.run_crashes settings (g.runningEscrows.map seat) c
  have habort : ∀ {k b}, g.abort.escrowAt k = some b → ∃ b₀, g.escrowAt k = some b₀ ∧
      { b₀ with halted := b₀.halted || decide (k ∈ g.runningEscrows) } = b := by
    intro k b hb
    rw [escrowAt_abort] at hb
    exact Option.map_eq_some_iff.1 hb
  refine ⟨acts, c', hrun, ⟨g.ledgerIds_abort ▸ h.ledgers, hvalues.trans h.stored, fun hb => ?_,
    fun hb => ?_, fun hb => ?_⟩⟩ <;> obtain ⟨b₀, hb₀, rfl⟩ := habort hb
  · have htold := h.told hb₀
    exact htold
  · rw [hcrashed, h.halted hb₀]
    simp only [List.mem_map, hseat.eq_iff, exists_eq_right]
  · rw [hphase]
    have hphase₀ := h.phase hb₀
    exact hphase₀

/-- **The contest follows a gateway**, whatever happens to it. -/
theorem follows_moves (hW : KeepsStore view) (hseat : Function.Injective seat)
    (h : Seated view settings seat nobody g c) (hm : Moves view g g') :
    Follows view settings seat nobody c g' := by
  cases hm with
  | @work job rest hready =>
    have hsame : SameEscrows view g { g with ready := rest } := .of_place rfl
    exact follows_perform hW hseat (h.same hsame) job
  | pass time => exact h.still rfl
  | ring => exact h.still rfl
  | change w hw => exact (h.same (.of_outside hw)).follows
  | start => exact follows_start hseat h
  | handle r accepting => exact h.still (place_enqueue g _)
  | call name operation input limit => exact h.still (place_enqueue g _)
  | track ledgerId workId => exact follows_withTracker hseat h ledgerId (.track workId)
  | register ledgerId workId w isDone =>
    exact follows_withTracker hseat h ledgerId (.register workId w isDone)
  | scan ledgerId audience => exact follows_scan hW hseat h ledgerId audience
  | hold => exact h.still rfl
  | finishScan ledgerId => exact follows_finishScan hW hseat h ledgerId
  | release => exact h.still rfl
  | delay ledgerId durations => exact h.still rfl
  | listen sh => exact h.still rfl
  | signal => exact h.still (place_withShutdown g _)
  | signalLater time => exact h.still rfl
  | abort => exact follows_abort hseat h

end

/-! ## The beginning -/

/-- Desks that were fitted have the ids of their ledgers, and new bootstraps if these have fees. -/
theorem escrow_of_desks {f : Fittings} {config : Config} {ls : List LedgerSettings}
    {ds : List Desk} (h : f.desks config ls = .ok ds) :
    ds.map (·.ledgerId) = ls.map (·.id) ∧ ∀ d ∈ ds, ∀ b, d.escrow = some b →
      ∃ l ∈ ls, l.id = d.ledgerId ∧ ∃ fee, l.escrowFee = some fee ∧
        b = .new (.standard l.brand l.id fee.toNat) := by
  obtain ⟨-, rfl⟩ := Fittings.desks_eq_ok_iff.1 h
  refine ⟨List.map_map, fun d hd b hb => ?_⟩
  obtain ⟨l, hl, rfl⟩ := List.mem_map.1 hd
  obtain ⟨fee, hfee, rfl⟩ := Option.map_eq_some_iff.1 hb
  exact ⟨l, hl, rfl, fee, hfee, rfl⟩

theorem build_ok {W : Type} {config : Config} {f : Fittings} {w : W} {g : Gateway W}
    (h : build config f w = .ok g) : config.validate = .ok () ∧ g.outside = w ∧
      f.desks config config.ledgers = .ok g.desks := by
  obtain ⟨hsensible, hsuits, -, rfl⟩ := build_eq_ok_iff.1 h
  exact ⟨Config.validate_eq_ok_iff.2 hsensible, rfl,
    Fittings.desks_eq_ok_iff.2 ⟨hsuits.equips, rfl⟩⟩

section
variable {I W : Type} {view : W → String → Option String} {settings : I → Settings}
  {seat : String → I} {config : Config} {f : Fittings} {w : W} {g : Gateway W}

/-- The seats of a contest are made for the escrows of a configuration. -/
structure Seating (config : Config) (settings : I → Settings) (seat : String → I) : Prop where
  apart : Function.Injective seat
  told : ∀ l ∈ config.ledgers, ∀ fee, l.escrowFee = some fee →
    settings (seat l.id) = .standard l.brand l.id fee.toNat

/-- **When a gateway is built its bootstraps find their seats**, before anybody has started. -/
theorem seated_build (hs : Seating config settings seat) (h : build config f w = .ok g) :
    Seated view settings seat nobody g (Contest.start (view w)) := by
  obtain ⟨hvalid, rfl, hdesks⟩ := build_ok h
  obtain ⟨hids, hescrows⟩ := escrow_of_desks hdesks
  have hnew : ∀ {k b}, g.escrowAt k = some b → ∃ l ∈ config.ledgers, l.id = k ∧
      ∃ fee, l.escrowFee = some fee ∧ b = .new (.standard l.brand l.id fee.toNat) := by
    intro k b hb
    obtain ⟨d, hd, hb⟩ := Option.bind_eq_some_iff.1 hb
    have hid := ledgerId_of_desk? hd
    rw [← hid]
    exact hescrows d (List.mem_of_find?_eq_some hd) b hb
  refine ⟨?_, rfl, fun hb => ?_, fun hb => ?_, fun hb => ?_⟩
  · rw [ledgerIds, hids]
    exact (Config.validate_eq_ok_iff.1 hvalid).distinct
  · obtain ⟨l, hl, rfl, fee, hfee, rfl⟩ := hnew hb
    exact hs.told l hl fee hfee
  · obtain ⟨l, hl, rfl, fee, hfee, rfl⟩ := hnew hb
    rfl
  · obtain ⟨l, hl, rfl, fee, hfee, rfl⟩ := hnew hb
    rfl

/-! ## Company -/

variable [DecidableEq I] [Outside W]

/-- A gateway that was built from a configuration on a store with some values, and the
    others: what was done so far, how the contest stands, and what has become of it. -/
inductive InCompany (config : Config) (settings : I → Settings) (seat : String → I)
    (view : W → String → Option String) (values : String → Option String) :
    List (I × Act) → Contest I → Gateway W → Prop
  /-- the gateway is built -/
  | built {f : Fittings} {w : W} {g : Gateway W} : build config f w = .ok g → view w = values →
      InCompany config settings seat view values [] (Contest.start values) g
  /-- something happens to the gateway, and the contest follows -/
  | moved {trace acts : List (I × Act)} {c c' : Contest I} {g g' : Gateway W} :
      InCompany config settings seat view values trace c g → Moves view g g' →
      Contest.Run settings c acts c' → Seated view settings seat nobody g' c' →
      InCompany config settings seat view values (trace ++ acts) c' g'
  /-- another member acts -/
  | other {trace : List (I × Act)} {c c' : Contest I} {g : Gateway W} {i : I} {a : Act} {w : W} :
      InCompany config settings seat view values trace c g → (∀ k, seat k ≠ i) →
      Contest.Step settings c i a c' → view w = c'.values →
      InCompany config settings seat view values (trace ++ [(i, a)]) c' { g with outside := w }

variable {values : String → Option String} {trace : List (I × Act)} {c : Contest I}

omit [Outside W] in
/-- Whoever else acts, the bootstraps of a gateway keep their seats. -/
theorem Seated.other (h : Seated view settings seat nobody g c) {c' : Contest I} {i : I} {a : Act}
    {w : W} (hi : ∀ k, seat k ≠ i) (hstep : Contest.Step settings c i a c')
    (hw : view w = c'.values) :
    Seated view settings seat nobody { g with outside := w } c' where
  ledgers := h.ledgers
  stored := hw.symm
  told hb := h.told hb
  halted hb := (hstep.crashed_ne (hi _)).trans (h.halted hb)
  phase hb := (hstep.phase_ne (hi _)).trans (h.phase hb)

/-- **A gateway in company takes part in a run of the contest**, and its bootstraps are where
    the run has led to. -/
theorem InCompany.run (hs : Seating config settings seat)
    (h : InCompany config settings seat view values trace c g) :
    Contest.Run settings (.start values) trace c ∧ Seated view settings seat nobody g c := by
  induction h with
  | built hbuild hw => exact ⟨.refl _, hw ▸ seated_build hs hbuild⟩
  | moved _ _ hrun hseated ih => exact ⟨ih.1.append hrun, hseated⟩
  | other _ hi hstep hw ih => exact ⟨.snoc ih.1 hstep, ih.2.other hi hstep hw⟩

/-- Whatever happens to a gateway in company, it stays in company. -/
theorem InCompany.moves (hW : KeepsStore view) (hs : Seating config settings seat)
    (h : InCompany config settings seat view values trace c g) {g' : Gateway W}
    (hm : Relation.ReflTransGen (Moves view) g g') :
    ∃ acts c', Contest.Run settings c acts c' ∧
      InCompany config settings seat view values (trace ++ acts) c' g' := by
  induction hm with
  | refl => exact ⟨[], c, .refl c, by rwa [List.append_nil]⟩
  | tail _ hm ih =>
    obtain ⟨first, c₁, hfirst, hcompany⟩ := ih
    obtain ⟨second, c₂, hsecond, hseated⟩ := follows_moves hW hs.apart (hcompany.run hs).2 hm
    refine ⟨first ++ second, c₂, hfirst.append hsecond, ?_⟩
    rw [← List.append_assoc]
    exact hcompany.moved hm hsecond hseated

end

end Gateway

end LedgerGate
