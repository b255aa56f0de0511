/-
  Silence: whether the scanner of a gateway heeds the shutdown signal.

  The signal is given once, to those who have subscribed.  The scanner subscribes when the gateway
  is started: it hears every signal that comes later, ends, and makes no scan ready any more.  If
  the signal was given before the start it never comes to the scanner, which goes on scanning.

  * `Gateway.Fair`: others listen for themselves; `Gateway.StartedWhen`: whether the start came
    after the signal;
  * `Gateway.Course`: whatever happens, seen from the scanner;
  * `Attentive`, `Deaf`: the scanner after a start in time, and after a late one;
  * `Falls.course`: **an attentive scanner falls silent** while the jobs that were ready are done;
  * `Deaf.scans`: **a deaf one scans again and again**;
  * `Gateway.heeds_of`: all that a gateway makes of the signal.
-/
import LedgerGate.Proofs.Gateway.Authority
import LedgerGate.Proofs.Gateway.Rhythm
import Mathlib.Data.List.TakeWhile

namespace LedgerGate

open Shutdown (Call)

/-- A valid configuration has a period of scans. -/
theorem Config.scanInterval_pos {c : Config} (h : c.validate = .ok ()) :
    0 < c.scanInterval.toNat := by
  have hne : c.scanInterval ≠ 0 := by
    intro hzero
    unfold validate at h
    split at h
    · cases h
    · split at h
      · cases h
      · cases h
  exact Nat.pos_of_ne_zero fun hzero => hne (UInt64.toNat_inj.1 hzero)

/-- How many jobs are done. -/
def worked {W : Type} (hs : List (Happening W)) : Nat :=
  hs.countP fun
    | .work => true
    | _ => false

/-- Time passes, timers go off or a job is done. -/
def Happening.IsTime {W : Type} : Happening W → Prop
  | pass _ | ring | work => True
  | _ => False

namespace Gateway

/-! ## The course of things -/

section
variable {W : Type} {g₀ g g' : Gateway W} {n done : Nat}

/-- Whatever goes on between the start and the end of a gateway, seen from its scanner, with the
    number of jobs that are done. -/
inductive Course : Nat → Gateway W → Gateway W → Prop
  | apart {g g' : Gateway W} : Apart g g' → Course 0 g g'
  | idle {g : Gateway W} : g.ready = [] → Course 1 g g
  /-- a job is done that is not the scanner's -/
  | work {g g' : Gateway W} {job rest} : g.ready = job :: rest → job ≠ .scanner →
      Apart { g with ready := rest } g' → Course 1 g g'
  /-- the scanner's own job is done -/
  | scanner {g : Gateway W} {rest} : g.ready = .scanner :: rest →
      Course 1 g ({ g with ready := rest } : Gateway W).quieted.runScanner
  | pass {g : Gateway W} (time : Nat) : Course 0 g { g with now := time }
  | ring {g : Gateway W} : Course 0 g
      { g with ready := g.ready ++ g.timers.due g.now, timers := g.timers.after g.now }

theorem mem_due {t : Timers Job} {now : Nat} {j : Job} (h : j ∈ t.due now) :
    ∃ e ∈ t.entries, e.2 = j := by
  obtain ⟨e, he, rfl⟩ := List.mem_map.1 h
  exact ⟨e, (List.takeWhile_sublist _).subset he, rfl⟩

theorem mem_after {t : Timers Job} {now : Nat} {e : Nat × Job} (h : e ∈ (t.after now).entries) :
    e ∈ t.entries := (List.dropWhile_sublist _).subset h

/-- Every timer is due or left. -/
theorem mem_due_or_after (t : Timers Job) (now : Nat) {e : Nat × Job} (h : e ∈ t.entries) :
    e.2 ∈ t.due now ∨ e ∈ (t.after now).entries := by
  rw [← List.takeWhile_append_dropWhile (p := (·.1 ≤ now)) (l := t.entries)] at h
  exact (List.mem_append.1 h).imp_left List.mem_map_of_mem

/-- All that happens to the shutdown are calls. -/
theorem Course.calls (h : Course done g g') :
    ∃ calls, g'.shutdown = g.shutdown.after calls := by
  cases h with
  | apart h =>
    obtain ⟨calls, -, heq⟩ := h.signal
    exact ⟨calls, heq⟩
  | work _ _ h =>
    obtain ⟨calls, -, heq⟩ := h.signal
    exact ⟨calls, heq⟩
  | @scanner _ rest _ =>
    rcases runScanner_cases ({ g with ready := rest } : Gateway W).quieted with
      ⟨-, heq⟩ | ⟨due, -, ⟨-, heq⟩ | ⟨-, heq⟩⟩ <;> rw [heq]
    · exact ⟨[], rfl⟩
    · exact ⟨[.receive .scanner], rfl⟩
    · exact ⟨[], (ticks_tick _ _ _).shutdown⟩
  | _ => exact ⟨[], rfl⟩

/-! ### What stays as it is -/

/-- What never changes, and that no scan is set for later. -/
structure Steady (g₀ g : Gateway W) : Prop where
  config : g.config = g₀.config
  ledgers : g.ledgerIds = g₀.ledgerIds
  timers : ∀ e ∈ g.timers.entries, e.2.isScan = false

theorem Steady.apart (h : Steady g₀ g) (hgoes : Apart g g') : Steady g₀ g' :=
  ⟨hgoes.config.trans h.config, hgoes.ledgers.trans h.ledgers, fun e he =>
    (hgoes.timers e he).elim (h.timers e) id⟩

theorem Steady.abort (h : Steady g₀ g) : Steady g₀ g.abort := by
  refine ⟨h.config, ?_, fun e he => h.timers e ?_⟩
  · exact g.ledgerIds_abort.trans h.ledgers
  · exact List.mem_of_mem_filter (List.mem_of_mem_filter he)

theorem Steady.course (h : Steady g₀ g) (hgoes : Course done g g') : Steady g₀ g' := by
  cases hgoes with
  | apart hgoes => exact h.apart hgoes
  | idle _ => exact h
  | @work _ _ job rest _ _ hgoes =>
    have htaken : Steady g₀ { g with ready := rest } := ⟨h.config, h.ledgers, h.timers⟩
    exact htaken.apart hgoes
  | @scanner _ rest _ =>
    have hquiet : Steady g₀ ({ g with ready := rest } : Gateway W).quieted :=
      ⟨h.config, h.ledgers, fun e he => h.timers e (mem_quieted (g := { g with ready := rest }) he)⟩
    rcases runScanner_cases ({ g with ready := rest } : Gateway W).quieted with
      ⟨-, heq⟩ | ⟨due, -, ⟨-, heq⟩ | ⟨-, heq⟩⟩ <;> rw [heq]
    · exact hquiet
    · exact ⟨hquiet.config, hquiet.ledgers, hquiet.timers⟩
    · have hticks := ticks_tick (tickTolerance + 3) due
        ({ g with ready := rest } : Gateway W).quieted
      exact ⟨hticks.config.trans hquiet.config, hticks.ledgers.trans hquiet.ledgers,
        fun e he => (hticks.timers e he).elim (hquiet.timers e) id⟩
  | pass time => exact ⟨h.config, h.ledgers, h.timers⟩
  | ring => exact ⟨h.config, h.ledgers, fun e he => h.timers e (mem_after he)⟩

/-! ### Before the start -/

/-- Before the start there is no scanner, and nobody has subscribed for it. -/
structure Resting (g : Gateway W) : Prop where
  started : g.started = false
  scanner : g.scanner = none
  subscribers : .scanner ∉ g.shutdown.subscribers
  signalled : .scanner ∉ g.shutdown.signalled

theorem Resting.apart (h : Resting g) (hgoes : Apart g g') : Resting g' := by
  obtain ⟨calls, hcalls, heq⟩ := hgoes.signal
  refine ⟨hgoes.started.trans h.started, hgoes.scanner.trans h.scanner, ?_, ?_⟩ <;> rw [heq]
  · exact fun hmem => h.subscribers ((Shutdown.subscribers_after hcalls).1 hmem)
  · exact Shutdown.not_mem_after hcalls h.subscribers h.signalled

theorem Resting.course (h : Resting g) (hgoes : Course done g g') : Resting g' := by
  cases hgoes with
  | apart hgoes => exact h.apart hgoes
  | @work _ _ job rest _ _ hgoes =>
    have htaken : Resting { g with ready := rest } :=
      ⟨h.started, h.scanner, h.subscribers, h.signalled⟩
    exact htaken.apart hgoes
  | @scanner _ rest _ =>
    rw [runScanner_of_none (g := ({ g with ready := rest } : Gateway W).quieted) h.scanner]
    exact ⟨h.started, h.scanner, h.subscribers, h.signalled⟩
  | _ => exact ⟨h.started, h.scanner, h.subscribers, h.signalled⟩

/-! ### After a start in time -/

/-- The scanner will hear the signal, or has it waiting and is about to end. -/
structure Attentive (g : Gateway W) : Prop where
  started : g.started = true
  listens : g.shutdown.triggered = false → .scanner ∈ g.shutdown.subscribers
  ends : g.shutdown.triggered = true → g.scanner = none ∨
    .scanner ∈ g.shutdown.signalled ∧ .scanner ∈ g.ready

theorem Attentive.apart (h : Attentive g) (hgoes : Apart g g') : Attentive g' := by
  obtain ⟨calls, hcalls, heq⟩ := hgoes.signal
  obtain ⟨jobs, hready, -⟩ := hgoes.ready
  refine ⟨hgoes.started.trans h.started, fun hnot => ?_, fun htriggered => ?_⟩
  · rw [heq]
    refine (Shutdown.subscribers_after hcalls).2 (h.listens ?_)
    by_contra hyes
    rw [hgoes.triggered (Bool.eq_true_of_not_eq_false hyes)] at hnot
    cases hnot
  · rw [hgoes.scanner, heq, hready]
    cases hbefore : g.shutdown.triggered with
    | true =>
      refine (h.ends hbefore).imp id fun hends => ⟨?_, List.mem_append_left _ hends.2⟩
      exact (Shutdown.signalled_after hbefore hcalls).2 hends.1
    | false =>
      -- the signal is given now, and rouses the scanner
      cases hscanner : g.scanner with
      | none => exact Or.inl rfl
      | some due =>
        have hroused := hgoes.roused hbefore htriggered (by rw [hscanner]; rfl)
        rw [hready] at hroused
        rw [heq] at htriggered
        exact Or.inr ⟨Shutdown.mem_signalled_after hbefore (h.listens hbefore) hcalls htriggered,
          hroused⟩

theorem Attentive.abort (h : Attentive g) : Attentive g.abort :=
  ⟨h.started, h.listens, fun _ => Or.inl rfl⟩

theorem Attentive.course (h : Attentive g) (hgoes : Course done g g') : Attentive g' := by
  cases hgoes with
  | apart hgoes => exact h.apart hgoes
  | idle _ => exact h
  | @work _ _ job rest hready hjob hgoes =>
    have htaken : Attentive { g with ready := rest } := by
      refine ⟨h.started, h.listens, fun htriggered => (h.ends htriggered).imp id fun hends => ?_⟩
      rw [hready] at hends
      exact ⟨hends.1, List.mem_of_ne_of_mem hjob.symm hends.2⟩
    exact htaken.apart hgoes
  | @scanner _ rest _ =>
    rcases runScanner_cases ({ g with ready := rest } : Gateway W).quieted with
      ⟨hnone, heq⟩ | ⟨due, hsome, ⟨-, heq⟩ | ⟨hnot, heq⟩⟩ <;> rw [heq]
    · exact ⟨h.started, h.listens, fun _ => Or.inl hnone⟩
    · exact ⟨h.started, h.listens, fun _ => Or.inl rfl⟩
    · -- the signal has not been given, or it would wait
      have hticks := ticks_tick (tickTolerance + 3) due
        ({ g with ready := rest } : Gateway W).quieted
      refine ⟨hticks.started.trans h.started, fun hbefore => ?_, fun htriggered => ?_⟩
      · rw [hticks.shutdown] at hbefore ⊢
        exact h.listens hbefore
      · rw [hticks.shutdown] at htriggered
        rcases h.ends htriggered with hnone | ⟨hsignal, -⟩
        · rw [show g.scanner = some due from hsome] at hnone
          cases hnone
        · exact absurd hsignal hnot
  | pass time => exact ⟨h.started, h.listens, h.ends⟩
  | ring =>
    exact ⟨h.started, h.listens, fun htriggered => (h.ends htriggered).imp id fun hends =>
      ⟨hends.1, List.mem_append_left _ hends.2⟩⟩

/-- The scanner falls silent: of the jobs that were ready at most some number is left, and no
    scan has become ready behind them. -/
structure Falls (n : Nat) (g : Gateway W) : Prop where
  triggered : g.shutdown.triggered = true
  jobs : ∃ old new, g.ready = old ++ new ∧ old.length ≤ n ∧ (∀ j ∈ new, j.isScan = false) ∧
    (g.scanner = none ∨ .scanner ∈ g.shutdown.signalled ∧ .scanner ∈ old)

theorem Attentive.falls (h : Attentive g) (htriggered : g.shutdown.triggered = true) :
    Falls g.ready.length g :=
  ⟨htriggered, g.ready, [], (List.append_nil _).symm, le_rfl, List.forall_mem_nil _,
    h.ends htriggered⟩

/-- When none of the jobs is left, there is silence. -/
theorem Falls.silent (h : Falls 0 g) :
    g.scanner = none ∧ ∀ k audience, Job.scan k audience ∉ g.ready := by
  obtain ⟨old, new, hready, hlength, hnew, hends⟩ := h.jobs
  obtain rfl := List.length_eq_zero_iff.1 (Nat.le_zero.1 hlength)
  refine ⟨hends.elim id fun hends => absurd hends.2 List.not_mem_nil, fun k audience hmem => ?_⟩
  rw [hready, List.nil_append] at hmem
  cases hnew _ hmem

theorem Falls.apart (h : Falls n g) (hgoes : Apart g g') : Falls n g' := by
  obtain ⟨old, new, hready, hlength, hnew, hends⟩ := h.jobs
  obtain ⟨calls, hcalls, heq⟩ := hgoes.signal
  obtain ⟨jobs, hready', hjobs⟩ := hgoes.ready
  refine ⟨hgoes.triggered h.triggered, old, new ++ jobs, ?_, hlength, fun j hj => ?_, ?_⟩
  · rw [hready', hready, List.append_assoc]
  · exact (List.mem_append.1 hj).elim (hnew j) (hjobs j)
  · rw [hgoes.scanner, heq]
    exact hends.imp id fun hends =>
      ⟨(Shutdown.signalled_after h.triggered hcalls).2 hends.1, hends.2⟩

theorem Falls.abort (h : Falls n g) : Falls n g.abort := by
  obtain ⟨old, new, hready, hlength, hnew, -⟩ := h.jobs
  exact ⟨h.triggered, old, new, hready, hlength, hnew, Or.inl rfl⟩

/-- **An attentive scanner falls silent** while the jobs that were ready are done. -/
theorem Falls.course (h : Falls n g) (hsteady : Steady g₀ g) (hgoes : Course done g g') :
    Falls (n - done) g' := by
  obtain ⟨old, new, hready, hlength, hnew, hends⟩ := h.jobs
  cases hgoes with
  | apart hgoes => exact h.apart hgoes
  | idle hidle =>
    obtain ⟨rfl, rfl⟩ := List.append_eq_nil_iff.1 (hready.symm.trans hidle)
    exact ⟨h.triggered, [], [], hready, Nat.zero_le _, hnew, hends⟩
  | @work _ _ job rest htake hjob hgoes =>
    refine Falls.apart (g := { g with ready := rest }) ⟨h.triggered, ?_⟩ hgoes
    rw [hready] at htake
    cases old with
    | nil =>
      obtain rfl : new = job :: rest := htake
      refine ⟨[], rest, rfl, Nat.zero_le _, (List.forall_mem_cons.1 hnew).2, ?_⟩
      exact hends.imp id fun hends => absurd hends.2 List.not_mem_nil
    | cons first old =>
      obtain ⟨rfl, rfl⟩ := List.cons.inj htake
      refine ⟨old, new, rfl, Nat.le_sub_one_of_lt hlength, hnew, hends.imp id fun hends => ?_⟩
      exact ⟨hends.1, List.mem_of_ne_of_mem hjob.symm hends.2⟩
  | @scanner _ rest htake =>
    have hleft : ∃ old' new', rest = old' ++ new' ∧ old'.length ≤ n - 1 ∧
        ∀ j ∈ new', j.isScan = false := by
      rw [hready] at htake
      cases old with
      | nil =>
        obtain rfl : new = .scanner :: rest := htake
        exact ⟨[], rest, rfl, Nat.zero_le _, (List.forall_mem_cons.1 hnew).2⟩
      | cons first old =>
        obtain ⟨-, rfl⟩ := List.cons.inj htake
        exact ⟨old, new, rfl, Nat.le_sub_one_of_lt hlength, hnew⟩
    obtain ⟨old', new', hrest, hlength', hnew'⟩ := hleft
    rcases runScanner_cases ({ g with ready := rest } : Gateway W).quieted with
      ⟨hnone, heq⟩ | ⟨due, hsome, ⟨-, heq⟩ | ⟨hnot, heq⟩⟩ <;> rw [heq]
    · exact ⟨h.triggered, old', new', hrest, hlength', hnew', Or.inl hnone⟩
    · exact ⟨h.triggered, old', new', hrest, hlength', hnew', Or.inl rfl⟩
    · rcases hends with hnone | ⟨hsignal, -⟩
      · rw [show g.scanner = some due from hsome] at hnone
        cases hnone
      · exact absurd hsignal hnot
  | pass time => exact ⟨h.triggered, old, new, hready, hlength, hnew, hends⟩
  | ring =>
    refine ⟨h.triggered, old, new ++ g.timers.due g.now, ?_, hlength, fun j hj => ?_, hends⟩
    · show g.ready ++ _ = _
      rw [hready, List.append_assoc]
    · rcases List.mem_append.1 hj with hj | hj
      · exact hnew j hj
      · obtain ⟨e, he, rfl⟩ := mem_due hj
        exact hsteady.timers e he

/-! ### After a late start -/

/-- The signal has been given, and the scanner goes on without it. -/
structure Deaf (g : Gateway W) : Prop where
  started : g.started = true
  triggered : g.shutdown.triggered = true
  signalled : .scanner ∉ g.shutdown.signalled
  due : ∃ due, g.scanner = some due ∧
    (.scanner ∈ g.ready ∨ (due, .scanner) ∈ g.timers.entries)

theorem Deaf.apart (h : Deaf g) (hgoes : Apart g g') : Deaf g' := by
  obtain ⟨calls, hcalls, heq⟩ := hgoes.signal
  obtain ⟨jobs, hready, -⟩ := hgoes.ready
  obtain ⟨due, hscanner, hdue⟩ := h.due
  refine ⟨hgoes.started.trans h.started, hgoes.triggered h.triggered, fun hmem => ?_, due,
    hgoes.scanner.trans hscanner, hdue.imp (fun hmem => ?_) (hgoes.kept due)⟩
  · rw [heq] at hmem
    exact h.signalled ((Shutdown.signalled_after h.triggered hcalls).1 hmem)
  · rw [hready]
    exact List.mem_append_left _ hmem

theorem Deaf.course (h : Deaf g) (hperiod : 0 < g.config.scanInterval.toNat)
    (hgoes : Course done g g') : Deaf g' := by
  obtain ⟨due, hscanner, hdue⟩ := h.due
  cases hgoes with
  | apart hgoes => exact h.apart hgoes
  | idle _ => exact h
  | @work _ _ job rest hready hjob hgoes =>
    have htaken : Deaf { g with ready := rest } := by
      refine ⟨h.started, h.triggered, h.signalled, due, hscanner, hdue.imp_left fun hmem => ?_⟩
      rw [hready] at hmem
      exact List.mem_of_ne_of_mem hjob.symm hmem
    exact htaken.apart hgoes
  | @scanner _ rest _ =>
    rw [runScanner_of_not_signalled (g := ({ g with ready := rest } : Gateway W).quieted)
      hscanner h.signalled]
    have hticks := ticks_tick (tickTolerance + 3) due
      ({ g with ready := rest } : Gateway W).quieted
    obtain ⟨next, hnext, htimer⟩ :=
      exists_due (g := ({ g with ready := rest } : Gateway W).quieted) hperiod due
    refine ⟨hticks.started.trans h.started, ?_, ?_, next, hnext, Or.inr htimer⟩ <;>
      rw [hticks.shutdown]
    · exact h.triggered
    · exact h.signalled
  | pass time => exact ⟨h.started, h.triggered, h.signalled, due, hscanner, hdue⟩
  | ring =>
    refine ⟨h.started, h.triggered, h.signalled, due, hscanner, ?_⟩
    rcases hdue with hmem | hmem
    · exact Or.inl (List.mem_append_left _ hmem)
    · exact (mem_due_or_after _ _ hmem).imp_left (List.mem_append_right _)

/-- The jobs before the scanner's are done one by one. -/
theorem ready_of_course (hgoes : Course 1 g g') {first : Job} {before rest : List Job}
    (hready : g.ready = first :: before ++ .scanner :: rest) (hfirst : first ≠ .scanner) :
    ∃ more, g'.ready = before ++ .scanner :: more ∧ g'.scanner = g.scanner ∧ g'.now = g.now ∧
      g'.ledgerIds = g.ledgerIds ∧ g'.config = g.config := by
  cases hgoes with
  | idle hidle =>
    rw [hready] at hidle
    cases hidle
  | @work _ _ job rest' htake _ hgoes =>
    obtain ⟨-, rfl⟩ := List.cons.inj (htake.symm.trans hready)
    obtain ⟨jobs, hjobs, -⟩ := hgoes.ready
    exact ⟨rest ++ jobs, hjobs.trans (List.append_assoc before _ jobs), hgoes.scanner, hgoes.now,
      hgoes.ledgers, hgoes.config⟩
  | scanner htake =>
    obtain ⟨rfl, -⟩ := List.cons.inj (htake.symm.trans hready)
    exact absurd rfl hfirst

end

/-! ## Whatever happens -/

variable {W : Type}

/-- A gateway is started for the first time, before the signal was given or after it. -/
def StartedWhen [Outside W] (signalled : Bool) (g₀ : Gateway (Recorded W))
    (hs : List (Happening W)) : Prop :=
  ∃ past later, hs = past ++ .start :: later ∧ .start ∉ past ∧
    (g₀.after past).shutdown.triggered = signalled

/-- Whoever else has to do with the shutdown listens for himself or gives a reason. -/
def Fair [Outside W] (g₀ : Gateway (Recorded W)) (hs : List (Happening W)) : Prop :=
  ∀ past sh, past ++ [.listen sh] <+: hs → ∃ c : Call Listener, c.Spares .scanner ∧
    sh = (g₀.after past).shutdown.called c

/-- What a gateway makes of the shutdown signal. -/
structure Heeds [Outside W] (g₀ : Gateway (Recorded W)) : Prop where
  fresh : g₀.shutdown = .new
  /-- All that happens to the shutdown are calls. -/
  calls : ∀ hs h, Fair g₀ (hs ++ [h]) → ∃ calls,
    (g₀.after (hs ++ [h])).shutdown = (g₀.after hs).shutdown.after calls
  /-- Whatever the calls, the first trigger counts, and the first reason is kept. -/
  kept : ∀ calls : List (Call Listener),
    ((Shutdown.new.after calls).triggered = true ↔ .trigger ∈ calls) ∧
      (Shutdown.new.after calls).reason = calls.findSome? Call.reason?
  /-- A subscription hears the signal once, if it came before the signal. -/
  once : ∀ (name : Listener) (past calls : List (Call Listener)), .subscribe name ∉ calls →
    (Shutdown.new.after (past ++ [.subscribe name])).hearings name calls ≤ 1 ∧
      ((Shutdown.new.after (past ++ [.subscribe name])).hearings name calls = 1 ↔
        .trigger ∉ past ∧ Shutdown.Hears name calls)
  /-- After a start in time: once the signal is given and the jobs that were ready then are done,
      the scanner has ended and makes no scan ready any more. -/
  silent : ∀ hs, StartedWhen false g₀ hs → (g₀.after hs).shutdown.triggered = true →
    ∀ more, Fair g₀ (hs ++ more) → (g₀.after hs).ready.length ≤ worked more →
      (g₀.after (hs ++ more)).scanner = none ∧
        ∀ k audience, .scan k audience ∉ (g₀.after (hs ++ more)).ready
  /-- After a late start the scanner makes a scan of every ledger ready again and again, as time
      passes, unless it is ended by force. -/
  restless : ∀ hs, StartedWhen true g₀ hs → .abort ∉ hs → Fair g₀ hs →
    ∃ more : List (Happening W), (∀ h ∈ more, h.IsTime) ∧
      ∀ k ∈ g₀.ledgerIds, .scan k none ∈ (g₀.after (hs ++ more)).ready

section
variable [Outside W] {g₀ g : Gateway (Recorded W)} {hs more : List (Happening W)}
  {h : Happening W}

theorem after_append (g : Gateway (Recorded W)) (hs more : List (Happening W)) :
    g.after (hs ++ more) = (g.after hs).after more := List.foldl_append

theorem Fair.left (h : Fair g₀ (hs ++ more)) : Fair g₀ hs :=
  fun past sh hpast => h past sh (hpast.trans (List.prefix_append hs more))

/-- **Whatever happens leaves the scanner alone**, passes time or does a job, a first start and
    the end apart. -/
theorem course_of_happens (g : Gateway (Recorded W)) (h : Happening W)
    (hstart : h = .start → g.started = true) (habort : h ≠ .abort)
    (hfair : ∀ sh, h = .listen sh → ∃ c : Call Listener, c.Spares .scanner ∧
      sh = g.shutdown.called c) : Course (worked [h]) g (g.happens h) := by
  cases h with
  | request e operation input => exact .apart (.enqueue g rfl)
  | work =>
    simp only [happens]
    split
    · rename_i hready
      exact .idle hready
    · rename_i job rest hready
      by_cases hjob : job = .scanner
      · subst hjob
        exact .scanner hready
      · exact .work hready hjob (.perform _ hjob)
  | pass time => exact .pass time
  | ring => exact .ring
  | change w => exact .apart (.of_rhythm rfl)
  | start =>
    have hsame : g.happens .start = g := if_pos (hstart rfl)
    rw [hsame]
    exact .apart (.refl g)
  | track k workId => exact .apart (.withTracker g k (.track workId))
  | register k workId w isDone => exact .apart (.withTracker g k (.register workId w isDone))
  | scan k audience => exact .apart (.scan g k audience)
  | hold => exact .apart (.of_rhythm rfl)
  | finishScan k => exact .apart (.finishScan g k)
  | release => exact .apart (.of_rhythm rfl)
  | delay => exact .apart (.of_rhythm rfl)
  | listen sh =>
    obtain ⟨c, hc, rfl⟩ := hfair sh rfl
    exact .apart (.listen g hc)
  | signal => exact .apart (.triggerShutdown g)
  | signalLater time => exact .apart (.setTimer g time rfl)
  | abort => exact absurd rfl habort

theorem Fair.course (hfair : Fair g₀ (hs ++ [h]))
    (hstart : h = .start → (g₀.after hs).started = true) (habort : h ≠ .abort) :
    Course (worked [h]) (g₀.after hs) (g₀.after (hs ++ [h])) := by
  rw [after_concat]
  refine course_of_happens _ h hstart habort fun sh hsh => hfair hs sh ?_
  exact hsh ▸ List.prefix_rfl

omit [Outside W] in
/-- The scanner subscribes at the start, before anything else goes on, and its job is ready. -/
theorem start_spec (h : g.started = false) : ∃ g₁,
    Apart { g with started := true, shutdown := g.shutdown.subscribe .scanner } g₁ ∧
      g.start = { g₁ with scanner := some g₁.now }.enqueue .scanner := by
  refine ⟨_, .startEscrows g.desks _, ?_⟩
  rw [start, h]
  rfl

/-! ### Runs -/

/-- What never changes stays as it is through all that happens. -/
theorem steady_after (hsteady : Steady g₀ g₀) (hfair : Fair g₀ hs) : Steady g₀ (g₀.after hs) := by
  induction hs using List.reverseRecOn with
  | nil => exact hsteady
  | append_singleton hs h ih =>
    have ih := ih hfair.left
    by_cases habort : h = .abort
    · rw [after_concat, habort]
      exact ih.abort
    · by_cases hstart : h = .start ∧ (g₀.after hs).started = false
      · obtain ⟨g₁, hbegun, heq⟩ := start_spec hstart.2
        rw [after_concat, hstart.1, show (g₀.after hs).happens .start = _ from heq]
        have hsubscribed : Steady g₀ { g₀.after hs with
            started := true, shutdown := (g₀.after hs).shutdown.subscribe .scanner } :=
          ⟨ih.config, ih.ledgers, ih.timers⟩
        have hgoing := hsubscribed.apart hbegun
        exact ⟨hgoing.config, hgoing.ledgers, hgoing.timers⟩
      · refine ih.course (hfair.course (fun heq => ?_) habort)
        exact Bool.eq_true_of_not_eq_false fun hnot => hstart ⟨heq, hnot⟩

/-- Until it is started a gateway has no scanner. -/
theorem resting_after (hresting : Resting g₀) (hfair : Fair g₀ hs) (hstart : .start ∉ hs) :
    Resting (g₀.after hs) := by
  induction hs using List.reverseRecOn with
  | nil => exact hresting
  | append_singleton hs h ih =>
    have ih := ih hfair.left fun hmem => hstart (List.mem_append_left _ hmem)
    by_cases habort : h = .abort
    · rw [after_concat, habort]
      exact ⟨ih.started, rfl, ih.subscribers, ih.signalled⟩
    · refine ih.course (hfair.course (fun heq => ?_) habort)
      exact absurd (heq ▸ List.mem_append_right hs List.mem_cons_self) hstart

omit [Outside W] in
/-- After a start in time the scanner is attentive. -/
theorem Resting.start (h : Resting g) (htime : g.shutdown.triggered = false) :
    Attentive g.start := by
  obtain ⟨g₁, hbegun, heq⟩ := start_spec h.started
  obtain ⟨calls, hcalls, hshutdown⟩ := hbegun.signal
  have hsubscribed : .scanner ∈ (g.shutdown.subscribe .scanner).subscribers := List.mem_cons_self
  rw [heq]
  refine ⟨hbegun.started, fun _ => ?_, fun htriggered => Or.inr ⟨?_, ?_⟩⟩
  · show .scanner ∈ g₁.shutdown.subscribers
    rw [hshutdown]
    exact (Shutdown.subscribers_after hcalls).2 hsubscribed
  · show .scanner ∈ g₁.shutdown.signalled
    have htriggered : g₁.shutdown.triggered = true := htriggered
    rw [hshutdown] at htriggered ⊢
    exact Shutdown.mem_signalled_after htime hsubscribed hcalls htriggered
  · exact List.mem_append_right _ List.mem_cons_self

omit [Outside W] in
/-- After a late start it is deaf. -/
theorem Resting.start_late (h : Resting g) (hlate : g.shutdown.triggered = true) :
    Deaf g.start := by
  obtain ⟨g₁, hbegun, heq⟩ := start_spec h.started
  obtain ⟨calls, hcalls, hshutdown⟩ := hbegun.signal
  rw [heq]
  have hkept : .scanner ∈ g₁.shutdown.signalled ↔
      .scanner ∈ (g.shutdown.subscribe .scanner).signalled := by
    rw [hshutdown]
    exact Shutdown.signalled_after hlate hcalls
  exact ⟨hbegun.started, hbegun.triggered hlate, fun hmem =>
    h.signalled (List.mem_of_mem_erase (hkept.1 hmem)), g₁.now, rfl,
    Or.inl (List.mem_append_right _ List.mem_cons_self)⟩

theorem attentive_after (hresting : Resting g₀) (hfair : Fair g₀ hs)
    (hwhen : StartedWhen false g₀ hs) : Attentive (g₀.after hs) := by
  obtain ⟨past, later, rfl, hfirst, htime⟩ := hwhen
  induction later using List.reverseRecOn with
  | nil =>
    rw [after_concat]
    exact (resting_after hresting hfair.left hfirst).start htime
  | append_singleton later h ih =>
    rw [← List.cons_append, ← List.append_assoc] at hfair ⊢
    have ih := ih hfair.left
    by_cases habort : h = .abort
    · rw [after_concat, habort]
      exact ih.abort
    · exact ih.course (hfair.course (fun _ => ih.started) habort)

theorem deaf_after (hresting : Resting g₀) (hsteady : Steady g₀ g₀)
    (hperiod : 0 < g₀.config.scanInterval.toNat) (hfair : Fair g₀ hs)
    (hwhen : StartedWhen true g₀ hs) (habort : .abort ∉ hs) : Deaf (g₀.after hs) := by
  obtain ⟨past, later, rfl, hfirst, hlate⟩ := hwhen
  induction later using List.reverseRecOn with
  | nil =>
    rw [after_concat]
    exact (resting_after hresting hfair.left hfirst).start_late hlate
  | append_singleton later h ih =>
    rw [← List.cons_append, ← List.append_assoc] at hfair habort ⊢
    have ih := ih hfair.left fun hmem => habort (List.mem_append_left _ hmem)
    have hrate := (steady_after hsteady hfair.left).config
    refine ih.course (hrate ▸ hperiod) (hfair.course (fun _ => ih.started) fun heq => ?_)
    exact habort (heq ▸ List.mem_append_right _ List.mem_cons_self)

theorem falls_after {n : Nat} (hsteady : Steady g₀ g₀) (hstarted : Attentive (g₀.after hs))
    (h : Falls n (g₀.after hs)) (hfair : Fair g₀ (hs ++ more)) :
    Attentive (g₀.after (hs ++ more)) ∧ Falls (n - worked more) (g₀.after (hs ++ more)) := by
  induction more using List.reverseRecOn with
  | nil =>
    rw [List.append_nil]
    exact ⟨hstarted, h⟩
  | append_singleton more event ih =>
    rw [← List.append_assoc] at hfair ⊢
    obtain ⟨hattentive, hfalls⟩ := ih hfair.left
    by_cases habort : event = .abort
    · rw [after_concat, habort, worked, List.countP_append]
      exact ⟨hattentive.abort, hfalls.abort⟩
    · have hcourse := hfair.course (fun _ => hattentive.started) habort
      rw [worked, List.countP_append, ← Nat.sub_sub]
      exact ⟨hattentive.course hcourse, hfalls.course (steady_after hsteady hfair.left) hcourse⟩

/-! ### Again and again -/

/-- There is a time when all timers have gone off. -/
theorem exists_time (n : Nat) (entries : List (Nat × Job)) :
    ∃ time, n ≤ time ∧ ∀ e ∈ entries, e.1 ≤ time := by
  induction entries with
  | nil => exact ⟨n, le_rfl, List.forall_mem_nil _⟩
  | cons e entries ih =>
    obtain ⟨time, hn, hentries⟩ := ih
    refine ⟨max time e.1, hn.trans (le_max_left _ _), List.forall_mem_cons.2
      ⟨le_max_right _ _, fun e' he' => (hentries e' he').trans (le_max_left _ _)⟩⟩

/-- The scans are ready when the jobs before the scanner's, and this one, have been done. -/
theorem Deaf.scans_of_ready {due : Nat} {before rest : List Job} (h : Deaf g)
    (hperiod : 0 < g.config.scanInterval.toNat) (hscanner : g.scanner = some due)
    (hdue : due ≤ g.now) (hready : g.ready = before ++ .scanner :: rest)
    (hbefore : .scanner ∉ before) {k : String} (hk : k ∈ g.ledgerIds) :
    .scan k none ∈ (g.after (List.replicate (before.length + 1) .work)).ready := by
  induction before generalizing g rest with
  | nil =>
    have htick : g.happens .work = tick (tickTolerance + 3) due
        ({ g with ready := rest } : Gateway (Recorded W)).quieted := by
      simp only [happens, hready, List.nil_append]
      exact runScanner_of_not_signalled hscanner h.signalled
    show _ ∈ (g.happens .work).ready
    rw [htick]
    exact scan_mem_tick (g := ({ g with ready := rest } : Gateway (Recorded W)).quieted) hdue hk
  | cons first before ih =>
    obtain ⟨hfirst, hrest⟩ := List.ne_and_not_mem_of_not_mem_cons hbefore
    have hcourse : Course 1 g (g.happens .work) :=
      course_of_happens g .work (fun heq => by cases heq) (fun heq => by cases heq)
        fun sh hsh => by cases hsh
    obtain ⟨more, hready', hscanner', hnow, hids, hconfig⟩ :=
      ready_of_course hcourse hready hfirst.symm
    exact ih (h.course hperiod hcourse) (hconfig ▸ hperiod) (hscanner'.trans hscanner)
      (hnow ▸ hdue) hready' hrest (hids ▸ hk)

/-- **A deaf scanner scans again**, when time has passed. -/
theorem Deaf.scans (h : Deaf g) (hperiod : 0 < g.config.scanInterval.toNat) :
    ∃ more : List (Happening W), (∀ event ∈ more, event.IsTime) ∧
      ∀ k ∈ g.ledgerIds, .scan k none ∈ (g.after more).ready := by
  obtain ⟨due, hscanner, hdue⟩ := h.due
  obtain ⟨time, htime, hall⟩ := exists_time due g.timers.entries
  let waited := g.after [.pass time, .ring]
  have hwaited : Deaf waited := (h.course hperiod (.pass time)).course hperiod .ring
  -- all timers have gone off by then, so the scanner's job is ready
  have hleft : (g.timers.after time).entries = [] :=
    List.dropWhile_eq_nil_iff.2 fun e he => by simpa using hall e he
  have hmem : .scanner ∈ waited.ready := by
    rcases hdue with hmem | hmem
    · exact List.mem_append_left _ hmem
    · refine List.mem_append_right _ ((mem_due_or_after g.timers time hmem).resolve_right ?_)
      rw [hleft]
      exact List.not_mem_nil
  obtain ⟨before, rest, hready, hbefore⟩ := List.eq_append_cons_of_mem hmem
  refine ⟨[.pass time, .ring] ++ List.replicate (before.length + 1) .work, fun event he => ?_,
    fun k hk => ?_⟩
  · simp only [List.cons_append, List.nil_append, List.mem_cons, List.mem_replicate] at he
    rcases he with rfl | rfl | ⟨-, rfl⟩ <;> exact trivial
  · rw [after_append]
    exact hwaited.scans_of_ready hperiod hscanner htime hready hbefore hk

/-! ## The signal and the scanner -/

/-- **How gateways heed the shutdown signal**: it is given once, and ends the scanner exactly if
    the start did not come too late. -/
theorem heeds_of {c : Config} {fit : Fittings} {w : W}
    (hbuild : build c fit ⟨w, []⟩ = .ok g₀) : Heeds g₀ := by
  have hbuilt := built_of hbuild
  have hfresh := hbuilt.fresh
  have hshutdown : g₀.shutdown = .new := congrArg Gateway.shutdown hfresh
  have hsteady : Steady g₀ g₀ := by
    refine ⟨rfl, rfl, fun e he => ?_⟩
    rw [show g₀.timers = .empty from congrArg Gateway.timers hfresh] at he
    cases he
  have hresting : Resting g₀ := by
    refine ⟨congrArg Gateway.started hfresh, congrArg Gateway.scanner hfresh, ?_, ?_⟩ <;>
      rw [hshutdown] <;> exact List.not_mem_nil
  have hperiod : 0 < g₀.config.scanInterval.toNat := by
    rw [show g₀.config = c from congrArg Gateway.config hfresh]
    exact Config.scanInterval_pos hbuilt.valid
  refine ⟨hshutdown, fun hs h hfair => ?_, fun calls => ⟨?_, ?_⟩,
    fun name past calls => Shutdown.hearings_subscription past, ?_, ?_⟩
  · by_cases habort : h = .abort
    · rw [after_concat, habort]
      exact ⟨[], rfl⟩
    · by_cases hstart : h = .start ∧ (g₀.after hs).started = false
      · obtain ⟨g₁, hbegun, heq⟩ := start_spec hstart.2
        obtain ⟨calls, -, hcalls⟩ := hbegun.signal
        rw [after_concat, hstart.1, show (g₀.after hs).happens .start = _ from heq]
        exact ⟨.subscribe .scanner :: calls, hcalls⟩
      · refine (hfair.course (fun heq => ?_) habort).calls
        exact Bool.eq_true_of_not_eq_false fun hnot => hstart ⟨heq, hnot⟩
  · simp [Shutdown.triggered_after, Shutdown.new]
  · rw [Shutdown.reason_after]
    rfl
  · intro hs hwhen htriggered more hfair hworked
    have hattentive := attentive_after hresting hfair.left hwhen
    have hfalls := (falls_after hsteady hattentive (hattentive.falls htriggered) hfair).2
    rw [Nat.sub_eq_zero_of_le hworked] at hfalls
    exact hfalls.silent
  · intro hs hwhen habort hfair
    have hdeaf := deaf_after hresting hsteady hperiod hfair hwhen habort
    have hsteady' := steady_after hsteady hfair
    obtain ⟨more, htime, hscans⟩ := hdeaf.scans (hsteady'.config ▸ hperiod)
    refine ⟨more, htime, fun k hk => ?_⟩
    rw [after_append]
    exact hscans k (hsteady'.ledgers ▸ hk)

/-- Where nobody else listens, everything is fair. -/
theorem fair_of_unheard (h : ∀ sh, .listen sh ∉ hs) : Fair g₀ hs :=
  fun past sh hpast => absurd (hpast.subset (List.mem_append_right past List.mem_cons_self)) (h sh)

end

/-- A gateway whose start comes right before the signal scans nothing when two jobs are done; one
    whose start comes right after it scans its ledger some time. -/
theorem heeds_signalAndStart :
    build mainLedger plainFittings ⟨acquainted, []⟩ = .ok mainGateway ∧
      (mainGateway.after [.start, .signal]).ready.length = 2 ∧
      (∀ k audience, .scan k audience ∉
        (mainGateway.after ([.start, .signal] ++ [.work, .work, .pass 10000, .ring])).ready) ∧
      ∃ more : List (Happening Stage), (∀ h ∈ more, h.IsTime) ∧
        .scan "main" none ∈ (mainGateway.after ([.signal, .start] ++ more)).ready := by
  have hbuild : build mainLedger plainFittings ⟨acquainted, []⟩ = .ok mainGateway := rfl
  have hheeds := heeds_of hbuild
  have htwo : (mainGateway.after [.start, .signal]).ready.length = 2 := by decide +kernel
  refine ⟨hbuild, htwo, ?_, ?_⟩
  · refine (hheeds.silent [.start, .signal] ⟨[], [.signal], rfl, List.not_mem_nil, rfl⟩
      (by decide +kernel) [.work, .work, .pass 10000, .ring]
      (fair_of_unheard fun sh hsh => by simp at hsh) (by rw [htwo]; decide)).2
  · obtain ⟨more, htime, hscans⟩ := hheeds.restless [.signal, .start]
      ⟨[.signal], [], rfl, by simp, by decide +kernel⟩ (by simp)
      (fair_of_unheard fun sh hsh => by simp at hsh)
    exact ⟨more, htime, hscans "main" (by decide)⟩

end Gateway

end LedgerGate
