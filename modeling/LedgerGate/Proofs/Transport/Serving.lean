/-
  Serving step by step: who holds the way out, and when serving can return.

  Serving takes lines, then waits for the deliveries it has begun, then drops its own hold
  on the way out and waits for the writer, which ends when nobody holds it any more.  A
  delivery holds it from its beginning to its end.  Beside every delivery stands a watch,
  which serving waits for and which it calls off on shutdown; but a delivery runs on
  without its watch.

  In which order serving, the gateway, the clock, the world outside and shutdown take
  their turns is left open.

  * `Serving`, `Serving.Step`: the state of serving and its steps;
  * `Stuck`: serving beside a delivery that waits for what never comes;
  * `Settlement`, `settlement`: **serving returns exactly if all that it took has been
    delivered**, shutdown or not;
  * `serve_steps`: `Transport.serve` is one order of the steps.
-/
import LedgerGate.Gateway.Build
import LedgerGate.Proofs.Gateway.Deliveries
import LedgerGate.Stage
import LedgerGate.Transport
import Mathlib.Logic.Relation

namespace LedgerGate.Transport

variable {W : Type}

/-! ## Steps -/

/-- How far serving is: it reads, it waits for the watches, it has heard of shutdown, it
    waits for the writer, or it has returned. -/
inductive Serving.Stage where
  | reading
  | draining
  | stopping
  | closing
  | returned (ending : Ending)
  deriving DecidableEq

/-- Serving, with the watches that stand and the requests that were taken. -/
structure Serving (W : Type) where
  gateway : Gateway W
  stage : Serving.Stage
  watches : Nat
  taken : Nat

namespace Serving

/-- Serving before the first line. -/
def start (g : Gateway W) : Serving W := ⟨g, .reading, 0, 0⟩

/-- Whether serving itself still holds the way out. -/
def holds (s : Serving W) : Bool :=
  match s.stage with
  | .reading => true
  | .draining => true
  | .stopping => true
  | .closing => false
  | .returned _ => false

/-- How many hold the way out. -/
def holders (s : Serving W) : Nat := s.holds.toNat + s.gateway.underway

/-- Whether serving has not returned yet. -/
def isOpen (s : Serving W) : Bool :=
  match s.stage with
  | .returned _ => false
  | _ => true

/-- The number of requests on a line of text. -/
def requestsOn (text : String) : Nat := (request? text).isSome.toNat

/-- What can happen while serving has not returned. -/
inductive Step [Outside W] : Serving W → Serving W → Prop
  /-- the gateway does the first of its jobs -/
  | work {s job rest} : s.isOpen → s.gateway.ready = job :: rest →
      Step s { s with gateway := { s.gateway with ready := rest }.perform job }
  /-- time passes -/
  | pass {s} (time : Nat) : s.isOpen →
      Step s { s with gateway := { s.gateway with
        now := time
        ready := s.gateway.ready ++ s.gateway.timers.due time
        timers := s.gateway.timers.after time } }
  /-- the world outside changes -/
  | change {s} (w : W) : s.isOpen → Step s { s with gateway := { s.gateway with outside := w } }
  /-- shutdown is signalled -/
  | signal {s} : s.isOpen → Step s { s with gateway := s.gateway.triggerShutdown }
  /-- a line is taken -/
  | take {s} (text : String) : s.stage = .reading →
      Step s { s with
        gateway := takeText s.gateway text
        watches := s.watches + requestsOn text
        taken := s.taken + requestsOn text }
  /-- a line is no text -/
  | choke {s} : s.stage = .reading → Step s { s with stage := .returned .unreadable, watches := 0 }
  /-- the input closes -/
  | close {s} : s.stage = .reading → Step s { s with stage := .draining }
  /-- serving hears of shutdown -/
  | stop {s} : s.stage = .reading ∨ s.stage = .draining →
      (s.gateway.shutdown.receive .transport).1 →
      Step s { s with
        gateway := { s.gateway with shutdown := (s.gateway.shutdown.receive .transport).2 }
        stage := .stopping }
  /-- a watch ends after its delivery -/
  | join {s} : s.isOpen → s.gateway.underway < s.watches →
      Step s { s with watches := s.watches - 1 }
  /-- all watches are called off -/
  | abort {s} : s.stage = .stopping → Step s { s with watches := 0, stage := .closing }
  /-- all watches have ended -/
  | drained {s} : s.stage = .draining → s.watches = 0 → Step s { s with stage := .closing }
  /-- nobody holds the way out, so the writer ends -/
  | finish {s} : s.stage = .closing → s.holders = 0 → Step s { s with stage := .returned .served }

/-! ## Deliveries while serving -/

variable [Outside W] {g₀ : Gateway W} {s s' : Serving W}

omit [Outside W] in
/-- A line that is taken begins a delivery for the request on it. -/
theorem deliveries_takeText (g : Gateway W) (text : String) :
    (takeText g text).deliveries = g.deliveries + requestsOn text := by
  unfold takeText requestsOn
  cases request? text with
  | none => rfl
  | some r => exact Gateway.deliveries_enqueue g _

/-- A step keeps the balance of requests and deliveries. -/
theorem Step.balance (h : Step s s') :
    s'.gateway.deliveries + s.taken = s.gateway.deliveries + s'.taken := by
  cases h with
  | @work job rest _ hready =>
    have hperform := Gateway.deliveries_perform { s.gateway with ready := rest } job
    have hrest : s.gateway.deliveries =
        ({ s.gateway with ready := rest } : Gateway W).deliveries +
          if job.isDelivery then 1 else 0 := by
      simp only [Gateway.deliveries, Gateway.underway, Gateway.ended, hready, List.countP_cons]
      omega
    simp only [hperform, hrest]
  | pass time _ => simp only [Gateway.deliveries_leap]
  | change w _ => rfl
  | signal _ => simp only [Gateway.triggerShutdown, Gateway.deliveries_withShutdown]
  | take text _ =>
    simp only [deliveries_takeText]
    omega
  | _ => rfl

/-- Every request that was taken is a delivery under way or one that has ended. -/
theorem conserved (hg : g₀.underway = 0) (h : Relation.ReflTransGen Step (start g₀) s) :
    s.gateway.underway + s.gateway.ended = g₀.ended + s.taken := by
  have hall : s.gateway.deliveries = g₀.deliveries + s.taken := by
    induction h with
    | refl => rfl
    | tail _ hstep ih =>
      have := hstep.balance
      omega
  simp only [Gateway.deliveries] at hall
  omega

/-! ## Standstill -/

omit [Outside W] in
theorem holders_closing (h : s.stage = .closing) : s.holders = s.gateway.underway := by
  simp [holders, holds, h]

/-- Serving that waits for the writer while a delivery waits for what never comes: there
    is no job, no timer and no scanner. -/
structure Stuck (s : Serving W) : Prop where
  closing : s.stage = .closing
  unready : s.gateway.ready = []
  untimed : s.gateway.timers.entries = []
  unscanned : s.gateway.scanner = none
  underway : s.gateway.underway ≠ 0

/-- Once stuck, serving stays stuck. -/
theorem Stuck.step (hs : Stuck s) (h : Step s s') : Stuck s' := by
  obtain ⟨hclosing, hready, htimers, hscanner, hunderway⟩ := hs
  cases h with
  | work _ hjob => cases hready.symm.trans hjob
  | pass time _ =>
    have hdue : s.gateway.timers.due time = [] := by simp [Timers.due, htimers]
    have hafter : s.gateway.timers.after time = s.gateway.timers := by
      cases ht : s.gateway.timers
      simp_all [Timers.after]
    rw [hdue, hafter, List.append_nil]
    exact ⟨hclosing, hready, htimers, hscanner, hunderway⟩
  | change => exact ⟨hclosing, hready, htimers, hscanner, hunderway⟩
  | signal =>
    -- without a scanner the signal rouses nobody
    have hquiet : s.gateway.triggerShutdown =
        { s.gateway with shutdown := s.gateway.shutdown.trigger } := by
      simp [Gateway.triggerShutdown, Gateway.withShutdown, hscanner]
    rw [hquiet]
    exact ⟨hclosing, hready, htimers, hscanner, hunderway⟩
  | join => exact ⟨hclosing, hready, htimers, hscanner, hunderway⟩
  | take _ hreading => cases hclosing.symm.trans hreading
  | choke hreading => cases hclosing.symm.trans hreading
  | close hreading => cases hclosing.symm.trans hreading
  | stop hbefore => rcases hbefore with h | h <;> cases hclosing.symm.trans h
  | abort hstopping => cases hclosing.symm.trans hstopping
  | drained hdraining => cases hclosing.symm.trans hdraining
  | finish _ hnobody =>
    rw [holders_closing hclosing] at hnobody
    exact absurd hnobody hunderway

theorem Stuck.run (hs : Stuck s) (h : Relation.ReflTransGen Step s s') : Stuck s' := by
  induction h with
  | refl => exact hs
  | tail _ hstep ih => exact ih.step hstep

/-! ## The end of serving -/

/-- How serving settles with the requests it has taken when it has come from `g₀` to `s`. -/
structure Settlement (g₀ : Gateway W) (s : Serving W) : Prop where
  /-- Every request that was taken is under way or was delivered to its end. -/
  conserved : s.gateway.underway + s.gateway.ended = g₀.ended + s.taken
  /-- Once it is to shut down, serving comes to wait for the writer without waiting for any
      delivery. -/
  arrives : s.stage = .reading ∨ s.stage = .draining →
    (s.gateway.shutdown.receive .transport).1 →
    ∃ s', Relation.ReflTransGen Step s s' ∧ s'.stage = .closing ∧ s'.taken = s.taken ∧
      s'.gateway = { s.gateway with shutdown := (s.gateway.shutdown.receive .transport).2 }
  /-- Calling the watches off ends no delivery, and takes the way out from none. -/
  abandons : s.stage = .stopping → ∀ s', Step s s' → s'.stage = .closing →
    s'.gateway = s.gateway ∧ s'.holders = s.gateway.underway
  /-- Serving can return exactly if all that it took was delivered to its end. -/
  returns : s.stage = .closing →
    ((∃ s', Step s s' ∧ s'.stage = .returned .served) ↔ s.gateway.ended = g₀.ended + s.taken)
  /-- Serving has returned only after all that it took was delivered to its end. -/
  served : s.stage = .returned .served → s.gateway.ended = g₀.ended + s.taken
  /-- While a delivery waits for what never comes, serving waits for the writer for ever. -/
  stays : Stuck s → ∀ s', Relation.ReflTransGen Step s s' → s'.stage = .closing

omit [Outside W] in
theorem not_isOpen {ending : Ending} (h : s.stage = .returned ending) : ¬ s.isOpen := by
  simp [isOpen, h]

/-- Serving returns in one way only, from where it waits for the writer. -/
theorem Step.of_served (h : Step s s') (hs' : s'.stage = .returned .served) :
    s.stage = .closing ∧ s.holders = 0 ∧ s' = { s with stage := .returned .served } := by
  cases h with
  | work hopen => exact absurd hopen (not_isOpen hs')
  | pass _ hopen => exact absurd hopen (not_isOpen hs')
  | change _ hopen => exact absurd hopen (not_isOpen hs')
  | signal hopen => exact absurd hopen (not_isOpen hs')
  | take _ hstage => cases hstage.symm.trans hs'
  | choke => cases hs'
  | close => cases hs'
  | stop => cases hs'
  | join hopen => exact absurd hopen (not_isOpen hs')
  | abort => cases hs'
  | drained => cases hs'
  | finish hstage hholders => exact ⟨hstage, hholders, rfl⟩

/-- **How serving ends.**  Serving that is told to shut down calls its watches off and then
    waits for the writer, but the deliveries go on and hold the way out; so it returns
    exactly if every request that it took was delivered to its end, and abandons none. -/
theorem settlement (hg : g₀.underway = 0) (h : Relation.ReflTransGen Step (start g₀) s) :
    Settlement g₀ s := by
  have hcons := conserved hg h
  refine ⟨hcons, fun hstage hsignal => ?_, fun hstage s' hstep hs' => ?_, fun hstage => ?_,
    fun hstage => ?_, fun hs s' hrun => (hs.run hrun).closing⟩
  · exact ⟨_, .tail (.tail .refl (.stop hstage hsignal)) (.abort rfl), rfl, rfl, rfl⟩
  · cases hstep with
    | abort => exact ⟨rfl, by simp [holders, holds]⟩
    | work => cases hstage.symm.trans hs'
    | pass => cases hstage.symm.trans hs'
    | change => cases hstage.symm.trans hs'
    | signal => cases hstage.symm.trans hs'
    | take => cases hstage.symm.trans hs'
    | join => cases hstage.symm.trans hs'
    | drained hdraining => cases hstage.symm.trans hdraining
    | _ => cases hs'
  · have hholders := holders_closing hstage
    constructor
    · rintro ⟨s', hstep, hs'⟩
      obtain ⟨-, hzero, -⟩ := hstep.of_served hs'
      omega
    · intro hended
      exact ⟨_, .finish hstage (by omega), rfl⟩
  · cases h with
    | refl => cases hstage
    | tail hbefore hstep =>
      obtain ⟨hclosing, hzero, rfl⟩ := hstep.of_served hstage
      have hcons' := conserved hg hbefore
      rw [holders_closing hclosing] at hzero
      dsimp only
      omega

/-- A line with a request is taken as the request. -/
theorem Step.request {text : String} {r : Request} (htext : request? text = some r)
    (hs : s.stage = .reading) :
    Step s { s with
      gateway := s.gateway.handle r true
      watches := s.watches + 1
      taken := s.taken + 1 } := by
  have h := Step.take text hs
  simp only [takeText, requestsOn, htext] at h
  exact h

/-- A gateway with one delegate, whose replies promise what never comes. -/
def waitingRoom : Gateway LedgerGate.Stage :=
  let key : RouteKey := ⟨"WAIT", .empty, .none⟩
  let delegate : Delegate := .custom key fun _ _ => .ok (.pending (.pending "w" none) (.receipt 0))
  (Gateway.ofParts {} ⟨[], internalLedger⟩ ⟨[(key, delegate)]⟩ [] .empty).subscribeTransport

/-- A request is taken and answered with a pending result, shutdown is signalled, the watch
    is called off, and serving never returns. -/
theorem settlement_waitingRoom : ∃ s, Relation.ReflTransGen Step (start waitingRoom) s ∧
    s.gateway.shutdown.triggered ∧ s.watches = 0 ∧ s.taken = 1 ∧
    (responses s.gateway.events).map Response.isPending = [true] ∧
    ∀ s', Relation.ReflTransGen Step s s' → s'.stage = .closing := by
  have htext : request? "\x7b\"messageId\":\"m\",\"operation\":\"WAIT\"\x7d" =
      some ⟨"m", none, "WAIT", none⟩ := rfl
  have hrun := Relation.ReflTransGen.refl (r := Step) (a := start waitingRoom)
    |>.tail (.request htext rfl)
    |>.tail (.work rfl rfl)
    |>.tail (.work rfl rfl)
    |>.tail (.signal rfl)
    |>.tail (.stop (.inl rfl) rfl)
    |>.tail (.abort rfl)
  have hstuck := (settlement rfl hrun).stays ⟨rfl, rfl, rfl, rfl, by decide⟩
  exact ⟨_, hrun, rfl, rfl, rfl, rfl, hstuck⟩

/-! ## One order of the steps -/

theorem settleWithin_steps (fuel : Nat) (s : Serving W) (hs : s.isOpen) :
    Relation.ReflTransGen Step s { s with gateway := s.gateway.settleWithin fuel } := by
  induction fuel generalizing s with
  | zero => exact .refl
  | succ fuel ih =>
    unfold Gateway.settleWithin
    split
    · exact .refl
    · rename_i job rest hready
      exact .head (.work hs hready) (ih { s with gateway := _ } hs)

theorem settle_steps (s : Serving W) (hs : s.isOpen) :
    Relation.ReflTransGen Step s { s with gateway := s.gateway.settle } :=
  settleWithin_steps _ s hs

theorem leapTo_steps (time : Nat) (s : Serving W) (hs : s.isOpen) :
    Relation.ReflTransGen Step s { s with gateway := s.gateway.leapTo time } :=
  .head (.pass time hs) (settle_steps { s with gateway := _ } hs)

/-- Time may pass up to the next timer without anything else. -/
theorem Step.idle (time : Nat) (hs : s.isOpen)
    (htimers : ∀ next, s.gateway.timers.next? = some next → time < next) :
    Step s { s with gateway := { s.gateway with now := time } } := by
  have hdue : s.gateway.timers.due time = [] ∧ s.gateway.timers.after time = s.gateway.timers := by
    rcases ht : s.gateway.timers with ⟨_ | ⟨e, es⟩⟩
    · exact ⟨rfl, rfl⟩
    · rw [ht] at htimers
      have he : ¬ e.1 ≤ time := Nat.not_le.2 (htimers e.1 rfl)
      simp [Timers.due, Timers.after, he]
  have h := Step.pass time hs
  rw [hdue.1, hdue.2, List.append_nil] at h
  exact h

theorem waitUntil_steps (met : Gateway W → Bool) (limit fuel : Nat) (s : Serving W)
    (hs : s.isOpen) :
    Relation.ReflTransGen Step s
      { s with gateway := (Gateway.waitUntil met limit fuel s.gateway).2 } := by
  induction fuel generalizing s with
  | zero => exact .refl
  | succ fuel ih =>
    unfold Gateway.waitUntil
    split
    · exact .refl
    · split
      · rename_i time hnext
        split
        · exact (leapTo_steps _ s hs).trans (ih { s with gateway := _ } hs)
        · refine .single (.idle limit hs fun next hn => ?_)
          rw [hnext] at hn
          cases hn
          omega
      · rename_i hnone
        refine .single (.idle limit hs fun next hn => ?_)
        rw [hnone] at hn
        cases hn

theorem takeLines_steps (input : List (List UInt8)) (s : Serving W) (hs : s.stage = .reading) :
    ∃ watches taken, Relation.ReflTransGen Step s
      { s with gateway := (takeLines s.gateway input).2, watches, taken } := by
  induction input generalizing s with
  | nil => exact ⟨_, _, .refl⟩
  | cons line rest ih =>
    unfold takeLines
    split
    · rename_i text _
      obtain ⟨watches, taken, h⟩ := ih { s with
        gateway := takeText s.gateway text
        watches := s.watches + requestsOn text
        taken := s.taken + requestsOn text } hs
      exact ⟨watches, taken, .head (.take text hs) h⟩
    · exact ⟨_, _, .refl⟩

/-- Once no delivery is under way, all watches end. -/
theorem joins (s : Serving W) (hs : s.isOpen) (hidle : s.gateway.underway = 0) :
    Relation.ReflTransGen Step s { s with watches := 0 } := by
  obtain ⟨g, stage, watches, taken⟩ := s
  induction watches with
  | zero => exact .refl
  | succ n ih =>
    refine .head (.join hs ?_) (ih hs hidle)
    dsimp only at hidle ⊢
    omega

/-- Waiting for deliveries says whether any is left. -/
theorem waitUntil_isDrained (limit fuel : Nat) (g : Gateway W) :
    (Gateway.waitUntil isDrained limit fuel g).1 =
      isDrained (Gateway.waitUntil isDrained limit fuel g).2 := by
  induction fuel generalizing g with
  | zero => rfl
  | succ fuel ih =>
    unfold Gateway.waitUntil
    split
    · rename_i h
      exact h.symm
    · rename_i h
      have hfalse : false = isDrained g := (Bool.not_eq_true _ ▸ h).symm
      split
      · split
        · exact ih _
        · exact hfalse
      · exact hfalse

/-- Whether serving can come from a state to a result of `Transport.serve`. -/
def Reaches (s : Serving W) (result : Ending × Gateway W) : Prop :=
  ∃ s', Relation.ReflTransGen Step s s' ∧ s'.gateway = result.2 ∧
    match result.1 with
    | .served => s'.stage = .returned .served
    | .unreadable => s'.stage = .returned .unreadable
    | .unfinished => s'.isOpen ∧ s'.gateway.underway ≠ 0

theorem Reaches.of_steps {result : Ending × Gateway W} (hs : Relation.ReflTransGen Step s s')
    (h : s'.Reaches result) : s.Reaches result := by
  obtain ⟨s'', hs', hend⟩ := h
  exact ⟨s'', hs.trans hs', hend⟩

/-- Serving that waits for its deliveries ends as the wait does. -/
theorem waitUntil_reaches (limit fuel : Nat) (g : Gateway W) {stage : Stage} (watches taken : Nat)
    (hstage : stage = .draining ∨ stage = .closing) :
    Reaches (.mk g stage watches taken)
      (match Gateway.waitUntil isDrained limit fuel g with
        | (true, g) => (.served, g)
        | (false, g) => (.unfinished, g)) := by
  have hopen : (Serving.mk g stage watches taken).isOpen := by
    rcases hstage with rfl | rfl <;> rfl
  have hwait := waitUntil_steps isDrained limit fuel _ hopen
  have hmet := waitUntil_isDrained limit fuel g
  rcases hresult : Gateway.waitUntil isDrained limit fuel g with ⟨met, g'⟩
  simp only [hresult] at hwait hmet
  refine .of_steps hwait ?_
  cases met with
  | false => exact ⟨_, .refl, rfl, hopen, beq_eq_false_iff_ne.1 hmet.symm⟩
  | true =>
    have hidle : g'.underway = 0 := beq_iff_eq.1 hmet.symm
    have hfinish (n : Nat) : Step (.mk g' .closing n taken) (.mk g' (.returned .served) n taken) :=
      .finish rfl ((holders_closing rfl).trans hidle)
    rcases hstage with rfl | rfl
    · have hjoins := joins (.mk g' .draining watches taken) rfl hidle
      exact ⟨_, (hjoins.tail (.drained rfl rfl)).tail (hfinish 0), rfl, rfl⟩
    · exact ⟨_, .single (hfinish watches), rfl, rfl⟩

/-- A signal that does not wait is received without a trace. -/
theorem receive_eq_self {N : Type} [DecidableEq N] {sh : Shutdown N} {name : N}
    (h : (sh.receive name).1 = false) : (sh.receive name).2 = sh := by
  have hname : name ∉ sh.signalled := by simpa [Shutdown.receive] using h
  simp [Shutdown.receive, List.erase_of_not_mem hname]

/-- **`serve` is one order of the steps**, up to its limit of time. -/
theorem serve_steps (g : Gateway W) (input : List UInt8) (limit : Nat) :
    (start g).Reaches (serve g input limit) := by
  unfold serve
  rcases hreceive : g.shutdown.receive .transport with ⟨_ | _, shutdown⟩
  · obtain rfl : g.shutdown = shutdown := by
      have hsame := receive_eq_self (congrArg Prod.fst hreceive)
      rw [hreceive] at hsame
      exact hsame.symm
    obtain ⟨watches, taken, htake⟩ := takeLines_steps (lines input) (start g) rfl
    have hsettle := htake.trans (settle_steps _ rfl)
    dsimp only [start] at hsettle
    rcases hlines : takeLines g (lines input) with ⟨_ | _, g'⟩
    · rw [hlines] at hsettle
      exact ⟨_, hsettle.tail (.choke rfl), by simp [hlines], by simp [hlines]⟩
    · rw [hlines] at hsettle
      simp only [hlines, Bool.false_eq_true, if_false, if_true]
      exact .of_steps (hsettle.tail (.close rfl)) (waitUntil_reaches _ _ _ watches taken (.inl rfl))
  · have hstop := Step.stop (s := start g) (.inl rfl) (congrArg Prod.fst hreceive)
    have hclose := (Relation.ReflTransGen.single hstop).tail (.abort rfl)
    have hsettle := hclose.trans (settle_steps _ rfl)
    dsimp only [start] at hsettle
    rw [hreceive] at hsettle
    simp only [if_true]
    exact .of_steps hsettle (waitUntil_reaches _ _ _ 0 0 (.inr rfl))

end Serving

end LedgerGate.Transport
