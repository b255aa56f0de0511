/-
  How the lines of an input are answered, in every order and by the program.

  A gateway that serves takes the requests on the lines, and whatever it does afterwards it
  says what the replies for its deliveries call for.  So `Transport.serve` is one order of the
  steps of a pipeline whose couriers are the deliveries and whose writer writes at once.

  * `Pipeline.Mirrors`: the couriers wait for what a gateway's deliveries wait for, and what it
    has said was written;
  * `Mirrors.hears`, `Mirrors.speaks`, `Mirrors.takeLines`: a pipeline keeps up with a gateway;
  * `serve_run`: **`serve` is one order of the steps**; `serve_eq`: and it passes over lines
    without a request;
  * `Orderly`, `orderly_of_run`: what was written by any time, and in the end;
  * `Answering`, `answering_of`: **every request is answered, whole and in its order.**
-/
import LedgerGate.Proofs.Gateway.Docket
import LedgerGate.Proofs.Transport.Pipeline
import LedgerGate.Stage

namespace LedgerGate.Transport

namespace Pipeline

variable {limit : UInt32} {input : List UInt8} {s : Pipeline}

/-! ## Couriers and deliveries -/

/-- What a courier has to send goes all the way to the writer. -/
theorem carries (limit : UInt32) {i : Nat} {c : Courier} (hc : s.couriers[i]? = some c)
    (hqueue : s.queue = []) (hhand : s.hand = none) :
    Relation.ReflTransGen (Step limit) s { s with
      couriers := s.couriers.set i { c with unsent := [] }
      written := s.written ++ c.unsent.map (i, ·) } := by
  obtain ⟨unread, stage, couriers, queue, hand, written⟩ := s
  dsimp only at hc hqueue hhand ⊢
  subst hqueue hhand
  obtain ⟨request, replies, unsent, waiting⟩ := c
  dsimp only
  induction unsent generalizing couriers written with
  | nil =>
    obtain ⟨hi, hself⟩ := List.getElem?_eq_some_iff.1 hc
    rw [← hself, List.set_getElem_self hi, List.map_nil, List.append_nil]
  | cons x rest ih =>
    have hi := (List.getElem?_eq_some_iff.1 hc).1
    have hrest := ih (couriers.set i ⟨request, replies, rest, waiting⟩) (written ++ [(i, x)])
      (List.getElem?_set_self hi)
    rw [List.set_set, List.append_assoc] at hrest
    have hroom : ([] : List (Nat × Response)).length < queueSize := by decide
    exact .head (.send hc rfl hroom) (.head (.pick rfl rfl) (.head (.put rfl) hrest))

/-- The deliveries that some couriers have, waiting for a reply. -/
def awaited (couriers : List Courier) : Multiset Delivery := ↑(couriers.filterMap (·.waiting))

/-- One courier more is one delivery more, if it waits. -/
theorem awaited_perm {c : Courier} {others couriers : List Courier}
    (h : (c :: others).Perm couriers) (said : List Response) :
    Docket.plus ⟨awaited others, said⟩ c.waiting = ⟨awaited couriers, said⟩ := by
  have hperm := Multiset.coe_eq_coe.2 (h.filterMap (·.waiting))
  unfold awaited
  rw [← hperm]
  cases hwaiting : c.waiting <;> simp [Docket.plus, hwaiting]

/-- The couriers of a pipeline wait for what deliveries wait for, and everything that was said
    after some responses was written. -/
structure Mirrors (before : List Response) (t : Docket) (s : Pipeline) : Prop where
  docket : t = ⟨awaited s.couriers, before ++ s.written.map (·.2)⟩
  sent : ∀ c ∈ s.couriers, c.unsent = []
  queue : s.queue = []
  hand : s.hand = none

namespace Mirrors

variable {before : List Response} {t t' : Docket}

/-- A reply for a delivery is one for a courier, and what it calls for is written. -/
theorem hears (h : Mirrors before t s) (ht : Docket.Hears limit t t') :
    ∃ couriers written, Relation.ReflTransGen (Step limit) s { s with couriers, written } ∧
      Mirrors before t' { s with couriers, written } := by
  obtain @⟨d, rest, l, hafoot⟩ := ht
  obtain ⟨rfl, hsent, hqueue, hhand⟩ := h
  dsimp only at hafoot ⊢
  have hmem : d ∈ awaited s.couriers := hafoot ▸ Multiset.mem_cons_self d rest
  obtain ⟨c, hc, hd⟩ := List.mem_filterMap.1 (Multiset.mem_coe.1 hmem)
  obtain ⟨i, hi, rfl⟩ := List.mem_iff_getElem.1 hc
  let heard := s.couriers[i].hears limit d l
  have hhear : Step limit s { s with couriers := s.couriers.set i heard } :=
    .hear l (List.getElem?_eq_getElem hi) (hsent _ hc) hd
  have hcarries := carries limit (s := { s with couriers := s.couriers.set i heard })
    (List.getElem?_set_self hi) hqueue hhand
  dsimp only at hcarries
  rw [List.set_set] at hcarries
  refine ⟨_, _, .head hhear hcarries, ?_, ?_, hqueue, hhand⟩
  · -- the other couriers wait for what the other deliveries wait for
    have hbefore : d ::ₘ awaited (s.couriers.eraseIdx i) = d ::ₘ rest := by
      have hall := awaited_perm (List.getElem_cons_eraseIdx_perm hi) []
      rw [hd] at hall
      exact (congrArg Docket.afoot hall).trans hafoot
    rw [← (Multiset.cons_inj_right d).1 hbefore]
    have hafter := awaited_perm (List.set_perm_cons_eraseIdx hi { heard with unsent := [] }).symm
      (before ++ s.written.map (·.2) ++ heard.unsent)
    refine hafter.trans (Docket.ext rfl ?_)
    simp [Function.comp_def]
  · intro c hc
    rcases List.mem_or_eq_of_mem_set hc with hc | rfl
    · exact hsent c hc
    · rfl

/-- **What is said is written**: a pipeline keeps up with a gateway. -/
theorem speaks {W : Type} {g g' : Gateway W} (h : Mirrors before g.docket s)
    (hspeaks : g.Speaks none g') :
    ∃ couriers written, Relation.ReflTransGen (Step g.maxDepth) s { s with couriers, written } ∧
      Mirrors before g'.docket { s with couriers, written } := by
  have hhears := hspeaks.hears
  generalize g'.docket = t' at hhears
  induction hhears with
  | refl => exact ⟨s.couriers, s.written, .refl, h⟩
  | tail _ hlast ih =>
    obtain ⟨couriers, written, hsteps, hmirrors⟩ := ih
    obtain ⟨couriers', written', hsteps', hmirrors'⟩ := hmirrors.hears hlast
    exact ⟨couriers', written', hsteps.trans hsteps', hmirrors'⟩

/-- A request that is taken is a delivery, and it has a courier. -/
theorem take (h : Mirrors before t s) (unread : List (List UInt8)) (r : Request) :
    Mirrors before (t.plus (some (.ofRequest r)))
      { s with unread, couriers := s.couriers ++ [.ofRequest r] } := by
  obtain ⟨rfl, hsent, hqueue, hhand⟩ := h
  refine ⟨?_, ?_, hqueue, hhand⟩
  · exact awaited_perm (c := .ofRequest r) (List.perm_append_singleton _ _).symm _
  · intro c hc
    rcases List.mem_append.1 hc with hc | hc
    · exact hsent c hc
    · rw [List.mem_singleton.1 hc]
      rfl

end Mirrors

/-! ## Serving -/

section
variable {W : Type} {before : List Response} {g : Gateway W}

/-- Whatever a furnished gateway does, a pipeline keeps up with it. -/
theorem Mirrors.attends {g' : Gateway W} (h : Mirrors before g.docket s) (hg : g.Furnished)
    (ha : Gateway.Attends g g') : g'.Furnished ∧ g'.maxDepth = g.maxDepth ∧
      ∃ couriers written, Relation.ReflTransGen (Step g.maxDepth) s { s with couriers, written } ∧
        Mirrors before g'.docket { s with couriers, written } := by
  obtain ⟨hg', hspeaks⟩ := ha hg
  exact ⟨hg', hspeaks.depth, h.speaks hspeaks⟩

/-- **Lines are taken** up to the first one that is no text. -/
theorem Mirrors.takeLines {readable : Bool} {g' : Gateway W} (h : Mirrors before g.docket s)
    (hg : g.Furnished) (hstage : s.stage = .reading)
    (htake : Transport.takeLines g s.unread = (readable, g')) :
    g'.Furnished ∧ g'.maxDepth = g.maxDepth ∧ ∃ s', Relation.ReflTransGen (Step g.maxDepth) s s' ∧
      Mirrors before g'.docket s' ∧
      s'.stage = if readable then .draining else .returned .unreadable := by
  obtain ⟨unread, stage, couriers, queue, hand, written⟩ := s
  dsimp only at hstage htake ⊢
  subst hstage
  induction unread generalizing g couriers with
  | nil =>
    cases htake
    exact ⟨hg, rfl, _, .single (.close rfl rfl), { h with }, rfl⟩
  | cons line rest ih =>
    unfold Transport.takeLines at htake
    split at htake
    · rename_i text htext
      unfold takeText at htake
      cases hr : request? text with
      | none =>
        rw [hr] at htake
        obtain ⟨hg', hdepth, s', hsteps, hend⟩ := ih hg couriers htake { h with }
        exact ⟨hg', hdepth, s', .head (.skip rfl rfl htext hr) hsteps, hend⟩
      | some r =>
        rw [hr] at htake
        have hmore := h.take rest r
        rw [← Gateway.docket_handle] at hmore
        obtain ⟨hg', hdepth, s', hsteps, hend⟩ := ih (hg.handle r true) _ htake hmore
        exact ⟨hg', hdepth, s', .head (.take rfl rfl htext hr) hsteps, hend⟩
    · rename_i hnone
      cases htake
      exact ⟨hg, rfl, _, .single (.choke rfl rfl hnone), { h with }, rfl⟩

theorem responses_events (g : Gateway W) : responses g.events = g.responses := by
  refine congrArg (fun f => g.events.toList.filterMap f) (funext fun e => ?_)
  cases e <;> rfl

theorem Mirrors.responses (h : Mirrors before g.docket s) :
    Transport.responses g.events = before ++ s.written.map (·.2) := by
  rw [responses_events]
  exact congrArg Docket.said h.docket

/-- When no delivery is under way all couriers have ended, and serving returns. -/
theorem Mirrors.returns (h : Mirrors before g.docket s) (hstage : s.stage = .draining)
    (hidle : g.underway = 0) (limit : UInt32) :
    Relation.ReflTransGen (Step limit) s { s with stage := .returned .served } := by
  have hawaited : awaited s.couriers = 0 := by
    rw [← Gateway.afoot_eq_zero hidle]
    exact (congrArg Docket.afoot h.docket).symm
  have hended : ∀ c ∈ s.couriers, c.HasEnded := by
    intro c hc
    have hnone := List.filterMap_eq_nil_iff.1 ((Multiset.coe_eq_zero _).1 hawaited)
    exact ⟨h.sent c hc, hnone c hc⟩
  exact .head (.drained hstage hended) (.single (.finish rfl h.queue h.hand))

variable [Outside W]

/-- A run of a pipeline that comes to what serving comes to, with the same responses. -/
def Comes (g : Gateway W) (input : List UInt8) (result : Ending × Gateway W) : Prop :=
  ∃ s, Run g.maxDepth input s ∧
    responses result.2.events = responses g.events ++ s.written.map (·.2) ∧
    match result.1 with
    | .served => s.stage = .returned .served
    | .unreadable => s.stage = .returned .unreadable
    | .unfinished => s.stage = .draining ∧ result.2.underway ≠ 0

/-- A wait for the deliveries is one for the couriers. -/
theorem Mirrors.waits {g' : Gateway W} (h : Mirrors g.responses g'.docket s) (hg : g'.Furnished)
    (hdepth : g'.maxDepth = g.maxDepth) (hrun : Run g.maxDepth input s) (hstage : s.stage = .draining)
    (limit fuel : Nat) :
    Comes g input (match Gateway.waitUntil isDrained limit fuel g' with
      | (true, g) => (.served, g)
      | (false, g) => (.unfinished, g)) := by
  have hmet := Serving.waitUntil_isDrained limit fuel g'
  obtain ⟨-, -, couriers, written, hsteps, hmirrors⟩ :=
    h.attends hg (Gateway.attends_waitUntil isDrained limit fuel g')
  rw [hdepth] at hsteps
  have hwaited : Run g.maxDepth input _ := Relation.ReflTransGen.trans hrun hsteps
  rcases hwait : Gateway.waitUntil isDrained limit fuel g' with ⟨_ | _, g''⟩ <;>
    rw [hwait] at hmet hmirrors <;> have hsaid := hmirrors.responses <;>
    rw [← responses_events g] at hsaid
  · exact ⟨_, hwaited, hsaid, hstage, beq_eq_false_iff_ne.1 hmet.symm⟩
  · have hreturns := hmirrors.returns hstage (beq_iff_eq.1 hmet.symm) g.maxDepth
    exact ⟨_, hwaited.trans hreturns, hsaid, rfl⟩

/-- **`serve` is one order of the steps**, up to its limit of time. -/
theorem serve_run (hg : g.Furnished) (hidle : g.underway = 0)
    (hsignal : (g.shutdown.receive .transport).1 = false) (input : List UInt8) (limit : Nat) :
    Comes g input (serve g input limit) := by
  have hstart : Mirrors g.responses g.docket (start input) := by
    refine ⟨Docket.ext (Gateway.afoot_eq_zero hidle) ?_, ?_, rfl, rfl⟩
    · exact (List.append_nil _).symm
    · intro c hc
      cases hc
  have hsame := Serving.receive_eq_self hsignal
  unfold serve
  rcases hreceive : g.shutdown.receive .transport with ⟨stopping, shutdown⟩
  rw [hreceive] at hsignal hsame
  dsimp only at hsignal hsame
  subst hsignal hsame
  rcases htake : takeLines g (lines input) with ⟨readable, g'⟩
  obtain ⟨hg', hdepth, s, hsteps, htaken, hstage⟩ := hstart.takeLines hg rfl htake
  obtain ⟨hsettled, hdepth', couriers, written, hsteps', hmirrors⟩ :=
    htaken.attends hg' g'.attends_settle
  rw [hdepth] at hsteps' hdepth'
  have hrun : Run g.maxDepth input _ := hsteps.trans hsteps'
  simp only [htake, Bool.false_eq_true, if_false]
  cases readable with
  | false =>
    have hsaid := hmirrors.responses
    rw [← responses_events g] at hsaid
    exact ⟨_, hrun, hsaid, hstage⟩
  | true => exact hmirrors.waits hsettled hdepth' hrun hstage _ _

omit [Outside W] in
/-- Of lines that are texts the requests are taken, and nothing else matters. -/
theorem takeLines_texts {ls : List (List UInt8)} (h : Texts ls) (g : Gateway W) :
    takeLines g ls = (true, (ls.filterMap lineRequest?).foldl (fun g r => g.handle r true) g) := by
  induction ls generalizing g with
  | nil => rfl
  | cons line rest ih =>
    obtain ⟨hline, hrest⟩ := List.forall_mem_cons.1 h
    obtain ⟨text, htext⟩ := Option.isSome_iff_exists.1 hline
    unfold takeLines
    rw [htext, List.filterMap_cons, lineRequest?, htext, Option.bind_some]
    dsimp only
    rw [ih hrest, takeText]
    cases request? text <;> rfl

/-- **Blank and malformed lines do not change how an input is served.** -/
theorem serve_eq {input input' : List UInt8} (h : Texts (lines input)) (h' : Texts (lines input'))
    (hsame : requests input' = requests input) (g : Gateway W) (limit : Nat) :
    serve g input' limit = serve g input limit := by
  have htake : ∀ g : Gateway W, takeLines g (lines input') = takeLines g (lines input) := by
    intro g
    unfold requests at hsame
    rw [takeLines_texts h', takeLines_texts h, hsame]
  unfold serve
  simp only [htake]

end

/-! ## At any time -/

/-- The responses to a request that were written so far. -/
structure Answered (limit : UInt32) (r : Request) (rs : List Response) : Prop where
  /-- They say whom they answer, and they are numbered from 0 on. -/
  numbered : ∀ n x, rs[n]? = some x → x.inReplyTo = r.correlation ∧ x.operation = r.operation ∧
    (n < UInt32.size → x.sequence.toNat = n)
  /-- All before the last are pending. -/
  awaited : ∀ n x, rs[n]? = some x → n + 1 < rs.length → x.isPending = true
  /-- There are at most two more of them than sequels may be followed, if the limit is not the
      highest. -/
  few : limit.toNat + 1 < UInt32.size → rs.length ≤ limit.toNat + 2

/-- Whatever the replies are, the first of the responses that they call for are such. -/
theorem answered_of_prefix {r : Request} {replies : List (Link Sequel)} {rs : List Response}
    (h : rs <+: ((Delivery.ofRequest r).told limit replies).1) : Answered limit r rs := by
  have hsequence := Delivery.sequence_told limit (.ofRequest r) replies
  have hall : ∀ {n : Nat} {x}, rs[n]? = some x →
      ((Delivery.ofRequest r).told limit replies).1[n]? = some x := by
    intro n x hx
    obtain ⟨more, hmore⟩ := h
    rw [← hmore, List.getElem?_append_left (List.getElem?_eq_some_iff.1 hx).1, hx]
  have hlength := h.length_le
  constructor
  · intro n x hx
    obtain ⟨hto, hoperation, hnumber⟩ := hsequence.numbered n x (hall hx)
    refine ⟨hto, hoperation, fun hn => ?_⟩
    have hzero : (Delivery.ofRequest r).sequence = 0 := rfl
    rw [hnumber, hzero, UInt32.zero_add]
    exact UInt32.toNat_ofNat_of_lt' hn
  · intro n x hx hn
    exact hsequence.awaited n x (hall hx) (by omega)
  · intro hlimit
    have hfew := hsequence.few hlimit UInt32.zero_le
    have hzero : (Delivery.ofRequest r).sequence.toNat = 0 := rfl
    omega

namespace Sound

variable (h : Sound limit (lines input) s) {i : Nat} {r : Request}
include h

/-- Every request has its courier, unless it is unread. -/
theorem courier_of (hi : i < s.couriers.length) (hr : (requests input)[i]? = some r) :
    ∃ c, s.couriers[i]? = some c ∧ c.request = r := by
  have hi' : i < (s.couriers.map (·.request)).length := by rwa [List.length_map]
  rw [requests, h.taken, List.getElem?_append_left hi', List.getElem?_map] at hr
  exact Option.map_eq_some_iff.1 hr

/-- What was written for a request is the first part of what some replies call for. -/
theorem exists_replies (hr : (requests input)[i]? = some r) :
    ∃ replies : List (Link Sequel),
      answersTo s.written i <+: ((Delivery.ofRequest r).told limit replies).1 := by
  by_cases hi : i < s.couriers.length
  · obtain ⟨c, hc, rfl⟩ := h.courier_of hi hr
    have htold := h.couriers hc
    refine ⟨c.replies, ?_⟩
    rw [htold, sent, answersTo_append, answersTo_append]
    simp only [List.append_assoc, List.prefix_append]
  · -- nothing is written for a request that was not read
    have hnone : answersTo s.written i = [] := by
      refine List.map_eq_nil_iff.2 (List.filter_eq_nil_iff.2 fun x hx heq => ?_)
      have hmem : x ∈ s.sent := by simp [sent, hx]
      have hlt := h.known x hmem
      have hxi : x.1 = i := of_decide_eq_true heq
      omega
    exact ⟨[], hnone ▸ List.nil_prefix⟩

/-- In the end every request has had its replies, and what they call for was written. -/
theorem told_of_served (hstage : s.stage = .returned .served)
    (hr : (requests input)[i]? = some r) : ∃ c, s.couriers[i]? = some c ∧ c.request = r ∧
      (Delivery.ofRequest r).told limit c.replies = (answersTo s.written i, none) := by
  have hread : s.unread = [] := h.read (by simp [hstage]) (by simp [hstage])
  have htaken := h.taken
  rw [hread, List.filterMap_nil, List.append_nil] at htaken
  have hi : i < s.couriers.length := by
    have hlt := (List.getElem?_eq_some_iff.1 hr).1
    rwa [requests, htaken, List.length_map] at hlt
  obtain ⟨c, hc, rfl⟩ := h.courier_of hi hr
  obtain ⟨hunsent, hwaiting⟩ := h.ended (.inr hstage) c (List.mem_of_getElem? hc)
  obtain ⟨hqueue, hhand⟩ := h.emptied hstage
  have hsent : s.sent = s.written := by simp [sent, hqueue, hhand]
  have htold := h.couriers hc
  rw [hsent, Courier.Sound, hunsent, hwaiting, List.append_nil] at htold
  exact ⟨c, hc, rfl, htold⟩

/-- Once serving has returned nothing happens any more, -/
theorem not_step_of_served (hstage : s.stage = .returned .served) (s' : Pipeline) :
    ¬ Step limit s s' := by
  have hended := h.ended (.inr hstage)
  obtain ⟨hqueue, hhand⟩ := h.emptied hstage
  intro hstep
  cases hstep with
  | take hreading => cases hstage.symm.trans hreading
  | skip hreading => cases hstage.symm.trans hreading
  | choke hreading => cases hstage.symm.trans hreading
  | close hreading => cases hstage.symm.trans hreading
  | hear l hc _ hd => cases hd.symm.trans (hended _ (List.mem_of_getElem? hc)).2
  | send hc hunsent => cases hunsent.symm.trans (hended _ (List.mem_of_getElem? hc)).1
  | pick hfull => cases hqueue.symm.trans hfull
  | put hfull => cases hhand.symm.trans hfull
  | drained hdraining => cases hstage.symm.trans hdraining
  | finish hclosing => cases hstage.symm.trans hclosing

/-- and before, if all lines are texts, something does. -/
theorem served_of_stopped (htexts : Texts (lines input)) (hstop : ∀ s', ¬ Step limit s s') :
    s.stage = .returned .served := by
  by_contra hnot
  obtain ⟨s', hstep⟩ := h.exists_step fun e hstage => by
    cases e with
    | served => exact hnot hstage
    | unreadable => exact h.readable htexts hstage
    | unfinished => exact h.stages.2 hstage
  exact hstop s' hstep

end Sound

/-- What was written by some time, and what is to come. -/
structure Orderly (limit : UInt32) (input : List UInt8) (s : Pipeline) : Prop where
  /-- The lines of the output are the responses, each on one, -/
  framed : lines s.output.toUTF8.toList = s.written.map fun x => x.2.toJson.compact.toUTF8.toList
  /-- and no text of a response has a line break. -/
  unbroken : ∀ x ∈ s.written, '\n' ∉ x.2.toJson.compact.toList
  /-- Only requests on lines are answered, -/
  known : ∀ x ∈ s.written, x.1 < (requests input).length
  /-- each in its order. -/
  answered : ∀ {i r}, (requests input)[i]? = some r → Answered limit r (answersTo s.written i)
  /-- When serving has returned, every request has had its replies, all that they call for was
      written, and the last of it is not pending. -/
  complete : s.stage = .returned .served → ∀ {i r}, (requests input)[i]? = some r →
    (∃ c, s.couriers[i]? = some c ∧ c.request = r ∧
      (Delivery.ofRequest r).told limit c.replies = (answersTo s.written i, none)) ∧
    ∃ x, (answersTo s.written i).getLast? = some x ∧ x.isPending = false
  /-- Serving texts, it comes to return: below the highest limit it does not go on for ever, -/
  halts : limit.toNat + 1 < UInt32.size → Acc (fun s' s => Step limit s s') s
  /-- under any limit it does so only if the replies to a request do, -/
  bounded : ∀ n, Acc (fun s' s => Step limit s s' ∧ ∀ c ∈ s'.couriers, c.replies.length ≤ n) s
  /-- and does not stop before. -/
  stops : Texts (lines input) → ((∀ s', ¬ Step limit s s') ↔ s.stage = .returned .served)
  /-- With the same requests on other lines of text the same could have happened. -/
  apart : Texts (lines input) → ∀ {input'}, Texts (lines input') →
    requests input' = requests input → ∃ unread, Run limit input' { s with unread } ∧
      (s.stage ≠ .reading → unread = s.unread)

theorem orderly_of_run (h : Run limit input s) : Orderly limit input s := by
  have hsound := sound_of h
  constructor
  case framed =>
    rw [output, lines_printed, List.map_map]
    rfl
  case unbroken => exact fun x _ => Json.newline_not_mem_compact _
  case known =>
    intro x hx
    have hlt := hsound.known x (by simp [sent, hx])
    rw [requests, hsound.taken, List.length_append, List.length_map]
    omega
  case answered =>
    intro i r hr
    obtain ⟨replies, hprefix⟩ := hsound.exists_replies hr
    exact answered_of_prefix hprefix
  case complete =>
    intro hstage i r hr
    obtain ⟨c, hc, hrequest, htold⟩ := hsound.told_of_served hstage hr
    refine ⟨⟨c, hc, hrequest, htold⟩, ?_⟩
    have hsequence := Delivery.sequence_told limit (.ofRequest r) c.replies
    rw [htold] at hsequence
    exact hsequence.settled rfl
  case halts =>
    intro hlimit
    exact Subrelation.accessible (fun hstep => ⟨hstep, fun _ _ => trivial⟩)
      (acc_step (Courier.patience_below hlimit) s)
  case bounded => exact fun n => acc_step (Courier.patience_bounded limit n) s
  case stops =>
    intro htexts
    exact ⟨hsound.served_of_stopped htexts, hsound.not_step_of_served⟩
  case apart =>
    intro htexts input' htexts' hsame
    have hreadable := hsound.readable htexts
    obtain ⟨unread, hrun, -, -, hread⟩ := h.transfer hreadable htexts' hsame
    exact ⟨unread, hrun, fun hne => (hread hne).trans (hsound.read hne hreadable).symm⟩

end Pipeline

/-! ## Answers -/

open Pipeline (Texts requests)

/-- How the lines of an input are answered by a gateway that serves them. -/
structure Answering {W : Type} [Outside W] (g : Gateway W) (input : List UInt8) : Prop where
  /-- In whatever order lines are read, replies come and responses are written, every request
      is answered whole and in its order, and serving does not return before. -/
  orders : ∀ {s}, Pipeline.Run g.maxDepth input s → Pipeline.Orderly g.maxDepth input s
  /-- The program serves in one of these orders, for as long as its limit allows. -/
  program : ∀ limit, Pipeline.Comes g input (serve g input limit)
  /-- Blank and malformed lines of text make no difference to it. -/
  same : Texts (lines input) → ∀ {input'}, Texts (lines input') →
    requests input' = requests input → ∀ limit, serve g input' limit = serve g input limit

/-- **Every request on a line is answered**: by all the responses that its replies call for,
    each on a line of its own, numbered from 0 and the last of them not pending. -/
theorem answering_of {W : Type} [Outside W] {g : Gateway W} (hg : g.Furnished)
    (hidle : g.underway = 0) (hsignal : (g.shutdown.receive .transport).1 = false)
    (input : List UInt8) : Answering g input where
  orders h := Pipeline.orderly_of_run h
  program limit := Pipeline.serve_run hg hidle hsignal input limit
  same htexts _ htexts' hsame limit := Pipeline.serve_eq htexts htexts' hsame g limit

/-- A gateway that was built without ledgers, so it answers pings, and serves lines. -/
def frontDesk : Gateway LedgerGate.Stage :=
  let delegates : Assignments Delegate := ⟨[(Delegate.ping.key, .ping)]⟩
  (Gateway.ofParts {} ⟨[], internalLedger⟩ delegates [] .empty).subscribeTransport

/-- A ping, a blank line and one that holds no request. -/
def pingAmongNoise : List UInt8 :=
  ("\x7b\"messageId\":\"m\",\"operation\":\"PING\",\"input\":" ++
    "\x7b\"shape\":\"PING\",\"message\":\"hi\"\x7d\x7d\n\nnot json\n").toUTF8.toList

theorem answering_pingAmongNoise : frontDesk.Furnished ∧ frontDesk.underway = 0 ∧
    (frontDesk.shutdown.receive .transport).1 = false ∧ Answering frontDesk pingAmongNoise ∧
    (requests pingAmongNoise).length = 1 ∧ (lines pingAmongNoise).length = 3 ∧
    (serve frontDesk pingAmongNoise 0).1 = .served := by
  have hbuild : Gateway.build {} ⟨true, false, fun _ => none, []⟩ LedgerGate.Stage.empty =
    .ok (Gateway.ofParts {} ⟨[], internalLedger⟩ ⟨[(Delegate.ping.key, .ping)]⟩ [] .empty) := rfl
  have hbuilt : Gateway.Furnished _ := .of_built (Gateway.built_of hbuild) fun d hd => by cases hd
  have hfurnished : frontDesk.Furnished := hbuilt.of_routes (.of_byplay (.of_core rfl))
  exact ⟨hfurnished, rfl, rfl, answering_of hfurnished rfl rfl _, by decide +kernel,
    by decide +kernel, by decide +kernel⟩

end LedgerGate.Transport
