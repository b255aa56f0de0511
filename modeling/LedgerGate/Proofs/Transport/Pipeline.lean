/-
  The way from lines to lines: reading, deliveries, the queue and the writer, in any order.

  Serving reads a line at a time.  Every request on one gets a courier, which waits for a
  reply, sends what that calls for into a queue of limited size, and waits for the next reply
  or has ended.  The writer takes responses out of the queue and writes each on a line.  When
  the input is read serving waits for the couriers, and then for the writer.

  In which order all of them take their turns, and what the replies are, is left open.

  * `Courier`, `Pipeline`, `Pipeline.Step`: the states and all that can happen;
  * `Sound`, `sound_of`: what holds at any time;
  * `exists_step`, `Step.rank_lt`: **serving is never stuck, and does not go on for ever**,
    unless the replies to a request do;
  * `Run.transfer`: **lines without a request make no difference.**
-/
import LedgerGate.Proofs.Delivery.Replies
import LedgerGate.Proofs.Transport.Framing
import LedgerGate.Proofs.Transport.Serving
import Mathlib.Algebra.Ring.Nat
import Mathlib.Data.List.Perm.Basic

namespace LedgerGate.Transport

/-! ## Couriers -/

/-- A request that was taken: the replies it has had, the responses that are to be sent, and
    the delivery that waits for one more reply after them. -/
structure Courier where
  request : Request
  replies : List (Link Sequel)
  unsent : List Response
  waiting : Option Delivery

namespace Courier

/-- A request before its first reply. -/
def ofRequest (r : Request) : Courier := ⟨r, [], [], some (.ofRequest r)⟩

/-- A reply comes for the delivery that waits. -/
def hears (c : Courier) (limit : UInt32) (d : Delivery) (l : Link Sequel) : Courier where
  request := c.request
  replies := c.replies ++ [l]
  unsent := (d.told limit [l]).1
  waiting := (d.told limit [l]).2

/-- Everything was sent, and no reply is waited for. -/
def HasEnded (c : Courier) : Prop := c.unsent = [] ∧ c.waiting = none

/-- What was sent for a request is what its replies call for, but for what is to be sent yet. -/
def Sound (limit : UInt32) (c : Courier) (sent : List Response) : Prop :=
  (Delivery.ofRequest c.request).told limit c.replies = (sent ++ c.unsent, c.waiting)

theorem Sound.hears {limit : UInt32} {c : Courier} {sent : List Response} (h : c.Sound limit sent)
    (hsent : c.unsent = []) {d : Delivery} (hd : c.waiting = some d) (l : Link Sequel) :
    (c.hears limit d l).Sound limit sent := by
  unfold Sound at h ⊢
  rw [hsent, hd, List.append_nil] at h
  have hmore := Delivery.told_concat (congrArg Prod.snd h) l
  rw [h] at hmore
  exact hmore

theorem Sound.sends {limit : UInt32} {c : Courier} {sent : List Response} (h : c.Sound limit sent)
    {x : Response} {rest : List Response} (hunsent : c.unsent = x :: rest) :
    ({ c with unsent := rest } : Courier).Sound limit (sent ++ [x]) := by
  unfold Sound at h ⊢
  rw [h, hunsent, List.append_assoc, List.singleton_append]

/-- Couriers among which a count says how many more replies each may hear: at most `top` before
    the first, and fewer after every one that it goes on after. -/
structure Patience (limit : UInt32) (Allowed : Courier → Prop) (left : Courier → Nat)
    (top : Nat) : Prop where
  begins : ∀ r, left (.ofRequest r) ≤ top
  sends : ∀ c rest, left { c with unsent := rest } = left c
  hears : ∀ {c : Courier} {d after : Delivery} (l : Link Sequel), c.waiting = some d →
    (c.hears limit d l).waiting = some after → Allowed (c.hears limit d l) →
    left (c.hears limit d l) < left c

/-- Below the highest limit a delivery follows so many sequels at most. -/
theorem patience_below (hlimit : limit.toNat + 1 < UInt32.size) :
    Patience limit (fun _ => True)
      (fun c => c.waiting.elim 0 fun d => limit.toNat + 1 - d.advanced.sequence.toNat)
      limit.toNat where
  begins _ := Nat.le_refl _
  sends _ _ := rfl
  hears {c d after} l hd hafter _ := by
    have hwaits : (d.told limit [l]).2 = some after := hafter
    simp only [hd, hafter, Option.elim_some]
    rcases Delivery.told_cons limit d l [] with ⟨_, _, heq⟩ | ⟨_, _, heq⟩ | ⟨_, hle, heq⟩ <;>
      rw [heq] at hwaits <;> cases hwaits
    have hnext := Delivery.toNat_advanced hlimit hle
    have hwithin := UInt32.le_iff_toNat_le.1 hle
    omega

/-- Under any limit replies that are bounded in number come to an end. -/
theorem patience_bounded (limit : UInt32) (n : Nat) :
    Patience limit (fun c => c.replies.length ≤ n) (fun c => n - c.replies.length) n where
  begins _ := Nat.le_refl _
  sends _ _ := rfl
  hears l _ _ hbound := by
    simp only [hears, List.length_append, List.length_singleton] at hbound ⊢
    omega

/-- How much a courier can still do, each reply and each response counted with what comes of
    it. -/
def due (left : Courier → Nat) (c : Courier) : Nat :=
  3 * c.unsent.length + c.waiting.elim 0 fun _ => 4 * left c + 7

theorem due_hears {Allowed : Courier → Prop} {left : Courier → Nat} {top : Nat}
    (hp : Patience limit Allowed left top) {c : Courier} (hsent : c.unsent = []) {d : Delivery}
    (hd : c.waiting = some d) (l : Link Sequel) (hallowed : Allowed (c.hears limit d l)) :
    (c.hears limit d l).due left < c.due left := by
  unfold due
  rw [hsent, hd]
  rcases hwaits : (c.hears limit d l).waiting with _ | after
  · have hfew : (d.told limit [l]).1.length ≤ 2 := by
      rcases Delivery.told_cons limit d l [] with ⟨_, _, heq⟩ | ⟨_, _, heq⟩ | ⟨_, _, heq⟩ <;>
        rw [heq] <;> simp [Delivery.told]
    simp only [hears, Option.elim_none, Option.elim_some, List.length_nil]
    omega
  · have hone : (d.told limit [l]).1.length = 1 := by
      have hwaits' : (d.told limit [l]).2 = some after := hwaits
      rcases Delivery.told_cons limit d l [] with ⟨_, _, heq⟩ | ⟨_, _, heq⟩ | ⟨_, _, heq⟩ <;>
        rw [heq] at hwaits' <;> cases hwaits'
      rw [heq]
      rfl
    have hlt := hp.hears l hd hwaits hallowed
    simp only [hears, Option.elim_some, List.length_nil] at hlt ⊢
    omega

end Courier

/-! ## Steps -/

/-- How many responses the queue holds at most. -/
def queueSize : Nat := 256

/-- Serving with its couriers, the queue and the writer.  Every response in the queue, in the
    writer's hand or written is kept with the number of its request. -/
structure Pipeline where
  unread : List (List UInt8)
  stage : Serving.Stage
  couriers : List Courier
  queue : List (Nat × Response)
  hand : Option (Nat × Response)
  written : List (Nat × Response)

namespace Pipeline

/-- Serving before the first line of an input. -/
def start (input : List UInt8) : Pipeline := ⟨lines input, .reading, [], [], none, []⟩

/-- What was printed so far. -/
def output (s : Pipeline) : String := printed (s.written.map (·.2))

/-- All that can happen when deliveries follow at most `limit` sequels. -/
inductive Step (limit : UInt32) : Pipeline → Pipeline → Prop
  /-- a line with a request is read -/
  | take {s line rest text r} : s.stage = .reading → s.unread = line :: rest →
      lineText? line = some text → request? text = some r →
      Step limit s { s with unread := rest, couriers := s.couriers ++ [.ofRequest r] }
  /-- a line of text without a request is read -/
  | skip {s line rest text} : s.stage = .reading → s.unread = line :: rest →
      lineText? line = some text → request? text = none → Step limit s { s with unread := rest }
  /-- a line is no text -/
  | choke {s line rest} : s.stage = .reading → s.unread = line :: rest → lineText? line = none →
      Step limit s { s with stage := .returned .unreadable }
  /-- the input closes -/
  | close {s} : s.stage = .reading → s.unread = [] → Step limit s { s with stage := .draining }
  /-- a reply comes for a request -/
  | hear {s i c d} (l : Link Sequel) : s.couriers[i]? = some c → c.unsent = [] →
      c.waiting = some d →
      Step limit s { s with couriers := s.couriers.set i (c.hears limit d l) }
  /-- a response is sent, if there is room for it -/
  | send {s i c x rest} : s.couriers[i]? = some c → c.unsent = x :: rest →
      s.queue.length < queueSize →
      Step limit s { s with
        couriers := s.couriers.set i { c with unsent := rest }
        queue := s.queue ++ [(i, x)] }
  /-- the writer takes the first response out of the queue -/
  | pick {s x rest} : s.queue = x :: rest → s.hand = none →
      Step limit s { s with queue := rest, hand := some x }
  /-- the writer writes it -/
  | put {s x} : s.hand = some x → Step limit s { s with hand := none, written := s.written ++ [x] }
  /-- all couriers have ended -/
  | drained {s} : s.stage = .draining → (∀ c ∈ s.couriers, c.HasEnded) →
      Step limit s { s with stage := .closing }
  /-- nothing is left for the writer -/
  | finish {s} : s.stage = .closing → s.queue = [] → s.hand = none →
      Step limit s { s with stage := .returned .served }

/-- What can have happened since the first line. -/
def Run (limit : UInt32) (input : List UInt8) (s : Pipeline) : Prop :=
  Relation.ReflTransGen (Step limit) (start input) s

/-! ## At any time -/

/-- The request on a line, if it holds one. -/
def lineRequest? (line : List UInt8) : Option Request := (lineText? line).bind request?

/-- The requests on the lines of an input. -/
def requests (input : List UInt8) : List Request := (lines input).filterMap lineRequest?

/-- The responses to a request among some. -/
def answersTo (xs : List (Nat × Response)) (i : Nat) : List Response :=
  (xs.filter (·.1 = i)).map (·.2)

theorem answersTo_append (xs ys : List (Nat × Response)) (i : Nat) :
    answersTo (xs ++ ys) i = answersTo xs i ++ answersTo ys i := by
  simp only [answersTo, List.filter_append, List.map_append]

theorem answersTo_map (i j : Nat) (rs : List Response) :
    answersTo (rs.map (i, ·)) j = if i = j then rs else [] := by
  have hpairs : ((Prod.snd : Nat × Response → Response) ∘ fun x => (i, x)) = id := rfl
  unfold answersTo
  rw [List.filter_map, List.map_map, hpairs, List.map_id]
  split
  · rename_i h
    simp [Function.comp_def, h]
  · rename_i h
    simp [Function.comp_def, h]

/-- All responses that were sent, in their order. -/
def sent (s : Pipeline) : List (Nat × Response) := s.written ++ s.hand.toList ++ s.queue

/-- What holds at any time. -/
structure Sound (limit : UInt32) (input : List (List UInt8)) (s : Pipeline) : Prop where
  /-- What is unread is the rest of the input; -/
  rest : s.unread <:+ input
  /-- every request on a line before has its courier. -/
  taken : input.filterMap lineRequest? =
    s.couriers.map (·.request) ++ s.unread.filterMap lineRequest?
  /-- What was sent for a request is what its replies call for. -/
  couriers : ∀ {i : Nat} {c : Courier}, s.couriers[i]? = some c →
    c.Sound limit (answersTo s.sent i)
  /-- Nothing else was sent. -/
  known : ∀ x ∈ s.sent, x.1 < s.couriers.length
  /-- Serving has these ways to go, -/
  stages : s.stage ≠ .stopping ∧ s.stage ≠ .returned .unfinished
  /-- goes beyond reading at a line that is no text, -/
  choked : s.stage = .returned .unreadable → ∃ line ∈ input, lineText? line = none
  /-- or when everything is read, -/
  read : s.stage ≠ .reading → s.stage ≠ .returned .unreadable → s.unread = []
  /-- waits for the writer when the couriers have ended, -/
  ended : s.stage = .closing ∨ s.stage = .returned .served → ∀ c ∈ s.couriers, c.HasEnded
  /-- and returns when the writer has written everything. -/
  emptied : s.stage = .returned .served → s.queue = [] ∧ s.hand = none

variable {limit : UInt32} {input : List (List UInt8)} {s s' : Pipeline}

theorem sound_start (limit : UInt32) (input : List UInt8) :
    Sound limit (lines input) (start input) where
  rest := List.suffix_rfl
  taken := rfl
  couriers hc := by cases hc
  known x hx := by cases hx
  stages := ⟨Serving.Stage.noConfusion, Serving.Stage.noConfusion⟩
  choked h := by cases h
  read h := absurd rfl h
  ended h := by rcases h with h | h <;> cases h
  emptied h := by cases h

namespace Sound

/-- A line is read, and its request, if it has one, gets a courier. -/
theorem reads (h : Sound limit input s) {line : List UInt8} {rest : List (List UInt8)}
    (hstage : s.stage = .reading) (hunread : s.unread = line :: rest) {more : List Courier}
    (hmore : (lineRequest? line).toList.map Courier.ofRequest = more) :
    Sound limit input { s with unread := rest, couriers := s.couriers ++ more } := by
  have hreading : ∀ {stage}, s.stage = stage → stage = .reading := fun h => h.symm.trans hstage
  subst hmore
  refine { h with
    rest := (List.suffix_cons line rest).trans (hunread ▸ h.rest)
    taken := ?_
    couriers := fun {i c} hc => ?_
    known := fun x hx => ?_
    choked := fun hchoked => by cases hreading hchoked
    read := fun hne => absurd hstage hne
    ended := fun hended => by rcases hended with h | h <;> cases hreading h }
  · rw [h.taken, hunread, List.filterMap_cons]
    cases lineRequest? line <;> simp [Courier.ofRequest]
  · rcases Nat.lt_or_ge i s.couriers.length with hlt | hge
    · rw [List.getElem?_append_left hlt] at hc
      exact h.couriers hc
    · -- nothing was sent for a request before it came
      have hnone : answersTo s.sent i = [] := by
        refine List.map_eq_nil_iff.2 (List.filter_eq_nil_iff.2 fun x hx heq => ?_)
        have hlt := h.known x hx
        have hi : x.1 = i := of_decide_eq_true heq
        omega
      rw [List.getElem?_append_right hge] at hc
      obtain ⟨r, -, rfl⟩ := List.mem_map.1 (List.mem_of_getElem? hc)
      show Courier.Sound limit _ (answersTo s.sent i)
      rw [hnone]
      rfl
  · exact Nat.lt_of_lt_of_le (h.known x hx) (by simp)

/-- A courier gets on, and responses may be sent for it. -/
theorem turns (h : Sound limit input s) {i : Nat} {c c' : Courier} {more : List Response}
    (hc : s.couriers[i]? = some c) (hended : ¬ c.HasEnded)
    (hsound : ∀ said, c.Sound limit said → c'.Sound limit (said ++ more))
    (hrequest : c'.request = c.request) :
    Sound limit input { s with
      couriers := s.couriers.set i c'
      queue := s.queue ++ more.map (i, ·) } := by
  obtain ⟨hi, rfl⟩ := List.getElem?_eq_some_iff.1 hc
  have hopen : ¬ ∀ c ∈ s.couriers, c.HasEnded := fun hall =>
    hended (hall _ (List.getElem_mem hi))
  have hsent : ({ s with
      couriers := s.couriers.set i c'
      queue := s.queue ++ more.map (i, ·) } : Pipeline).sent = s.sent ++ more.map (i, ·) :=
    (List.append_assoc ..).symm
  refine { h with
    taken := ?_
    couriers := fun {j k} hk => ?_
    known := fun x hx => ?_
    ended := fun hstage => absurd (h.ended hstage) hopen
    emptied := fun hstage => absurd (h.ended (.inr hstage)) hopen }
  · have hrequests : (s.couriers.set i c').map (·.request) = s.couriers.map (·.request) := by
      have hlength : i < (s.couriers.map (·.request)).length := by rwa [List.length_map]
      rw [List.map_set, hrequest]
      refine Eq.trans (congrArg _ ?_) (List.set_getElem_self hlength)
      rw [List.getElem_map]
    rw [h.taken, hrequests]
  · rw [hsent, answersTo_append, answersTo_map]
    by_cases hij : i = j
    · subst hij
      rw [List.getElem?_set_self hi] at hk
      cases hk
      rw [if_pos rfl]
      exact hsound _ (h.couriers hc)
    · rw [List.getElem?_set_ne hij] at hk
      rw [if_neg hij, List.append_nil]
      exact h.couriers hk
  · rw [hsent] at hx
    rw [List.length_set]
    rcases List.mem_append.1 hx with hx | hx
    · exact h.known x hx
    · obtain ⟨_, -, rfl⟩ := List.mem_map.1 hx
      exact hi

/-- A courier hears, and nothing is sent yet. -/
theorem hears (h : Sound limit input s) {i : Nat} {c : Courier} (hc : s.couriers[i]? = some c)
    (hsent : c.unsent = []) {d : Delivery} (hd : c.waiting = some d) (l : Link Sequel) :
    Sound limit input { s with couriers := s.couriers.set i (c.hears limit d l) } := by
  have hended : ¬ c.HasEnded := by
    rintro ⟨-, hnone⟩
    cases hd.symm.trans hnone
  have hsound : ∀ said, c.Sound limit said → (c.hears limit d l).Sound limit (said ++ []) := by
    intro said hsaid
    rw [List.append_nil]
    exact hsaid.hears hsent hd l
  have hturned := h.turns hc hended hsound rfl
  rwa [List.map_nil, List.append_nil] at hturned

/-- One of a courier's responses is sent. -/
theorem sends (h : Sound limit input s) {i : Nat} {c : Courier} (hc : s.couriers[i]? = some c)
    {x : Response} {rest : List Response} (hunsent : c.unsent = x :: rest) :
    Sound limit input { s with
      couriers := s.couriers.set i { c with unsent := rest }
      queue := s.queue ++ [(i, x)] } := by
  have hended : ¬ c.HasEnded := by
    rintro ⟨hnone, -⟩
    cases hunsent.symm.trans hnone
  exact h.turns hc hended (fun _ hsaid => hsaid.sends hunsent) rfl

/-- **What holds at any time** goes on to hold. -/
theorem step (h : Sound limit input s) (hs : Step limit s s') : Sound limit input s' := by
  cases hs with
  | @take line rest text r hstage hunread htext hr =>
    refine h.reads hstage hunread ?_
    rw [lineRequest?, htext, Option.bind_some, hr]
    rfl
  | @skip line rest text hstage hunread htext hr =>
    have hnone : (lineRequest? line).toList.map Courier.ofRequest = [] := by
      rw [lineRequest?, htext, Option.bind_some, hr]
      rfl
    have hread := h.reads hstage hunread hnone
    rwa [List.append_nil] at hread
  | @choke line rest hstage hunread hline =>
    have hmem : line ∈ input := h.rest.subset (hunread ▸ List.mem_cons_self)
    exact { h with
      stages := by simp
      choked := fun _ => ⟨line, hmem, hline⟩
      read := fun _ hne => absurd rfl hne
      ended := by simp
      emptied := by simp }
  | close hstage hunread =>
    exact { h with
      stages := by simp
      choked := by simp
      read := fun _ _ => hunread
      ended := by simp
      emptied := by simp }
  | hear l hc hsent hd => exact h.hears hc hsent hd l
  | send hc hunsent hroom => exact h.sends hc hunsent
  | @pick x rest hqueue hhand =>
    have hsent : ({ s with queue := rest, hand := some x } : Pipeline).sent = s.sent := by
      simp [sent, hqueue, hhand]
    exact { h with
      couriers := fun hc => hsent ▸ h.couriers hc
      known := fun x hx => h.known x (hsent ▸ hx)
      emptied := fun hstage => by
        rw [(h.emptied hstage).1] at hqueue
        cases hqueue }
  | @put x hhand =>
    have hsent : ({ s with hand := none, written := s.written ++ [x] } : Pipeline).sent =
        s.sent := by
      simp [sent, hhand]
    exact { h with
      couriers := fun hc => hsent ▸ h.couriers hc
      known := fun x hx => h.known x (hsent ▸ hx)
      emptied := fun hstage => ⟨(h.emptied hstage).1, rfl⟩ }
  | drained hstage hended =>
    have hread : s.unread = [] := h.read (by simp [hstage]) (by simp [hstage])
    exact { h with
      stages := by simp
      choked := by simp
      read := fun _ _ => hread
      ended := fun _ => hended
      emptied := by simp }
  | finish hstage hqueue hhand =>
    have hread : s.unread = [] := h.read (by simp [hstage]) (by simp [hstage])
    exact { h with
      stages := by simp
      choked := by simp
      read := fun _ _ => hread
      ended := fun _ => h.ended (.inl hstage)
      emptied := fun _ => ⟨hqueue, hhand⟩ }

end Sound

/-- Lines that are texts. -/
def Texts (input : List (List UInt8)) : Prop := ∀ line ∈ input, (lineText? line).isSome

/-- Serving does not end at a line if all of them are texts. -/
theorem Sound.readable (h : Sound limit input s) (htexts : Texts input) :
    s.stage ≠ .returned .unreadable := by
  intro hchoked
  obtain ⟨line, hline, hnone⟩ := h.choked hchoked
  simpa [hnone] using htexts line hline

theorem sound_of {input : List UInt8} (h : Run limit input s) : Sound limit (lines input) s := by
  induction h with
  | refl => exact sound_start limit input
  | tail _ hs ih => exact ih.step hs

/-! ## To the end -/

/-- **Serving is never stuck**: until it has returned something can happen. -/
theorem Sound.exists_step (h : Sound limit input s) (hopen : ∀ e, s.stage ≠ .returned e) :
    ∃ s', Step limit s s' := by
  cases hstage : s.stage with
  | reading =>
    cases hunread : s.unread with
    | nil => exact ⟨_, .close hstage hunread⟩
    | cons line rest =>
      rcases htext : lineText? line with _ | text
      · exact ⟨_, .choke hstage hunread htext⟩
      · rcases hr : request? text with _ | r
        · exact ⟨_, .skip hstage hunread htext hr⟩
        · exact ⟨_, .take hstage hunread htext hr⟩
  | draining =>
    by_cases hended : ∀ c ∈ s.couriers, c.HasEnded
    · exact ⟨_, .drained hstage hended⟩
    · push Not at hended
      obtain ⟨c, hmem, hc⟩ := hended
      obtain ⟨i, hi⟩ := List.mem_iff_getElem?.1 hmem
      cases hunsent : c.unsent with
      | nil =>
        obtain ⟨d, hd⟩ := Option.ne_none_iff_exists'.1 fun hnone => hc ⟨hunsent, hnone⟩
        exact ⟨_, .hear (.failed default) hi hunsent hd⟩
      | cons x rest =>
        by_cases hroom : s.queue.length < queueSize
        · exact ⟨_, .send hi hunsent hroom⟩
        -- the queue is full, so the writer has something to do
        · cases hhand : s.hand with
          | some y => exact ⟨_, .put hhand⟩
          | none =>
            cases hqueue : s.queue with
            | nil => exact absurd (by simp [hqueue, queueSize]) hroom
            | cons y ys => exact ⟨_, .pick hqueue hhand⟩
  | stopping => exact absurd hstage h.stages.1
  | closing =>
    cases hhand : s.hand with
    | some y => exact ⟨_, .put hhand⟩
    | none =>
      cases hqueue : s.queue with
      | nil => exact ⟨_, .finish hstage hqueue hhand⟩
      | cons y ys => exact ⟨_, .pick hqueue hhand⟩
  | returned e => exact absurd hstage (hopen e)

/-- How many stages lie ahead. -/
def stagesAhead : Serving.Stage → Nat
  | .reading => 3
  | .draining => 2
  | .stopping => 2
  | .closing => 1
  | .returned _ => 0

/-- How much can still happen. -/
def rank (left : Courier → Nat) (top : Nat) (s : Pipeline) : Nat :=
  (4 * top + 8) * s.unread.length + (s.couriers.map (Courier.due left)).sum +
    2 * s.queue.length + s.hand.toList.length + stagesAhead s.stage

/-- One courier has changed, and the others are as they were. -/
theorem sum_set (left : Courier → Nat) {couriers : List Courier} {i : Nat} {c : Courier}
    (hc : couriers[i]? = some c) (c' : Courier) :
    ((couriers.set i c').map (Courier.due left)).sum + c.due left =
      (couriers.map (Courier.due left)).sum + c'.due left := by
  obtain ⟨hi, rfl⟩ := List.getElem?_eq_some_iff.1 hc
  have hbefore := ((List.getElem_cons_eraseIdx_perm hi).map (Courier.due left)).sum_nat
  have hafter := ((List.set_perm_cons_eraseIdx hi c').map (Courier.due left)).sum_nat
  simp only [List.map_cons, List.sum_cons] at hbefore hafter
  omega

section
variable {Allowed : Courier → Prop} {left : Courier → Nat} {top : Nat}
  (hp : Courier.Patience limit Allowed left top)
include hp

/-- **Serving does not go on for ever**: whatever happens, less is left. -/
theorem Step.rank_lt (h : Step limit s s') (hallowed : ∀ c ∈ s'.couriers, Allowed c) :
    s'.rank left top < s.rank left top := by
  unfold rank
  cases h with
  | @take _ _ _ r hstage hunread htext hr =>
    have hbegins := hp.begins r
    simp only [Courier.ofRequest] at hbegins
    simp only [hunread, List.length_cons, List.map_append, List.sum_append, List.map_cons,
      List.map_nil, List.sum_cons, List.sum_nil, Nat.mul_succ, Courier.due, Courier.ofRequest,
      List.length_nil, Option.elim_some]
    omega
  | skip hstage hunread htext hr =>
    simp only [hunread, List.length_cons, Nat.mul_succ]
    omega
  | choke hstage hunread hline =>
    simp only [hstage, stagesAhead]
    omega
  | close hstage hunread =>
    simp only [hstage, stagesAhead]
    omega
  | @hear i c d l hc hsent hd =>
    have hsum := sum_set left hc (c.hears limit d l)
    have hi := (List.getElem?_eq_some_iff.1 hc).1
    have hdue := Courier.due_hears hp hsent hd l (hallowed _ (List.mem_set hi _))
    dsimp only
    omega
  | @send i c x rest hc hunsent hroom =>
    have hsum := sum_set left hc { c with unsent := rest }
    have hdue : c.due left = ({ c with unsent := rest } : Courier).due left + 3 := by
      simp only [Courier.due, hunsent, List.length_cons, hp.sends]
      omega
    simp only [List.length_append, List.length_singleton]
    omega
  | pick hqueue hhand =>
    simp only [hqueue, hhand, List.length_cons, Option.toList_some, Option.toList_none,
      List.length_nil]
    omega
  | put hhand =>
    simp only [hhand, Option.toList_some, Option.toList_none, List.length_cons, List.length_nil]
    omega
  | drained hstage hended =>
    simp only [hstage, stagesAhead]
    omega
  | finish hstage hqueue hhand =>
    simp only [hstage, stagesAhead]
    omega

/-- There is no endless run of couriers that are allowed. -/
theorem acc_step (s : Pipeline) :
    Acc (fun s' s => Step limit s s' ∧ ∀ c ∈ s'.couriers, Allowed c) s :=
  Subrelation.accessible (fun h => Step.rank_lt hp h.1 h.2) (InvImage.accessible (rank left top)
    (Nat.lt_wfRel.wf.apply _))

end

/-! ## Lines without a request -/

section
variable {unread : List (List UInt8)} (limit : UInt32) (hstage : s.stage = .reading)
  (htexts : Texts unread)
include hstage htexts

/-- Lines without a request are read through, -/
theorem reads_none (hnone : unread.filterMap lineRequest? = []) :
    Relation.ReflTransGen (Step limit) { s with unread } { s with unread := [] } := by
  induction unread with
  | nil => exact .refl
  | cons line rest ih =>
    obtain ⟨hline, hrest⟩ := List.forall_mem_cons.1 htexts
    obtain ⟨text, htext⟩ := Option.isSome_iff_exists.1 hline
    rw [List.filterMap_cons, lineRequest?, htext, Option.bind_some] at hnone
    rcases hr : request? text with _ | r
    · rw [hr] at hnone
      exact .head (.skip hstage rfl htext hr) (ih hrest hnone)
    · rw [hr] at hnone
      cases hnone

/-- and so are those before the next request. -/
theorem reads_next {r : Request} {rs : List Request}
    (hnext : unread.filterMap lineRequest? = r :: rs) :
    ∃ rest, rest <:+ unread ∧ rest.filterMap lineRequest? = rs ∧
      Relation.ReflTransGen (Step limit) { s with unread }
        { s with unread := rest, couriers := s.couriers ++ [.ofRequest r] } := by
  induction unread with
  | nil => cases hnext
  | cons line rest ih =>
    obtain ⟨hline, hrest⟩ := List.forall_mem_cons.1 htexts
    obtain ⟨text, htext⟩ := Option.isSome_iff_exists.1 hline
    rw [List.filterMap_cons, lineRequest?, htext, Option.bind_some] at hnext
    rcases hr : request? text with _ | r'
    · rw [hr] at hnext
      obtain ⟨rest', hsuffix, hrs, hrun⟩ := ih hrest hnext
      exact ⟨rest', hsuffix.trans (List.suffix_cons line rest), hrs,
        .head (.skip hstage rfl htext hr) hrun⟩
    · rw [hr] at hnext
      cases hnext
      exact ⟨rest, List.suffix_cons line rest, rfl, .single (.take hstage rfl htext hr)⟩

end

/-- **Lines without a request make no difference**: what can happen with an input can happen
    with every other one that holds the same requests, up to what is unread. -/
theorem Run.transfer {input input' : List UInt8} (h : Run limit input s)
    (hreadable : s.stage ≠ .returned .unreadable) (htexts : Texts (lines input'))
    (hsame : requests input' = requests input) :
    ∃ rest, Run limit input' { s with unread := rest } ∧ Texts rest ∧
      rest.filterMap lineRequest? = s.unread.filterMap lineRequest? ∧
      (s.stage ≠ .reading → rest = []) := by
  induction h with
  | refl => exact ⟨lines input', .refl, htexts, hsame, fun h => absurd rfl h⟩
  | @tail s s' _ hs ih =>
    cases hs with
    | @take line others text r hstage hunread htext hr =>
      obtain ⟨rest, hrun, hrest, hrequests, -⟩ := ih hreadable
      rw [hunread, List.filterMap_cons, lineRequest?, htext, Option.bind_some, hr] at hrequests
      obtain ⟨rest', hsuffix, hrs, hreads⟩ := reads_next limit hstage hrest hrequests
      exact ⟨rest', Relation.ReflTransGen.trans hrun hreads,
        fun line hline => hrest line (hsuffix.subset hline), hrs, fun h => absurd hstage h⟩
    | @skip line others text hstage hunread htext hr =>
      obtain ⟨rest, hrun, hrest, hrequests, -⟩ := ih hreadable
      rw [hunread, List.filterMap_cons, lineRequest?, htext, Option.bind_some, hr] at hrequests
      exact ⟨rest, hrun, hrest, hrequests, fun h => absurd hstage h⟩
    | choke => exact absurd rfl hreadable
    | close hstage hunread =>
      obtain ⟨rest, hrun, hrest, hrequests, -⟩ := ih (by simp [hstage])
      rw [hunread] at hrequests
      have hreads := reads_none limit hstage hrest hrequests
      refine ⟨[], (Relation.ReflTransGen.trans hrun hreads).tail (.close hstage rfl), ?_, ?_,
        fun _ => rfl⟩
      · intro line hline
        cases hline
      · dsimp only
        rw [hunread]
    | hear l hc hsent hd =>
      obtain ⟨rest, hrun, hrest⟩ := ih hreadable
      exact ⟨rest, hrun.tail (.hear l hc hsent hd), hrest⟩
    | send hc hunsent hroom =>
      obtain ⟨rest, hrun, hrest⟩ := ih hreadable
      exact ⟨rest, hrun.tail (.send hc hunsent hroom), hrest⟩
    | pick hqueue hhand =>
      obtain ⟨rest, hrun, hrest⟩ := ih hreadable
      exact ⟨rest, hrun.tail (.pick hqueue hhand), hrest⟩
    | put hhand =>
      obtain ⟨rest, hrun, hrest⟩ := ih hreadable
      exact ⟨rest, hrun.tail (.put hhand), hrest⟩
    | drained hstage hended =>
      obtain ⟨rest, hrun, htexts, hrequests, hread⟩ := ih (by simp [hstage])
      exact ⟨rest, hrun.tail (.drained hstage hended), htexts, hrequests,
        fun _ => hread (by simp [hstage])⟩
    | finish hstage hqueue hhand =>
      obtain ⟨rest, hrun, htexts, hrequests, hread⟩ := ih (by simp [hstage])
      exact ⟨rest, hrun.tail (.finish hstage hqueue hhand), htexts, hrequests,
        fun _ => hread (by simp [hstage])⟩

end Pipeline

end LedgerGate.Transport
