/-
  Two ways along a chain of replies: following it to its end, and delivering it.

  Both are told as dialogues, in which resolving a sequel is a question, so that it shows which
  sequels are resolved, and in which order.  One course of a chain accounts for both, as long as
  the count of the delivery does not go round: it does under the highest limit, and then a chain
  that is longer is never cut off.

  * `Reply.pursue`: following a chain, `interrogate_pursue` the same as `Reply.terminalFrom`;
  * `Delivery.perform`: delivering a chain, `run_perform` the same as `Delivery.runFrom`;
  * `Delivery.Course`: the sequels of a chain that are resolved, its responses and its end;
  * `Course.pursue`, `Course.does`: following and delivering a chain take its course;
  * `agrees_of`: **the last response tells the end, and the same sequels are resolved**;
  * `endless_parts`: an endless chain under the highest limit, and a sink that refuses;
  * `Gateway.concludeWithin_chain`: a gateway follows a chain to the same end.
-/
import LedgerGate.Proofs.Delivery.Telling
import LedgerGate.Proofs.Dialogue.Exchanges
import LedgerGate.Proofs.Message.Faults

namespace LedgerGate

variable {κ : Type}

/-! ## Following a chain -/

namespace Reply

/-- Follows a chain by asking for every sequel. -/
def pursue (limit : Nat) :
    Nat → Reply κ → Dialogue (fun _ : κ => Except Fault (Reply κ)) (Except Fault Output)
  | 0, r =>
    match r.next with
    | none => .done (.ok r.output)
    | some _ => .done (.error (tooLong limit))
  | remaining + 1, r =>
    match r.next with
    | none => .done (.ok r.output)
    | some next => .ask next fun
      | .error f => .done (.error f)
      | .ok r => pursue limit remaining r

/-- A chain is followed so. -/
theorem interrogate_pursue (resolve : κ → Except Fault (Reply κ)) (limit remaining : Nat)
    (r : Reply κ) : ((r.pursue limit remaining).interrogate resolve).1 =
      terminalFrom resolve limit remaining r := by
  induction remaining generalizing r with
  | zero => rcases r with ⟨o, _ | next⟩ <;> rfl
  | succ remaining ih =>
    rcases r with ⟨o, _ | next⟩
    · rfl
    · simp only [pursue, terminalFrom, Dialogue.interrogate]
      rcases resolve next with f | r
      · rfl
      · exact ih r

end Reply

/-! ## Delivering a chain -/

/-- A response tells one end only. -/
theorem Response.Tells.unique {x : Response} {e e' : Except Fault Output} (h : x.Tells e)
    (h' : x.Tells e') : e = e' := by
  rcases e with f | o
  · obtain ⟨hpass, -, herror⟩ := h
    rcases e' with f' | o'
    · obtain ⟨-, -, herror'⟩ := h'
      rw [herror] at herror'
      rw [Fault.details_injective (Option.some.inj herror')]
    · exact absurd (hpass.symm.trans h'.1) (by decide)
  · obtain ⟨hpass, hresult, -⟩ := h
    rcases e' with f' | o'
    · exact absurd (hpass.symm.trans h'.1) (by decide)
    · obtain ⟨-, hresult', -⟩ := h'
      rw [hresult] at hresult'
      rw [Option.some.inj hresult']

namespace Delivery

/-- What a delivery does: it sends a response, or it resolves a sequel. -/
inductive Act (κ : Type) where
  | send (x : Response)
  | resolve (next : κ)

/-- What comes of an act. -/
abbrev Act.Answer : Act κ → Type
  | send _ => Except Fault Unit
  | resolve _ => Except Fault (Reply κ)

/-- Sends responses until one is refused. -/
def sending : List Response → Dialogue (@Act.Answer κ) (Except Fault Unit)
  | [] => .done (.ok ())
  | x :: xs => .ask (.send x) fun
    | .ok _ => sending xs
    | .error f => .done (.error f)

/-- Delivers a chain by these acts, resolving at most `fuel` sequels. -/
def perform (limit : UInt32) : Nat → Delivery → Except Fault (Reply κ) →
    Dialogue (@Act.Answer κ) (Option (Except Fault UInt32))
  | fuel, d, outcome =>
    match d.step limit outcome with
    | .finish responses => (sending responses).bind fun sent =>
        .done (some (sent.map fun _ => d.sent responses))
    | .follow response next after => .ask (.send response) fun
      | .error f => .done (some (.error f))
      | .ok _ =>
        match fuel with
        | 0 => .done none
        | fuel + 1 => .ask (.resolve next) fun outcome => perform limit fuel after outcome

section
variable {σ : Type} (sink : Sink σ) (resolve : κ → Except Fault (Reply κ))

/-- The world of a delivery: a sink, and sequels that are known. -/
def world : (act : Act κ) → σ → act.Answer × σ
  | .send x, s => sink x s
  | .resolve next, s => (resolve next, s)

theorem run_sending (xs : List Response) (s : σ) :
    (sending xs).run (world sink resolve) s = sendAll sink xs s := by
  induction xs generalizing s with
  | nil => rfl
  | cons x xs ih =>
    simp only [sending, Dialogue.run, world, sendAll]
    rcases sink x s with ⟨f | _, s'⟩
    · rfl
    · exact ih s'

theorem run_bind_done {α β : Type} (d : Dialogue (@Act.Answer κ) α) (f : α → β) (s : σ) :
    (d.bind fun a => .done (f a)).run (world sink resolve) s =
      (f (d.run (world sink resolve) s).1, (d.run (world sink resolve) s).2) := by
  induction d generalizing s with
  | done a => rfl
  | ask q resume ih => exact ih _ _

/-- A chain is delivered by these acts. -/
theorem run_perform (limit : UInt32) (fuel : Nat) (d : Delivery) (outcome : Except Fault (Reply κ)) (s : σ) :
    (perform limit fuel d outcome).run (world sink resolve) s =
      runFrom sink resolve limit fuel d outcome s := by
  induction fuel generalizing d outcome s with
  | zero =>
    unfold perform runFrom
    rcases d.step limit outcome with responses | ⟨x, next, after⟩
    · dsimp only
      rw [run_bind_done, run_sending]
      rcases sendAll sink responses s with ⟨f | _, s'⟩ <;> rfl
    · simp only [Dialogue.run, world, sendAll]
      rcases sink x s with ⟨f | _, s'⟩ <;> rfl
  | succ fuel ih =>
    unfold perform runFrom
    rcases d.step limit outcome with responses | ⟨x, next, after⟩
    · dsimp only
      rw [run_bind_done, run_sending]
      rcases sendAll sink responses s with ⟨f | _, s'⟩ <;> rfl
    · simp only [Dialogue.run, world, sendAll]
      rcases sink x s with ⟨f | _, s'⟩
      · rfl
      · exact ih after (resolve next) s'

end

/-! ## The course of a chain -/

/-- How a chain goes on from an outcome when `remaining` more sequels may be resolved: the
    sequels that are, the responses of a delivery, and the end. -/
inductive Course (resolve : κ → Except Fault (Reply κ)) (limit : Nat) :
    Nat → Delivery → Except Fault (Reply κ) → List κ → List Response → Except Fault Output → Prop
  /-- the chain ends with a fault, -/
  | failed {remaining : Nat} {d : Delivery} (f : Fault) :
      Course resolve limit remaining d (.error f) [] [d.failure f] (.error f)
  /-- or with a reply that nothing follows; -/
  | ended {remaining : Nat} {d : Delivery} (o : Output) :
      Course resolve limit remaining d (.ok ⟨o, none⟩) [] [d.success o] (.ok o)
  /-- it goes on when no more sequels may be resolved, -/
  | cut {d : Delivery} (o : Output) (next : κ) :
      Course resolve limit 0 d (.ok ⟨o, some next⟩) []
        [d.success o, d.advanced.failure (Reply.tooLong limit)] (.error (Reply.tooLong limit))
  /-- or it goes on with a sequel. -/
  | next {remaining : Nat} {d : Delivery} (o : Output) {next : κ} {ks : List κ}
      {xs : List Response} {e : Except Fault Output} :
      Course resolve limit remaining d.advanced (resolve next) ks xs e →
      Course resolve limit (remaining + 1) d (.ok ⟨o, some next⟩) (next :: ks) (d.success o :: xs) e

/-- Responses, and after each that something follows the sequel that is resolved. -/
def weave : List Response → List κ → List (Act κ)
  | x :: xs, k :: ks => .send x :: .resolve k :: weave xs ks
  | xs, _ => xs.map .send

section
variable {resolve : κ → Except Fault (Reply κ)} {limit remaining : Nat} {d : Delivery}
  {outcome : Except Fault (Reply κ)} {ks : List κ} {xs : List Response} {e : Except Fault Output}

/-- Every chain takes a course. -/
theorem exists_course (resolve : κ → Except Fault (Reply κ)) (limit remaining : Nat)
    (d : Delivery) (outcome : Except Fault (Reply κ)) :
    ∃ ks xs e, Course resolve limit remaining d outcome ks xs e := by
  induction remaining generalizing d outcome with
  | zero =>
    rcases outcome with f | ⟨o, _ | next⟩
    · exact ⟨_, _, _, .failed f⟩
    · exact ⟨_, _, _, .ended o⟩
    · exact ⟨_, _, _, .cut o next⟩
  | succ remaining ih =>
    rcases outcome with f | ⟨o, _ | next⟩
    · exact ⟨_, _, _, .failed f⟩
    · exact ⟨_, _, _, .ended o⟩
    · obtain ⟨ks, xs, e, hrest⟩ := ih d.advanced (resolve next)
      exact ⟨_, _, _, .next o hrest⟩

/-- No more sequels are resolved than may be. -/
theorem Course.length_le (h : Course resolve limit remaining d outcome ks xs e) :
    ks.length ≤ remaining := by
  induction h with
  | failed | ended | cut => exact Nat.zero_le _
  | next o _ ih => simpa using ih

/-- No more responses are sent than one for every sequel that may be resolved, and two. -/
theorem Course.responses_le (h : Course resolve limit remaining d outcome ks xs e) :
    xs.length ≤ remaining + 2 := by
  induction h with
  | failed | ended | cut => simp
  | next o _ ih => simpa using ih

/-- The last response tells the end. -/
theorem Course.last (h : Course resolve limit remaining d outcome ks xs e) :
    ∃ x, xs.getLast? = some x ∧ x.Tells e := by
  induction h with
  | @failed _ d f => exact ⟨_, rfl, closing_tells d (.error f)⟩
  | @ended _ d o => exact ⟨_, rfl, closing_tells d (.ok o)⟩
  | @cut d o next => exact ⟨_, rfl, closing_tells d.advanced (.error (Reply.tooLong limit))⟩
  | next o _ ih =>
    obtain ⟨x, hx, htells⟩ := ih
    refine ⟨x, ?_, htells⟩
    rw [List.getLast?_cons, hx]
    rfl

/-- Following a chain takes its course. -/
theorem Course.pursue {r : Reply κ}
    (h : Course resolve limit remaining d (.ok r) ks xs e) :
    (r.pursue limit remaining).interrogate resolve = (e, ks) := by
  generalize hr : (Except.ok r : Except Fault (Reply κ)) = outcome at h
  induction h generalizing r with
  | failed => cases hr
  | @ended remaining =>
    cases hr
    cases remaining <;> rfl
  | cut =>
    cases hr
    rfl
  | @next _ _ o next ks xs e hrest ih =>
    cases hr
    simp only [Reply.pursue, Dialogue.interrogate]
    rcases hresolved : resolve next with f | r
    · rw [hresolved] at hrest
      cases hrest
      rfl
    · simp only [ih hresolved.symm]

/-! ## The acts of a delivery -/

variable {σ : Type} {sink : Sink σ}

/-- Against a sink these acts are done: all of them if the sink takes everything, and else the
    first ones. -/
structure Does (resolve : κ → Except Fault (Reply κ)) (sink : Sink σ) (s : σ) {α : Type}
    (performed : Dialogue (@Act.Answer κ) α) (acts : List (Act κ)) : Prop where
  begun : performed.asked (world sink resolve) s <+: acts
  accepted : (∀ x s, (sink x s).1 = .ok ()) → performed.asked (world sink resolve) s = acts

/-- A response is sent, and nothing else is done if the sink refuses it. -/
theorem Does.send {α : Type} {resume : Except Fault Unit → Dialogue (@Act.Answer κ) α}
    {acts : List (Act κ)} {s : σ} (x : Response)
    (hrefused : ∀ f s', (resume (.error f)).asked (world sink resolve) s' = [])
    (hgoes : ∀ s', Does resolve sink s' (resume (.ok ())) acts) :
    Does resolve sink s (.ask (.send x) resume) (.send x :: acts) := by
  constructor
  · simp only [Dialogue.asked, world]
    refine (List.prefix_cons_inj _).2 ?_
    rcases sink x s with ⟨f | _, s'⟩
    · rw [hrefused]
      exact List.nil_prefix
    · exact (hgoes s').begun
  · intro haccepts
    have hx : sink x s = (.ok (), (sink x s).2) := Prod.ext (haccepts x s) rfl
    simp only [Dialogue.asked, world]
    rw [hx]
    exact congrArg _ ((hgoes _).accepted haccepts)

/-- A sequel is resolved without the sink. -/
theorem Does.learn {α : Type} {resume : Except Fault (Reply κ) → Dialogue (@Act.Answer κ) α}
    {acts : List (Act κ)} {s : σ} {next : κ}
    (h : Does resolve sink s (resume (resolve next)) acts) :
    Does resolve sink s (.ask (.resolve next) resume) (.resolve next :: acts) :=
  ⟨(List.prefix_cons_inj _).2 h.begun, fun haccepts => congrArg _ (h.accepted haccepts)⟩

/-- What is done for an outcome that nothing follows: its responses are sent. -/
theorem does_sending {α : Type} (f : Except Fault Unit → α) (xs : List Response) (s : σ) :
    Does resolve sink s ((sending xs).bind fun sent => .done (f sent)) (xs.map .send) := by
  induction xs generalizing s with
  | nil => exact ⟨List.prefix_rfl, fun _ => rfl⟩
  | cons x xs ih => exact .send x (fun _ _ => rfl) ih

/-- The last responses are all that a delivery sends. -/
theorem perform_finish {limit : UInt32} {fuel : Nat} (hstep : d.step limit outcome = .finish xs) :
    perform limit fuel d outcome = (sending xs).bind fun sent =>
      .done (some (sent.map fun _ => d.sent xs)) := by
  unfold perform
  rw [hstep]

/-- What a delivery does for a reply that something follows. -/
theorem perform_follow {limit : UInt32} {fuel : Nat} {x : Response} {next : κ} {after : Delivery}
    (hstep : d.step limit outcome = .follow x next after) :
    perform limit (fuel + 1) d outcome = .ask (.send x) fun
      | .error f => .done (some (.error f))
      | .ok _ => .ask (.resolve next) fun outcome => perform limit fuel after outcome := by
  conv => lhs; unfold perform
  rw [hstep]

theorem runFrom_finish {limit : UInt32} {fuel : Nat} (hstep : d.step limit outcome = .finish xs)
    (s : σ) : runFrom sink resolve limit fuel d outcome s =
      (some ((sendAll sink xs s).1.map fun _ => d.sent xs), (sendAll sink xs s).2) := by
  unfold runFrom
  rw [hstep]
  dsimp only
  rcases sendAll sink xs s with ⟨f | _, s'⟩ <;> rfl

theorem runFrom_follow {limit : UInt32} {fuel : Nat} {x : Response} {next : κ} {after : Delivery}
    (hstep : d.step limit outcome = .follow x next after) (s : σ) :
    runFrom sink resolve limit (fuel + 1) d outcome s =
      match sink x s with
      | (.error f, s) => (some (.error f), s)
      | (.ok _, s) => runFrom sink resolve limit fuel after (resolve next) s := by
  conv => lhs; unfold runFrom
  rw [hstep]
  dsimp only [sendAll]
  rcases sink x s with ⟨f | _, s'⟩ <;> rfl

end

/-- A chain ends within so many sequels. -/
def Ends (resolve : κ → Except Fault (Reply κ)) : Nat → Except Fault (Reply κ) → Prop
  | _, .error _ => True
  | _, .ok ⟨_, none⟩ => True
  | 0, .ok ⟨_, some _⟩ => False
  | n + 1, .ok ⟨_, some next⟩ => Ends resolve n (resolve next)

/-- A limit is below the highest, or a chain ends within it. -/
def Bounded (resolve : κ → Except Fault (Reply κ)) (limit : UInt32) (n : Nat)
    (outcome : Except Fault (Reply κ)) : Prop :=
  limit.toNat + 1 < UInt32.size ∨ Ends resolve n outcome

section
variable {resolve : κ → Except Fault (Reply κ)} {limit : UInt32} {remaining : Nat} {d : Delivery}
  {outcome : Except Fault (Reply κ)} {ks : List κ} {xs : List Response} {e : Except Fault Output}
  {σ : Type} {sink : Sink σ}

/-- At the limit a reply is cut off from what follows it, -/
theorem step_cut {o : Output} {next : κ} (hplace : d.sequence.toNat + 0 = limit.toNat)
    (hbounded : Bounded resolve limit 0 (.ok ⟨o, some next⟩)) :
    d.step limit (.ok ⟨o, some next⟩) =
      .finish [d.success o, d.advanced.failure (Reply.tooLong limit.toNat)] := by
  -- a chain that goes on there has its limit below the highest
  have hbelow : limit.toNat + 1 < UInt32.size := hbounded.resolve_right id
  have hadvanced := toNat_advanced hbelow (UInt32.le_iff_toNat_le.2 (Nat.le_of_eq hplace))
  exact if_pos (UInt32.lt_iff_toNat_lt.2 (show limit.toNat < d.advanced.sequence.toNat by omega))

theorem toNat_advanced_of_place (hplace : d.sequence.toNat + (remaining + 1) = limit.toNat) :
    d.advanced.sequence.toNat = d.sequence.toNat + 1 :=
  toNat_advanced_of_lt (Nat.lt_of_le_of_lt (by omega) limit.toNat_lt)

/-- and before the limit it is not. -/
theorem step_next (o : Output) (next : κ)
    (hplace : d.sequence.toNat + (remaining + 1) = limit.toNat) :
    d.step limit (.ok ⟨o, some next⟩) = .follow (d.success o) next d.advanced := by
  have hadvanced := toNat_advanced_of_place hplace
  refine if_neg fun hlt => ?_
  have hlt' : limit.toNat < d.advanced.sequence.toNat := UInt32.lt_iff_toNat_lt.1 hlt
  omega

/-- **Delivering a chain takes its course**, as long as the sink goes along. -/
theorem Course.does (h : Course resolve limit.toNat remaining d outcome ks xs e)
    (hplace : d.sequence.toNat + remaining = limit.toNat)
    (hbounded : Bounded resolve limit remaining outcome) (s : σ) :
    Does resolve sink s (perform limit remaining d outcome) (weave xs ks) := by
  induction h generalizing s with
  | failed f =>
    rw [perform_finish rfl]
    exact does_sending _ _ s
  | ended o =>
    rw [perform_finish rfl]
    exact does_sending _ _ s
  | @cut d o next =>
    rw [perform_finish (step_cut hplace hbounded)]
    exact does_sending _ _ s
  | @next left d o next ks xs e _ ih =>
    have hadvanced := toNat_advanced_of_place hplace
    rw [perform_follow (step_next o next hplace)]
    exact .send _ (fun _ _ => rfl) fun s' => .learn (ih (by omega) hbounded s')

/-- The responses of its course are what a delivery sends, until one is refused, and then it is
    at its end. -/
theorem Course.run_eq (h : Course resolve limit.toNat remaining d outcome ks xs e)
    (hplace : d.sequence.toNat + remaining = limit.toNat)
    (hbounded : Bounded resolve limit remaining outcome) (s : σ) :
    runFrom sink resolve limit remaining d outcome s =
      (some ((sendAll sink xs s).1.map fun _ => d.sent xs), (sendAll sink xs s).2) := by
  induction h generalizing s with
  | @failed _ d f => exact runFrom_finish rfl s
  | @ended _ d o => exact runFrom_finish rfl s
  | @cut d o next => exact runFrom_finish (step_cut hplace hbounded) s
  | @next left d o next ks xs e _ ih =>
    have hadvanced := toNat_advanced_of_place hplace
    rw [runFrom_follow (step_next o next hplace)]
    rcases hx : sink (d.success o) s with ⟨f | _, s'⟩
    · simp [sendAll, hx, Except.map]
    · simp only [sendAll, hx, ih (by omega) hbounded, ← d.advanced_sent (d.success o)]

end

/-! ## Agreement -/

/-- How following a reply and delivering it agree, when at most `limit` sequels may be resolved:
    the responses, and the sequels that are resolved. -/
structure Agrees (resolve : κ → Except Fault (Reply κ)) (limit : UInt32) (request : Request)
    (r : Reply κ) (responses : List Response) (followed : List κ) : Prop where
  /-- who follows the chain resolves these sequels, -/
  pursued : (r.pursue limit.toNat limit.toNat).interrogate resolve =
    (r.terminal resolve limit.toNat, followed)
  /-- and a delivery, which performs its acts whatever the sink does, -/
  performed : ∀ {σ : Type} (sink : Sink σ) (s : σ),
    (perform limit limit.toNat (.ofRequest request) (.ok r)).run (world sink resolve) s =
      run sink resolve limit (.ofRequest request) (.ok r) s
  /-- resolves the same ones, each after the response before it, to a sink that takes all; -/
  delivered : ∀ {σ : Type} (sink : Sink σ) (s : σ), (∀ x s, (sink x s).1 = .ok ()) →
    (perform limit limit.toNat (.ofRequest request) (.ok r)).asked (world sink resolve) s =
      weave responses followed
  /-- a sink that refuses only has it stop before. -/
  stopped : ∀ {σ : Type} (sink : Sink σ) (s : σ),
    (perform limit limit.toNat (.ofRequest request) (.ok r)).asked (world sink resolve) s <+:
      weave responses followed
  /-- It sends these responses, until one is refused, and then it is at its end. -/
  sent : ∀ {σ : Type} (sink : Sink σ) (s : σ),
    run sink resolve limit (.ofRequest request) (.ok r) s =
      (some ((sendAll sink responses s).1.map fun _ => (ofRequest request).sent responses),
        (sendAll sink responses s).2)
  /-- There are not many more of them than the limit allows. -/
  numbered : responses.length ≤ limit.toNat + 2
  /-- No sequel beyond the limit is resolved. -/
  few : followed.length ≤ limit.toNat
  /-- The chain ends with an output just if the last response is a success with it, -/
  success : ∀ o, r.terminal resolve limit.toNat = .ok o ↔
    ∃ x, responses.getLast? = some x ∧ x.Tells (.ok o)
  /-- and with a fault just if the last response is the failure of that fault. -/
  failure : ∀ f, r.terminal resolve limit.toNat = .error f ↔
    ∃ x, responses.getLast? = some x ∧ x.Tells (.error f)

/-- **Following and delivering agree**, on every reply, with every chain and every limit, the
    highest for chains that end within it. -/
theorem agrees_of (resolve : κ → Except Fault (Reply κ)) (limit : UInt32) (request : Request)
    (r : Reply κ) (hbounded : Bounded resolve limit limit.toNat (.ok r)) :
    ∃ responses followed, Agrees resolve limit request r responses followed := by
  obtain ⟨ks, xs, e, h⟩ := exists_course resolve limit.toNat limit.toNat (.ofRequest request) (.ok r)
  have hplace : (ofRequest request).sequence.toNat + limit.toNat = limit.toNat := Nat.zero_add _
  have hpursue := h.pursue
  have hterminal : r.terminal resolve limit.toNat = e := by
    rw [Reply.terminal, ← Reply.interrogate_pursue, hpursue]
  have hlast : ∀ e', e = e' ↔ ∃ x, xs.getLast? = some x ∧ x.Tells e' := by
    obtain ⟨x, hx, htells⟩ := h.last
    intro e'
    constructor
    · rintro rfl
      exact ⟨x, hx, htells⟩
    · rintro ⟨x', hx', htells'⟩
      rw [hx] at hx'
      cases hx'
      exact htells.unique htells'
  refine ⟨xs, ks, ?_⟩
  exact
    { pursued := by rw [hpursue, hterminal]
      performed := fun sink s => run_perform sink resolve limit limit.toNat _ _ s
      delivered := fun sink s => (h.does hplace hbounded s).accepted
      stopped := fun sink s => (h.does hplace hbounded s).begun
      sent := fun sink s => h.run_eq hplace hbounded s
      numbered := h.responses_le
      few := h.length_le
      success := fun o => by rw [hterminal, hlast]
      failure := fun f => by rw [hterminal, hlast] }

/-- A chain that goes on for ever is cut off by both after the same two sequels. -/
theorem agrees_cutOff : ∃ responses followed,
    Bounded (fun n : Nat => .ok (.pending (.pending "0xa" none) (n + 1))) 2 (2 : UInt32).toNat
      (.ok (.pending (.pending "0xa" none) 0)) ∧
    Agrees (fun n : Nat => .ok (.pending (.pending "0xa" none) (n + 1))) 2 ⟨"m", none, "OP", none⟩
      (.pending (.pending "0xa" none) 0) responses followed ∧ followed = [0, 1] := by
  have hbounded : Bounded (fun n : Nat => .ok (.pending (.pending "0xa" none) (n + 1))) 2
      (2 : UInt32).toNat (.ok (.pending (.pending "0xa" none) 0)) := .inl (by decide)
  obtain ⟨responses, followed, h⟩ := agrees_of _ 2 ⟨"m", none, "OP", none⟩
    (.pending (.pending "0xa" none) 0) hbounded
  have hpursued : (Reply.pursue 2 2 (.pending (.pending "0xa" none) 0)).interrogate
      (fun n : Nat => .ok (.pending (.pending "0xa" none) (n + 1))) =
      (.error (Reply.tooLong 2), [0, 1]) := rfl
  exact ⟨responses, followed, hbounded, h, congrArg Prod.snd (h.pursued.symm.trans hpursued)⟩

/-! ## The highest limit -/

/-- A sink that takes everything and keeps it, -/
def keeping : Sink (List Response) := fun x xs => (.ok (), xs ++ [x])

/-- and one that takes nothing. -/
def refusing : Sink (List Response) := fun _ xs => (.error (.own "response channel closed"), xs)

/-- A chain of pending replies that never ends. -/
def endless : Unit → Except Fault (Reply Unit) := fun _ =>
  .ok (.pending (.pending "0xa" none) ())

/-- Who follows an endless chain ends with a fault at the limit. -/
theorem terminalFrom_endless (limit remaining : Nat) :
    Reply.terminalFrom endless limit remaining (.pending (.pending "0xa" none) ()) =
      .error (Reply.tooLong limit) := by
  induction remaining with
  | zero => rfl
  | succ remaining ih => exact ih

/-- Under the highest limit a delivery follows every sequel. -/
theorem step_highest (d : Delivery) (o : Output) (next : κ) :
    d.step 4294967295 (.ok ⟨o, some next⟩) = .follow (d.success o) next d.advanced := by
  refine if_neg fun hlt => ?_
  have hlt' : (4294967295 : UInt32).toNat < d.advanced.sequence.toNat :=
    UInt32.lt_iff_toNat_lt.1 hlt
  have hmax := d.advanced.sequence.toNat_lt
  have hhighest : (4294967295 : UInt32).toNat = 2 ^ 32 - 1 := rfl
  omega

/-- So an endless chain is never cut off: there is a pending response to every reply. -/
theorem runFrom_endless (fuel : Nat) (d : Delivery) (said : List Response) :
    ∃ xs, runFrom keeping endless 4294967295 fuel d (endless ()) said = (none, said ++ xs) ∧
      xs.length = fuel + 1 ∧ ∀ x ∈ xs, x.pass = true ∧ x.isPending = true := by
  have hstep : d.step 4294967295 (endless ()) = .follow _ () d.advanced := step_highest d _ ()
  induction fuel generalizing d said with
  | zero =>
    refine ⟨[d.success (Link.awaited (.pending "0xa" none))], ?_, rfl, ?_⟩
    · unfold runFrom
      rw [hstep]
      rfl
    · simp [Response.isPending, success, Response.success]
  | succ fuel ih =>
    obtain ⟨xs, hrun, hlength, hall⟩ := ih d.advanced
      (said ++ [d.success (Link.awaited (.pending "0xa" none))]) (step_highest d.advanced _ ())
    refine ⟨d.success (Link.awaited (.pending "0xa" none)) :: xs, ?_, ?_, ?_⟩
    · rw [runFrom_follow hstep, List.append_cons]
      exact hrun
    · rw [List.length_cons, hlength]
    · exact List.forall_mem_cons.2 ⟨⟨rfl, rfl⟩, hall⟩

/-- **Where following and delivering part**: under the highest limit an endless chain ends with a
    fault for who follows it, and is never cut off for who gets it delivered; and a sink that
    refuses the only response to a reply that nothing follows has not got its output. -/
theorem endless_parts :
    (Reply.terminal endless 4294967295 (.pending (.pending "0xa" none) ()) =
        .error (Reply.tooLong 4294967295) ∧
      ∀ fuel, ∃ xs, runFrom keeping endless 4294967295 fuel (.ofRequest ⟨"m", none, "OP", none⟩)
          (endless ()) [] = (none, xs) ∧
        xs.length = fuel + 1 ∧ ∀ x ∈ xs, x.pass = true ∧ x.isPending = true) ∧
    Reply.terminal endless 4 (.done (.data .empty)) = .ok (.data .empty) ∧
      run refusing endless 4 (.ofRequest ⟨"m", none, "OP", none⟩) (.ok (.done (.data .empty))) [] =
        (some (.error (.own "response channel closed")), []) := by
  refine ⟨⟨terminalFrom_endless _ _, fun fuel => ?_⟩, rfl, rfl⟩
  obtain ⟨xs, hrun, hrest⟩ := runFrom_endless fuel (.ofRequest ⟨"m", none, "OP", none⟩) []
  exact ⟨xs, hrun, hrest⟩

end Delivery

/-! ## In a gateway -/

namespace Gateway

variable {W : Type}

/-- What becomes of a chain that a caller waits for the end of: it is told, or the rest of the
    chain, which ends so, is for a receipt to bring. -/
def Ends (ρ : Nat → Except Fault (Reply Sequel)) (g : Gateway W) (name : String) (limit : Nat)
    (e : Except Fault Output) (g' : Gateway W) : Prop :=
  g' = g.tell (.ended name e) ∨ ∃ ticket remaining,
    (ρ ticket).bind (Reply.terminalFrom (Sequel.resolve ρ) limit remaining) = e ∧
      g' = g.awaitTicket ticket (.chain name limit remaining)

/-- **A gateway follows a chain to the end that the chain has**, as far as its sequels are
    known. -/
theorem concludeWithin_chain (ρ : Nat → Except Fault (Reply Sequel)) (g : Gateway W)
    (name : String) (limit remaining : Nat) {fuel : Nat} (hfuel : remaining < fuel)
    (outcome : Except Fault (Reply Sequel)) :
    Ends ρ g name limit (outcome.bind (Reply.terminalFrom (Sequel.resolve ρ) limit remaining))
      (g.concludeWithin fuel (.chain name limit remaining) outcome) := by
  induction remaining generalizing fuel outcome with
  | zero =>
    obtain ⟨fuel, rfl⟩ : ∃ left, fuel = left + 1 := ⟨fuel - 1, by omega⟩
    rcases outcome with f | ⟨o, _ | next⟩ <;> exact .inl rfl
  | succ remaining ih =>
    obtain ⟨fuel, rfl⟩ : ∃ left, fuel = left + 1 := ⟨fuel - 1, by omega⟩
    rcases outcome with f | ⟨o, _ | next⟩
    · exact .inl rfl
    · exact .inl rfl
    · cases next with
      | known outcome => exact ih (by omega) outcome
      | receipt ticket => exact .inr ⟨ticket, remaining, rfl, rfl⟩

end Gateway

end LedgerGate
