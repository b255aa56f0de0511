/-
  The responses to a request whose reply has a chain of sequels.

  A chain is a first link and a link for every sequel that one of its links names, so it
  may be of any length and need not end.  Links are what delegates can make: a fault, or
  a reply by one of the three constructors.

  * `Link`, `Link.ahead`: the links of a chain, and the one after so many pending ones;
  * `Delivery.toNat_advanced`: below the highest limit the count does not go round;
  * `Delivery.Answers`: the responses that a delivery calls for, step by step;
  * `run_of_answers`: these are the responses that a delivery sends;
  * `Answers.link`: how the first response to a chain comes about;
  * `shaped_of`: number, numbering and contents of the responses;
  * `delivers_of`: a delivery to a sink that takes everything, and to one that does not.
-/
import LedgerGate.Delivery
import Mathlib.Data.List.Basic

namespace LedgerGate

variable {κ : Type}

/-! ## Replies -/

/-- A reply that nothing follows is not pending. -/
theorem Reply.done_settled (o : Output) :
    ∃ p, (Reply.done o : Reply κ) = ⟨p, none⟩ ∧ p.isPending = false := by
  cases o with
  | transaction r =>
    by_cases hr : r.isPending = true
    · exact ⟨_, if_pos hr, rfl⟩
    · exact ⟨_, if_neg hr, Bool.eq_false_iff.2 hr⟩
  | _ => exact ⟨_, rfl, rfl⟩

/-- A result that is not refused is not pending. -/
theorem Reply.result_settled (r : TransactionResult) :
    (∃ f, (Reply.result r : Except Fault (Reply κ)) = .error f) ∨
      ∃ p, (Reply.result r : Except Fault (Reply κ)) = .ok ⟨p, none⟩ ∧ p.isPending = false := by
  by_cases hr : r.isPending = true
  · exact .inl ⟨_, if_pos hr⟩
  · exact .inr ⟨_, if_neg hr, Bool.eq_false_iff.2 hr⟩

/-! ## Links -/

/-- What a delegate can make of a piece of work: a fault, a last reply, or a pending reply
    with a sequel. -/
inductive Link (κ : Type) where
  | failed (f : Fault)
  | done (o : Output)
  | result (r : TransactionResult)
  | pending (r : TransactionResult) (next : κ)

namespace Link

def outcome : Link κ → Except Fault (Reply κ)
  | failed f => .error f
  | done o => .ok (Reply.done o)
  | result r => Reply.result r
  | pending r next => .ok (Reply.pending r next)

/-- What a link that is not pending ends a chain with. -/
def ending? : Link κ → Option (Except Fault Output)
  | pending _ _ => none
  | l => some (l.outcome.map Reply.output)

/-- The output of a pending reply. -/
def awaited (r : TransactionResult) : Output := .transaction { r with status := .pending }

/-- The link of a chain after so many links, all of them pending. -/
def ahead (chain : κ → Link κ) : Link κ → Nat → Option (Link κ)
  | l, 0 => some l
  | pending _ next, n + 1 => ahead chain (chain next) n
  | _, _ + 1 => none

@[simp]
theorem isPending_awaited (r : TransactionResult) : (awaited r).isPending = true := rfl

/-- A chain ends with a fault or with an output that is not pending. -/
theorem outcome_of_ending {l : Link κ} {e : Except Fault Output} (h : l.ending? = some e) :
    (∃ f, e = .error f ∧ l.outcome = .error f) ∨
      ∃ o, e = .ok o ∧ l.outcome = .ok ⟨o, none⟩ ∧ o.isPending = false := by
  cases l with
  | failed f =>
    cases h
    exact .inl ⟨f, rfl, rfl⟩
  | done o =>
    obtain ⟨p, hdone, hp⟩ := Reply.done_settled (κ := κ) o
    simp only [ending?, outcome, hdone, Option.some.injEq] at h ⊢
    exact .inr ⟨p, h.symm, rfl, hp⟩
  | result r =>
    rcases Reply.result_settled (κ := κ) r with ⟨f, hr⟩ | ⟨p, hr, hp⟩
    · simp only [ending?, outcome, hr, Option.some.injEq] at h ⊢
      exact .inl ⟨f, h.symm, rfl⟩
    · simp only [ending?, outcome, hr, Option.some.injEq] at h ⊢
      exact .inr ⟨p, h.symm, rfl, hp⟩
  | pending r next => cases h

/-- Nothing comes after the end of a chain. -/
theorem ahead_of_ending (chain : κ → Link κ) {l : Link κ} {e : Except Fault Output}
    (h : l.ending? = some e) {n : Nat} {last : Link κ} (hn : l.ahead chain n = some last) :
    n = 0 ∧ last = l := by
  cases n with
  | zero =>
    cases hn
    exact ⟨rfl, rfl⟩
  | succ n =>
    cases l with
    | pending r next => cases h
    | _ => cases hn

end Link

/-! ## Responses -/

/-- A response tells an output, or a fault. -/
def Response.Tells (x : Response) : Except Fault Output → Prop
  | .ok o => x.pass = true ∧ x.result = some o ∧ x.error = none
  | .error f => x.pass = false ∧ x.result = none ∧ x.error = some f.details

namespace Delivery

theorem toNat_advanced_of_lt {d : Delivery} (h : d.sequence.toNat + 1 < UInt32.size) :
    d.advanced.sequence.toNat = d.sequence.toNat + 1 := by
  rw [advanced, UInt32.toNat_add, UInt32.toNat_one]
  exact Nat.mod_eq_of_lt h

/-- **The count does not go round** below the highest limit, within which a delivery stays. -/
theorem toNat_advanced {limit : UInt32} {d : Delivery} (hlimit : limit.toNat + 1 < UInt32.size)
    (hd : d.sequence ≤ limit) : d.advanced.sequence.toNat = d.sequence.toNat + 1 :=
  toNat_advanced_of_lt
    (Nat.lt_of_le_of_lt (Nat.succ_le_succ (UInt32.le_iff_toNat_le.1 hd)) hlimit)

/-- The number of a response among those of a delivery that has sent one. -/
theorem advanced_add (d : Delivery) (n : Nat) :
    d.advanced.sequence + UInt32.ofNat n = d.sequence + UInt32.ofNat (n + 1) := by
  rw [advanced, UInt32.ofNat_add, UInt32.add_assoc, UInt32.add_comm 1]
  rfl

theorem advanced_sent (d : Delivery) (x : Response) (rs : List Response) :
    d.advanced.sent rs = d.sent (x :: rs) := d.advanced_add rs.length

/-- The responses that an outcome calls for, with those to the sequels that are waited
    for. -/
inductive Answers (resolve : κ → Except Fault (Reply κ)) (limit : UInt32) :
    Delivery → Except Fault (Reply κ) → List Response → Prop
  | finish {d outcome rs} : d.step limit outcome = .finish rs →
      Answers resolve limit d outcome rs
  | follow {d outcome x next after rs} : d.step limit outcome = .follow x next after →
      Answers resolve limit after (resolve next) rs → Answers resolve limit d outcome (x :: rs)

/-- A delivery that waits for a sequel has sent one response and is within the limit. -/
theorem of_follow {limit : UInt32} {d after : Delivery} {outcome : Except Fault (Reply κ)}
    {x : Response} {next : κ} (h : d.step limit outcome = .follow x next after) :
    after = d.advanced ∧ d.advanced.sequence ≤ limit := by
  unfold step at h
  split at h
  · cases h
  · split at h
    · cases h
    · split at h
      · cases h
      · rename_i hlimit
        cases h
        exact ⟨rfl, UInt32.not_lt.1 hlimit⟩

/-- Every outcome calls for some responses: no more sequels are waited for than the limit
    allows, if it is not the highest. -/
theorem exists_answers (resolve : κ → Except Fault (Reply κ)) {limit : UInt32}
    (hlimit : limit.toNat + 1 < UInt32.size) {d : Delivery} (hd : d.sequence ≤ limit)
    (outcome : Except Fault (Reply κ)) : ∃ rs, Answers resolve limit d outcome rs := by
  induction hleft : limit.toNat - d.sequence.toNat generalizing d outcome with
  | zero =>
    rcases hstep : d.step limit outcome with rs | ⟨x, next, after⟩
    · exact ⟨rs, .finish hstep⟩
    · have hadvanced := toNat_advanced hlimit hd
      have hle := UInt32.le_iff_toNat_le.1 (of_follow hstep).2
      omega
  | succ left ih =>
    rcases hstep : d.step limit outcome with rs | ⟨x, next, after⟩
    · exact ⟨rs, .finish hstep⟩
    · obtain ⟨rfl, hle⟩ := of_follow hstep
      have hadvanced := toNat_advanced hlimit hd
      obtain ⟨rs, hrs⟩ := ih hle (resolve next) (by omega)
      exact ⟨x :: rs, .follow hstep hrs⟩

/-! ## To a sink -/

section
variable {σ : Type} {sink : Sink σ}

/-- A delivery to a sink sends what the outcome calls for, until one is refused. -/
theorem run_of_answers {resolve : κ → Except Fault (Reply κ)} {limit : UInt32} {d : Delivery}
    {outcome : Except Fault (Reply κ)} {rs : List Response}
    (hlimit : limit.toNat + 1 < UInt32.size) (h : Answers resolve limit d outcome rs)
    (hd : d.sequence ≤ limit) {fuel : Nat} (hfuel : limit.toNat ≤ d.sequence.toNat + fuel)
    (s : σ) : runFrom sink resolve limit fuel d outcome s =
      (some ((sendAll sink rs s).1.map fun _ => d.sent rs), (sendAll sink rs s).2) := by
  induction h generalizing fuel s with
  | @finish d outcome rs hstep =>
    unfold runFrom
    simp only [hstep]
    rcases sendAll sink rs s with ⟨_ | _, s'⟩ <;> rfl
  | @follow d outcome x next after rs hstep _ ih =>
    obtain ⟨rfl, hle⟩ := of_follow hstep
    have hadvanced := toNat_advanced hlimit hd
    have hwithin := UInt32.le_iff_toNat_le.1 hle
    obtain ⟨fuel, rfl⟩ : ∃ left, fuel = left + 1 := ⟨fuel - 1, by omega⟩
    have hfuel' : limit.toNat ≤ d.advanced.sequence.toNat + fuel := by omega
    unfold runFrom
    simp only [hstep, sendAll]
    rcases sink x s with ⟨f | _, s'⟩
    · rfl
    · simp only [ih hle hfuel', d.advanced_sent x rs]

/-- A sink that takes everything is sent everything. -/
theorem sendAll_accepted (haccepts : ∀ x s, (sink x s).1 = .ok ()) (rs : List Response) (s : σ) :
    sendAll sink rs s = (.ok (), rs.foldl (fun s x => (sink x s).2) s) := by
  induction rs generalizing s with
  | nil => rfl
  | cons x rs ih =>
    have hx : sink x s = (.ok (), (sink x s).2) := Prod.ext (haccepts x s) rfl
    rw [sendAll, hx]
    exact ih _

/-- A sink that refuses a response is sent no further one. -/
theorem sendAll_refused {before after : List Response} {x : Response} {f : Fault} {s s₁ s₂ : σ}
    (hbefore : sendAll sink before s = (.ok (), s₁)) (hx : sink x s₁ = (.error f, s₂)) :
    sendAll sink (before ++ x :: after) s = (.error f, s₂) := by
  induction before generalizing s with
  | nil =>
    cases hbefore
    rw [List.nil_append, sendAll, hx]
  | cons y before ih =>
    rw [sendAll] at hbefore
    rw [List.cons_append, sendAll]
    rcases hy : sink y s with ⟨g | _, s'⟩
    · rw [hy] at hbefore
      cases hbefore
    · rw [hy] at hbefore
      exact ih hbefore

end

/-! ## Responses to a chain -/

/-- The response that tells the end of a chain. -/
def closing (d : Delivery) : Except Fault Output → Response
  | .ok o => d.success o
  | .error f => d.failure f

theorem closing_tells (d : Delivery) (e : Except Fault Output) : (d.closing e).Tells e := by
  cases e <;> exact ⟨rfl, rfl, rfl⟩

/-- A response is the one with a number among those of a delivery. -/
def Numbers (d : Delivery) (i : Nat) (x : Response) : Prop :=
  x.inReplyTo = d.inReplyTo ∧ x.operation = d.operation ∧
    x.sequence = d.sequence + UInt32.ofNat i

theorem numbers_closing (d : Delivery) (e : Except Fault Output) : d.Numbers 0 (d.closing e) := by
  cases e <;> exact ⟨rfl, rfl, (UInt32.add_zero _).symm⟩

theorem Numbers.succ {d : Delivery} {i : Nat} {x : Response} (h : d.advanced.Numbers i x) :
    d.Numbers (i + 1) x := by
  obtain ⟨hto, hoperation, hsequence⟩ := h
  exact ⟨hto, hoperation, hsequence.trans (d.advanced_add i)⟩

section
variable {chain : κ → Link κ} {limit : UInt32} {d : Delivery} {l : Link κ} {rs : List Response}

/-- **What a link calls for**: the end of the chain, if it is one; else a pending reply, and
    the fault of a chain that is too long, if no more sequels may be waited for. -/
theorem step_link (limit : UInt32) (d : Delivery) (l : Link κ) :
    (∃ e, l.ending? = some e ∧ d.step limit l.outcome = .finish [d.closing e]) ∨
    (∃ r next, l = .pending r next ∧ limit < d.advanced.sequence ∧ d.step limit l.outcome =
      .finish [d.success (Link.awaited r), d.advanced.failure (Reply.tooLong limit.toNat)]) ∨
    ∃ r next, l = .pending r next ∧ d.advanced.sequence ≤ limit ∧
      d.step limit l.outcome = .follow (d.success (Link.awaited r)) next d.advanced := by
  rcases hend : l.ending? with _ | e
  · cases l with
    | failed | done | result => cases hend
    | pending r next =>
      right
      have hstep : d.step limit (Link.pending r next).outcome =
          if limit < d.sequence + 1 then
            .finish [d.success (Link.awaited r), d.advanced.failure (Reply.tooLong limit.toNat)]
          else .follow (d.success (Link.awaited r)) next d.advanced := rfl
      by_cases hlimit : limit < d.sequence + 1
      · rw [if_pos hlimit] at hstep
        exact .inl ⟨r, next, rfl, hlimit, hstep⟩
      · rw [if_neg hlimit] at hstep
        exact .inr ⟨r, next, rfl, UInt32.not_lt.1 hlimit, hstep⟩
  · refine .inl ⟨e, rfl, ?_⟩
    rcases Link.outcome_of_ending hend with ⟨f, rfl, hl⟩ | ⟨o, rfl, hl, -⟩
    · rw [hl]; rfl
    · rw [hl]; rfl

/-- **How a delivery answers a chain**: with its end, if it has one there; with a pending
    reply and the fault of a chain that is too long, if no more sequels may be waited for;
    or with a pending reply, and then as it answers the rest. -/
theorem Answers.link (h : Answers (fun next => (chain next).outcome) limit d l.outcome rs) :
    (∃ e, l.ending? = some e ∧ rs = [d.closing e]) ∨
    (∃ r next, l = .pending r next ∧ limit < d.advanced.sequence ∧
      rs = [d.success (Link.awaited r), d.advanced.failure (Reply.tooLong limit.toNat)]) ∨
    ∃ r next rest, l = .pending r next ∧ d.advanced.sequence ≤ limit ∧
      rs = d.success (Link.awaited r) :: rest ∧
      Answers (fun next => (chain next).outcome) limit d.advanced (chain next).outcome rest := by
  cases h with
  | finish hfinish =>
    rcases step_link limit d l with ⟨e, he, hstep⟩ | ⟨r, next, hl, hle, hstep⟩ |
      ⟨r, next, hl, hlt, hstep⟩ <;> rw [hstep] at hfinish <;> cases hfinish
    · exact .inl ⟨e, he, rfl⟩
    · exact .inr (.inl ⟨r, next, hl, hle, rfl⟩)
  | follow hfollow hrest =>
    rcases step_link limit d l with ⟨e, he, hstep⟩ | ⟨r, next, hl, hle, hstep⟩ |
      ⟨r, next, hl, hlt, hstep⟩ <;> rw [hstep] at hfollow <;> cases hfollow
    exact .inr (.inr ⟨r, _, _, hl, hlt, rfl, hrest⟩)

/-- The responses to a chain: their numbers, what they tell, and how many there are. -/
structure Shaped (chain : κ → Link κ) (limit : UInt32) (d : Delivery) (l : Link κ)
    (rs : List Response) : Prop where
  numbered : ∀ (i : Nat) x, rs[i]? = some x → d.Numbers i x
  awaited : ∀ (i : Nat) x, rs[i]? = some x → i + 1 < rs.length →
    ∃ r next, l.ahead chain i = some (.pending r next) ∧ x.Tells (.ok (Link.awaited r))
  short : ∀ k last e, l.ahead chain k = some last → last.ending? = some e →
    d.sequence.toNat + k ≤ limit.toNat →
    rs.length = k + 1 ∧ ∃ x, rs.getLast? = some x ∧ x.Tells e
  long : (∀ k last e, l.ahead chain k = some last → last.ending? = some e →
      limit.toNat < d.sequence.toNat + k) →
    rs.length = limit.toNat - d.sequence.toNat + 2 ∧
      ∃ x, rs.getLast? = some x ∧ x.Tells (.error (Reply.tooLong limit.toNat))

theorem Shaped.ended {e : Except Fault Output} (hl : l.ending? = some e)
    (hd : d.sequence ≤ limit) : Shaped chain limit d l [d.closing e] where
  numbered i x hx := by
    cases i with
    | zero =>
      cases hx
      exact numbers_closing d e
    | succ i => cases hx
  awaited i x hx hi := by
    rw [List.length_singleton] at hi
    omega
  short k last e' hk he' _ := by
    obtain ⟨rfl, rfl⟩ := Link.ahead_of_ending chain hl hk
    rw [hl] at he'
    cases he'
    exact ⟨rfl, _, rfl, closing_tells d e⟩
  long hlate := by
    have := hlate 0 l e rfl hl
    have hle := UInt32.le_iff_toNat_le.1 hd
    omega

theorem Shaped.cut {r : TransactionResult} {next : κ} (hd : d.sequence = limit) :
    Shaped chain limit d (.pending r next)
      [d.success (Link.awaited r), d.advanced.failure (Reply.tooLong limit.toNat)] where
  numbered i x hx := by
    match i, hx with
    | 0, hx =>
      cases hx
      exact numbers_closing d (.ok _)
    | 1, hx =>
      cases hx
      exact (numbers_closing d.advanced (.error _)).succ
  awaited i x hx hi := by
    match i, hx with
    | 0, hx =>
      cases hx
      exact ⟨r, next, rfl, closing_tells d (.ok _)⟩
    | 1, hx => exact absurd hi (by simp)
  short k last e hk he hshort := by
    obtain rfl : k = 0 := by
      rw [hd] at hshort
      omega
    cases hk
    cases he
  long _ := ⟨by simp [hd], _, rfl, closing_tells d.advanced (.error _)⟩

theorem Shaped.next {r : TransactionResult} {next : κ}
    (hnumber : d.advanced.sequence.toNat = d.sequence.toNat + 1)
    (hle : d.advanced.sequence ≤ limit) (h : Shaped chain limit d.advanced (chain next) rs) :
    Shaped chain limit d (.pending r next) (d.success (Link.awaited r) :: rs) where
  numbered i x hx := by
    cases i with
    | zero =>
      cases hx
      exact numbers_closing d (.ok _)
    | succ i => exact (h.numbered i x hx).succ
  awaited i x hx hi := by
    cases i with
    | zero =>
      cases hx
      exact ⟨r, next, rfl, closing_tells d (.ok _)⟩
    | succ i => exact h.awaited i x hx (by simpa using hi)
  short k last e hk he hshort := by
    cases k with
    | zero =>
      cases hk
      cases he
    | succ k =>
      obtain ⟨hlength, x, hx, htells⟩ := h.short k last e hk he (by omega)
      refine ⟨by rw [List.length_cons, hlength], x, ?_, htells⟩
      rw [List.getLast?_cons, hx]
      rfl
  long hlate := by
    have hlate' : ∀ k last e, (chain next).ahead chain k = some last → last.ending? = some e →
        limit.toNat < d.advanced.sequence.toNat + k := fun k last e hk he => by
      have := hlate (k + 1) last e hk he
      omega
    obtain ⟨hlength, x, hx, htells⟩ := h.long hlate'
    have hwithin := UInt32.le_iff_toNat_le.1 hle
    refine ⟨?_, x, ?_, htells⟩
    · rw [List.length_cons, hlength]
      omega
    · rw [List.getLast?_cons, hx]
      rfl

/-- **The responses to every chain have this shape**, below the highest limit. -/
theorem shaped_of (hlimit : limit.toNat + 1 < UInt32.size)
    (h : Answers (fun next => (chain next).outcome) limit d l.outcome rs)
    (hd : d.sequence ≤ limit) : Shaped chain limit d l rs := by
  induction rs generalizing d l with
  | nil =>
    rcases h.link with ⟨_, _, hrs⟩ | ⟨_, _, _, _, hrs⟩ | ⟨_, _, _, _, _, hrs, _⟩ <;> cases hrs
  | cons x rs ih =>
    have hnumber := toNat_advanced hlimit hd
    rcases h.link with ⟨e, hl, hrs⟩ | ⟨r, next, rfl, hcut, hrs⟩ |
      ⟨r, next, rest, rfl, hle, hrs, hrest⟩
    · rw [hrs]
      exact .ended hl hd
    · rw [hrs]
      have hle := UInt32.le_iff_toNat_le.1 hd
      have hlt := UInt32.lt_iff_toNat_lt.1 hcut
      exact .cut (UInt32.toNat.inj (by omega))
    · cases hrs
      exact .next hnumber hle (ih hrest hle)

end

/-! ## A whole delivery -/

/-- How a request is answered whose first reply is a link of a chain, when at most `limit`
    sequels are followed. -/
structure Delivers (limit : UInt32) (request : Request) (chain : κ → Link κ) (first : Link κ)
    (rs : List Response) : Prop where
  /-- a sink that takes everything gets the responses in order, and their number is returned -/
  accepted : ∀ {σ : Type} (sink : Sink σ) (s : σ), (∀ x s, (sink x s).1 = .ok ()) →
    ∃ sent : UInt32, sent.toNat = rs.length ∧
      run sink (fun next => (chain next).outcome) limit (.ofRequest request) first.outcome s =
        (some (.ok sent), rs.foldl (fun s x => (sink x s).2) s)
  /-- at the first refusal the delivery stops, with the fault of the sink -/
  refused : ∀ {σ : Type} (sink : Sink σ) (s s₁ s₂ : σ) before x after f,
    rs = before ++ x :: after → sendAll sink before s = (.ok (), s₁) →
    sink x s₁ = (.error f, s₂) →
    run sink (fun next => (chain next).outcome) limit (.ofRequest request) first.outcome s =
      (some (.error f), s₂)
  /-- the responses are numbered without gaps and repeat what the request says -/
  numbered : ∀ (i : Nat) x, rs[i]? = some x → x.sequence.toNat = i ∧
    x.inReplyTo = request.correlation ∧ x.operation = request.operation
  /-- every response but the last passes and is pending, and tells of its link -/
  awaited : ∀ (i : Nat) x, rs[i]? = some x → i + 1 < rs.length →
    x.pass = true ∧ x.isPending = true ∧
      ∃ r next, first.ahead chain i = some (.pending r next) ∧ x.result = some (Link.awaited r)
  /-- the last response is never pending -/
  settled : ∃ x, rs.getLast? = some x ∧ x.isPending = false
  /-- a chain that ends within the limit is told to its end -/
  short : ∀ k last e, first.ahead chain k = some last → last.ending? = some e → k ≤ limit.toNat →
    rs.length = k + 1 ∧ ∃ x, rs.getLast? = some x ∧ x.Tells e
  /-- a chain that ends later, or never, is cut off with a fault -/
  long : (∀ k last e, first.ahead chain k = some last → last.ending? = some e →
      limit.toNat < k) →
    rs.length = limit.toNat + 2 ∧ ∃ x, rs.getLast? = some x ∧ x.pass = false ∧ x.result = none ∧
      x.error.map ErrorDetails.code = some "gateway:internal-error"

/-- A response that tells the end of a chain is not pending. -/
theorem not_pending_of_tells {x : Response} {l : Link κ} {e : Except Fault Output}
    (hl : l.ending? = some e) (hx : x.Tells e) : x.isPending = false := by
  rcases Link.outcome_of_ending hl with ⟨f, rfl, -⟩ | ⟨o, rfl, -, ho⟩
  · obtain ⟨-, hresult, -⟩ := hx
    rw [Response.isPending, hresult]
  · obtain ⟨-, hresult, -⟩ := hx
    rw [Response.isPending, hresult]
    exact ho

/-- **Every chain is delivered in its shape**: of any length, ending or not, to any sink. -/
theorem delivers_of (limit : UInt32) (hlimit : limit.toNat + 2 < UInt32.size) (request : Request)
    (chain : κ → Link κ) (first : Link κ) : ∃ rs, Delivers limit request chain first rs := by
  have hbelow : limit.toNat + 1 < UInt32.size := by omega
  have hbegins : (ofRequest request).sequence ≤ limit := UInt32.zero_le
  obtain ⟨rs, hrs⟩ := exists_answers (fun next => (chain next).outcome) hbelow hbegins first.outcome
  have hshape : Shaped chain limit (.ofRequest request) first rs := shaped_of hbelow hrs hbegins
  have hrun : ∀ {σ : Type} (sink : Sink σ) (s : σ),
      run sink (fun next => (chain next).outcome) limit (.ofRequest request) first.outcome s =
        (some ((sendAll sink rs s).1.map fun _ => (ofRequest request).sent rs),
          (sendAll sink rs s).2) := fun sink s =>
    run_of_answers hbelow hrs hbegins (Nat.le_add_left limit.toNat _) s
  have hzero : (ofRequest request).sequence = 0 := rfl
  have hnone : (ofRequest request).sequence.toNat = 0 := rfl
  have hlast : rs.length ≤ limit.toNat + 2 ∧ ∃ x, rs.getLast? = some x ∧ x.isPending = false := by
    by_cases hends : ∃ k last e, first.ahead chain k = some last ∧ last.ending? = some e ∧
        k ≤ limit.toNat
    · obtain ⟨k, last, e, hk, he, hle⟩ := hends
      obtain ⟨hlength, x, hx, htells⟩ := hshape.short k last e hk he (by omega)
      exact ⟨by omega, x, hx, not_pending_of_tells he htells⟩
    · obtain ⟨hlength, x, hx, -, hresult, -⟩ := hshape.long fun k last e hk he => by
        by_contra hle
        exact hends ⟨k, last, e, hk, he, by omega⟩
      exact ⟨by omega, x, hx, by rw [Response.isPending, hresult]⟩
  refine ⟨rs, ?_⟩
  exact
    { accepted := fun sink s haccepts => by
        refine ⟨(ofRequest request).sent rs, ?_, by rw [hrun, sendAll_accepted haccepts]; rfl⟩
        rw [sent, hzero, UInt32.zero_add]
        exact UInt32.toNat_ofNat_of_lt' (by omega)
      refused := fun sink s s₁ s₂ before x after f hsplit hbefore hx => by
        rw [hrun, hsplit, sendAll_refused hbefore hx]
        rfl
      numbered := fun i x hx => by
        obtain ⟨hto, hoperation, hsequence⟩ := hshape.numbered i x hx
        have hi : i < rs.length := (List.getElem?_eq_some_iff.1 hx).1
        refine ⟨?_, hto, hoperation⟩
        rw [hsequence, hzero, UInt32.zero_add]
        exact UInt32.toNat_ofNat_of_lt' (by omega)
      awaited := fun i x hx hi => by
        obtain ⟨r, next, hahead, hpass, hresult, -⟩ := hshape.awaited i x hx hi
        exact ⟨hpass, by rw [Response.isPending, hresult]; rfl, r, next, hahead, hresult⟩
      settled := hlast.2
      short := fun k last e hk he hle => hshape.short k last e hk he (by omega)
      long := fun hlate => by
        obtain ⟨hlength, x, hx, hpass, hresult, herror⟩ := hshape.long fun k last e hk he => by
          have := hlate k last e hk he
          omega
        exact ⟨by omega, x, hx, hpass, hresult, by rw [herror]; rfl⟩ }

/-- A chain that never ends, of which one sequel is followed. -/
theorem delivers_endless : ∃ rs, rs.length = 3 ∧ (1 : UInt32).toNat + 2 < UInt32.size ∧
    Delivers 1 ⟨"m", none, "TX.SUBMIT_CALL", none⟩
      (fun n : Nat => .pending (.pending "0xa" none) (n + 1)) (.pending (.pending "0xa" none) 0)
      rs := by
  obtain ⟨rs, hrs⟩ := delivers_of 1 (by decide) ⟨"m", none, "TX.SUBMIT_CALL", none⟩
    (fun n : Nat => .pending (.pending "0xa" none) (n + 1)) (.pending (.pending "0xa" none) 0)
  refine ⟨rs, (hrs.long fun k last e hk he => ?_).1, by decide, hrs⟩
  rw [UInt32.toNat_one]
  match k, hk with
  | 0, hk => cases hk; cases he
  | 1, hk => cases hk; cases he
  | k + 2, _ => omega

end Delivery

end LedgerGate
