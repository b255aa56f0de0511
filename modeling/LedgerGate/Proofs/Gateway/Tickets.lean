/-
  What becomes of a ticket that was registered for a receipt.

  * `Floor.Spared`: a step leaves the errand of a ticket alone, and puts into the post what
    the tracker hands out for it;
  * `Floor.due?`, `Floor.Due`: the receipt that is due to a ticket, and whether one is;
  * `InOrder.dispatchedFor_eq`: **a ticket has got exactly what is due to it**;
  * `Floor.Served`: the responses to a request for an id go along with the receipt of its ticket.
-/
import LedgerGate.Proofs.Gateway.Bookkeeping

namespace LedgerGate

open Receipt (Move History)

/-! ## Responses to requests for an id -/

/-- The response that the call of a request was taken as some work. -/
def Request.pendingResponse (r : Request) (w : WorkId) (recent : Option UInt64) : Response :=
  .success r.correlation r.operation (.transaction (.pending w recent)) 0

/-- The response that says how the call of a request was decided. -/
def Request.finalResponse (r : Request) (c : Confirmation) : Response :=
  .success r.correlation r.operation (.transaction c.result) 1

namespace Floor

variable {W : Type} {f f' : Floor W} {ids : List String} {capacity : Nat}

/-! ## Tickets -/

/-- The errands that wait for a ticket. -/
def errandsFor (f : Floor W) (n : Nat) : List (Nat × Errand) :=
  f.gateway.errands.filter (·.1 == n)

/-- The letters in the post for a ticket. -/
def lettersFor (f : Floor W) (n : Nat) : List Letter := f.post.filter (·.waiter = .ticket n)

/-- What the tracker of a ledger has handed out for a ticket. -/
def dispatchedFor (capacity : Nat) (log : List Note) (k : String) (n : Nat) : List Letter :=
  lettersFrom k ((historyOf capacity log k).dispatched.filter (·.1 = .ticket n))

theorem filter_lettersFrom (k : String) (handed : List (Waiter × Confirmation)) (v : Waiter) :
    (lettersFrom k handed).filter (·.waiter = v) = lettersFrom k (handed.filter (·.1 = v)) :=
  List.filter_map

theorem lettersFrom_append (k : String) (handed more : List (Waiter × Confirmation)) :
    lettersFrom k (handed ++ more) = lettersFrom k handed ++ lettersFrom k more :=
  List.map_append

/-- The errand of a ticket is left alone, and what is handed out for it comes into the post. -/
structure Spared (capacity : Nat) (k : String) (n : Nat) (f f' : Floor W) : Prop where
  errands : f'.errandsFor n = f.errandsFor n
  letters : ∃ more, f'.lettersFor n = f.lettersFor n ++ more ∧
    dispatchedFor capacity f'.log k n = dispatchedFor capacity f.log k n ++ more

theorem filter_eraseP_of_imp {α : Type} {p q : α → Bool} {l : List α}
    (h : ∀ a, p a → q a = false) : (l.eraseP q).filter p = l.filter p := by
  induction l with
  | nil => rfl
  | cons a l ih =>
    by_cases hq : q a
    · have hp : ¬p a := fun hp => by simp [h a hp] at hq
      rw [List.eraseP_cons_of_pos hq, List.filter_cons_of_neg hp]
    · rw [List.eraseP_cons_of_neg hq, List.filter_cons, List.filter_cons, ih]

theorem filter_eraseP_self {α : Type} (p : α → Bool) (l : List α) :
    (l.eraseP p).filter p = (l.filter p).tail := by
  induction l with
  | nil => rfl
  | cons a l ih =>
    by_cases hp : p a
    · rw [List.eraseP_cons_of_pos hp, List.filter_cons_of_pos hp, List.tail_cons]
    · rw [List.eraseP_cons_of_neg hp, List.filter_cons_of_neg hp, List.filter_cons_of_neg hp, ih]

/-- A ticket was registered on one ledger. -/
theorem InOrder.ledger_unique (h : InOrder ids capacity f) {i j : Nat} {k k' : String}
    {w w' : WorkId} {n : Nat} (hn : .registered i k w n ∈ f.log)
    (hn' : .registered j k' w' n ∈ f.log) : k' = k := by
  obtain ⟨before, after, hlog⟩ := List.append_of_mem hn
  rw [hlog] at hn'
  rcases List.mem_append.1 hn' with hmem | hmem
  · exact absurd hmem (h.registered_once hlog).1
  · rcases List.mem_cons.1 hmem with heq | hmem
    · cases heq
      rfl
    · exact absurd hmem (h.registered_once hlog).2

/-- A ticket that registers is the only one that gets something by that. -/
theorem dispatched_registered (s : History Waiter) (w : WorkId) (n : Nat) :
    ((s.after (.track w)).after (.register w (.ticket n) false)).dispatched = s.dispatched ++
      (s.tracker.held? w).toList.map (.ticket n, ·) := by
  have htrack : Receipt.dispatches (s.tracker.after (.track w)).2 = [] := rfl
  have hheld : (s.tracker.after (.track w)).1.held? w = s.tracker.held? w := rfl
  have hregister := Receipt.Tracker.dispatches_register (s.tracker.after (.track w)).1 w
    (Waiter.ticket n)
  rw [History.after, History.after, htrack, List.append_nil, ← hheld, ← hregister]
  rfl

/-- When a ticket registers it gets the receipt that is held, and others get nothing. -/
theorem dispatchedFor_registered (capacity : Nat) (log : List Note) (i : Nat) (k : String)
    (w : WorkId) (n m : Nat) : dispatchedFor capacity (log ++ [.registered i k w m]) k n =
      dispatchedFor capacity log k n ++ if m = n then
        ((historyOf capacity log k).tracker.held? w).toList.map fun c => ⟨k, .ticket n, c⟩
      else [] := by
  rw [dispatchedFor, historyOf_registered, if_pos rfl, dispatched_registered, List.filter_append,
    lettersFrom_append, dispatchedFor]
  congr 1
  split
  · rename_i hm
    subst hm
    cases (historyOf capacity log k).tracker.held? w <;> simp [lettersFrom]
  · rename_i hm
    cases (historyOf capacity log k).tracker.held? w <;> simp [lettersFrom, hm]

/-- A ticket on another ledger gets nothing either. -/
theorem dispatchedFor_registered_ne {capacity : Nat} {log : List Note} {i : Nat} {k k' : String}
    {w : WorkId} {n m : Nat} (hm : m ≠ n) :
    dispatchedFor capacity (log ++ [.registered i k' w m]) k n =
      dispatchedFor capacity log k n := by
  by_cases hk : k = k'
  · subst hk
    rw [dispatchedFor_registered, if_neg hm, List.append_nil]
  · rw [dispatchedFor, historyOf_registered, if_neg hk, dispatchedFor]

/-- A ledger on which a ticket was not registered hands out nothing for it. -/
theorem InOrder.dispatchedFor_ne (h : InOrder ids capacity f) {i : Nat} {k k' : String}
    {w : WorkId} {n : Nat} (hn : .registered i k w n ∈ f.log) (hk : k' ≠ k) :
    dispatchedFor capacity f.log k' n = [] := by
  refine List.map_eq_nil_iff.2 (List.filter_eq_nil_iff.2 ?_)
  rintro ⟨v, c⟩ hd hv
  obtain rfl : v = .ticket n := by simpa using hv
  obtain ⟨j, hn'⟩ := h.registered hd
  exact hk (h.ledger_unique hn hn')

/-- A tracker hands out what its history says. -/
theorem InOrder.handed (h : InOrder ids capacity f) (k : String) (m : Move Waiter) :
    (f.gateway.tend k m).1 = if k ∈ ids then
      Receipt.dispatches ((historyOf capacity f.log k).tracker.after m).2 else [] := by
  rw [(f.gateway.tend_spec k m).2.2, h.trackers k]
  split <;> rfl

/-- Whatever a step deals with, the tickets that were registered are spared. -/
theorem InOrder.spared (h : InOrder ids capacity f) (h' : InOrder ids capacity f')
    (hd : Deals f f') {i : Nat} {k : String} {w : WorkId} {n : Nat} (hk : k ∈ ids)
    (hn : .registered i k w n ∈ f.log) : Spared capacity k n f f' := by
  cases hd with
  | talk hmore hlog hpost hsame =>
    refine ⟨?_, [], ?_, ?_⟩
    · rw [errandsFor, errandsFor, hsame.errands_eq]
    · rw [lettersFor, lettersFor, hpost, List.append_nil]
    · rw [dispatchedFor, hlog, historyOf_append (movesOf_submitted hmore k), List.append_nil,
        dispatchedFor]
  | enrol hlog hpost hsame =>
    obtain ⟨henrolled, -⟩ := f.gateway.enrolled_spec _ _
    obtain ⟨waiting, herrands, hdue⟩ := hsame.errands
    have hother : f.gateway.tickets ≠ n := (h.lt_tickets hn).ne'
    refine ⟨?_, [], ?_, ?_⟩
    · have hnone : waiting.filter (·.1 == n) = [] := by
        refine List.filter_eq_nil_iff.2 fun e he => ?_
        rw [hdue e he]
        simpa using hother
      rw [errandsFor, errandsFor, herrands, henrolled.errands, List.filter_append, hnone,
        List.append_nil]
    · rw [lettersFor, lettersFor, hpost, List.append_nil]
    · rw [hlog, dispatchedFor_registered_ne hother, List.append_nil]
  | @tend k' m hm hlog hpost hgateway =>
    obtain ⟨hsame, -, hdispatched⟩ := f.gateway.tend_spec k' m
    refine ⟨?_, lettersFrom k' ((f.gateway.tend k' m).1.filter (·.1 = .ticket n)), ?_, ?_⟩
    · rw [errandsFor, errandsFor, hgateway, hsame.errands]
    · rw [lettersFor, hpost, List.filter_append, filter_lettersFrom, lettersFor]
    · have hnext : k' ∈ ids → dispatchedFor capacity f'.log k' n =
          dispatchedFor capacity f.log k' n ++
            lettersFrom k' ((f.gateway.tend k' m).1.filter (·.1 = .ticket n)) := by
        intro hk'
        rw [h.handed, if_pos hk', hlog, dispatchedFor, historyOf_moved, if_pos rfl,
          History.after, List.filter_append, lettersFrom_append, dispatchedFor]
      by_cases hsame' : k' = k
      · subst hsame'
        exact hnext hk
      · have hn' : .registered i k w n ∈ f'.log := hlog ▸ List.mem_append_left _ hn
        have hnone : lettersFrom k' ((f.gateway.tend k' m).1.filter (·.1 = .ticket n)) = [] := by
          by_cases hk' : k' ∈ ids
          · have hnothing := h'.dispatchedFor_ne hn' hsame'
            rw [hnext hk'] at hnothing
            exact (List.append_eq_nil_iff.1 hnothing).2
          · rw [h.handed, if_neg hk']
            rfl
        rw [hnone, List.append_nil, hlog, dispatchedFor, historyOf_moved,
          if_neg (Ne.symm hsame'), dispatchedFor]

/-- A receipt that is handed to somebody else leaves the errands of a ticket alone. -/
theorem errandsFor_delivers {letter : Letter} {n : Nat} (hother : letter.waiter ≠ .ticket n)
    (post : List Letter) : (f.delivers letter post).errandsFor n = f.errandsFor n := by
  have hsame := f.gateway.handOver_handsOn letter.ledgerId letter.waiter letter.receipt
  have hwithout : ∀ v : Waiter, v ≠ .ticket n →
      (f.gateway.without v).errands.filter (·.1 == n) = f.gateway.errands.filter (·.1 == n) := by
    intro v hv
    cases v with
    | ticket m =>
      refine filter_eraseP_of_imp fun e he => ?_
      obtain rfl : e.1 = n := by simpa using he
      simpa using Ne.symm fun hm : m = e.1 => hv (congrArg Waiter.ticket hm)
    | watcher name view => rfl
    | escrow => rfl
  show List.filter _ (f.gateway.handOver _ _ _).errands = _
  rw [hsame.errands_eq, hwithout _ hother, errandsFor]

/-- So they are if a receipt is handed to somebody else. -/
theorem spared_delivers {first rest : List Letter} {letter : Letter} {k : String} {n : Nat}
    (hpost : f.post = first ++ letter :: rest) (hother : letter.waiter ≠ .ticket n) :
    Spared capacity k n f (f.delivers letter (first ++ rest)) := by
  refine ⟨errandsFor_delivers hother _, [], ?_, (List.append_nil _).symm⟩
  show List.filter _ (first ++ rest) = _
  rw [lettersFor, hpost, List.append_nil, List.filter_append, List.filter_append,
    List.filter_cons_of_neg (by simpa using hother)]

/-! ## What is due to a ticket -/

/-- What is due to a ticket that was registered for some work between some notes: the receipt
    that was held, or else the first that has come since. -/
def due? (capacity : Nat) (before after : List Note) (k : String) (w : WorkId) (n : Nat) :
    Option Confirmation :=
  History.award? capacity (movesOf before k ++ [.track w])
    (.register w (.ticket n) false :: movesOf after k) w

section
variable {before after : List Note} {i : Nat} {k : String} {w : WorkId} {n : Nat}

theorem movesOf_split (before after : List Note) (i : Nat) (k : String) (w : WorkId) (n : Nat) :
    movesOf (before ++ .registered i k w n :: after) k =
      (movesOf before k ++ [.track w]) ++ .register w (.ticket n) false :: movesOf after k := by
  have hcons : movesOf (.registered i k w n :: after) k =
      [.track w, .register w (.ticket n) false] ++ movesOf after k := by
    rw [movesOf, List.flatMap_cons, Note.moves, if_pos rfl]
    rfl
  rw [movesOf_append, hcons]
  simp

variable (h : InOrder ids capacity f) (hlog : f.log = before ++ .registered i k w n :: after)
include h hlog

/-- **A ticket has got exactly what is due to it.** -/
theorem InOrder.dispatchedFor_eq : dispatchedFor capacity f.log k n =
    (due? capacity before after k w n).toList.map fun c => ⟨k, .ticket n, c⟩ := by
  have hapart : MovesApart before ∧ MovesApart after := by
    have hall := h.apart
    rw [hlog] at hall
    constructor
    · exact fun k m hm => hall k m (List.mem_append_left _ hm)
    · exact fun k m hm => hall k m (List.mem_append_right _ (List.mem_cons_of_mem _ hm))
  have hbefore : ∀ v, (v, .ticket n) ∉ Move.registrations (movesOf before k ++ [.track w]) := by
    intro v hv
    have htrack : Move.registrations (movesOf before k ++ [.track w]) =
        Move.registrations (movesOf before k) := by
      simp [Move.registrations, Move.registration?]
    rw [htrack] at hv
    obtain ⟨j, hj⟩ := registered_of_mem hapart.1 hv
    exact (h.registered_once hlog).1 hj
  have hafter : ∀ v, (v, .ticket n) ∉ Move.registrations (movesOf after k) := by
    intro v hv
    obtain ⟨j, hj⟩ := registered_of_mem hapart.2 hv
    exact (h.registered_once hlog).2 hj
  rw [dispatchedFor, historyOf, hlog, movesOf_split, History.dispatched_award hbefore hafter,
    lettersFrom, List.map_map]
  rfl

theorem InOrder.dispatchedFor_le : (dispatchedFor capacity f.log k n).length ≤ 1 := by
  rw [h.dispatchedFor_eq hlog, List.length_map]
  exact Option.length_toList_le

end

/-- Whether a ticket that was registered for work of a ledger has something to wait for: a
    receipt was held when it was registered, or a scan of the ledger has obtained a
    confirmation of the work since. -/
def Due (capacity : Nat) (before since : List Note) (k : String) (w : WorkId) : Prop :=
  (∃ c, (historyOf capacity before k).tracker.Holds w c) ∨
    ∃ a, (w, a) ∈ History.since capacity (movesOf before k) (movesOf since k)

/-- What is due comes of a receipt or a confirmation. -/
theorem isSome_due? (capacity : Nat) (before after : List Note) (i : Nat) (k : String)
    (w : WorkId) (n : Nat) : (due? capacity before after k w n).isSome ↔
      Due capacity before (.registered i k w n :: after) k w := by
  have hmoves : movesOf (.registered i k w n :: after) k =
      .track w :: .register w (.ticket n) false :: movesOf after k := by
    rw [movesOf, List.flatMap_cons, Note.moves, if_pos rfl]
    rfl
  have htrack : (historyOf capacity before k).tracker.obtained? (.track w) = none := rfl
  rw [due?, History.isSome_award?, ← History.since_cons htrack, Due, hmoves, historyOf,
    History.of_concat]
  rfl

/-! ## Serving a ticket -/

/-- How the responses to a request go along with the receipt of its ticket. -/
inductive Served (capacity : Nat) (r : Request) (w : WorkId) (recent : Option UInt64) (k : String)
    (n : Nat) (f : Floor W) : List Response → Prop
  /-- what was handed out lies in the post -/
  | waiting : f.errandsFor n = [(n, .delivery (Delivery.ofRequest r).advanced true)] →
      f.lettersFor n = dispatchedFor capacity f.log k n →
      Served capacity r w recent k n f [r.pendingResponse w recent]
  /-- what was handed out was passed on -/
  | served {c : Confirmation} : f.errandsFor n = [] → f.lettersFor n = [] →
      dispatchedFor capacity f.log k n = [⟨k, .ticket n, c⟩] →
      Served capacity r w recent k n f [r.pendingResponse w recent, r.finalResponse c]

section
variable {r : Request} {w : WorkId} {recent : Option UInt64} {k : String} {n : Nat}
  {said : List Response}

/-- A ticket that is spared is served as before: a second receipt does not come. -/
theorem Served.spared (h : Served capacity r w recent k n f said)
    (hspared : Spared capacity k n f f') (hone : (dispatchedFor capacity f'.log k n).length ≤ 1) :
    Served capacity r w recent k n f' said := by
  obtain ⟨herrands, more, hletters, hdispatched⟩ := hspared
  cases h with
  | waiting he hl =>
    refine .waiting (herrands.trans he) ?_
    rw [hletters, hdispatched, hl]
  | served he hl hd =>
    have hnone : more = [] := by
      rw [hdispatched, hd] at hone
      simpa using hone
    refine .served (herrands.trans he) ?_ ?_
    · rw [hletters, hl, hnone, List.append_nil]
    · rw [hdispatched, hd, hnone, List.append_nil]

/-- The letter for a ticket makes the response that says how the work was decided. -/
theorem Served.delivers (h : Served capacity r w recent k n f said) {first rest : List Letter}
    {letter : Letter} (hpost : f.post = first ++ letter :: rest)
    (hletter : letter.waiter = .ticket n) (hone : (dispatchedFor capacity f.log k n).length ≤ 1) :
    Served capacity r w recent k n (f.delivers letter (first ++ rest)) (said ++
      f.gateway.responsesSince
        (f.gateway.handOver letter.ledgerId letter.waiter letter.receipt)) := by
  have hfor : f.lettersFor n = first.filter (·.waiter = .ticket n) ++
      letter :: rest.filter (·.waiter = .ticket n) := by
    rw [lettersFor, hpost, List.filter_append, List.filter_cons_of_pos (by simpa using hletter)]
  cases h with
  | served _ hl =>
    rw [hl] at hfor
    exact absurd hfor.symm (by simp)
  | waiting he hl =>
    -- this letter is the only one for the ticket
    rw [← hl, hfor] at hone
    have hnone : first.filter (·.waiter = .ticket n) = [] ∧
        rest.filter (·.waiter = .ticket n) = [] := by
      rw [← List.length_eq_zero_iff, ← List.length_eq_zero_iff]
      simp only [List.length_append, List.length_cons] at hone
      omega
    have hdispatched : dispatchedFor capacity f.log k n = [letter] := by
      rw [← hl, hfor, hnone.1, hnone.2, List.nil_append]
    have hledger : letter = ⟨k, .ticket n, letter.receipt⟩ := by
      have hmem : letter ∈ dispatchedFor capacity f.log k n := by simp [hdispatched]
      obtain ⟨d, -, rfl⟩ := List.mem_map.1 hmem
      rw [← hletter]
    have herrand : f.gateway.errand? n = some (.delivery (Delivery.ofRequest r).advanced true) := by
      rw [Gateway.errand?, ← List.head?_filter]
      show (f.errandsFor n).head?.map _ = _
      rw [he]
      rfl
    have hhand := Gateway.handOver_delivery herrand letter.ledgerId letter.receipt
    rw [← hletter] at hhand
    have hsaid : f.gateway.responsesSince
        (f.gateway.handOver letter.ledgerId letter.waiter letter.receipt) =
          [r.finalResponse letter.receipt] := by
      have hdropped : (f.gateway.dropErrand n).responses = f.gateway.responses := rfl
      rw [hhand, Gateway.responsesSince_ensuing hdropped]
      rfl
    rw [hsaid]
    refine .served ?_ ?_ (hdispatched.trans (congrArg (fun l => [l]) hledger))
    · show List.filter _ (f.gateway.handOver _ _ _).errands = []
      rw [hhand, Gateway.ensuing, List.append_nil, Gateway.dropErrand, filter_eraseP_self]
      show (f.errandsFor n).tail = []
      rw [he]
      rfl
    · show List.filter _ (first ++ rest) = []
      rw [List.filter_append, hnone.1, hnone.2, List.append_nil]

end

/-- Nothing is there for a ticket that was not registered yet. -/
theorem InOrder.unused (h : InOrder ids capacity f) (k : String) :
    f.errandsFor f.gateway.tickets = [] ∧ f.lettersFor f.gateway.tickets = [] ∧
      dispatchedFor capacity f.log k f.gateway.tickets = [] := by
  have hnot : ∀ {k c},
      (.ticket f.gateway.tickets, c) ∉ (historyOf capacity f.log k).dispatched := by
    intro k c hd
    obtain ⟨i, hi⟩ := h.registered hd
    exact absurd (h.lt_tickets hi) (Nat.lt_irrefl _)
  refine ⟨?_, ?_, ?_⟩
  · refine List.filter_eq_nil_iff.2 fun e he => ?_
    simpa using (h.errands e he).ne
  · refine List.filter_eq_nil_iff.2 fun letter hletter heq => ?_
    have hd := h.letters letter hletter
    rw [of_decide_eq_true heq] at hd
    exact hnot hd
  · refine List.map_eq_nil_iff.2 (List.filter_eq_nil_iff.2 ?_)
    rintro ⟨v, c⟩ hd heq
    obtain rfl : v = .ticket f.gateway.tickets := by simpa using heq
    exact hnot hd

/-- **When work is prepared its ticket is served**: at once, if a receipt is held. -/
theorem InOrder.served_prepare (h : InOrder ids capacity f) {r : Request} {i : Nat} {k : String}
    {w : WorkId} {recent : Option UInt64} (hk : k ∈ ids)
    (hgateway : f'.gateway = f.gateway.prepare (.delivery (.ofRequest r) true) k .id w recent)
    (hpost : f'.post = f.post) (hlog : f'.log = f.log ++ [.registered i k w f.gateway.tickets]) :
    Served capacity r w recent k f.gateway.tickets f' (f.gateway.responsesSince f'.gateway) := by
  obtain ⟨herrands, hletters, hdispatched⟩ := h.unused k
  obtain ⟨henrolled, -⟩ := f.gateway.enrolled_spec k w
  have hresponses : (f.gateway.enrolled k w).responses = f.gateway.responses := henrolled.responses
  have hdepth : (Delivery.ofRequest r).sequence + 1 ≤ (f.gateway.enrolled k w).maxDepth := by
    rw [henrolled.depth]
    exact h.depth
  have hhand : f.gateway.atHand? k w = (historyOf capacity f.log k).tracker.held? w := by
    rw [Gateway.atHand?, h.trackers, if_pos hk]
    rfl
  have hnext : dispatchedFor capacity f'.log k f.gateway.tickets =
      (f.gateway.atHand? k w).toList.map fun c => ⟨k, .ticket f.gateway.tickets, c⟩ := by
    rw [hlog, dispatchedFor_registered, if_pos rfl, hdispatched, hhand, List.nil_append]
  have hpost' : f'.lettersFor f.gateway.tickets = [] := by
    rw [lettersFor, hpost]
    exact hletters
  cases hheld : f.gateway.atHand? k w with
  | none =>
    rw [hheld] at hnext
    rw [Gateway.prepare_absent hdepth recent hheld] at hgateway
    have hsaid : f.gateway.responsesSince f'.gateway = [r.pendingResponse w recent] := by
      rw [hgateway, Gateway.responsesSince_ensuing hresponses]
      rfl
    rw [hsaid]
    refine .waiting ?_ (hpost'.trans hnext.symm)
    rw [errandsFor, hgateway, Gateway.ensuing, henrolled.errands, List.filter_append]
    show f.errandsFor f.gateway.tickets ++ _ = _
    rw [herrands]
    simp
  | some c =>
    rw [hheld] at hnext
    rw [Gateway.prepare_atHand hdepth recent hheld] at hgateway
    have hsaid : f.gateway.responsesSince f'.gateway =
        [r.pendingResponse w recent, r.finalResponse c] := by
      rw [hgateway, Gateway.responsesSince_ensuing hresponses]
      rfl
    rw [hsaid]
    refine .served ?_ hpost' hnext
    rw [errandsFor, hgateway, Gateway.ensuing, henrolled.errands, List.append_nil]
    exact herrands

end Floor

end LedgerGate
