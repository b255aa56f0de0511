/-
  The books of a floor: what its log is right about.

  * `historyOf`: the history of the tracker of a ledger, read off the log;
  * `Floor.InOrder`: the trackers of the gateway are those of their histories, every ticket was
    registered once, and whatever lies in the post was dispatched;
  * `Floor.Deals`: what a step does to the gateway, the post and the log, apart from handing a
    receipt over;
  * `Floor.inOrder_run`: **the books of a gateway with standard delegates are in order**, from
    its beginning on.
-/
import LedgerGate.Proofs.Delegate.Submission
import LedgerGate.Proofs.Gateway.Floor

namespace LedgerGate

open Receipt (Move History)

/-! ## The log -/

section
variable {log more : List Note} {k : String}

@[simp]
theorem movesOf_append (log more : List Note) (k : String) :
    movesOf (log ++ more) k = movesOf log k ++ movesOf more k :=
  List.flatMap_append

@[simp]
theorem movesOf_singleton (note : Note) (k : String) : movesOf [note] k = note.moves k := by
  simp [movesOf]

/-- Calls that were taken are no moves of trackers. -/
theorem movesOf_submitted (h : ∀ note ∈ more, ∃ i k w, note = .submitted i k w) (k : String) :
    movesOf more k = [] := by
  refine List.flatMap_eq_nil_iff.2 fun note hnote => ?_
  obtain ⟨i, k', w, rfl⟩ := h note hnote
  rfl

/-- The history of the tracker of a ledger. -/
def historyOf (capacity : Nat) (log : List Note) (k : String) : History Waiter :=
  .of capacity (movesOf log k)

/-- A history does not change when nothing is noted about its ledger. -/
theorem historyOf_append {capacity : Nat} (h : movesOf more k = []) :
    historyOf capacity (log ++ more) k = historyOf capacity log k := by
  rw [historyOf, movesOf_append, h, List.append_nil, historyOf]

theorem historyOf_moved (capacity : Nat) (log : List Note) (k k' : String) (m : Move Waiter) :
    historyOf capacity (log ++ [.moved k m]) k' =
      if k' = k then (historyOf capacity log k').after m else historyOf capacity log k' := by
  by_cases hk : k' = k
  · subst hk
    simp [historyOf, Note.moves, History.of_concat]
  · have hnone : movesOf [.moved k m] k' = [] := by simp [Note.moves, Ne.symm hk]
    rw [historyOf_append hnone, if_neg hk]

theorem historyOf_registered (capacity : Nat) (log : List Note) (i : Nat) (k k' : String)
    (w : WorkId) (n : Nat) : historyOf capacity (log ++ [.registered i k w n]) k' =
      if k' = k then ((historyOf capacity log k').after (.track w)).after
        (.register w (.ticket n) false) else historyOf capacity log k' := by
  by_cases hk : k' = k
  · subst hk
    have hmoves : movesOf (log ++ [.registered i k' w n]) k' =
        (movesOf log k' ++ [.track w]) ++ [.register w (.ticket n) false] := by simp [Note.moves]
    rw [historyOf, hmoves, History.of_concat, History.of_concat, if_pos rfl, historyOf]
  · have hnone : movesOf [.registered i k w n] k' = [] := by simp [Note.moves, Ne.symm hk]
    rw [historyOf_append hnone, if_neg hk]

/-- What was dispatched stays dispatched. -/
theorem mem_dispatched_append {capacity : Nat} {d : Waiter × Confirmation}
    (h : d ∈ (historyOf capacity log k).dispatched) (more : List Note) :
    d ∈ (historyOf capacity (log ++ more) k).dispatched := by
  rw [historyOf, movesOf_append]
  obtain ⟨ds, hds⟩ := History.dispatched_append capacity (movesOf log k) (movesOf more k)
  rw [hds]
  exact List.mem_append_left ds h

/-- No move that is noted by itself registers a ticket. -/
def MovesApart (log : List Note) : Prop :=
  ∀ k m, .moved k m ∈ log → ∀ v n, m.registration? ≠ some (v, .ticket n)

theorem MovesApart.append {log more : List Note} (h : MovesApart log) (h' : MovesApart more) :
    MovesApart (log ++ more) := by
  intro k m hm
  rcases List.mem_append.1 hm with hm | hm
  · exact h k m hm
  · exact h' k m hm

/-- So tickets are registered as it is noted of them. -/
theorem registered_of_mem {v : WorkId} {n : Nat} (happart : MovesApart log)
    (h : (v, .ticket n) ∈ Move.registrations (movesOf log k)) :
    ∃ i, Note.registered i k v n ∈ log := by
  obtain ⟨m, hm, hreg⟩ := List.mem_filterMap.1 h
  obtain ⟨note, hnote, hmem⟩ := List.mem_flatMap.1 hm
  cases note with
  | submitted i k' w => cases hmem
  | registered i k' w n' =>
    have hmoves : m ∈ if k' = k then [.track w, .register w (.ticket n') false] else [] := hmem
    split at hmoves
    · rename_i hk
      rcases List.mem_cons.1 hmoves with rfl | hmoves
      · cases hreg
      · rw [List.mem_singleton.1 hmoves] at hreg
        cases hreg
        exact ⟨i, hk ▸ hnote⟩
    · cases hmoves
  | moved k' m' =>
    have hmoves : m ∈ if k' = k then [m'] else [] := hmem
    split at hmoves
    · rw [List.mem_singleton.1 hmoves] at hreg
      exact absurd hreg (happart k' m' hnote v n)
    · cases hmoves

end

/-! ## Books in order -/

/-- No outcome of a request waits for a receipt, whatever the answers are. -/
def Progress.Ends (input : Option Input) : Progress → Prop
  | planning plan => plan.Yields fun o => ∀ route, o = .ok route →
      (route.delegate.apply route.ledger input).Yields Delegate.Outcome.Ends
  | working _ work => work.Yields Delegate.Outcome.Ends
  | _ => True

/-- Every gateway that is built follows one sequel at least. -/
theorem Gateway.Built.depth {W : Type} {c : Config} {fit : Fittings} {g : Gateway W}
    (h : Built c fit g) : 1 ≤ g.maxDepth := by
  have hvalid := h.valid
  unfold Config.validate at hvalid
  split at hvalid
  · cases hvalid
  · split_ifs at hvalid with _ _ hdepth
    have hpos : c.maxDepth.toNat ≠ 0 := fun hzero => hdepth (UInt32.toNat.inj hzero)
    rw [h.fresh]
    exact Nat.one_le_iff_ne_zero.2 hpos

namespace Floor

variable {W : Type} {f f' : Floor W} {ids : List String} {capacity : Nat}

/-- The books of a floor are in order: ledgers with trackers are those that are listed. -/
structure InOrder (ids : List String) (capacity : Nat) (f : Floor W) : Prop where
  /-- One sequel of a response is followed at least. -/
  depth : 1 ≤ f.gateway.maxDepth
  routing : Routing ids f.gateway.ledgers f.gateway.delegates
  /-- Every tracker is that of its history. -/
  trackers : ∀ k, f.gateway.trackerAt k =
    if k ∈ ids then some (historyOf capacity f.log k).tracker else none
  /-- Every ticket was registered once, and they were registered in their order. -/
  tickets : f.log.filterMap Note.ticket? = List.range f.gateway.tickets
  apart : MovesApart f.log
  /-- Only tickets that were registered are waited for. -/
  errands : ∀ e ∈ f.gateway.errands, e.1 < f.gateway.tickets
  /-- Whatever lies in the post was dispatched. -/
  letters : ∀ letter ∈ f.post,
    (letter.waiter, letter.receipt) ∈ (historyOf capacity f.log letter.ledgerId).dispatched
  /-- Only requests that were taken are noted. -/
  requests : ∀ note ∈ f.log, ∀ i, note.request? = some i → i < f.tasks.length
  ends : ∀ t ∈ f.tasks, t.progress.Ends t.input

namespace InOrder

variable (h : InOrder ids capacity f)
include h

theorem lt_tickets {i : Nat} {k : String} {w : WorkId} {n : Nat}
    (hn : .registered i k w n ∈ f.log) : n < f.gateway.tickets := by
  have hmem : n ∈ f.log.filterMap Note.ticket? := List.mem_filterMap.2 ⟨_, hn, rfl⟩
  rw [h.tickets] at hmem
  exact List.mem_range.1 hmem

/-- A ticket that got a receipt was registered, on the ledger of the receipt. -/
theorem registered {k : String} {n : Nat} {c : Confirmation}
    (hd : (.ticket n, c) ∈ (historyOf capacity f.log k).dispatched) :
    ∃ i, .registered i k c.workId n ∈ f.log := by
  obtain ⟨hregistered, -⟩ := (History.servedOnce_of capacity (movesOf f.log k)).origin _ _ hd
  exact registered_of_mem h.apart (History.mem_registered.1 hregistered)

/-- A ticket is noted nowhere but where it was registered. -/
theorem registered_once {before after : List Note} {i j : Nat} {k k' : String} {w w' : WorkId}
    {n : Nat} (hlog : f.log = before ++ .registered i k w n :: after) :
    .registered j k' w' n ∉ before ∧ .registered j k' w' n ∉ after := by
  have hnodup : (f.log.filterMap Note.ticket?).Nodup := h.tickets ▸ List.nodup_range
  have hafter : (Note.registered i k w n :: after).filterMap Note.ticket? =
      n :: after.filterMap Note.ticket? := rfl
  rw [hlog, List.filterMap_append, hafter] at hnodup
  have hnot := List.nodup_append.1 hnodup
  constructor
  · intro hmem
    exact hnot.2.2 n (List.mem_filterMap.2 ⟨_, hmem, rfl⟩) n List.mem_cons_self rfl
  · intro hmem
    exact (List.nodup_cons.1 hnot.2.1).1 (List.mem_filterMap.2 ⟨_, hmem, rfl⟩)

end InOrder

/-! ## What steps do -/

/-- What a step does to the gateway, the post and the log, apart from handing a receipt over. -/
inductive Deals (f f' : Floor W) : Prop
  /-- an outcome is handed on, or calls are taken -/
  | talk {more : List Note} : (∀ note ∈ more, ∃ i k w, note = .submitted i k w) →
      f'.log = f.log ++ more → f'.post = f.post →
      Gateway.HandsOn (fun _ => False) f.gateway f'.gateway → Deals f f'
  /-- a ticket is registered -/
  | enrol {i : Nat} {k : String} {w : WorkId} :
      f'.log = f.log ++ [.registered i k w f.gateway.tickets] → f'.post = f.post →
      Gateway.HandsOn (· = f.gateway.tickets) (f.gateway.enrolled k w) f'.gateway → Deals f f'
  /-- a tracker makes a move -/
  | tend {k : String} {m : Move Waiter} : (∀ v n, m.registration? ≠ some (v, .ticket n)) →
      f'.log = f.log ++ [.moved k m] →
      f'.post = f.post ++ lettersFrom k (f.gateway.tend k m).1 →
      f'.gateway = (f.gateway.tend k m).2 → Deals f f'

/-- Calls that were taken are no matter of the trackers. -/
theorem submitted_of_ofAnswer {i : Nat} {k : String} {q : Delegate.Question} {answer : q.Answer} :
    ∀ note ∈ Note.ofAnswer i k q answer, ∃ w, note = .submitted i k w := by
  unfold Note.ofAnswer
  split
  · rename_i workId
    intro note hnote
    exact ⟨workId, List.mem_singleton.1 hnote⟩
  · intro note hnote
    cases hnote

/-- What a request does when it gets on, if none of its outcomes waits for a receipt. -/
theorem deals_turn {i : Nat} {t : Task} {p : Progress} {g : Gateway W} {more : List Note}
    (hends : t.progress.Ends t.input) (ht : t.Turn f.gateway i p g more) :
    Deals f (f.turns i t p g more) := by
  have hquiet : Gateway.HandsOn (fun _ => False) f.gateway f.gateway :=
    (Gateway.Ensues.refl f.gateway).handsOn (.error (.own ""))
  have hconclude := Gateway.ensues_conclude f.gateway t.errand
  cases ht with
  | learn => exact .talk (by simp) rfl rfl hquiet
  | reject => exact .talk (by simp) rfl rfl ((hconclude _).handsOn (.error _))
  | route => exact .talk (by simp) rfl rfl hquiet
  | consult =>
    refine .talk (fun note hnote => ?_) rfl rfl hquiet
    obtain ⟨w, rfl⟩ := submitted_of_ofAnswer note hnote
    exact ⟨_, _, _, rfl⟩
  | settle hp =>
    rw [hp] at hends
    exact .talk (by simp) rfl rfl ((hconclude _).handsOn hends)
  | prepare => exact .enrol rfl rfl (Gateway.prepare_handsOn ..)

/-- **What a step does**, if it does not hand a receipt over. -/
theorem Step.deals (hends : ∀ t ∈ f.tasks, t.progress.Ends t.input) (hs : Step f f') :
    Deals f f' ∨ ∃ first letter rest, f.post = first ++ letter :: rest ∧
      f' = f.delivers letter (first ++ rest) := by
  cases hs with
  | take e operation input =>
    have hquiet : Gateway.HandsOn (fun _ => False) f.gateway f.gateway :=
      (Gateway.Ensues.refl f.gateway).handsOn (.error (.own ""))
    exact Or.inl (.talk (by simp) (List.append_nil _).symm rfl hquiet)
  | turn hi ht => exact Or.inl (deals_turn (hends _ (List.mem_of_getElem? hi)) ht)
  | tend k m hm => exact Or.inl (.tend hm rfl rfl rfl)
  | deliver hpost => exact Or.inr ⟨_, _, _, hpost, rfl⟩
  | aside ha =>
    exact Or.inl (.talk (by simp) (List.append_nil _).symm rfl ha.handsOn)

/-! ## Keeping the books -/

theorem Deals.log (hd : Deals f f') : ∃ more, f'.log = f.log ++ more := by
  cases hd with
  | talk _ hlog => exact ⟨_, hlog⟩
  | enrol hlog => exact ⟨_, hlog⟩
  | tend _ hlog => exact ⟨_, hlog⟩

/-- A move of a tracker is noted in its history. -/
theorem InOrder.trackers_moved (h : InOrder ids capacity f) {g : Gateway W} {k : String}
    {m : Move Waiter} (htrackers : ∀ k', g.trackerAt k' =
      if k' = k then (f.gateway.trackerAt k).map fun t => (t.after m).1
      else f.gateway.trackerAt k') (k' : String) :
    g.trackerAt k' =
      if k' ∈ ids then some (historyOf capacity (f.log ++ [.moved k m]) k').tracker else none := by
  rw [htrackers, historyOf_moved, h.trackers k', h.trackers k]
  by_cases hk : k' = k
  · subst hk
    by_cases hmem : k' ∈ ids
    · simp [hmem, History.after]
    · simp [hmem]
  · simp [hk]

/-- So is the registration of a ticket. -/
theorem InOrder.trackers_registered (h : InOrder ids capacity f) {g : Gateway W} {i : Nat}
    {k : String} {w : WorkId} {n : Nat} (htrackers : ∀ k', g.trackerAt k' =
      if k' = k then (f.gateway.trackerAt k).map fun t =>
        ((t.after (.track w)).1.after (.register w (.ticket n) false)).1
      else f.gateway.trackerAt k') (k' : String) :
    g.trackerAt k' = if k' ∈ ids then
      some (historyOf capacity (f.log ++ [.registered i k w n]) k').tracker else none := by
  rw [htrackers, historyOf_registered, h.trackers k', h.trackers k]
  by_cases hk : k' = k
  · subst hk
    by_cases hmem : k' ∈ ids
    · simp [hmem, History.after]
    · simp [hmem]
  · simp [hk]

/-- Books stay in order when outcomes are handed on, calls are taken, or letters leave the
    post. -/
theorem InOrder.narrows (h : InOrder ids capacity f) {more : List Note}
    (hsame : Gateway.Narrows f.gateway f'.gateway)
    (hmore : ∀ note ∈ more, ∃ i k w, note = .submitted i k w) (hlog : f'.log = f.log ++ more)
    (hpost : f'.post ⊆ f.post)
    (hrequests : ∀ note ∈ f'.log, ∀ i, note.request? = some i → i < f'.tasks.length)
    (hends : ∀ t ∈ f'.tasks, t.progress.Ends t.input) : InOrder ids capacity f' := by
  refine ⟨?_, ?_, ?_, ?_, ?_, ?_, ?_, hrequests, hends⟩
  · rw [hsame.depth]
    exact h.depth
  · rw [hsame.ledgers, hsame.delegates]
    exact h.routing
  · intro k
    rw [hsame.trackers, h.trackers, hlog, historyOf_append (movesOf_submitted hmore k)]
  · have hnotickets : more.filterMap Note.ticket? = [] := by
      refine List.filterMap_eq_nil_iff.2 fun note hnote => ?_
      obtain ⟨i, k, w, rfl⟩ := hmore note hnote
      rfl
    rw [hlog, List.filterMap_append, hnotickets, List.append_nil, h.tickets, hsame.tickets]
  · rw [hlog]
    refine h.apart.append fun k m hm => ?_
    obtain ⟨i, k', w, hnote⟩ := hmore _ hm
    cases hnote
  · intro e he
    rw [hsame.tickets]
    exact h.errands e (hsame.errands he)
  · intro letter hletter
    rw [hlog]
    exact mem_dispatched_append (h.letters letter (hpost hletter)) more

/-- Books stay in order when a ticket is registered. -/
theorem InOrder.enrols (h : InOrder ids capacity f) {i : Nat} {k : String} {w : WorkId}
    (hlog : f'.log = f.log ++ [.registered i k w f.gateway.tickets]) (hpost : f'.post = f.post)
    (hsame : Gateway.HandsOn (· = f.gateway.tickets) (f.gateway.enrolled k w) f'.gateway)
    (hrequests : ∀ note ∈ f'.log, ∀ i, note.request? = some i → i < f'.tasks.length)
    (hends : ∀ t ∈ f'.tasks, t.progress.Ends t.input) : InOrder ids capacity f' := by
  obtain ⟨henrolled, htrackers⟩ := f.gateway.enrolled_spec k w
  obtain ⟨waiting, herrands, hnone⟩ := hsame.errands
  have htickets : f'.gateway.tickets = f.gateway.tickets + 1 :=
    hsame.tickets.trans henrolled.tickets
  refine ⟨?_, ?_, ?_, ?_, ?_, ?_, ?_, hrequests, hends⟩
  · rw [hsame.depth, henrolled.depth]
    exact h.depth
  · rw [hsame.ledgers, hsame.delegates, henrolled.ledgers, henrolled.delegates]
    exact h.routing
  · intro k'
    rw [hsame.trackers, hlog]
    exact h.trackers_registered htrackers k'
  · rw [hlog, htickets, List.filterMap_append, h.tickets, List.range_succ]
    rfl
  · rw [hlog]
    exact h.apart.append fun k' m hm => by cases List.mem_singleton.1 hm
  · intro e he
    rw [herrands, henrolled.errands] at he
    rw [htickets]
    rcases List.mem_append.1 he with he | he
    · exact Nat.lt_succ_of_lt (h.errands e he)
    · rw [hnone e he]
      exact Nat.lt_succ_self _
  · intro letter hletter
    rw [hpost] at hletter
    rw [hlog]
    exact mem_dispatched_append (h.letters letter hletter) _

/-- Books stay in order when a tracker makes a move. -/
theorem InOrder.tends (h : InOrder ids capacity f) {k : String} {m : Move Waiter}
    (hm : ∀ v n, m.registration? ≠ some (v, .ticket n)) (hlog : f'.log = f.log ++ [.moved k m])
    (hpost : f'.post = f.post ++ lettersFrom k (f.gateway.tend k m).1)
    (hgateway : f'.gateway = (f.gateway.tend k m).2)
    (hrequests : ∀ note ∈ f'.log, ∀ i, note.request? = some i → i < f'.tasks.length)
    (hends : ∀ t ∈ f'.tasks, t.progress.Ends t.input) : InOrder ids capacity f' := by
  obtain ⟨hsame, htrackers, hdispatched⟩ := f.gateway.tend_spec k m
  rw [← hgateway] at hsame htrackers
  refine ⟨?_, ?_, ?_, ?_, ?_, ?_, ?_, hrequests, hends⟩
  · rw [hsame.depth]
    exact h.depth
  · rw [hsame.ledgers, hsame.delegates]
    exact h.routing
  · intro k'
    rw [hlog]
    exact h.trackers_moved htrackers k'
  · rw [hlog, List.filterMap_append, h.tickets, hsame.tickets]
    exact List.append_nil _
  · rw [hlog]
    refine h.apart.append fun k' m' hm' => ?_
    cases List.mem_singleton.1 hm'
    exact hm
  · intro e he
    rw [hsame.errands] at he
    rw [hsame.tickets]
    exact h.errands e he
  · intro letter hletter
    rw [hpost] at hletter
    rw [hlog]
    rcases List.mem_append.1 hletter with hletter | hletter
    · exact mem_dispatched_append (h.letters letter hletter) _
    · -- what the tracker hands out now is what its history dispatches with this move
      obtain ⟨d, hd, rfl⟩ := List.mem_map.1 hletter
      rw [hdispatched, h.trackers k] at hd
      rw [historyOf_moved, if_pos rfl]
      split at hd
      · exact List.mem_append_right _ hd
      · cases hd

/-- Whatever a step deals with, the books stay in order. -/
theorem InOrder.deals (h : InOrder ids capacity f) (hd : Deals f f')
    (hrequests : ∀ note ∈ f'.log, ∀ i, note.request? = some i → i < f'.tasks.length)
    (hends : ∀ t ∈ f'.tasks, t.progress.Ends t.input) : InOrder ids capacity f' := by
  cases hd with
  | talk hmore hlog hpost hsame =>
    exact h.narrows hsame.narrows hmore hlog (by rw [hpost]; exact fun _ => id) hrequests hends
  | enrol hlog hpost hsame => exact h.enrols hlog hpost hsame hrequests hends
  | tend hm hlog hpost hgateway => exact h.tends hm hlog hpost hgateway hrequests hends

/-- However a request gets on, no outcome of it waits for a receipt. -/
theorem ends_turn {g g' : Gateway W} {i : Nat} {t : Task} {p : Progress} {more : List Note}
    (hends : t.progress.Ends t.input) (ht : t.Turn g i p g' more) : p.Ends t.input := by
  cases ht with
  | learn answer hp =>
    rw [hp] at hends
    exact hends answer
  | reject => trivial
  | route hp =>
    rw [hp] at hends
    exact hends _ rfl
  | consult answer hp =>
    rw [hp] at hends
    exact hends answer
  | settle => trivial
  | prepare => trivial

/-- Whatever a step does, no outcome of a request waits for a receipt. -/
theorem InOrder.ends_step (h : InOrder ids capacity f) (hs : Step f f') :
    ∀ t ∈ f'.tasks, t.progress.Ends t.input := by
  cases hs with
  | take e operation input =>
    intro t ht
    rcases List.mem_append.1 ht with ht | ht
    · exact h.ends t ht
    · rw [List.mem_singleton.1 ht]
      exact Route.ends_plan h.routing
  | turn hi hturn =>
    intro t ht
    rcases List.mem_or_eq_of_mem_set ht with ht | rfl
    · exact h.ends t ht
    · have hends := ends_turn (h.ends _ (List.mem_of_getElem? hi)) hturn
      exact hends
  | tend => exact h.ends
  | deliver =>
    intro t ht
    obtain ⟨t₀, ht₀, rfl⟩ := List.mem_map.1 ht
    exact h.ends t₀ ht₀
  | aside => exact h.ends

/-- When a request gets on, nothing is noted of others. -/
theorem request_of_turn {g g' : Gateway W} {i : Nat} {t : Task} {p : Progress} {more : List Note}
    (ht : t.Turn g i p g' more) : ∀ note ∈ more, note.request? = some i := by
  cases ht with
  | consult =>
    intro note hnote
    obtain ⟨w, rfl⟩ := submitted_of_ofAnswer note hnote
    rfl
  | prepare =>
    intro note hnote
    rw [List.mem_singleton.1 hnote]
    rfl
  | _ => exact fun note hnote => by cases hnote

/-- Whatever a step does, only requests that were taken are noted. -/
theorem InOrder.requests_step (h : InOrder ids capacity f) (hs : Step f f') :
    ∀ note ∈ f'.log, ∀ i, note.request? = some i → i < f'.tasks.length := by
  intro note hnote j hj
  cases hs with
  | take =>
    rw [takes, List.length_append]
    exact Nat.lt_add_right 1 (h.requests note hnote j hj)
  | turn hi hturn =>
    rw [turns, List.length_set]
    rcases List.mem_append.1 hnote with hnote | hnote
    · exact h.requests note hnote j hj
    · obtain rfl : _ = j := Option.some.inj ((request_of_turn hturn note hnote).symm.trans hj)
      exact (List.getElem?_eq_some_iff.1 hi).1
  | tend =>
    rcases List.mem_append.1 hnote with hnote | hnote
    · exact h.requests note hnote j hj
    · rw [List.mem_singleton.1 hnote] at hj
      cases hj
  | deliver =>
    rw [delivers, List.length_map]
    exact h.requests note hnote j hj
  | aside => exact h.requests note hnote j hj

/-- **Every step keeps the books in order.** -/
theorem InOrder.step (h : InOrder ids capacity f) (hs : Step f f') : InOrder ids capacity f' := by
  have hrequests := h.requests_step hs
  have hends := h.ends_step hs
  rcases hs.deals h.ends with hd | ⟨first, letter, rest, hpost, rfl⟩
  · exact h.deals hd hrequests hends
  · have hless : (f.delivers letter (first ++ rest)).post ⊆ f.post := by
      intro l hl
      rw [hpost]
      rcases List.mem_append.1 hl with hl | hl
      · exact List.mem_append_left _ hl
      · exact List.mem_append_right _ (List.mem_cons_of_mem _ hl)
    exact h.narrows (f.gateway.narrows_handOver _ _ _) (by simp)
      (List.append_nil _).symm hless hrequests hends

/-- The books are in order when a gateway with standard delegates is built. -/
theorem inOrder_opened {c : Config} {fit : Fittings} {w : W} {g : Gateway W}
    (hbuild : Gateway.build c fit w = .ok g) (hstandard : fit.delegates = []) :
    InOrder g.ledgerIds c.recentReceipts.toNat (opened g) := by
  have hb := Gateway.built_of hbuild
  have hempty : ∀ {α : Type} {P : α → Prop}, ∀ x ∈ ([] : List α), P x := fun x hx => by cases hx
  refine ⟨hb.depth, hb.routing hstandard, hb.trackerAt, ?_, ?_, ?_, hempty, hempty, hempty⟩
  · show [] = List.range g.tickets
    rw [hb.fresh]
    rfl
  · exact fun k m hm => by cases hm
  · show ∀ e ∈ g.errands, _
    rw [hb.fresh]
    exact hempty

/-- **The books of a gateway with standard delegates are in order**, whatever happens. -/
theorem inOrder_run {c : Config} {fit : Fittings} {w : W} {g : Gateway W}
    (hbuild : Gateway.build c fit w = .ok g) (hstandard : fit.delegates = []) (hrun : Run g f) :
    InOrder g.ledgerIds c.recentReceipts.toNat f := by
  induction hrun with
  | refl => exact inOrder_opened hbuild hstandard
  | tail _ hs ih => exact ih.step hs

end Floor

end LedgerGate
