/-
  Every response of a gateway is said to one request.

  A floor tells which responses were said to which request.  Together these are the responses
  that the gateway has sent, and each request got its own in the order in which they were
  sent: none is said twice, and none to nobody.

  * `Gateway.Extends`: a gateway does not take a response back;
  * `Floor.Accounted`: what the requests were told is what the gateway has sent, and whoever
    waits for a receipt is a request;
  * `Floor.accounted_run`: **the responses of a gateway with standard delegates are accounted
    for**, from its beginning on.
-/
import LedgerGate.Proofs.Gateway.Bookkeeping

namespace LedgerGate

/-! ## Responses that are added -/

namespace Gateway

variable {W : Type} {g g' : Gateway W}

/-- A gateway has sent what it had sent before, and more. -/
def Extends (g g' : Gateway W) : Prop := g'.responses = g.responses ++ g.responsesSince g'

theorem Extends.of_append {more : List Response} (h : g'.responses = g.responses ++ more) :
    Extends g g' := by
  rw [Extends, responsesSince, h, List.drop_left]

theorem Extends.of_same {g'' : Gateway W} (h : g'.responses = g.responses) (h' : Extends g' g'') :
    Extends g g'' :=
  .of_append (h'.trans (by rw [h]))

theorem Ensues.extends {outcome : Except Fault (Reply Sequel)} (h : Ensues outcome g g') :
    Extends g g' := by
  obtain ⟨told, waiting, rfl, -⟩ := h
  exact .of_append (g.responses_ensuing told waiting)

theorem extends_conclude (g : Gateway W) (e : Errand) (outcome : Except Fault (Reply Sequel)) :
    Extends g (g.conclude e outcome) :=
  (ensues_conclude g e outcome).extends

theorem extends_prepare (g : Gateway W) (e : Errand) (k : String) (mode : ReplyMode)
    (workId : WorkId) (recent : Option UInt64) : Extends g (g.prepare e k mode workId recent) := by
  have hsame : (g.enrolled k workId).responses = g.responses :=
    (g.enrolled_spec k workId).1.responses
  rw [prepare_eq]
  split
  · exact .of_same hsame (extends_conclude _ _ _)
  · exact .of_append (hsame.trans (List.append_nil _).symm)
  · exact .of_same hsame (extends_conclude _ _ _)
  · exact .of_same hsame (extends_conclude _ _ _)

/-- A receipt that is handed over is answered only if it was waited for. -/
theorem extends_handOver (g : Gateway W) (k : String) (w : Waiter) (c : Confirmation) :
    Extends g (g.handOver k w c) ∧ (g.responsesSince (g.handOver k w c) = [] ∨
      ∃ e ∈ g.errands, w = .ticket e.1) := by
  have hquiet : Aside g (g.handOver k w c) → Extends g (g.handOver k w c) ∧
      g.responsesSince (g.handOver k w c) = [] := by
    intro haside
    have hsame := haside.responses
    exact ⟨.of_append (hsame.trans (List.append_nil _).symm), by
      rw [responsesSince, hsame, List.drop_length]⟩
  cases w with
  | ticket n =>
    unfold handOver
    dsimp only
    split
    · rename_i e he
      obtain ⟨x, hx, -⟩ := Option.map_eq_some_iff.1 he
      have hn : x.1 = n := by simpa using List.find?_some hx
      have hsays : Extends (g.dropErrand n) ((g.dropErrand n).conclude e (Sequel.ofReceipt c)) :=
        extends_conclude _ _ _
      exact ⟨.of_same rfl hsays, Or.inr ⟨x, List.mem_of_find?_eq_some hx, by rw [hn]⟩⟩
    · exact ⟨.of_append (List.append_nil _).symm, Or.inl (responsesSince_self g)⟩
  | watcher name view =>
    obtain ⟨hextends, hnone⟩ := hquiet (g.handOver_aside k (by simp) c)
    exact ⟨hextends, Or.inl hnone⟩
  | escrow =>
    obtain ⟨hextends, hnone⟩ := hquiet (g.handOver_aside k (by simp) c)
    exact ⟨hextends, Or.inl hnone⟩

end Gateway

/-! ## The accounts of a floor -/

namespace Floor

variable {W : Type} {f f' : Floor W} {ids : List String} {capacity : Nat}

/-- The waiters that wait for receipts on behalf of some requests. -/
def waiters (tasks : List Task) : List Waiter := tasks.flatMap (·.progress.waiter?.toList)

/-- The responses that were said to some requests. -/
def saidTo (tasks : List Task) : List Response := tasks.flatMap (·.said)

/-- What was said to the requests is what the gateway has sent. -/
structure Accounted (f : Floor W) : Prop where
  /-- All responses were said to one request each, -/
  said : f.gateway.responses.Perm (saidTo f.tasks)
  /-- and to each in the order in which they were sent. -/
  inTurn : ∀ t ∈ f.tasks, t.said.Sublist f.gateway.responses
  /-- Whoever waits for a receipt is a request. -/
  awaited : ∀ e ∈ f.gateway.errands, .ticket e.1 ∈ waiters f.tasks
  /-- No two wait under one ticket, and only tickets that were registered are waited for. -/
  apart : (waiters f.tasks).Nodup
  below : ∀ n, .ticket n ∈ waiters f.tasks → n < f.gateway.tickets

/-! ## Steps -/

/-- One request has changed, and the others are as they were. -/
theorem perm_set {tasks : List Task} {i : Nat} {t : Task} (ht : tasks[i]? = some t) (t' : Task) :
    ∃ others, tasks.Perm (t :: others) ∧ (tasks.set i t').Perm (t' :: others) := by
  obtain ⟨hi, rfl⟩ := List.getElem?_eq_some_iff.1 ht
  exact ⟨tasks.eraseIdx i, (List.getElem_cons_eraseIdx_perm hi).symm,
    List.set_perm_cons_eraseIdx hi t'⟩

/-- What is told to one request is added to what was said to all. -/
theorem perm_told {tasks tasks' others : List Task} {t t' : Task} {sent since : List Response}
    (hsaid : sent.Perm (saidTo tasks)) (hbefore : tasks.Perm (t :: others))
    (hafter : tasks'.Perm (t' :: others)) (htold : t'.said = t.said ++ since) :
    (sent ++ since).Perm (saidTo tasks') := by
  have hsaid' : (saidTo tasks').Perm ((t.said ++ since) ++ saidTo others) :=
    htold ▸ hafter.flatMap_right _
  calc sent ++ since
    _ |>.Perm ((t.said ++ saidTo others) ++ since) :=
        (hsaid.trans (hbefore.flatMap_right _)).append_right _
    _ |>.Perm ((t.said ++ since) ++ saidTo others) := by
        rw [List.append_assoc, List.append_assoc]
        exact List.perm_append_comm.append_left _
    _ |>.Perm (saidTo tasks') := hsaid'.symm

/-- If all wait for different receipts, nobody else waits for that of a request. -/
theorem alone {tasks others : List Task} {t : Task} {w : Waiter} (h : (waiters tasks).Nodup)
    (hperm : tasks.Perm (t :: others)) (ht : t.progress.waiter? = some w) :
    ∀ t' ∈ others, t'.progress.waiter? ≠ some w := by
  intro t' ht' hsame
  have hwaiters : (waiters tasks).Perm (t.progress.waiter?.toList ++ waiters others) :=
    hperm.flatMap_right _
  rw [ht] at hwaiters
  have hmem : w ∈ waiters others :=
    List.mem_flatMap.2 ⟨t', ht', by rw [hsame]; exact List.mem_singleton_self w⟩
  exact (List.nodup_cons.1 (hwaiters.nodup_iff.1 h)).1 hmem

/-- A request that gets on was not waiting.  What it is told is added to what was sent, and
    then it waits under the next ticket or not at all. -/
theorem waiter_of_turn {g g' : Gateway W} {i : Nat} {t : Task} {p : Progress} {more : List Note}
    (hends : t.progress.Ends t.input) (ht : t.Turn g i p g' more) :
    t.progress.waiter? = none ∧ Gateway.Extends g g' ∧
      ((p.waiter? = none ∧ g'.errands = g.errands ∧ g'.tickets = g.tickets) ∨
        (p = .prepared g.tickets ∧ g'.tickets = g.tickets + 1 ∧
          ∀ e ∈ g'.errands, e ∈ g.errands ∨ e.1 = g.tickets)) := by
  have hsame : Gateway.Extends g g := .of_append (List.append_nil _).symm
  cases ht with
  | learn answer hp => exact ⟨by rw [hp]; rfl, hsame, Or.inl ⟨rfl, rfl, rfl⟩⟩
  | route hp => exact ⟨by rw [hp]; rfl, hsame, Or.inl ⟨rfl, rfl, rfl⟩⟩
  | consult answer hp => exact ⟨by rw [hp]; rfl, hsame, Or.inl ⟨rfl, rfl, rfl⟩⟩
  | @reject fault hp =>
    have hsays : Gateway.HandsOn (fun _ => False) g (g.conclude t.errand (.error fault)) :=
      (g.ensues_conclude _ _).handsOn (.error fault)
    exact ⟨by rw [hp]; rfl, g.extends_conclude _ _, Or.inl ⟨rfl, hsays.errands_eq, hsays.tickets⟩⟩
  | settle hp =>
    rw [hp] at hends
    have hsays := (Gateway.ensues_conclude g t.errand _).handsOn hends
    exact ⟨by rw [hp]; rfl, g.extends_conclude _ _, Or.inl ⟨rfl, hsays.errands_eq, hsays.tickets⟩⟩
  | @prepare k mode workId recent hp =>
    obtain ⟨henrolled, -⟩ := g.enrolled_spec k workId
    have hprepared := g.prepare_handsOn t.errand k mode workId recent
    obtain ⟨waiting, herrands, hdue⟩ := hprepared.errands
    refine ⟨by rw [hp]; rfl, g.extends_prepare _ _ _ _ _,
      Or.inr ⟨rfl, hprepared.tickets.trans henrolled.tickets, fun e he => ?_⟩⟩
    rw [herrands, henrolled.errands] at he
    exact (List.mem_append.1 he).imp_right (hdue e)

/-- When a request gets on the others are told nothing. -/
theorem Accounted.turn (h : Accounted f) {i : Nat} {t : Task} {p : Progress} {g : Gateway W}
    {more : List Note} (ht : f.tasks[i]? = some t) (hends : t.progress.Ends t.input)
    (hturn : t.Turn f.gateway i p g more) : Accounted (f.turns i t p g more) := by
  obtain ⟨hidle, hextends, hwaits⟩ := waiter_of_turn hends hturn
  let t' : Task := { t with progress := p, said := t.said ++ f.gateway.responsesSince g }
  obtain ⟨others, hbefore, hafter⟩ := perm_set ht t'
  have hwaiters : (waiters f.tasks).Perm (t.progress.waiter?.toList ++ waiters others) :=
    hbefore.flatMap_right _
  have hwaiters' : (waiters (f.tasks.set i t')).Perm (p.waiter?.toList ++ waiters others) :=
    hafter.flatMap_right _
  rw [hidle] at hwaiters
  constructor
  · show g.responses.Perm (saidTo (f.tasks.set i t'))
    rw [hextends]
    exact perm_told h.said hbefore hafter rfl
  · intro t₀ ht₀
    show t₀.said.Sublist g.responses
    rw [hextends]
    rcases List.mem_or_eq_of_mem_set ht₀ with ht₀ | rfl
    · exact (h.inTurn t₀ ht₀).trans (List.sublist_append_left _ _)
    · exact (h.inTurn t (List.mem_of_getElem? ht)).append (List.Sublist.refl _)
  · intro e he
    refine hwaiters'.mem_iff.2 (List.mem_append.2 ?_)
    rcases hwaits with ⟨hp, herrands, -⟩ | ⟨rfl, -, herrands⟩
    · have hmem : e ∈ f.gateway.errands := by rw [← herrands]; exact he
      exact Or.inr (hwaiters.mem_iff.1 (h.awaited e hmem))
    · rcases herrands e he with he | he
      · exact Or.inr (hwaiters.mem_iff.1 (h.awaited e he))
      · rw [he]
        exact Or.inl List.mem_cons_self
  · refine hwaiters'.nodup_iff.2 ?_
    have hnodup := hwaiters.nodup_iff.1 h.apart
    rcases hwaits with ⟨hp, -⟩ | ⟨rfl, -⟩
    · rw [hp]
      exact hnodup
    · refine List.nodup_cons.2 ⟨fun hmem => ?_, hnodup⟩
      exact absurd (h.below _ (hwaiters.mem_iff.2 hmem)) (lt_irrefl _)
  · intro n hn
    show n < g.tickets
    have hmem := hwaiters'.mem_iff.1 hn
    rcases hwaits with ⟨hp, -, htickets⟩ | ⟨rfl, htickets, -⟩
    · rw [hp] at hmem
      rw [htickets]
      exact h.below n (hwaiters.mem_iff.2 hmem)
    · rw [htickets]
      rcases List.mem_append.1 hmem with hmem | hmem
      · cases List.mem_singleton.1 hmem
        exact Nat.lt_succ_self _
      · exact Nat.lt_succ_of_lt (h.below n (hwaiters.mem_iff.2 hmem))

/-- Whoever waits goes on waiting when others hear of a receipt. -/
theorem waiters_hears (tasks : List Task) (w : Waiter) (more : List Response) :
    waiters (tasks.map (·.hears w more)) = waiters tasks := by
  rw [waiters, List.flatMap_map]
  rfl

/-- What is said when a receipt is handed over is heard by one request, if it is waited for. -/
theorem Accounted.perm_hears (h : Accounted f) {w : Waiter} {e : Nat × Errand}
    (he : e ∈ f.gateway.errands) (hw : w = .ticket e.1) (since : List Response) :
    (f.gateway.responses ++ since).Perm (saidTo (f.tasks.map (·.hears w since))) := by
  obtain ⟨t, ht, hmem⟩ := List.mem_flatMap.1 (h.awaited e he)
  have hwaits : t.progress.waiter? = some w := by
    rw [hw]
    exact Option.mem_toList.1 hmem
  obtain ⟨before, after, htasks⟩ := List.append_of_mem ht
  have hbefore : f.tasks.Perm (t :: (before ++ after)) := htasks ▸ List.perm_middle
  have hothers : (before ++ after).map (·.hears w since) = before ++ after := by
    refine (List.map_congr_left fun t' ht' => ?_).trans (List.map_id _)
    rw [Task.hears, if_neg (alone h.apart hbefore hwaits t' ht')]
    rfl
  have hafter : (f.tasks.map (·.hears w since)).Perm (t.hears w since :: (before ++ after)) := by
    have hmap := hbefore.map (·.hears w since)
    rwa [List.map_cons, hothers] at hmap
  have htold : (t.hears w since).said = t.said ++ since := if_pos hwaits
  exact perm_told h.said hbefore hafter htold

/-- **A receipt that is handed over** is news for one request at most. -/
theorem Accounted.deliver (h : Accounted f) (letter : Letter) (post : List Letter) :
    Accounted (f.delivers letter post) := by
  let g := f.gateway.handOver letter.ledgerId letter.waiter letter.receipt
  let since := f.gateway.responsesSince g
  obtain ⟨hextends, hanswered⟩ :=
    f.gateway.extends_handOver letter.ledgerId letter.waiter letter.receipt
  have hextends : g.responses = f.gateway.responses ++ since := hextends
  have hnarrows := f.gateway.narrows_handOver letter.ledgerId letter.waiter letter.receipt
  have hwaiters : waiters (f.delivers letter post).tasks = waiters f.tasks :=
    waiters_hears f.tasks letter.waiter since
  constructor
  · show g.responses.Perm (saidTo (f.tasks.map (·.hears letter.waiter since)))
    rw [hextends]
    rcases hanswered with hnone | ⟨e, he, hw⟩
    · have hnone : since = [] := hnone
      have hsaid : saidTo (f.tasks.map (·.hears letter.waiter [])) = saidTo f.tasks := by
        simp [saidTo, Task.hears]
      rw [hnone, hsaid, List.append_nil]
      exact h.said
    · exact h.perm_hears he hw since
  · intro t ht
    show t.said.Sublist g.responses
    rw [hextends]
    obtain ⟨t₀, ht₀, rfl⟩ := List.mem_map.1 ht
    unfold Task.hears
    split
    · exact (h.inTurn t₀ ht₀).append (List.Sublist.refl _)
    · exact (h.inTurn t₀ ht₀).trans (List.sublist_append_left _ _)
  · intro e he
    rw [hwaiters]
    exact h.awaited e (hnarrows.errands he)
  · rw [hwaiters]
    exact h.apart
  · intro n hn
    rw [hwaiters] at hn
    show n < g.tickets
    rw [hnarrows.tickets]
    exact h.below n hn

/-- Nothing that requests depend on has changed. -/
theorem Accounted.same (h : Accounted f) (hsame : Gateway.SameDealings f.gateway f'.gateway)
    (htasks : f'.tasks = f.tasks) : Accounted f' := by
  constructor
  · rw [hsame.responses, htasks]
    exact h.said
  · rw [hsame.responses, htasks]
    exact h.inTurn
  · rw [hsame.errands, htasks]
    exact h.awaited
  · rw [htasks]
    exact h.apart
  · rw [hsame.tickets, htasks]
    exact h.below

/-- A request that comes in has been told nothing, and does not wait. -/
theorem Accounted.take (h : Accounted f) (e : Errand) (operation : String)
    (input : Option Input) : Accounted (f.takes e operation input) := by
  have hsaid : saidTo (f.takes e operation input).tasks = saidTo f.tasks := by
    simp [saidTo, takes]
  have hwaiters : waiters (f.takes e operation input).tasks = waiters f.tasks := by
    simp [waiters, takes, Progress.waiter?]
  constructor
  · rw [hsaid]
    exact h.said
  · intro t ht
    rcases List.mem_append.1 ht with ht | ht
    · exact h.inTurn t ht
    · rw [List.mem_singleton.1 ht]
      exact List.nil_sublist _
  · rw [hwaiters]
    exact h.awaited
  · rw [hwaiters]
    exact h.apart
  · rw [hwaiters]
    exact h.below

/-- **Every step accounts for the responses that it makes the gateway send.** -/
theorem Accounted.step (h : Accounted f) (hends : ∀ t ∈ f.tasks, t.progress.Ends t.input)
    (hs : Step f f') : Accounted f' := by
  cases hs with
  | take e operation input => exact h.take e operation input
  | turn ht hturn => exact h.turn ht (hends _ (List.mem_of_getElem? ht)) hturn
  | tend k m => exact h.same (f.gateway.tend_spec k m).1 rfl
  | deliver => exact h.deliver _ _
  | aside ha => exact h.same ha.toSameDealings rfl

/-- A gateway that was built has sent nothing. -/
theorem accounted_opened {c : Config} {fit : Fittings} {w : W} {g : Gateway W}
    (hbuild : Gateway.build c fit w = .ok g) : Accounted (opened g) := by
  have hfresh := (Gateway.built_of hbuild).fresh
  refine ⟨?_, fun t ht => (by cases ht), fun e he => ?_, List.nodup_nil,
    fun n hn => (by cases hn)⟩
  · show g.responses.Perm []
    rw [hfresh]
    exact .refl _
  · have he : e ∈ g.errands := he
    rw [hfresh] at he
    cases he

/-- **The responses of a gateway with standard delegates are accounted for**, whatever
    happens. -/
theorem accounted_run {c : Config} {fit : Fittings} {w : W} {g : Gateway W}
    (hbuild : Gateway.build c fit w = .ok g) (hstandard : fit.delegates = []) (hrun : Run g f) :
    Accounted f := by
  induction hrun with
  | refl => exact accounted_opened hbuild
  | tail hrun hs ih => exact ih.step (inOrder_run hbuild hstandard hrun).ends hs

end Floor

end LedgerGate
