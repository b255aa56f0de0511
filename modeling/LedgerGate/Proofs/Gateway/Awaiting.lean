/-
  Awaiting a receipt: whoever waits under a ticket waits until the receipt is handed over.

  Who waits for a receipt would be told if its handler was dropped, and that is a fault.  But
  the handler stays with the tracker of its ledger until the receipt is dispatched to it, and
  then the receipt lies in the post until it is delivered.

  * `Gateway.Punctual`: an errand that waits for a new ticket is its only one;
  * `Gateway.Retains`: errands that wait still do, and so do the handlers of their tickets;
  * `Floor.Outstanding`: an errand waits under a ticket, and its receipt may still come;
  * `Floor.Receives`: the receipt is handed to the errand, which replies;
  * `Outstanding.run`: **nothing else ever ends the wait**.
-/
import LedgerGate.Proofs.Gateway.Tickets

namespace LedgerGate

/-! ## What a gateway retains -/

namespace Gateway

variable {W : Type} {g g' : Gateway W}

/-- What waits for tickets that were handed out still does: the errands in the gateway, and
    the handlers in its trackers. -/
structure Retains (g g' : Gateway W) : Prop where
  errands : g.errands <+: g'.errands
  tickets : g.tickets ≤ g'.tickets
  handlers : ∀ k t, g.trackerAt k = some t → ∃ t', g'.trackerAt k = some t' ∧
    ∀ n < g.tickets, .ticket n ∈ t.handlers → .ticket n ∈ t'.handlers

theorem Retains.errand? (h : Retains g g') {n : Nat} {e : Errand} (he : g.errand? n = some e) :
    g'.errand? n = some e := by
  obtain ⟨waiting, herrands⟩ := h.errands
  obtain ⟨x, hx, rfl⟩ := Option.map_eq_some_iff.1 he
  rw [Gateway.errand?, ← herrands, List.find?_append, hx]
  rfl

theorem Aside.retains (h : Aside g g') : Retains g g' where
  errands := h.errands ▸ List.prefix_rfl
  tickets := h.tickets.ge
  handlers k t ht := ⟨t, (h.trackers k).trans ht, fun _ _ => id⟩

theorem retains_conclude (g : Gateway W) (e : Errand) (outcome : Except Fault (Reply Sequel)) :
    Retains g (g.conclude e outcome) := by
  obtain ⟨told, waiting, hg, -⟩ := ensues_conclude g e outcome
  rw [hg]
  exact ⟨List.prefix_append _ waiting, le_rfl, fun k t ht => ⟨t, ht, fun _ _ => id⟩⟩

/-- Preparing work adds a handler, for a ticket that is new. -/
theorem retains_prepare (g : Gateway W) (e : Errand) (k : String) (mode : ReplyMode)
    (workId : WorkId) (recent : Option UInt64) : Retains g (g.prepare e k mode workId recent) := by
  obtain ⟨hsame, htrackers⟩ := g.enrolled_spec k workId
  have hprepared := g.prepare_handsOn e k mode workId recent
  refine ⟨?_, ?_, fun k' t ht => ?_⟩
  · obtain ⟨waiting, herrands, -⟩ := hprepared.errands
    rw [herrands, hsame.errands]
    exact List.prefix_append _ waiting
  · rw [hprepared.tickets, hsame.tickets]
    exact Nat.le_succ g.tickets
  · rw [hprepared.trackers, htrackers]
    split
    · rename_i hk
      subst hk
      rw [ht]
      refine ⟨_, rfl, fun n hn hwaits => ?_⟩
      exact Receipt.Tracker.keeps_prepare hwaits workId (by simpa using hn.ne)
    · exact ⟨t, ht, fun _ _ => id⟩

/-- No errand waits for a ticket that is not handed out yet. -/
def Punctual (g : Gateway W) : Prop := ∀ x ∈ g.errands, x.1 < g.tickets

/-- So an errand that waits for a new ticket is the only one that does. -/
theorem Punctual.errand?_awaitTicket (h : g.Punctual) {k : String} {workId : WorkId} (e : Errand) :
    ((g.enrolled k workId).awaitTicket g.tickets e).errand? g.tickets = some e := by
  have hnone : g.errands.find? (·.1 == g.tickets) = none := by
    refine List.find?_eq_none.2 fun x hx heq => ?_
    exact (h x hx).ne (by simpa using heq)
  have herrands := (g.enrolled_spec k workId).1.errands
  rw [Gateway.errand?, awaitTicket, herrands, List.find?_append, hnone]
  simp

/-- An errand that is handed its receipt is taken up with a reply, and no fault. -/
theorem handOver_errand {ticket : Nat} {e : Errand} (he : g.errand? ticket = some e) (k : String)
    (c : Confirmation) : g.handOver k (.ticket ticket) c =
      (g.dropErrand ticket).conclude e (.ok ⟨.transaction c.result, none⟩) := by
  unfold handOver
  simp only [he]
  exact congrArg _ (Reply.result_confirmation c)

end Gateway

/-! ## Errands that wait -/

namespace Floor

variable {W : Type} {f f' : Floor W} {k : String} {n : Nat} {e : Errand}

/-- An errand waits under a ticket, and its receipt may still come: its handler waits in the
    tracker of a ledger, or was dispatched and the receipt lies in the post. -/
structure Outstanding (k : String) (n : Nat) (e : Errand) (f : Floor W) : Prop where
  errand : f.gateway.errand? n = some e
  handedOut : n < f.gateway.tickets
  handler : (∃ t, f.gateway.trackerAt k = some t ∧ .ticket n ∈ t.handlers) ∨
    ∃ letter ∈ f.post, letter.waiter = .ticket n

/-- A receipt is taken out of the post and handed to the errand of a ticket, which is taken up
    with the reply that comes of it. -/
def Receives (f : Floor W) (n : Nat) (e : Errand) (f' : Floor W) : Prop :=
  ∃ first letter rest, f.post = first ++ letter :: rest ∧ letter.waiter = .ticket n ∧
    f' = f.delivers letter (first ++ rest) ∧
    f'.gateway = (f.gateway.dropErrand n).conclude e
      (.ok ⟨.transaction letter.receipt.result, none⟩)

theorem Outstanding.retains (h : Outstanding k n e f) (hg : f.gateway.Retains f'.gateway)
    (hpost : f'.post = f.post) : Outstanding k n e f' where
  errand := hg.errand? h.errand
  handedOut := h.handedOut.trans_le hg.tickets
  handler := by
    rw [hpost]
    refine h.handler.imp_left fun ⟨t, ht, hwaits⟩ => ?_
    obtain ⟨t', ht', hkept⟩ := hg.handlers k t ht
    exact ⟨t', ht', hkept n h.handedOut hwaits⟩

/-- A tracker that moves keeps the handler, or dispatches it and the receipt is posted. -/
theorem Outstanding.tends (h : Outstanding k n e f) (k' : String) (m : Receipt.Move Waiter) :
    Outstanding k n e (f.tends k' m) := by
  obtain ⟨hsame, htrackers, hdispatched⟩ := f.gateway.tend_spec k' m
  refine ⟨?_, hsame.tickets ▸ h.handedOut, ?_⟩
  · show ((f.gateway.tend k' m).2.errands.find? _).map _ = _
    rw [hsame.errands]
    exact h.errand
  rcases h.handler with ⟨t, ht, hwaits⟩ | ⟨letter, hletter, hticket⟩
  · by_cases hk : k = k'
    · subst hk
      have hafter : (f.tends k m).gateway.trackerAt k = some (t.after m).1 := by
        refine (htrackers k).trans ?_
        rw [if_pos rfl, ht, Option.map_some]
      rw [ht] at hdispatched
      rcases (t.after_effect m).keeps hwaits with hkept | hgone
      · exact .inl ⟨_, hafter, hkept⟩
      · obtain ⟨⟨w, c⟩, hd, rfl⟩ := List.mem_map.1 hgone
        refine .inr ⟨⟨k, .ticket n, c⟩, List.mem_append_right _ ?_, rfl⟩
        rw [hdispatched]
        exact List.mem_map.2 ⟨_, hd, rfl⟩
    · refine .inl ⟨t, ?_, hwaits⟩
      exact (htrackers k).trans ((if_neg hk).trans ht)
  · exact .inr ⟨letter, List.mem_append_left _ hletter, hticket⟩

/-- A receipt that is delivered is that of the errand, or somebody else's. -/
theorem Outstanding.delivers (h : Outstanding k n e f) {first rest : List Letter}
    {letter : Letter} (hpost : f.post = first ++ letter :: rest) :
    Outstanding k n e (f.delivers letter (first ++ rest)) ∨
      f.Receives n e (f.delivers letter (first ++ rest)) := by
  by_cases hticket : letter.waiter = .ticket n
  · refine .inr ⟨first, letter, rest, hpost, hticket, rfl, ?_⟩
    show f.gateway.handOver letter.ledgerId letter.waiter letter.receipt = _
    rw [hticket, Gateway.handOver_errand h.errand]
  · have hnarrows := f.gateway.narrows_handOver letter.ledgerId letter.waiter letter.receipt
    refine .inl ⟨?_, hnarrows.tickets ▸ h.handedOut, ?_⟩
    · have hsame := errandsFor_delivers (f := f) hticket (first ++ rest)
      rw [Gateway.errand?, ← List.head?_filter, ← errandsFor, hsame, errandsFor,
        List.head?_filter, ← Gateway.errand?, h.errand]
    rcases h.handler with ⟨t, ht, hwaits⟩ | ⟨other, hother, hwaiter⟩
    · exact .inl ⟨t, (hnarrows.trackers k).trans ht, hwaits⟩
    · refine .inr ⟨other, ?_, hwaiter⟩
      rw [hpost] at hother
      have hne : other ≠ letter := fun heq => hticket (heq ▸ hwaiter)
      rcases List.mem_append.1 hother with hmem | hmem
      · exact List.mem_append_left _ hmem
      · exact List.mem_append_right _ (List.mem_of_ne_of_mem hne hmem)

/-- **One more step**: the errand waits as before, or it is handed its receipt. -/
theorem Outstanding.step (h : Outstanding k n e f) (hs : Step f f') :
    Outstanding k n e f' ∨ f.Receives n e f' := by
  cases hs with
  | take e operation input => exact .inl (h.retains (Gateway.Aside.refl _).retains rfl)
  | turn _ hturn =>
    refine .inl (h.retains ?_ rfl)
    cases hturn with
    | learn | route | consult => exact (Gateway.Aside.refl _).retains
    | reject | settle => exact Gateway.retains_conclude _ _ _
    | prepare => exact Gateway.retains_prepare _ _ _ _ _ _
  | tend k' m _ => exact .inl (h.tends k' m)
  | deliver hpost => exact h.delivers hpost
  | aside haside => exact .inl (h.retains haside.retains rfl)

/-- **An errand waits until it is handed its receipt**, whatever goes on meanwhile. -/
theorem Outstanding.run (h : Outstanding k n e f) (hrun : Relation.ReflTransGen Step f f') :
    Outstanding k n e f' ∨ ∃ f₁ f₂, Relation.ReflTransGen Step f f₁ ∧ Outstanding k n e f₁ ∧
      f₁.Receives n e f₂ ∧ Relation.ReflTransGen Step f₂ f' := by
  induction hrun with
  | refl => exact .inl h
  | @tail f₁ f₂ hrun hs ih =>
    rcases ih with hwaits | ⟨f₃, f₄, hbefore, hwaits, hreceives, hafter⟩
    · refine (hwaits.step hs).imp_right fun hreceives => ?_
      exact ⟨f₁, f₂, hrun, hwaits, hreceives, .refl⟩
    · exact .inr ⟨f₃, f₄, hbefore, hwaits, hreceives, hafter.tail hs⟩

end Floor

end LedgerGate
