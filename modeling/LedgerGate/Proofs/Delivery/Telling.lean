/-
  What a gateway tells the caller of a delivery.

  A gateway hands an outcome on as far as its sequels are known, and goes on when a
  receipt brings the next one.  Whatever the receipts bring, what it tells is what the
  delivery calls for.

  * `Sequel.resolve`: the outcome of a sequel, when it is known what the receipts bring;
  * `conclude_answers`: a gateway tells the responses that an outcome calls for, all of
    them, or those before the receipt that it has to wait for.
-/
import LedgerGate.Proofs.Delivery.Chain
import LedgerGate.Proofs.Gateway.Deliveries

namespace LedgerGate

/-- The outcome of a sequel; `ρ` says what the receipts of the tickets bring. -/
def Sequel.resolve (ρ : Nat → Except Fault (Reply Sequel)) : Sequel → Except Fault (Reply Sequel)
  | .known outcome => outcome
  | .receipt ticket => ρ ticket

/-- A delivery after some more responses. -/
def Delivery.later (d : Delivery) (n : Nat) : Delivery :=
  { d with sequence := d.sequence + UInt32.ofNat n }

theorem Delivery.later_advanced (d : Delivery) (n : Nat) :
    d.advanced.later n = d.later (n + 1) := by
  rw [later, advanced_add, later]
  rfl

namespace Gateway

variable {W : Type} {ρ : Nat → Except Fault (Reply Sequel)}

theorem send_append (g : Gateway W) (xs ys : List Response) :
    g.send (xs ++ ys) = (g.send xs).send ys := List.foldl_append

/-- What becomes of a delivery that calls for some responses: all of them are told, and that it
    is over; or some are told and the rest is for a receipt to bring. -/
def Tells (ρ : Nat → Except Fault (Reply Sequel)) (g : Gateway W) (d : Delivery)
    (rs : List Response) (g' : Gateway W) : Prop :=
  g' = (g.send rs).tell (.delivered d.inReplyTo.messageId (.ok (d.sent rs))) ∨
    ∃ before after ticket, rs = before ++ after ∧
      Delivery.Answers (Sequel.resolve ρ) g.maxDepth (d.later before.length) (ρ ticket) after ∧
      g' = (g.send before).awaitTicket ticket (.delivery (d.later before.length) true)

/-- The first response is told before the rest. -/
theorem Tells.cons {g g' : Gateway W} {d : Delivery} {x : Response} {rs : List Response}
    (h : Tells ρ (g.send [x]) d.advanced rs g') : Tells ρ g d (x :: rs) g' := by
  have hdepth : (g.send [x]).maxDepth = g.maxDepth := by rw [maxDepth, config_send, maxDepth]
  have hsend : ∀ ys, (g.send [x]).send ys = g.send (x :: ys) := fun ys =>
    (g.send_append [x] ys).symm
  rcases h with h | ⟨before, after, ticket, rfl, hanswers, h⟩
  · left
    rw [h, hsend, Delivery.advanced_sent]
    rfl
  · refine .inr ⟨x :: before, after, ticket, rfl, ?_, ?_⟩
    · rw [List.length_cons, ← Delivery.later_advanced, ← hdepth]
      exact hanswers
    · rw [h, hsend, List.length_cons, Delivery.later_advanced]

theorem concludeWithin_answers {d : Delivery} {outcome : Except Fault (Reply Sequel)}
    {rs : List Response} {limit : UInt32}
    (h : Delivery.Answers (Sequel.resolve ρ) limit d outcome rs) {fuel : Nat} {g : Gateway W}
    (hlimit : limit = g.maxDepth) (hfuel : Sequel.reachOf outcome < fuel) :
    Tells ρ g d rs (concludeWithin fuel (.delivery d true) outcome g) := by
  induction h generalizing fuel g with
  | @finish d outcome rs hstep =>
    obtain ⟨fuel, rfl⟩ : ∃ left, fuel = left + 1 := ⟨fuel - 1, by omega⟩
    left
    rw [hlimit] at hstep
    simp only [concludeWithin, if_true, hstep]
  | @follow d outcome x next after rs hstep hrest ih =>
    obtain ⟨rfl, -⟩ := Delivery.of_follow hstep
    obtain ⟨fuel, rfl⟩ : ∃ left, fuel = left + 1 := ⟨fuel - 1, by omega⟩
    have hdepth : limit = (g.send [x]).maxDepth := by rw [maxDepth, config_send, hlimit, maxDepth]
    rw [hlimit] at hstep
    cases next with
    | known next =>
      have hnext := reachOf_of_follow hstep
      have htells : Tells ρ (g.send [x]) d.advanced rs
          (concludeWithin fuel (.delivery d.advanced true) next (g.send [x])) :=
        ih hdepth (show Sequel.reachOf next < fuel by omega)
      simp only [concludeWithin, if_true, hstep]
      exact htells.cons
    | receipt ticket =>
      refine .inr ⟨[x], rs, ticket, rfl, hlimit ▸ hrest, ?_⟩
      simp only [concludeWithin, if_true, hstep]
      rfl

/-- **A gateway tells the caller what the delivery calls for.**  The receipt it waits for, if
    there is one, concludes the delivery that is left in the same way. -/
theorem conclude_answers (g : Gateway W) {d : Delivery} {outcome : Except Fault (Reply Sequel)}
    {rs : List Response} (h : Delivery.Answers (Sequel.resolve ρ) g.maxDepth d outcome rs) :
    Tells ρ g d rs (g.conclude (.delivery d true) outcome) :=
  concludeWithin_answers h rfl (Nat.lt_add_of_pos_right Nat.two_pos)

end Gateway

end LedgerGate
