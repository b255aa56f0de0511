/-
  The outcomes that can be made.

  A reply is made by one of three constructors, so an outcome is the end of a chain or a
  pending reply, and so is every sequel of it that is known.

  * `Made`: the outcomes that delegates and receipts can have, with all their sequels;
  * `Delegate.Makes`, `makes_of_standard`: delegates whose work comes to nothing else.
-/
import LedgerGate.Proofs.Delegate.Submission

namespace LedgerGate

/-- An outcome that can be made, with all its sequels that are known: the end of a chain, or a
    pending reply. -/
inductive Made : Except Fault (Reply Sequel) → Prop
  | last {l : Link Sequel} : l.ending?.isSome → Made l.outcome
  | receipt (r : TransactionResult) (ticket : Nat) : Made (.ok (.pending r (.receipt ticket)))
  | known (r : TransactionResult) {next : Except Fault (Reply Sequel)} : Made next →
      Made (.ok (.pending r (.known next)))

namespace Made

variable {outcome : Except Fault (Reply Sequel)}

/-- It is a link, -/
theorem link (h : Made outcome) : ∃ l : Link Sequel, outcome = l.outcome := by
  cases h with
  | last _ => exact ⟨_, rfl⟩
  | receipt r ticket => exact ⟨.pending r (.receipt ticket), rfl⟩
  | known r _ => exact ⟨.pending r (.known _), rfl⟩

/-- and so is what follows it. -/
theorem of_follow {limit : UInt32} {d after : Delivery} {x : Response}
    {next : Except Fault (Reply Sequel)} (h : Made outcome)
    (hstep : d.step limit outcome = .follow x (.known next) after) : Made next := by
  obtain ⟨o, houtcome⟩ := Delivery.outcome_of_follow hstep
  cases h with
  | @last l hl =>
    obtain ⟨e, he⟩ := Option.isSome_iff_exists.1 hl
    rcases Link.outcome_of_ending he with ⟨f, -, hlast⟩ | ⟨p, -, hlast, -⟩
    · cases hlast.symm.trans houtcome
    · cases hlast.symm.trans houtcome
  | receipt r ticket => cases houtcome
  | known r hnext =>
    cases houtcome
    exact hnext

theorem fault (f : Fault) : Made (.error f) := .last (l := .failed f) rfl

theorem ofReceipt (c : Confirmation) : Made (Sequel.ofReceipt c) :=
  .last (l := .result c.result) rfl

end Made

/-- What a delegate makes of its work are outcomes that can be made. -/
def Delegate.Makes (d : Delegate) : Prop :=
  ∀ l input, (d.apply l input).Yields fun
    | .settled outcome => Made outcome
    | .submitted _ _ _ => True

theorem Delegate.makes_of_standard {d : Delegate} (h : d.IsStandard) : d.Makes := by
  intro l input
  refine (Delegate.final_apply h l input).imp fun o ho => ?_
  cases o with
  | submitted mode workId recent => trivial
  | settled outcome =>
    obtain ⟨l, hl, rfl⟩ := ho
    exact .last hl

end LedgerGate
