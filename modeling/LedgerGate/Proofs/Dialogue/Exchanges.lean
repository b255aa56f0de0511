/-
  Exchanges: how a dialogue comes to what is left of it.

  Any answer may come to a question, so a dialogue can be cut anywhere: some questions were
  answered, and the rest is a dialogue again.

  * `Dialogue.Exchange`: a question with its answer;
  * `Dialogue.Leads`: what is left of a dialogue after some exchanges, `Leads.unique` at most
    one thing;
  * `exists_leads`: with answers that are fixed the exchanges go on to a result;
  * `asked`: the questions to a world with a state;
  * `interrogate_congr`: answers to questions that are not asked do not matter;
  * `Leads.of_relay`: the exchanges of a dialogue that is put through to another interlocutor.
-/
import LedgerGate.Dialogue
import Mathlib.Data.List.Forall2

namespace LedgerGate.Dialogue

variable {Q : Type} {A : Q → Type} {α : Type}

/-- A question and its answer. -/
abbrev Exchange (A : Q → Type) : Type := (q : Q) × A q

/-- By some exchanges a dialogue comes to what is left of it. -/
inductive Leads : Dialogue A α → List (Exchange A) → Dialogue A α → Prop
  | refl (d : Dialogue A α) : Leads d [] d
  | ask {q : Q} {resume : A q → Dialogue A α} {rest : List (Exchange A)} {d : Dialogue A α}
      (answer : A q) : Leads (resume answer) rest d →
      Leads (.ask q resume) (⟨q, answer⟩ :: rest) d

variable {d d' d'' : Dialogue A α} {exchanges : List (Exchange A)}

/-- One more question is answered. -/
theorem Leads.snoc {q : Q} {resume : A q → Dialogue A α} (h : d.Leads exchanges (.ask q resume))
    (answer : A q) : d.Leads (exchanges ++ [⟨q, answer⟩]) (resume answer) := by
  generalize hleft : Dialogue.ask q resume = left at h
  induction h with
  | refl d =>
    subst hleft
    exact .ask answer (.refl _)
  | ask answer' _ ih => exact .ask answer' (ih hleft)

/-- What is left is settled by the exchanges. -/
theorem Leads.unique (h : d.Leads exchanges d') (h' : d.Leads exchanges d'') : d' = d'' := by
  induction h with
  | refl d =>
    cases h'
    rfl
  | ask answer _ ih =>
    cases h' with
    | ask _ h' => exact ih h'

/-- Nothing is asked that is done. -/
theorem Leads.of_done {a : α} (h : (done a).Leads exchanges d) :
    exchanges = [] ∧ d = .done a := by
  cases h
  exact ⟨rfl, rfl⟩

/-- With fixed answers a dialogue comes to its result. -/
theorem exists_leads (answer : (q : Q) → A q) (d : Dialogue A α) :
    ∃ exchanges, d.Leads exchanges (.done (d.interrogate answer).1) ∧
      exchanges.map (·.1) = (d.interrogate answer).2 ∧ ∀ x ∈ exchanges, x.2 = answer x.1 := by
  induction d with
  | done a => exact ⟨[], .refl _, rfl, by simp⟩
  | ask q resume ih =>
    obtain ⟨exchanges, hleads, hasked, hanswers⟩ := ih (answer q)
    refine ⟨⟨q, answer q⟩ :: exchanges, .ask (answer q) hleads, ?_, ?_⟩
    · rw [List.map_cons, hasked]
      rfl
    · rintro x hx
      rcases List.mem_cons.1 hx with rfl | hx
      · rfl
      · exact hanswers x hx

/-- A dialogue that goes on asks its own questions first. -/
theorem interrogate_bind {β : Type} (answer : (q : Q) → A q) (d : Dialogue A α)
    (f : α → Dialogue A β) : (d.bind f).interrogate answer =
      (((f (d.interrogate answer).1).interrogate answer).1,
        (d.interrogate answer).2 ++ ((f (d.interrogate answer).1).interrogate answer).2) := by
  induction d with
  | done a => rfl
  | ask q resume ih => simp only [bind, interrogate, ih, List.cons_append]

/-- Only answers to questions that are asked matter. -/
theorem interrogate_congr {answer answer' : (q : Q) → A q} {d : Dialogue A α}
    (h : ∀ q ∈ (d.interrogate answer).2, answer' q = answer q) :
    d.interrogate answer' = d.interrogate answer := by
  induction d with
  | done a => rfl
  | ask q resume ih =>
    have hq : answer' q = answer q := h q List.mem_cons_self
    have hrest := ih (answer q) fun q' hq' => h q' (List.mem_cons_of_mem q hq')
    simp only [interrogate, hq, hrest]

/-- The questions that are asked when a world with a state answers. -/
def asked {σ : Type} (answer : (q : Q) → σ → A q × σ) : Dialogue A α → σ → List Q
  | done _, _ => []
  | ask q resume, s => q :: asked answer (resume (answer q s).1) (answer q s).2

/-- What is put through to another interlocutor goes as far as the dialogue itself goes. -/
theorem Leads.of_relay {Q' : Type} {A' : Q' → Type} {f : Q → Q'} {g : (q : Q) → A' (f q) → A q}
    {d : Dialogue A α} {exchanges : List (Exchange A')} {left : Dialogue A' α}
    (h : (d.relay f g).Leads exchanges left) :
    ∃ exchanges' left', d.Leads exchanges' left' ∧ left = left'.relay f g ∧
      List.Forall₂ (fun x y => ∃ r, y = ⟨f x.1, r⟩ ∧ x.2 = g x.1 r) exchanges' exchanges := by
  induction d generalizing exchanges with
  | done a =>
    obtain ⟨rfl, rfl⟩ := Leads.of_done h
    exact ⟨[], .done a, .refl _, rfl, .nil⟩
  | ask q resume ih =>
    rw [relay] at h
    cases h with
    | refl => exact ⟨[], .ask q resume, .refl _, rfl, .nil⟩
    | ask r h =>
      obtain ⟨exchanges', left', hleads, hleft, hsame⟩ := ih (g q r) h
      exact ⟨⟨q, g q r⟩ :: exchanges', left', .ask _ hleads, hleft, .cons ⟨r, rfl, rfl⟩ hsame⟩

end LedgerGate.Dialogue
