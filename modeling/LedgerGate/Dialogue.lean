/-
  Dialogues: computations that ask questions of the world and go on with the
  answers.

  A dialogue is its own text: which questions it may ask, in which order, and
  what it makes of every answer. `run` lets a world with a state answer, and
  `interrogate` also keeps the questions in the order they were asked.
-/
namespace LedgerGate

/-- A computation of an `α` that may ask questions `q : Q` and gets answers of
    type `A q`. -/
inductive Dialogue {Q : Type} (A : Q → Type) (α : Type) where
  | done (a : α)
  | ask (q : Q) (resume : A q → Dialogue A α)

namespace Dialogue

variable {Q : Type} {A : Q → Type} {α β σ : Type}

/-- Asks one question. -/
def question (q : Q) : Dialogue A (A q) := .ask q .done

/-- Goes on with the result of a dialogue. -/
def bind (d : Dialogue A α) (f : α → Dialogue A β) : Dialogue A β :=
  match d with
  | done a => f a
  | ask q resume => .ask q fun r => (resume r).bind f

instance : Monad (Dialogue (A := A)) where
  pure := done
  bind := bind

/-- The result when a world with a state answers, and the state left behind. -/
def run (answer : (q : Q) → σ → A q × σ) : Dialogue A α → σ → α × σ
  | done a, s => (a, s)
  | ask q resume, s => run answer (resume (answer q s).1) (answer q s).2

/-- The result when answers are fixed, and the questions in their order. -/
def interrogate (answer : (q : Q) → A q) : Dialogue A α → α × List Q
  | done a => (a, [])
  | ask q resume =>
    let rest := interrogate answer (resume (answer q))
    (rest.1, q :: rest.2)

/-- Puts every question through to another interlocutor. -/
def relay {Q' : Type} {A' : Q' → Type} (f : Q → Q') (g : (q : Q) → A' (f q) → A q) :
    Dialogue A α → Dialogue A' α
  | done a => .done a
  | ask q resume => .ask (f q) fun r => relay f g (resume (g q r))

end Dialogue

end LedgerGate
