/-
  A bounded memory of confirmations that were handed out already.

  The first confirmation of an id stays until the id is evicted; when the memory
  is full the id that came first goes first.

  * `Recent.insert` remembers a confirmation, `Recent.find?` looks one up;
  * `eq_or_find?_of_insert`: what is found was there before or was just remembered.
-/
import LedgerGate.Entries
import LedgerGate.Ledger.Confirmation

namespace LedgerGate.Receipt

/-- Confirmations by id, the ids in the order they came, and how many there may be. -/
structure Recent where
  entries : List (String × Confirmation)
  order : List WorkId
  capacity : Nat
  deriving Inhabited

namespace Recent

def new (capacity : Nat) : Recent := ⟨[], [], capacity⟩

def find? (r : Recent) (workId : WorkId) : Option Confirmation := Entries.find? r.entries workId

def size (r : Recent) : Nat := r.entries.length

/-- Drops the oldest confirmation if there is no room for another. -/
def makeRoom (r : Recent) : Recent :=
  if r.order.length < r.capacity then r
  else
    match r.order with
    | [] => r
    | oldest :: rest => { r with entries := Entries.erase r.entries oldest, order := rest }

/-- Remembers a confirmation unless its id is remembered already. -/
def insert (r : Recent) (c : Confirmation) : Recent :=
  if r.capacity = 0 ∨ Entries.contains r.entries c.workId then r
  else
    let roomy := r.makeRoom
    { roomy with
      entries := Entries.insert roomy.entries c.workId c
      order := roomy.order ++ [c.workId] }

@[simp]
theorem find?_new (capacity : Nat) (workId : WorkId) : (new capacity).find? workId = none := rfl

/-- Making room brings nothing new. -/
theorem find?_of_makeRoom {r : Recent} {workId : WorkId} {c : Confirmation}
    (h : r.makeRoom.find? workId = some c) : r.find? workId = some c := by
  unfold makeRoom at h
  split at h
  · exact h
  · split at h
    · exact h
    · simp only [find?, Entries.find?_erase] at h
      split at h
      · cases h
      · exact h

theorem eq_or_find?_of_insert {r : Recent} {workId : WorkId} {c d : Confirmation}
    (h : (r.insert c).find? workId = some d) :
    workId = c.workId ∧ d = c ∨ r.find? workId = some d := by
  unfold insert at h
  split at h
  · exact Or.inr h
  · by_cases hw : workId = c.workId
    · subst hw
      simp only [find?, Entries.find?_insert_self, Option.some.injEq] at h
      exact Or.inl ⟨rfl, h.symm⟩
    · simp only [find?, Entries.find?_insert_ne _ _ hw] at h
      exact Or.inr (find?_of_makeRoom h)

end Recent

end LedgerGate.Receipt
