/-
  Timers: jobs that are due at a time to come.

  They stand in the order in which they fall due, those set earlier first among
  jobs due at one time.
-/
namespace LedgerGate

/-- Jobs and the times at which they are due. -/
structure Timers (J : Type) where
  entries : List (Nat × J)
  deriving Inhabited

namespace Timers

variable {J : Type}

def empty : Timers J := ⟨[]⟩

/-- Puts a job behind all that are due no later. -/
def insertEntry (time : Nat) (job : J) : List (Nat × J) → List (Nat × J)
  | [] => [(time, job)]
  | e :: es => if e.1 ≤ time then e :: insertEntry time job es else (time, job) :: e :: es

/-- Sets a timer. -/
def set (t : Timers J) (time : Nat) (job : J) : Timers J := ⟨insertEntry time job t.entries⟩

/-- When the next job is due. -/
def next? (t : Timers J) : Option Nat := t.entries.head?.map (·.1)

/-- The jobs that are due by a time. -/
def due (t : Timers J) (now : Nat) : List J :=
  (t.entries.takeWhile (·.1 ≤ now)).map (·.2)

/-- The timers that are left at a time. -/
def after (t : Timers J) (now : Nat) : Timers J := ⟨t.entries.dropWhile (·.1 ≤ now)⟩

/-- Without the jobs of a kind. -/
def discard (t : Timers J) (unwanted : J → Bool) : Timers J :=
  ⟨t.entries.filter fun e => !unwanted e.2⟩

end Timers

end LedgerGate
