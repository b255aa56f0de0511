/-
  Workers: jobs run beside the one who dispatches them, a limited number at a
  time.

  A job that breaks down takes nothing with it. There is always one worker.

  * `Workers.rounds`: which jobs run at the same time;
  * `Workers.completed`: the jobs that have run in the end, which are all.
-/
import LedgerGate.Fault

namespace LedgerGate

/-- A number of workers. -/
structure Workers where
  size : Nat
  size_pos : 0 < size := by omega

namespace Workers

/-- Workers of a wanted number; none is raised to one. -/
def ofSize (n : Nat) : Workers := ⟨max n 1, by omega⟩

instance : Inhabited Workers := ⟨ofSize 1⟩

/-- The fault of setting up workers where nothing can run beside the caller. -/
def noRuntime : Fault := .own "no runtime to run jobs on"

/-- Jobs in rounds of at most as many as there are workers. -/
def rounds {J : Type} (w : Workers) (jobs : List J) : List (List J) :=
  match jobs with
  | [] => []
  | j :: js => (j :: js.take (w.size - 1)) :: rounds w (js.drop (w.size - 1))
termination_by jobs.length
decreasing_by simp only [List.length_drop, List.length_cons]; omega

/-- The jobs that have run in the end, in the order they were taken up. -/
def completed {J : Type} (w : Workers) (jobs : List J) : List J := (w.rounds jobs).flatten

end Workers

end LedgerGate
