/-
  Shutdown: a signal that is given once.

  Whoever has subscribed before the signal gets it once; the first reason given
  with a request is kept.
-/
namespace LedgerGate

/-- Whether shutdown was triggered and why, and the subscribers who have a signal
    waiting. -/
structure Shutdown (N : Type) where
  triggered : Bool
  reason : Option String
  subscribers : List N
  signalled : List N

namespace Shutdown

variable {N : Type} [DecidableEq N]

def new : Shutdown N := ⟨false, none, [], []⟩

instance : Inhabited (Shutdown N) := ⟨new⟩

/-- Subscribes; a name that subscribes again starts anew. -/
def subscribe (s : Shutdown N) (name : N) : Shutdown N :=
  { s with subscribers := name :: s.subscribers.erase name, signalled := s.signalled.erase name }

/-- Gives the signal to all who subscribed, the first time. -/
def trigger (s : Shutdown N) : Shutdown N :=
  if s.triggered then s else { s with triggered := true, signalled := s.subscribers }

/-- Asks for shutdown and says why. -/
def request (s : Shutdown N) (reason : String) : Shutdown N :=
  { s with reason := s.reason.or (some reason) }.trigger

/-- Takes a waiting signal, if there is one. -/
def receive (s : Shutdown N) (name : N) : Bool × Shutdown N :=
  (s.signalled.contains name, { s with signalled := s.signalled.erase name })

end Shutdown

end LedgerGate
