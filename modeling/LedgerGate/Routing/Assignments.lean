/-
  Which delegate does which work.

  A delegate is registered under one key, and a key has one delegate. A key that
  is not registered is looked for once more for ledgers of every brand.

  * `Assignments.ofList` refuses a second delegate under a key;
  * `Assignments.find?`, `Assignments.keys`.
-/
import LedgerGate.Fault

namespace LedgerGate

/-- Delegates under their keys, in the order they were registered. -/
structure Assignments (D : Type) where
  entries : List (RouteKey × D)
  deriving Inhabited

namespace Assignments

variable {D : Type}

def size (a : Assignments D) : Nat := a.entries.length

/-- The delegate under exactly a key. -/
def get? (a : Assignments D) (key : RouteKey) : Option D :=
  (a.entries.find? (·.1 == key)).map (·.2)

/-- The delegate for a key: its own, else the one for ledgers of every brand. -/
def find? (a : Assignments D) (key : RouteKey) : Option D :=
  (a.get? key).or (a.get? key.anyBrand)

/-- Registers delegates one after the other. -/
def register (keyOf : D → RouteKey) (a : Assignments D) :
    List D → Except Fault (Assignments D)
  | [] => .ok a
  | d :: ds =>
    if (a.get? (keyOf d)).isSome then .error (.duplicateImplementation (keyOf d))
    else register keyOf ⟨a.entries ++ [(keyOf d, d)]⟩ ds

/-- The assignments of some delegates. -/
def ofList (keyOf : D → RouteKey) (ds : List D) : Except Fault (Assignments D) :=
  register keyOf ⟨[]⟩ ds

/-- The keys in their order. -/
def keys (a : Assignments D) : List RouteKey :=
  (a.entries.map (·.1)).mergeSort fun j k => !k.precedes j

end Assignments

end LedgerGate
