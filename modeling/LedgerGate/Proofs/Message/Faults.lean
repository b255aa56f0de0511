/-
  What callers learn of a fault tells faults apart.

  A fault is told by its code, its wording and its parameters.  The code is that of a kind of
  fault, and within a kind the wording or the parameters say the rest.

  * `Bag.ofList_inj`: bags of the same names are equal just if their values are;
  * `Fault.ctorIdx_eq`: the code of a fault tells its kind;
  * `Fault.details_injective`: **no two faults look alike to callers.**
-/
import LedgerGate.Fault
import LedgerGate.Proofs.Entries.Keys

namespace LedgerGate

/-- Bags of the same distinct names are equal just if their values are. -/
theorem Bag.ofList_inj {ps qs : List (String × BagValue)}
    (hkeys : Entries.keys ps = Entries.keys qs) (hnodup : (Entries.keys ps).Nodup)
    (h : ofList ps = ofList qs) : ps = qs := by
  have hentries : Entries.ofList ps = Entries.ofList qs := Bag.mk.inj h
  have hlength : ps.length = qs.length := by
    simpa [Entries.keys] using congrArg List.length hkeys
  refine List.ext_getElem hlength fun i hp hq => ?_
  have hname : ps[i].1 = qs[i].1 := by
    have hi := congrArg (·[i]?) hkeys
    simpa [Entries.keys, hp, hq] using hi
  have hleft : Entries.find? (Entries.ofList ps) ps[i].1 = some ps[i].2 :=
    Entries.find?_ofList hnodup (List.getElem_mem hp)
  have hright : Entries.find? (Entries.ofList qs) qs[i].1 = some qs[i].2 :=
    Entries.find?_ofList (hkeys ▸ hnodup) (List.getElem_mem hq)
  rw [hentries, hname, hright] at hleft
  exact Prod.ext hname (Option.some.inj hleft).symm

/-! ## Names -/

theorem Shape.name_injective : Function.Injective Shape.name := by
  intro a b h
  cases a <;> cases b <;> first | rfl | exact absurd h (by decide)

theorem Brand.name_injective : Function.Injective Brand.name := by
  intro a b h
  cases a <;> cases b <;> first | rfl | exact absurd h (by decide)

namespace Fault

/-! ## Faults -/

/-- The parameters of a key tell keys apart. -/
theorem keyParameters_injective : Function.Injective keyParameters := by
  rintro ⟨operation, shape, brand⟩ ⟨operation', shape', brand'⟩ h
  have hpairs := Bag.ofList_inj (by rfl) (by simp) h
  simp only [List.cons.injEq, Prod.mk.injEq, BagValue.text.injEq, true_and, and_true] at hpairs
  obtain ⟨rfl, hshape, hbrand⟩ := hpairs
  rw [Shape.name_injective hshape, Brand.name_injective hbrand]

/-- The codes of the kinds of faults. -/
def codes : List String :=
  ["gateway:access-denied", "gateway:no-such-ledger", "gateway:no-delegate-implementation",
    "gateway:duplicate-delegate", "gateway:transport-error", "gateway:malformed-confirmation",
    "gateway:not-ready", "gateway:invalid-input", "gateway:unknown-token", "gateway:store-error",
    "gateway:config-error", "gateway:internal-error"]

/-- The code of a fault tells its kind. -/
theorem ctorIdx_eq (f : Fault) : f.ctorIdx = codes.idxOf f.code := by
  cases f <;> rfl

/-- Faults of one kind are told apart by their wording and their parameters. -/
theorem eq_of_ctorIdx {f g : Fault} (hkind : f.ctorIdx = g.ctorIdx)
    (hmessage : f.message = g.message) (hparameters : f.parameters = g.parameters) : f = g := by
  cases f <;> cases g <;> try exact absurd hkind (Nat.ne_of_beq_eq_false rfl)
  case noImplementation.noImplementation => rw [keyParameters_injective hparameters]
  case duplicateImplementation.duplicateImplementation =>
    rw [keyParameters_injective hparameters]
  case malformedConfirmation.malformedConfirmation =>
    have hpairs := Bag.ofList_inj (by rfl) (by simp) hparameters
    simp only [List.cons.injEq, Prod.mk.injEq, BagValue.text.injEq, true_and, and_true] at hpairs
    rw [hpairs.1, hpairs.2]
  case internal.internal =>
    have hpairs := Bag.ofList_inj (by rfl) (by simp) hparameters
    simp only [List.cons.injEq, Prod.mk.injEq, BagValue.text.injEq, true_and, and_true] at hpairs
    rw [hpairs.1, hpairs.2.1, hpairs.2.2.2]
  case notReady.notReady => rw [(String.append_left_inj _).1 hmessage]
  all_goals rw [(String.append_right_inj _).1 hmessage]

/-- **Faults that look alike to callers are the same.** -/
theorem details_injective : Function.Injective details := by
  intro f g h
  obtain ⟨hcode, hmessage, hparameters⟩ := ErrorDetails.mk.inj h
  exact eq_of_ctorIdx (by rw [f.ctorIdx_eq, g.ctorIdx_eq, hcode]) hmessage hparameters

end Fault

end LedgerGate
