/-
  The digits of integers in JSON text.

  Digits whose number fits 64 bits are taken whole, and what is written for an integer has no
  leading zero.

  * `InRange`: the integers that fit 64 bits with or without a sign;
  * `takeDigits_eq`, `head_toDigits_ne_zero`: the digits of a number;
  * `renderInt_of_nonneg`, `renderInt_of_neg`: what is written for an integer.
-/
import LedgerGate.Json.Number
import Mathlib.Algebra.Ring.Int.Defs

namespace LedgerGate.Json

/-! ## Digits -/

theorem le_ofDigitChars (cs : List Char) (acc : Nat) : acc ≤ Nat.ofDigitChars 10 cs acc := by
  induction cs generalizing acc with
  | nil => exact Nat.le_refl acc
  | cons c cs ih =>
    rw [Nat.ofDigitChars_cons]
    have hrest := ih (10 * acc + (c.toNat - '0'.toNat))
    omega

/-- Digits whose number fits are taken whole. -/
theorem takeDigits_eq {cs : List Char} (h : ∀ c ∈ cs, c.isDigit = true) {acc : Nat}
    (hfit : Nat.ofDigitChars 10 cs acc ≤ significandLimit) (taken : Nat) :
    takeDigits cs acc taken = (Nat.ofDigitChars 10 cs acc, taken + cs.length, []) := by
  induction cs generalizing acc taken with
  | nil => rfl
  | cons c cs ih =>
    rw [Nat.ofDigitChars_cons, Nat.mul_comm] at hfit
    have hle := le_ofDigitChars cs (acc * 10 + (c.toNat - '0'.toNat))
    rw [takeDigits, if_pos ⟨h c List.mem_cons_self, by omega⟩,
      ih (fun d hd => h d (List.mem_cons_of_mem c hd)) hfit, Nat.ofDigitChars_cons,
      Nat.mul_comm 10 acc, List.length_cons, Nat.add_assoc, Nat.add_comm 1]

theorem isDigit_of_mem {n : Nat} {c : Char} (h : c ∈ Nat.toDigits 10 n) : c.isDigit = true :=
  Nat.isDigit_of_mem_toDigits (by decide) (by decide) h

/-- A positive number has no leading zero. -/
theorem head_toDigits_ne_zero {n : Nat} (h : 0 < n) :
    ∃ c cs, Nat.toDigits 10 n = c :: cs ∧ c ≠ '0' := by
  induction n using Nat.strongRecOn with
  | ind n ih =>
    by_cases hn : n < 10
    · refine ⟨n.digitChar, [], Nat.toDigits_of_lt_base hn, ?_⟩
      have hall : ∀ k : Fin 10, 0 < k.val → k.val.digitChar ≠ '0' := by decide
      exact hall ⟨n, hn⟩ h
    · have hn : 10 ≤ n := by omega
      obtain ⟨c, cs, heq, hc⟩ := ih (n / 10) (by omega) (by omega)
      exact ⟨c, cs ++ [(n % 10).digitChar],
        by rw [Nat.toDigits_of_base_le (by decide) hn, heq, List.cons_append], hc⟩

/-! ## Numbers -/

/-- An integer fits 64 bits, with or without a sign. -/
def InRange (n : Int) : Prop := -(2 ^ 63) ≤ n ∧ n < 2 ^ 64

theorem renderInt_of_nonneg (n : Nat) : renderInt n = Nat.toDigits 10 n := by
  rw [renderInt, Int.toString_eq_repr, Int.repr_eq_if, if_pos (Int.natCast_nonneg n),
    Nat.toList_repr, Int.toNat_natCast]

theorem renderInt_of_neg {n : Nat} (h : 0 < n) :
    renderInt (-(n : Int)) = '-' :: Nat.toDigits 10 n := by
  have hneg : ¬ (0 : Int) ≤ -(n : Int) := by omega
  rw [renderInt, Int.toString_eq_repr, Int.repr_eq_if, if_neg hneg, String.toList_append,
    Nat.toList_repr, Int.neg_neg, Int.toNat_natCast]
  rfl

end LedgerGate.Json
