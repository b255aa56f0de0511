/-
  Quantities as a node writes them: `0x` and hexadecimal digits.

  What is read is what the digits spell, as long as it fits the width that is asked for, and
  nothing else is read but one thing: the digits may have a plus sign before them.

  * `Plain`, `Signed`: a quantity, and one with a sign;
  * `readNat_eq_ok_iff`: what is read behind the `0x`;
  * `parseWord_render`: what is written reads back;
  * `ReadsQuantity`, `readsQuantity_of`: **what is read from a text**;
  * `parse_sign`: a sign that is passed over.
-/
import LedgerGate.Proofs.Text.Numeral
import LedgerGate.Rpc.Quantity

namespace LedgerGate.Rpc.Quantity

open Text (Numeral digitValue? readNat readDigits)

/-- A quantity: `0x` and one digit or more, in either case. -/
def Plain (s : String) (n : Nat) : Prop := ∃ ds, s.toList = '0' :: 'x' :: ds ∧ Numeral ds n

/-- The same with a plus sign before the digits, which is none. -/
def Signed (s : String) (n : Nat) : Prop :=
  ∃ ds, s.toList = '0' :: 'x' :: '+' :: ds ∧ Numeral ds n

variable {s : String} {n : Nat}

/-! ## Reading -/

theorem not_numeral_sign (ds : List Char) : ¬Numeral ('+' :: ds) n := by
  rintro ⟨-, vs, hvs, -⟩
  have hsign : digitValue? '+' = none := rfl
  cases vs <;> simp [hsign] at hvs

/-- Behind the `0x` there are digits, or a sign and digits. -/
theorem readNat_eq_ok_iff {limit : Nat} {cs : List Char} (hne : cs ≠ []) :
    readNat 16 limit cs = .ok n ↔
      n ≤ limit ∧ (Numeral cs n ∨ ∃ ds, cs = '+' :: ds ∧ Numeral ds n) := by
  unfold readNat
  split
  · exact absurd rfl hne
  · constructor
    · rintro ⟨⟩
    · rintro ⟨-, h | ⟨ds, hds, h⟩⟩
      · exact absurd h (not_numeral_sign [])
      · cases hds
        exact absurd rfl h.1
  · rename_i ds hds
    have hdigits : ds ≠ [] := fun hnil => hds (hnil ▸ rfl)
    rw [Text.readDigits_zero_iff hdigits]
    refine and_congr_right fun _ => ⟨fun h => .inr ⟨ds, rfl, h⟩, ?_⟩
    rintro (h | ⟨ds', hcons, h⟩)
    · exact absurd h (not_numeral_sign ds)
    · cases hcons
      exact h
  · rename_i hnosign
    rw [Text.readDigits_zero_iff hne]
    refine and_congr_right fun _ => ⟨.inl, ?_⟩
    rintro (h | ⟨ds, hcons, -⟩)
    · exact h
    · exact absurd hcons (hnosign ds)

/-- A text that is read begins with `0x`. -/
theorem digits?_eq_some_iff {cs : List Char} :
    digits? s = some cs ↔ s.toList = '0' :: 'x' :: cs := by
  unfold digits?
  split
  · rename_i ds hds
    simp [hds]
  · rename_i hnone
    simp only [reduceCtorEq, false_iff]
    exact fun h => hnone cs h

/-- **What is read is what the digits spell**, with a sign before them or without. -/
theorem parse_eq_ok_iff : parse s = .ok n ↔ n < 2 ^ 128 ∧ (Plain s n ∨ Signed s n) := by
  have hlimit : n ≤ Nat.pow 2 128 - 1 ↔ n < 2 ^ 128 := by
    have hpow : Nat.pow 2 128 = 2 ^ 128 := rfl
    omega
  unfold parse
  split
  · rename_i hnone
    constructor
    · rintro ⟨⟩
    · rintro ⟨-, ⟨ds, hds, -⟩ | ⟨ds, hds, -⟩⟩ <;>
        cases (digits?_eq_some_iff.2 hds).symm.trans hnone
  · rename_i hempty
    have hs := digits?_eq_some_iff.1 hempty
    constructor
    · rintro ⟨⟩
    · rintro ⟨-, ⟨ds, hds, h⟩ | ⟨ds, hds, -⟩⟩
      · cases hs.symm.trans hds
        exact absurd rfl h.1
      · cases hs.symm.trans hds
  · rename_i cs hne hcs
    have hs := digits?_eq_some_iff.1 hcs
    have hread : readNat 16 (Nat.pow 2 128 - 1) cs = .ok n ↔ _ := readNat_eq_ok_iff hne
    have hspelled : (Numeral cs n ∨ ∃ ds, cs = '+' :: ds ∧ Numeral ds n) ↔
        Plain s n ∨ Signed s n := by
      simp only [Plain, Signed, hs, List.cons.injEq, true_and, exists_eq_left']
    rw [hspelled, hlimit] at hread
    rw [← hread]
    split <;> rename_i heq <;> simp [heq]

/-- A text that is not read is malformed. -/
theorem parse_error {e : Ledger.Error} (h : parse s = .error e) : ∃ text, e = .malformed text := by
  unfold parse at h
  split at h
  · cases h
    exact ⟨_, rfl⟩
  · cases h
    exact ⟨_, rfl⟩
  · split at h
    · cases h
    · cases h
      exact ⟨_, rfl⟩

/-- Of what is read, 64 bits are kept, or it is malformed too. -/
theorem parseWord_eq_ok_iff {w : UInt64} : parseWord s = .ok w ↔ parse s = .ok w.toNat := by
  unfold parseWord
  split
  · rename_i e he
    simp [he]
  · rename_i n hn
    rw [hn]
    split
    · rename_i hlt
      rw [Except.ok.injEq, Except.ok.injEq]
      constructor
      · rintro rfl
        exact (UInt64.toNat_ofNat_of_lt' hlt).symm
      · rintro rfl
        exact UInt64.ofNat_toNat
    · rename_i hge
      have hlt := w.toNat_lt
      simp only [reduceCtorEq, Except.ok.injEq, false_iff]
      rintro rfl
      exact hge hlt

theorem parseWord_error {e : Ledger.Error} (h : parseWord s = .error e) :
    ∃ text, e = .malformed text := by
  unfold parseWord at h
  split at h
  · rename_i he
    cases h
    exact parse_error he
  · split at h
    · cases h
    · cases h
      exact ⟨_, rfl⟩

/-! ## Writing -/

/-- A quantity is written as one. -/
theorem plain_render (n : UInt64) : Plain (render n) n.toNat := by
  refine ⟨(Text.hexNat n.toNat).toList, ?_, (Text.shortest_hexNat n.toNat).numeral⟩
  rw [render, String.toList_append]
  rfl

/-- **What is written reads back.** -/
theorem parseWord_render (n : UInt64) : parseWord (render n) = .ok n := by
  have hlt : n.toNat < 2 ^ 128 := Nat.lt_trans n.toNat_lt (by decide)
  exact parseWord_eq_ok_iff.2 (parse_eq_ok_iff.2 ⟨hlt, .inl (plain_render n)⟩)

/-! ## What is read from a text -/

/-- What is read from a text. -/
structure ReadsQuantity (s : String) : Prop where
  /-- A number is read if the text is a quantity within 128 bits, or one with a sign, -/
  wide : ∀ n, parse s = .ok n ↔ n < 2 ^ 128 ∧ (Plain s n ∨ Signed s n)
  /-- and a word if it is within 64 bits too; -/
  word : ∀ n : UInt64, parseWord s = .ok n ↔ Plain s n.toNat ∨ Signed s n.toNat
  /-- any other text is malformed. -/
  wideFault : (∀ n < 2 ^ 128, ¬Plain s n ∧ ¬Signed s n) → ∃ text, parse s = .error (.malformed text)
  wordFault : (∀ n < 2 ^ 64, ¬Plain s n ∧ ¬Signed s n) →
    ∃ text, parseWord s = .error (.malformed text)
  /-- So quantities and nothing else are read unless there is a sign, -/
  exactly : (∀ n, parse s = .ok n ↔ n < 2 ^ 128 ∧ Plain s n) ↔ ∀ n < 2 ^ 128, ¬Signed s n
  /-- and what is written reads back. -/
  written : ∀ n : UInt64, s = render n → parseWord s = .ok n

theorem not_plain_of_signed {m : Nat} (h : Signed s n) : ¬Plain s m := by
  rintro ⟨ds, hds, hplain⟩
  obtain ⟨ds', hds', -⟩ := h
  cases hds.symm.trans hds'
  exact not_numeral_sign ds' hplain

/-- **What is read from a text.** -/
theorem readsQuantity_of (s : String) : ReadsQuantity s := by
  have hword : ∀ n : UInt64, parseWord s = .ok n ↔ Plain s n.toNat ∨ Signed s n.toNat := by
    intro n
    have hlt : n.toNat < 2 ^ 128 := Nat.lt_trans n.toNat_lt (by decide)
    rw [parseWord_eq_ok_iff, parse_eq_ok_iff, and_iff_right hlt]
  constructor
  · exact fun n => parse_eq_ok_iff
  · exact hword
  · intro hnone
    rcases hparse : parse s with e | n
    · obtain ⟨text, rfl⟩ := parse_error hparse
      exact ⟨text, rfl⟩
    · obtain ⟨hlt, hplain | hsigned⟩ := parse_eq_ok_iff.1 hparse
      · exact absurd hplain (hnone n hlt).1
      · exact absurd hsigned (hnone n hlt).2
  · intro hnone
    rcases hparse : parseWord s with e | n
    · obtain ⟨text, rfl⟩ := parseWord_error hparse
      exact ⟨text, rfl⟩
    · obtain hplain | hsigned := (hword n).1 hparse
      · exact absurd hplain (hnone _ n.toNat_lt).1
      · exact absurd hsigned (hnone _ n.toNat_lt).2
  · constructor
    · intro hexact n hlt hsigned
      have hread : parse s = .ok n := parse_eq_ok_iff.2 ⟨hlt, .inr hsigned⟩
      exact not_plain_of_signed hsigned ((hexact n).1 hread).2
    · intro hnone n
      rw [parse_eq_ok_iff]
      refine and_congr_right fun hlt => ⟨?_, .inl⟩
      rintro (hplain | hsigned)
      · exact hplain
      · exact absurd hsigned (hnone n hlt)
  · rintro n rfl
    exact parseWord_render n

/-- A sign is passed over: a text that is no quantity is read as one. -/
theorem parse_sign : parse "0x+1f" = .ok 31 ∧ ∀ n, ¬Plain "0x+1f" n := by
  have hsigned : Signed "0x+1f" 31 :=
    ⟨['1', 'f'], rfl, by simp, [1, 15], rfl, rfl⟩
  exact ⟨parse_eq_ok_iff.2 ⟨by decide, .inr hsigned⟩, fun n => not_plain_of_signed hsigned⟩

end LedgerGate.Rpc.Quantity
