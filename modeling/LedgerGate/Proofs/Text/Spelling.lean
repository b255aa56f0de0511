/-
  What a hexadecimal text spells.

  Two digits, in either case, are a byte.  A text is read as bytes of UTF-8, but only plain
  characters are digits, so what is read is what its characters spell, and nothing else is read.

  * `Spells`: a text and its bytes;
  * `decodeHex_eq_ok_iff`: **a text is read as some bytes exactly if it spells them.**
-/
import LedgerGate.Proofs.Text.Hex

namespace LedgerGate.Text

/-- A text is two digits for every one of some bytes, the higher digit first. -/
inductive Spells : List Char → List UInt8 → Prop
  | nil : Spells [] []
  | cons {hi lo : Char} {h l : Nat} {text : List Char} {bytes : List UInt8} :
      digitValue? hi = some h → digitValue? lo = some l → Spells text bytes →
      Spells (hi :: lo :: text) (UInt8.ofNat (h * 16 + l) :: bytes)

variable {text : List Char} {bytes : List UInt8}

/-- What is written for some bytes spells them. -/
theorem spells_encodeHexChars (bytes : List UInt8) : Spells (encodeHexChars bytes) bytes := by
  induction bytes with
  | nil => exact .nil
  | cons b bs ih =>
    have hb := b.toNat_lt
    have hhi := (hexDigit_spec (n := b.toNat / 16) (by omega)).1
    have hlo := (hexDigit_spec (n := b.toNat % 16) (by omega)).1
    have hbyte : UInt8.ofNat (b.toNat / 16 * 16 + b.toNat % 16) = b := by
      rw [Nat.div_add_mod', UInt8.ofNat_toNat]
    have hspells := Spells.cons hhi hlo ih
    rwa [hbyte] at hspells

/-! ## Reading -/

/-- No digit is beyond the plain characters. -/
theorem digitValue?_eq_none {c : Char} (h : 0x80 ≤ c.toNat) : digitValue? c = none := by
  have hbeyond : ∀ d : Char, d.toNat < 0x80 → ¬c ≤ d := by
    intro d hd hle
    have hle : c.toNat ≤ d.toNat := hle
    omega
  unfold digitValue?
  rw [if_neg fun hc => hbeyond '9' (by decide) hc.2, if_neg fun hc => hbeyond 'f' (by decide) hc.2,
    if_neg fun hc => hbeyond 'F' (by decide) hc.2]

/-- A digit is one byte, which spells it. -/
theorem utf8EncodeChar_digit {c : Char} {n : Nat} (h : digitValue? c = some n) :
    ∃ b, String.utf8EncodeChar c = [b] ∧ byteDigit? b = some n := by
  rcases Nat.lt_or_ge c.toNat 0x80 with hplain | hbeyond
  · have hsize : c.utf8Size = 1 := Char.utf8Size_eq_one_iff.2 (Nat.le_of_lt_succ hplain)
    have hlt : c.toUInt8 < 0x80 := by
      rw [UInt8.lt_iff_toNat_lt, toNat_toUInt8 hplain]
      exact hplain
    refine ⟨c.toUInt8, String.utf8EncodeChar_eq_singleton hsize, ?_⟩
    rw [byteDigit?, if_pos hlt, toNat_toUInt8 hplain, Char.ofNat_toNat, h]
  · rw [digitValue?_eq_none hbeyond] at h
    cases h

/-- The first byte of any other character spells no digit. -/
theorem utf8EncodeChar_other {c : Char} (h : digitValue? c = none) :
    ∃ b rest, String.utf8EncodeChar c = b :: rest ∧ byteDigit? b = none := by
  rcases Nat.lt_or_ge c.toNat 0x80 with hplain | hbeyond
  · have hsize : c.utf8Size = 1 := Char.utf8Size_eq_one_iff.2 (Nat.le_of_lt_succ hplain)
    refine ⟨c.toUInt8, [], String.utf8EncodeChar_eq_singleton hsize, ?_⟩
    rw [byteDigit?, toNat_toUInt8 hplain, Char.ofNat_toNat, h, ite_self]
  · -- the first byte of a longer character is no plain one
    have hfirst : ∀ n, 0x80 ≤ n → n < 256 → byteDigit? (UInt8.ofNat n) = none := by
      intro n hle hlt
      refine if_neg ?_
      rw [UInt8.lt_iff_toNat_lt, UInt8.toNat_ofNat', Nat.mod_eq_of_lt hlt]
      exact Nat.not_lt.2 hle
    have hval : ¬c.val.toNat ≤ 127 := Nat.not_le.2 hbeyond
    unfold String.utf8EncodeChar
    dsimp only
    rw [if_neg hval]
    split_ifs <;> exact ⟨_, _, rfl, hfirst _ (by omega) (by omega)⟩

section
variable {hi lo : Char} (more : List UInt8) (index : Nat)

/-- Two digits are read as a byte, -/
theorem decodeHexPairs_digits {h l : Nat} (hhi : digitValue? hi = some h)
    (hlo : digitValue? lo = some l) :
    decodeHexPairs (String.utf8EncodeChar hi ++ (String.utf8EncodeChar lo ++ more)) index =
      (decodeHexPairs more (index + 2)).map (UInt8.ofNat (h * 16 + l) :: ·) := by
  obtain ⟨b, hb, hdigit⟩ := utf8EncodeChar_digit hhi
  obtain ⟨b', hb', hdigit'⟩ := utf8EncodeChar_digit hlo
  simp [hb, hb', decodeHexPairs, hdigit, hdigit']

/-- and anything else is a fault. -/
theorem decodeHexPairs_fault (h : digitValue? hi = none ∨ digitValue? lo = none) :
    ∃ e, decodeHexPairs (String.utf8EncodeChar hi ++ (String.utf8EncodeChar lo ++ more)) index =
      .error e := by
  rcases hhi : digitValue? hi with _ | n
  · obtain ⟨b, rest, hb, hnone⟩ := utf8EncodeChar_other hhi
    rcases hmore : rest ++ (String.utf8EncodeChar lo ++ more) with _ | ⟨x, xs⟩
    · exact ⟨.oddLength, by rw [hb, List.cons_append, hmore]; rfl⟩
    · exact ⟨.invalidDigit b index, by simp [hb, hmore, decodeHexPairs, hnone]⟩
  · obtain ⟨b, hb, hdigit⟩ := utf8EncodeChar_digit hhi
    have hlo : digitValue? lo = none := by
      rcases h with h | h
      · cases hhi.symm.trans h
      · exact h
    obtain ⟨b', rest, hb', hnone⟩ := utf8EncodeChar_other hlo
    exact ⟨.invalidDigit b' (index + 1), by simp [hb, hb', decodeHexPairs, hdigit, hnone]⟩

end

/-- Bytes are read in pairs. -/
theorem length_of_decodeHexPairs {encoded : List UInt8} {index : Nat}
    (h : decodeHexPairs encoded index = .ok bytes) : encoded.length = 2 * bytes.length := by
  fun_induction decodeHexPairs encoded index generalizing bytes with
  | case1 | case2 | case4 => cases h
  | case3 hi lo rest index _ _ _ _ ih =>
    rcases hrest : decodeHexPairs rest (index + 2) with e | bs
    · rw [hrest] at h
      cases h
    · rw [hrest] at h
      cases h
      simp [ih hrest]
      omega
  | case5 =>
    cases h
    rfl

/-- What a text spells is read, -/
theorem Spells.decodeHexPairs_eq (h : Spells text bytes) (index : Nat) :
    decodeHexPairs (text.flatMap String.utf8EncodeChar) index = .ok bytes := by
  induction h generalizing index with
  | nil => rfl
  | cons hhi hlo _ ih =>
    rw [List.flatMap_cons, List.flatMap_cons, decodeHexPairs_digits _ _ hhi hlo, ih]
    rfl

/-- and what is read the text spells. -/
theorem spells_of_decodeHexPairs (text : List Char) (index : Nat) {bytes : List UInt8}
    (h : decodeHexPairs (text.flatMap String.utf8EncodeChar) index = .ok bytes) :
    Spells text bytes := by
  match text with
  | [] =>
    cases h
    exact .nil
  | [c] =>
    have hpairs := length_of_decodeHexPairs h
    rcases hc : digitValue? c with _ | n
    · obtain ⟨b, rest, hb, hnone⟩ := utf8EncodeChar_other hc
      rw [List.flatMap_singleton, hb] at h
      cases rest with
      | nil => cases h
      | cons b' rest =>
        rw [decodeHexPairs, hnone] at h
        cases h
    · obtain ⟨b, hb, -⟩ := utf8EncodeChar_digit hc
      rw [List.flatMap_singleton, hb, List.length_singleton] at hpairs
      omega
  | hi :: lo :: text =>
    rw [List.flatMap_cons, List.flatMap_cons] at h
    by_cases hfault : digitValue? hi = none ∨ digitValue? lo = none
    · obtain ⟨e, he⟩ := decodeHexPairs_fault (text.flatMap String.utf8EncodeChar) index hfault
      cases he.symm.trans h
    · obtain ⟨n, hhi⟩ := Option.ne_none_iff_exists'.1 (not_or.1 hfault).1
      obtain ⟨m, hlo⟩ := Option.ne_none_iff_exists'.1 (not_or.1 hfault).2
      rw [decodeHexPairs_digits _ _ hhi hlo] at h
      rcases hrest : decodeHexPairs (text.flatMap String.utf8EncodeChar) (index + 2) with e | bs
      · rw [hrest] at h
        cases h
      · rw [hrest] at h
        cases h
        exact .cons hhi hlo (spells_of_decodeHexPairs text (index + 2) hrest)

/-- **A text is read as some bytes exactly if it spells them.** -/
theorem decodeHex_eq_ok_iff {s : String} {bytes : List UInt8} :
    decodeHex s = .ok bytes ↔ Spells s.toList bytes := by
  rw [decodeHex, toList_toUTF8, decodeHexBytes]
  constructor
  · intro h
    split at h
    · cases h
    · exact spells_of_decodeHexPairs s.toList 0 h
  · intro h
    have hread := h.decodeHexPairs_eq 0
    have hpairs := length_of_decodeHexPairs hread
    rw [if_neg (by omega), hread]

end LedgerGate.Text
