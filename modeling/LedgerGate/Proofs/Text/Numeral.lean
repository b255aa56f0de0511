/-
  Numbers spelled in hexadecimal.

  A text of digits spells one number, in either case and with any zeros before it.  Among the
  texts of a number there is one in lower case without leading zeros.

  * `Numeral`: a text of digits and the number that it spells;
  * `readDigits_zero_iff`: **digits are read exactly if they spell a number within the limit**;
  * `Shortest`: lower case, no zeros in front; `Shortest.unique`: there is only one such text;
  * `shortest_toDigits`, `shortest_bytes`: two ways to it, from the number and from its bytes.
-/
import LedgerGate.Proofs.Text.Spelling
import Mathlib.Data.List.Induction
import Mathlib.Data.Nat.Digits.Lemmas
import Mathlib.Tactic.Ring

namespace LedgerGate.Text

/-! ## Digits -/

/-- A text of digits in either case, the highest first, and the number that they spell. -/
def Numeral (cs : List Char) (n : Nat) : Prop :=
  cs ≠ [] ∧ ∃ ds : List Nat, cs.map digitValue? = ds.map some ∧ n = Nat.ofDigits 16 ds.reverse

variable {c : Char} {cs cs' : List Char} {d n m : Nat}

theorem toNat_lt_of_digitValue? (h : digitValue? c = some d) : c.toNat < 128 := by
  rcases Nat.lt_or_ge c.toNat 0x80 with hplain | hbeyond
  · exact hplain
  · rw [digitValue?_eq_none hbeyond] at h
    cases h

theorem digitValue?_lt (h : digitValue? c = some d) : d < 16 := by
  have hall : ∀ k : Fin 128, ∀ d ∈ digitValue? (Char.ofNat k.val), d < 16 := by decide
  have hd := hall ⟨c.toNat, toNat_lt_of_digitValue? h⟩ d
  rw [Char.ofNat_toNat] at hd
  exact hd h

/-- A digit that is not in upper case is the one that is written. -/
theorem eq_hexDigit (h : digitValue? c = some d) (hlower : c.isUpper = false) : c = hexDigit d := by
  have hall : ∀ k : Fin 128, ∀ d ∈ digitValue? (Char.ofNat k.val),
      (Char.ofNat k.val).isUpper = false → Char.ofNat k.val = hexDigit d := by decide
  have hd := hall ⟨c.toNat, toNat_lt_of_digitValue? h⟩ d
  rw [Char.ofNat_toNat] at hd
  exact hd h hlower

theorem isUpper_hexDigit (h : d < 16) : (hexDigit d).isUpper = false := by
  have hall : ∀ d : Fin 16, (hexDigit d.val).isUpper = false := by decide
  exact hall ⟨d, h⟩

theorem hexDigit_eq_digitChar (h : d < 16) : hexDigit d = d.digitChar := by
  have hall : ∀ d : Fin 16, hexDigit d.val = d.val.digitChar := by decide
  exact hall ⟨d, h⟩

/-! ## Numerals -/

theorem Numeral.unique (h : Numeral cs n) (h' : Numeral cs m) : n = m := by
  obtain ⟨-, ds, hds, rfl⟩ := h
  obtain ⟨-, ds', hds', rfl⟩ := h'
  have hsame : ds = ds' := by
    rw [hds] at hds'
    exact List.map_injective_iff.2 (Option.some_injective Nat) hds'
  rw [hsame]

theorem numeral_singleton (h : digitValue? c = some d) : Numeral [c] d :=
  ⟨List.cons_ne_nil c [], [d], by rw [List.map_singleton, h]; rfl, by simp⟩

/-- A digit behind some digits. -/
theorem Numeral.concat (h : Numeral cs n) (hc : digitValue? c = some d) :
    Numeral (cs ++ [c]) (n * 16 + d) := by
  obtain ⟨hne, ds, hds, rfl⟩ := h
  refine ⟨by simp, ds ++ [d], by simp [hds, hc], ?_⟩
  rw [List.reverse_append, List.reverse_singleton, List.singleton_append, Nat.ofDigits_cons]
  ring

/-- Zeros in front spell nothing. -/
theorem numeral_zero_cons (hne : cs ≠ []) : Numeral ('0' :: cs) n ↔ Numeral cs n := by
  have hzero : digitValue? '0' = some 0 := rfl
  have hvalue (ds : List Nat) : Nat.ofDigits 16 (0 :: ds).reverse = Nat.ofDigits 16 ds.reverse := by
    rw [List.reverse_cons, Nat.ofDigits_append]
    simp
  constructor
  · rintro ⟨-, ds, hds, rfl⟩
    obtain ⟨d, ds, rfl⟩ : ∃ d ds', ds = d :: ds' := by
      cases ds with
      | nil => simp at hds
      | cons d ds => exact ⟨d, ds, rfl⟩
    simp only [List.map_cons, hzero, List.cons.injEq, Option.some.injEq] at hds
    obtain ⟨rfl, hds⟩ := hds
    exact ⟨hne, ds, hds, hvalue ds⟩
  · rintro ⟨-, ds, hds, rfl⟩
    exact ⟨List.cons_ne_nil _ _, 0 :: ds, by simp [hds, hzero], (hvalue ds).symm⟩

/-! ## Reading -/

/-- Digits are read onto a number within the limit exactly if they spell what is missing. -/
theorem readDigits_eq_ok_iff {limit acc : Nat} {excess : IntegerError} (hacc : acc ≤ limit) :
    readDigits 16 limit excess cs acc = .ok n ↔ n ≤ limit ∧
      ∃ ds : List Nat, cs.map digitValue? = ds.map some ∧
        n = acc * 16 ^ ds.length + Nat.ofDigits 16 ds.reverse := by
  induction cs generalizing acc with
  | nil =>
    constructor
    · intro h
      cases h
      exact ⟨hacc, [], rfl, by simp⟩
    · rintro ⟨-, ds, hds, rfl⟩
      obtain rfl : ds = [] := by simpa using hds.symm
      simp [readDigits]
  | cons c cs ih =>
    rcases hc : digitValue? c with _ | d
    · simp only [readDigits, hc, List.map_cons]
      constructor
      · rintro ⟨⟩
      · rintro ⟨-, ds, hds, -⟩
        cases ds <;> simp at hds
    have hd := digitValue?_lt hc
    have hvalue (ds : List Nat) : acc * 16 ^ (d :: ds).length + Nat.ofDigits 16 (d :: ds).reverse =
        (acc * 16 + d) * 16 ^ ds.length + Nat.ofDigits 16 ds.reverse := by
      rw [List.reverse_cons, Nat.ofDigits_append, List.length_reverse, List.length_cons]
      simp only [Nat.ofDigits_singleton]
      ring
    by_cases hfits : acc * 16 + d ≤ limit
    · simp only [readDigits, hc, hd, hfits, if_true, ih hfits]
      refine and_congr_right fun _ => ⟨?_, ?_⟩
      · rintro ⟨ds, hds, hn⟩
        exact ⟨d :: ds, by simp [hc, hds], by rw [hvalue, hn]⟩
      · rintro ⟨ds, hds, hn⟩
        cases ds with
        | nil => simp at hds
        | cons e ds =>
          simp only [List.map_cons, hc, List.cons.injEq, Option.some.injEq] at hds
          obtain ⟨rfl, hds⟩ := hds
          exact ⟨ds, hds, by rw [hn, hvalue]⟩
    · simp only [readDigits, hc, hd, hfits, if_true, if_false]
      constructor
      · rintro ⟨⟩
      · -- what is too large already does not get smaller
        rintro ⟨hn, ds, hds, rfl⟩
        cases ds with
        | nil => simp at hds
        | cons e ds =>
          simp only [List.map_cons, hc, List.cons.injEq, Option.some.injEq] at hds
          obtain ⟨rfl, -⟩ := hds
          rw [hvalue] at hn
          have hle : acc * 16 + d ≤ (acc * 16 + d) * 16 ^ ds.length :=
            Nat.le_mul_of_pos_right _ (by positivity)
          omega

/-- **Digits are read exactly if they spell a number within the limit.** -/
theorem readDigits_zero_iff {limit : Nat} {excess : IntegerError} (hne : cs ≠ []) :
    readDigits 16 limit excess cs 0 = .ok n ↔ n ≤ limit ∧ Numeral cs n := by
  rw [readDigits_eq_ok_iff (Nat.zero_le limit)]
  simp [Numeral, hne]

/-! ## The shortest text -/

/-- The text of a number in lower case, without zeros in front; zero itself is one digit. -/
structure Shortest (cs : List Char) (n : Nat) : Prop where
  numeral : Numeral cs n
  lower : ∀ c ∈ cs, c.isUpper = false
  head : cs.head? = some '0' → cs = ['0']

/-- A text in lower case is the one written for its digits. -/
theorem eq_map_hexDigit {ds : List Nat} (hds : cs.map digitValue? = ds.map some)
    (hlower : ∀ c ∈ cs, c.isUpper = false) : cs = ds.map hexDigit := by
  induction cs generalizing ds with
  | nil =>
    obtain rfl : ds = [] := by simpa using hds.symm
    rfl
  | cons c cs ih =>
    cases ds with
    | nil => simp at hds
    | cons d ds =>
      simp only [List.map_cons, List.cons.injEq] at hds
      rw [List.map_cons, eq_hexDigit hds.1 (hlower c List.mem_cons_self),
        ih hds.2 fun e he => hlower e (List.mem_cons_of_mem c he)]

theorem lt_of_mem_digits {ds : List Nat} (hds : cs.map digitValue? = ds.map some) :
    ∀ d ∈ ds, d < 16 := by
  intro d hd
  have hmem : some d ∈ cs.map digitValue? := by rw [hds]; exact List.mem_map_of_mem hd
  obtain ⟨c, -, hc⟩ := List.mem_map.1 hmem
  exact digitValue?_lt hc

/-- The digits of a shortest text are those of the number. -/
theorem Shortest.eq_digits (h : Shortest cs n) :
    n = 0 ∧ cs = ['0'] ∨ cs = (Nat.digits 16 n).reverse.map hexDigit := by
  obtain ⟨⟨hne, ds, hds, rfl⟩, hlower, hhead⟩ := h
  have hcs := eq_map_hexDigit hds hlower
  have hsmall := lt_of_mem_digits hds
  obtain ⟨d, ds, rfl⟩ := List.exists_cons_of_ne_nil (show ds ≠ [] by rintro rfl; exact hne hcs)
  by_cases hd : d = 0
  · subst hd
    have hsingle : cs = ['0'] := hhead (by rw [hcs]; rfl)
    rw [hsingle] at hcs
    obtain rfl : ds = [] := List.map_eq_nil_iff.1 (List.cons.inj hcs).2.symm
    exact .inl ⟨rfl, hsingle⟩
  · refine .inr ?_
    rw [Nat.digits_ofDigits 16 (by decide) _ (fun l hl => hsmall l (List.mem_reverse.1 hl))
      (fun _ => by simpa using hd), List.reverse_reverse, ← hcs]

/-- **There is one shortest text.** -/
theorem Shortest.unique (h : Shortest cs n) (h' : Shortest cs' n) : cs = cs' := by
  have hzero : (Nat.digits 16 0).reverse.map hexDigit = [] := by simp
  rcases h.eq_digits with ⟨rfl, rfl⟩ | hcs
  · rcases h'.eq_digits with ⟨-, rfl⟩ | hcs'
    · rfl
    · exact absurd (hcs'.trans hzero) h'.numeral.1
  · rcases h'.eq_digits with ⟨rfl, rfl⟩ | hcs'
    · exact absurd (hcs.trans hzero) h.numeral.1
    · rw [hcs, hcs']

/-- The digits of a number are its shortest text. -/
theorem shortest_toDigits (n : Nat) : Shortest (Nat.toDigits 16 n) n := by
  induction n using Nat.strongRecOn with
  | ind n ih =>
    rcases Nat.lt_or_ge n 16 with hlt | hge
    · have hdigit := hexDigit_eq_digitChar hlt
      rw [Nat.toDigits_of_lt_base hlt, ← hdigit]
      refine ⟨numeral_singleton (hexDigit_spec hlt).1, ?_, ?_⟩
      · intro c hc
        rw [List.mem_singleton.1 hc]
        exact isUpper_hexDigit hlt
      · intro hhead
        simpa using hhead
    · have hlow : n % 16 < 16 := Nat.mod_lt n (by decide)
      obtain ⟨hnumeral, hlower, hhead⟩ := ih (n / 16) (by omega)
      rw [Nat.toDigits_of_base_le (by decide) hge, ← hexDigit_eq_digitChar hlow]
      refine ⟨?_, ?_, ?_⟩
      · have hconcat := hnumeral.concat (hexDigit_spec hlow).1
        rwa [Nat.div_add_mod'] at hconcat
      · intro c hc
        rcases List.mem_append.1 hc with hc | hc
        · exact hlower c hc
        · rw [List.mem_singleton.1 hc]
          exact isUpper_hexDigit hlow
      · intro hzero
        rw [List.head?_append_of_ne_nil _ hnumeral.1] at hzero
        -- what stands before the last digit is at least one
        have hone := hhead hzero
        rw [hone] at hnumeral
        have hn : n / 16 = 0 := hnumeral.unique (numeral_singleton rfl)
        omega

theorem shortest_hexNat (n : Nat) : Shortest (hexNat n).toList n := by
  rw [hexNat, String.toList_ofList]
  exact shortest_toDigits n

/-! ## From bytes -/

/-- Digits without the zeros in front of them; of zeros alone one stays. -/
def withoutZeros (cs : List Char) : List Char :=
  match cs.dropWhile (· == '0') with
  | [] => ['0']
  | rest => rest

/-- Bytes are written as digits of the number that they are, the highest byte first. -/
theorem numeral_encodeHexChars {bytes : List UInt8} (hne : bytes ≠ []) :
    Numeral (encodeHexChars bytes) (Nat.ofDigits 256 (bytes.reverse.map UInt8.toNat)) := by
  induction bytes using List.reverseRecOn with
  | nil => exact absurd rfl hne
  | append_singleton bs b ih =>
    have hb := b.toNat_lt
    have hhi := (hexDigit_spec (n := b.toNat / 16) (by omega)).1
    have hlo := (hexDigit_spec (n := b.toNat % 16) (by omega)).1
    have hvalue : Nat.ofDigits 256 ((bs ++ [b]).reverse.map UInt8.toNat) =
        (Nat.ofDigits 256 (bs.reverse.map UInt8.toNat) * 16 + b.toNat / 16) * 16 +
          b.toNat % 16 := by
      rw [List.reverse_append, List.reverse_singleton, List.singleton_append, List.map_cons,
        Nat.ofDigits_cons]
      omega
    have hwritten : encodeHexChars (bs ++ [b]) =
        encodeHexChars bs ++ [hexDigit (b.toNat / 16)] ++ [hexDigit (b.toNat % 16)] := by
      simp [encodeHexChars, hexByte]
    rw [hvalue, hwritten]
    rcases List.eq_nil_or_concat bs with rfl | ⟨bs', b', rfl⟩
    · have hpair := (numeral_singleton hhi).concat hlo
      simpa [encodeHexChars] using hpair
    · exact ((ih (by simp)).concat hhi).concat hlo

theorem shortest_withoutZeros (h : Numeral cs n) (hlower : ∀ c ∈ cs, c.isUpper = false) :
    Shortest (withoutZeros cs) n := by
  induction cs with
  | nil => exact absurd rfl h.1
  | cons c cs ih =>
    have hrest : ∀ e ∈ cs, e.isUpper = false := fun e he => hlower e (List.mem_cons_of_mem c he)
    by_cases hc : c = '0'
    · subst hc
      have hdrop : withoutZeros ('0' :: cs) = withoutZeros cs := rfl
      rw [hdrop]
      by_cases hne : cs = []
      · subst hne
        obtain rfl : n = 0 := h.unique (numeral_singleton rfl)
        exact ⟨h, hlower, fun _ => rfl⟩
      · exact ih ((numeral_zero_cons hne).1 h) hrest
    · have hkept : withoutZeros (c :: cs) = c :: cs := by
        rw [withoutZeros, List.dropWhile_cons_of_neg (by simpa using hc)]
      rw [hkept]
      exact ⟨h, hlower, fun hhead => absurd (Option.some.inj hhead) hc⟩

/-- **The digits of some bytes without the zeros in front are the shortest text** of the number
    that they are. -/
theorem shortest_bytes {bytes : List UInt8} (hne : bytes ≠ []) :
    Shortest (withoutZeros (encodeHexChars bytes))
      (Nat.ofDigits 256 (bytes.reverse.map UInt8.toNat)) := by
  refine shortest_withoutZeros (numeral_encodeHexChars hne) fun c hc => ?_
  obtain ⟨d, hd, rfl⟩ := mem_encodeHexChars hc
  exact isUpper_hexDigit hd

end LedgerGate.Text
