/-
  Numbers as they are written in JSON.

  A number is digits without a leading zero, after a minus sign or not, then perhaps a fraction
  and perhaps an exponent.  All of them are read and nothing else; what they are read as is
  settled here for those without a fraction and an exponent.

  * `Number`, `number?_isSome_iff`: **a text is read as a number exactly if it is one**;
  * `Integer`: a literal that is written as an integer, and its value;
  * `number?_integer`: it is read as that integer if it fits 64 bits and is no negative zero;
  * `number?_beyond`: any other is read as a double, if as a value at all;
  * `number?_renderInt`: **an integer in range reads back**.
-/
import LedgerGate.Json.Reader
import LedgerGate.Proofs.Json.Integers
import Mathlib.Algebra.Ring.Nat
import Mathlib.Data.List.TakeWhile

namespace LedgerGate.Json

/-! ## Grammar -/

/-- One digit or more. -/
def Digits (cs : List Char) : Prop := cs ≠ [] ∧ ∀ c ∈ cs, c.isDigit = true

/-- Digits without a leading zero. -/
def Whole (cs : List Char) : Prop := Digits cs ∧ (cs.head? = some '0' → cs = ['0'])

/-- A fraction, or none. -/
inductive Fraction : List Char → Prop
  | none : Fraction []
  | digits {ds : List Char} : Digits ds → Fraction ('.' :: ds)

/-- An exponent, or none. -/
inductive Exponent : List Char → Prop
  | none : Exponent []
  | digits {e : Char} {ds : List Char} : e = 'e' ∨ e = 'E' → Digits ds → Exponent (e :: ds)
  | signed {e sign : Char} {ds : List Char} :
      e = 'e' ∨ e = 'E' → sign = '+' ∨ sign = '-' → Digits ds → Exponent (e :: sign :: ds)

/-- What may follow the whole part of a number. -/
def Tail (cs : List Char) : Prop :=
  ∃ fraction exponent, cs = fraction ++ exponent ∧ Fraction fraction ∧ Exponent exponent

/-- A number without its sign. -/
def Unsigned (cs : List Char) : Prop := ∃ whole tail, cs = whole ++ tail ∧ Whole whole ∧ Tail tail

/-- A number. -/
def Number (cs : List Char) : Prop := Unsigned cs ∨ ∃ ds, cs = '-' :: ds ∧ Unsigned ds

/-- A literal written as an integer, and its value. -/
inductive Integer : List Char → Int → Prop
  | plain {ds : List Char} : Whole ds → Integer ds (Nat.ofDigitChars 10 ds 0)
  | negative {ds : List Char} : Whole ds → Integer ('-' :: ds) (-(Nat.ofDigitChars 10 ds 0 : Int))

variable {cs ds : List Char} {negative : Bool} {significand : Nat} {start : Int}

/-! ## Runs -/

/-- A run of characters ends where something else follows. -/
theorem takeWhile_run {p : Char → Bool} (hds : ∀ c ∈ ds, p c = true)
    (hcs : ∀ c ∈ cs.head?, p c = false) :
    (ds ++ cs).takeWhile p = ds ∧ (ds ++ cs).dropWhile p = cs := by
  rw [List.takeWhile_append_of_pos hds, List.dropWhile_append_of_pos hds]
  cases cs with
  | nil => simp
  | cons c cs =>
    have hc : p c = false := hcs c rfl
    simp [hc]

theorem Exponent.head (h : Exponent cs) : ∀ c ∈ cs.head?, c.isDigit = false := by
  cases h with
  | none => nofun
  | digits he | signed he =>
    intro c hc
    cases hc
    rcases he with rfl | rfl <;> rfl

/-- A fraction begins with a point, and an exponent does not. -/
theorem tail_iff : Tail cs ↔ Exponent cs ∨
    ∃ ds exponent, cs = '.' :: (ds ++ exponent) ∧ Digits ds ∧ Exponent exponent := by
  constructor
  · rintro ⟨fraction, exponent, rfl, hfraction, hexponent⟩
    cases hfraction with
    | none => exact .inl hexponent
    | digits hds => exact .inr ⟨_, exponent, rfl, hds, hexponent⟩
  · rintro (h | ⟨ds, exponent, rfl, hds, hexponent⟩)
    · exact ⟨[], cs, rfl, .none, h⟩
    · exact ⟨'.' :: ds, exponent, rfl, .digits hds, hexponent⟩

theorem not_exponent_point : ¬Exponent ('.' :: cs) := by
  intro h
  cases h with
  | digits h | signed h => rcases h with h | h <;> cases h

theorem Tail.head (h : Tail cs) : ∀ c ∈ cs.head?, c.isDigit = false := by
  rcases tail_iff.1 h with h | ⟨ds, exponent, rfl, -, -⟩
  · exact h.head
  · intro c hc
    cases hc
    rfl

/-- What is taken off a text are digits, and they make the number. -/
theorem takeDigits_spec {acc taken : Nat} {a t : Nat} {rest : List Char}
    (hacc : acc ≤ significandLimit) (h : takeDigits cs acc taken = (a, t, rest)) :
    ∃ ds, cs = ds ++ rest ∧ (∀ c ∈ ds, c.isDigit = true) ∧ t = taken + ds.length ∧
      a = Nat.ofDigitChars 10 ds acc ∧ a ≤ significandLimit := by
  induction cs generalizing acc taken with
  | nil =>
    cases h
    exact ⟨[], rfl, nofun, rfl, rfl, hacc⟩
  | cons c cs ih =>
    rw [takeDigits] at h
    split at h
    · rename_i hc
      obtain ⟨ds, rfl, hds, rfl, rfl, hle⟩ := ih hc.2 h
      refine ⟨c :: ds, rfl, List.forall_mem_cons.2 ⟨hc.1, hds⟩, ?_, ?_, hle⟩
      · rw [List.length_cons]
        omega
      · rw [Nat.ofDigitChars_cons, Nat.mul_comm 10 acc]
    · cases h
      exact ⟨[], rfl, nofun, rfl, rfl, hacc⟩

/-- All digits are gone once those that are left are dropped. -/
theorem dropWhile_takeDigits {acc taken : Nat} {a t : Nat} {rest : List Char}
    (hacc : acc ≤ significandLimit) (h : takeDigits cs acc taken = (a, t, rest)) :
    rest.dropWhile Char.isDigit = cs.dropWhile Char.isDigit := by
  obtain ⟨ds, rfl, hds, -, -, -⟩ := takeDigits_spec hacc h
  rw [List.dropWhile_append_of_pos hds]

/-! ## What is read -/

theorem exponentPart_isSome_iff {e : Char} (he : e = 'e' ∨ e = 'E') :
    (exponentPart negative significand start cs).isSome ↔ Exponent (e :: cs) := by
  unfold exponentPart
  split
  rename_i minus digits hpair
  refine Iff.trans (b := Digits digits) ?_ ?_
  · have hdigits : (digits.isEmpty || !digits.all Char.isDigit) = false ↔ Digits digits := by
      simp [Digits]
    rw [← hdigits]
    cases hbad : (digits.isEmpty || !digits.all Char.isDigit)
    · simp only [Bool.false_eq_true, if_false, iff_true]
      split
      · rfl
      · split <;> rfl
    · simp
  · -- the sign is no digit, so the text is cut behind it in one way
    split at hpair
    · cases hpair
      refine ⟨.signed he (.inl rfl), fun h => ?_⟩
      cases h with
      | digits _ h => exact absurd (h.2 '+' List.mem_cons_self) (by decide)
      | signed _ _ h => exact h
    · cases hpair
      refine ⟨.signed he (.inr rfl), fun h => ?_⟩
      cases h with
      | digits _ h => exact absurd (h.2 '-' List.mem_cons_self) (by decide)
      | signed _ _ h => exact h
    · rename_i hplus hminus
      cases hpair
      refine ⟨.digits he, fun h => ?_⟩
      cases h with
      | digits _ h => exact h
      | signed _ hs =>
        rcases hs with rfl | rfl
        · exact absurd rfl (hplus _)
        · exact absurd rfl (hminus _)

theorem afterFraction_isSome_iff :
    (afterFraction negative significand start cs).isSome ↔ Exponent cs := by
  unfold afterFraction
  split
  · exact iff_of_true rfl .none
  · exact exponentPart_isSome_iff (.inl rfl)
  · exact exponentPart_isSome_iff (.inr rfl)
  · rename_i hnil he hE
    refine iff_of_false (by simp) fun h => ?_
    cases h with
    | none => exact hnil rfl
    | digits h | signed h =>
      rcases h with rfl | rfl
      · exact he _ rfl
      · exact hE _ rfl

theorem fractionPart_isSome_iff (hlimit : significand ≤ significandLimit) :
    (fractionPart negative significand start cs).isSome ↔
      ∃ ds exponent, cs = ds ++ exponent ∧ Digits ds ∧ Exponent exponent := by
  unfold fractionPart
  rcases htake : takeDigits cs significand 0 with ⟨a, taken, rest⟩
  have hdrop := dropWhile_takeDigits hlimit htake
  obtain ⟨ds, rfl, hds, rfl, -, -⟩ := takeDigits_spec hlimit htake
  simp only
  split
  · rename_i hnone
    obtain ⟨hlength, hsame⟩ := hnone
    obtain rfl : ds = [] := List.length_eq_zero_iff.1 (by omega)
    refine iff_of_false (by simp) ?_
    rintro ⟨ds, exponent, hsplit, ⟨hne, hall⟩, -⟩
    obtain ⟨c, ds, rfl⟩ := List.exists_cons_of_ne_nil hne
    rw [List.nil_append] at hsplit
    have hc : c.isDigit = true := hall c List.mem_cons_self
    rw [hsplit, List.cons_append, List.dropWhile_cons_of_pos hc] at hsame
    have hle := (List.dropWhile_suffix Char.isDigit (l := ds ++ exponent)).length_le
    rw [List.length_cons] at hsame
    omega
  · rename_i hsome
    rw [afterFraction_isSome_iff, hdrop]
    constructor
    · intro h
      refine ⟨(ds ++ rest).takeWhile Char.isDigit, _, List.takeWhile_append_dropWhile.symm,
        ⟨?_, fun c hc => List.mem_takeWhile_imp hc⟩, h⟩
      intro hnil
      refine hsome ?_
      rw [List.takeWhile_append_of_pos hds] at hnil
      obtain ⟨rfl, hrest⟩ := List.append_eq_nil_iff.1 hnil
      have hall : rest.dropWhile Char.isDigit = rest := by
        conv_rhs => rw [← List.takeWhile_append_dropWhile (p := Char.isDigit) (l := rest)]
        rw [hrest, List.nil_append]
      exact ⟨rfl, by rw [hall]⟩
    · rintro ⟨ds', exponent, hsplit, hdigits, hexponent⟩
      rw [hsplit, (takeWhile_run hdigits.2 hexponent.head).2]
      exact hexponent

theorem body_isSome_iff :
    (unsignedNumber?.body negative cs).isSome ↔ Tail (cs.dropWhile Char.isDigit) := by
  unfold unsignedNumber?.body
  rcases htake : takeDigits cs 0 0 with ⟨a, taken, rest⟩
  have hdrop := dropWhile_takeDigits (Nat.zero_le _) htake
  obtain ⟨-, -, -, -, -, hlimit⟩ := takeDigits_spec (Nat.zero_le _) htake
  simp only [hdrop]
  rw [tail_iff]
  split
  · rename_i hnil
    refine iff_of_true ?_ (.inl (hnil ▸ .none))
    split <;> rfl
  · rename_i ds hds
    rw [fractionPart_isSome_iff hlimit, hds]
    simp [not_exponent_point]
  · rename_i ds hds
    rw [exponentPart_isSome_iff (.inl rfl), hds]
    simp
  · rename_i ds hds
    rw [exponentPart_isSome_iff (.inr rfl), hds]
    simp
  · rename_i hnil hpoint he hE
    refine iff_of_false (by simp) ?_
    rintro (h | ⟨ds, exponent, h, -⟩)
    · generalize cs.dropWhile Char.isDigit = tail at h hnil he hE
      cases h with
      | none => exact hnil rfl
      | digits h | signed h =>
        rcases h with rfl | rfl
        · exact he _ rfl
        · exact hE _ rfl
    · exact hpoint _ h

/-- Digits without a leading zero are read by their digits. -/
theorem unsignedNumber?_eq_body {tail : List Char} (hds : Whole ds)
    (htail : ∀ c ∈ tail.head?, c.isDigit = false) :
    unsignedNumber? negative (ds ++ tail) = unsignedNumber?.body negative (ds ++ tail) := by
  obtain ⟨⟨hne, hall⟩, hzero⟩ := hds
  obtain ⟨d, ds, rfl⟩ := List.exists_cons_of_ne_nil hne
  have hd : d.isDigit = true := hall d List.mem_cons_self
  unfold unsignedNumber?
  split
  · rename_i c rest hcons
    obtain ⟨rfl, -⟩ := List.cons.inj hcons
    obtain rfl : ds = [] := (List.cons.inj (hzero rfl)).2
    obtain rfl : tail = c :: rest := by simpa using hcons
    rw [if_neg (by simpa using htail c rfl)]
  · rename_i hcons
    obtain ⟨rfl, -⟩ := List.cons.inj hcons
    rw [if_pos hd]
  · rename_i hnil
    exact absurd hnil (by simp)

theorem unsignedNumber?_isSome_iff : (unsignedNumber? negative cs).isSome ↔ Unsigned cs := by
  constructor
  · intro h
    have hwhole : Whole (cs.takeWhile Char.isDigit) ∧
        (unsignedNumber?.body negative cs).isSome := by
      unfold unsignedNumber? at h
      split at h
      · rename_i c rest
        split at h
        · cases h
        · rename_i hc
          refine ⟨⟨⟨by simp, fun d hd => List.mem_takeWhile_imp hd⟩, fun _ => ?_⟩, h⟩
          rw [List.takeWhile_cons_of_pos (by decide), List.takeWhile_cons_of_neg hc]
      · rename_i c rest hzero
        split at h
        · rename_i hc
          refine ⟨⟨⟨by simp [hc], fun d hd => List.mem_takeWhile_imp hd⟩, ?_⟩, h⟩
          rw [List.takeWhile_cons_of_pos hc]
          intro hhead
          obtain rfl : c = '0' := Option.some.inj hhead
          cases rest with
          | nil => rfl
          | cons d rest => exact (hzero d rest rfl rfl).elim
        · cases h
      · cases h
    exact ⟨_, _, List.takeWhile_append_dropWhile.symm, hwhole.1, body_isSome_iff.1 hwhole.2⟩
  · rintro ⟨whole, tail, rfl, hwhole, htail⟩
    rw [unsignedNumber?_eq_body hwhole htail.head, body_isSome_iff,
      (takeWhile_run hwhole.1.2 htail.head).2]
    exact htail

/-- **A text is read as a number exactly if it is one.** -/
theorem number?_isSome_iff : (number? cs).isSome ↔ Number cs := by
  unfold number?
  split
  · rename_i ds
    rw [unsignedNumber?_isSome_iff]
    constructor
    · exact fun h => .inr ⟨ds, rfl, h⟩
    · rintro (⟨whole, tail, hsplit, ⟨⟨hne, hall⟩, -⟩, -⟩ | ⟨ds', hcons, h⟩)
      · obtain ⟨d, whole, rfl⟩ := List.exists_cons_of_ne_nil hne
        obtain ⟨rfl, -⟩ := List.cons.inj hsplit
        exact absurd (hall '-' List.mem_cons_self) (by decide)
      · cases hcons
        exact h
  · rename_i hminus
    rw [unsignedNumber?_isSome_iff]
    constructor
    · exact .inl
    · rintro (h | ⟨ds, hcons, -⟩)
      · exact h
      · exact absurd hcons (hminus ds)

/-! ## Integers -/

theorem tail_nil : Tail [] := tail_iff.2 (.inl .none)

/-- An integer is a number. -/
theorem Integer.number {n : Int} (h : Integer cs n) : Number cs := by
  cases h with
  | plain hds => exact .inl ⟨cs, [], (List.append_nil cs).symm, hds, tail_nil⟩
  | negative hds => exact .inr ⟨_, rfl, _, [], (List.append_nil _).symm, hds, tail_nil⟩

/-- Zero has one way to be written. -/
theorem Whole.eq_zero (h : Whole ds) (hzero : Nat.ofDigitChars 10 ds 0 = 0) : ds = ['0'] := by
  obtain ⟨⟨hne, hall⟩, hhead⟩ := h
  obtain ⟨d, ds, rfl⟩ := List.exists_cons_of_ne_nil hne
  have hd : d.isDigit = true := hall d List.mem_cons_self
  have hle := le_ofDigitChars ds (10 * 0 + (d.toNat - '0'.toNat))
  rw [← Nat.ofDigitChars_cons, hzero] at hle
  refine hhead (congrArg some ?_)
  simp only [Char.isDigit, Bool.and_eq_true, decide_eq_true_eq] at hd
  have hlow : '0'.toNat ≤ d.toNat := hd.1
  exact Char.toNat_inj.1 (by omega)

/-- What digits are read as: the whole number if it fits, else a double. -/
theorem unsignedNumber?_whole (negative : Bool) (h : Whole ds) :
    (Nat.ofDigitChars 10 ds 0 ≤ significandLimit ∧ unsignedNumber? negative ds =
        some (wholeNumber negative (Nat.ofDigitChars 10 ds 0))) ∨
      significandLimit < Nat.ofDigitChars 10 ds 0 ∧
        ∃ part exponent, unsignedNumber? negative ds = some (ofParts negative part exponent) := by
  have hbody : unsignedNumber? negative ds = unsignedNumber?.body negative ds := by
    have heq : unsignedNumber? negative (ds ++ []) = unsignedNumber?.body negative (ds ++ []) :=
      unsignedNumber?_eq_body h nofun
    rwa [List.append_nil] at heq
  have hdrop : ds.dropWhile Char.isDigit = [] := by
    have hends : ∀ c ∈ ([] : List Char).head?, c.isDigit = false := nofun
    have hall := (takeWhile_run h.1.2 hends).2
    rwa [List.append_nil] at hall
  rw [hbody]
  rcases Nat.lt_or_ge significandLimit (Nat.ofDigitChars 10 ds 0) with hlarge | hfits
  · refine .inr ⟨hlarge, ?_⟩
    unfold unsignedNumber?.body
    rcases htake : takeDigits ds 0 0 with ⟨a, taken, rest⟩
    have hrest := (dropWhile_takeDigits (Nat.zero_le _) htake).trans hdrop
    obtain ⟨ds', rfl, -, -, rfl, hlimit⟩ := takeDigits_spec (Nat.zero_le _) htake
    have hleft : rest.length ≠ 0 := by
      intro hnil
      rw [List.length_eq_zero_iff.1 hnil, List.append_nil] at hlarge
      omega
    simp only [hrest]
    rw [if_neg (by simpa using hleft)]
    exact ⟨_, _, rfl⟩
  · refine .inl ⟨hfits, ?_⟩
    simp [unsignedNumber?.body, takeDigits_eq h.1.2 hfits]

theorem number?_whole (h : Whole ds) : number? ds = unsignedNumber? false ds := by
  obtain ⟨⟨hne, hall⟩, -⟩ := h
  unfold number?
  split
  · exact absurd (hall '-' List.mem_cons_self) (by decide)
  · rfl

theorem le_significandLimit_iff {n : Nat} : n ≤ significandLimit ↔ n < 2 ^ 64 := by
  have hlimit : significandLimit = 2 ^ 64 - 1 := rfl
  omega

/-- **An integer that fits 64 bits is read as itself**, a negative zero apart. -/
theorem number?_integer {n : Int} (h : Integer cs n) (hrange : InRange n)
    (hzero : cs ≠ ['-', '0']) : number? cs = some (.integer n) := by
  obtain ⟨hlow, hhigh⟩ := hrange
  cases h with
  | plain hds =>
    rcases unsignedNumber?_whole false hds with ⟨-, hread⟩ | ⟨hlarge, -⟩
    · rw [number?_whole hds, hread]
      rfl
    · exact absurd (le_significandLimit_iff.2 (by omega)) (Nat.not_le.2 hlarge)
  | @negative ds hds =>
    have hpos : Nat.ofDigitChars 10 ds 0 ≠ 0 := fun hnone =>
      hzero (congrArg ('-' :: ·) (hds.eq_zero hnone))
    rcases unsignedNumber?_whole true hds with ⟨-, hread⟩ | ⟨hlarge, -⟩
    · have hwhole : ¬(Nat.ofDigitChars 10 ds 0 = 0 ∨ Nat.pow 2 63 < Nat.ofDigitChars 10 ds 0) := by
        have hpow : Nat.pow 2 63 = 2 ^ 63 := rfl
        omega
      rw [number?, hread, wholeNumber, if_neg (by decide), if_neg hwhole]
    · exact absurd (le_significandLimit_iff.2 (by omega)) (Nat.not_le.2 hlarge)

/-- Parts make a double, or no value. -/
theorem ofParts_cases (part : Nat) (exponent : Int) :
    (∃ x, ofParts negative part exponent = .double x) ∨
      ofParts negative part exponent = .invalid := by
  unfold ofParts
  split
  · exact .inl ⟨_, rfl⟩
  · exact .inr rfl

/-- **Any other integer is read as a double**, or as no value at all. -/
theorem number?_beyond {n : Int} (h : Integer cs n) (hbeyond : InRange n → cs = ['-', '0']) :
    (∃ x, number? cs = some (.double x)) ∨ number? cs = some .invalid := by
  cases h with
  | plain hds =>
    rcases unsignedNumber?_whole false hds with ⟨hfits, -⟩ | ⟨-, part, e, hread⟩
    · -- such digits would be in range
      have hrange : InRange (Nat.ofDigitChars 10 cs 0) := by
        have hlt := le_significandLimit_iff.1 hfits
        exact ⟨by omega, by exact_mod_cast hlt⟩
      rw [hbeyond hrange] at hds
      exact absurd (hds.1.2 '-' List.mem_cons_self) (by decide)
    · rw [number?_whole hds, hread]
      simpa using ofParts_cases part e
  | @negative ds hds =>
    rcases unsignedNumber?_whole true hds with ⟨-, hread⟩ | ⟨-, part, e, hread⟩
    · by_cases hrange : InRange (-(Nat.ofDigitChars 10 ds 0 : Int))
      · obtain rfl : ds = ['0'] := (List.cons.inj (hbeyond hrange)).2
        exact .inl ⟨_, rfl⟩
      · have hwhole : Nat.ofDigitChars 10 ds 0 = 0 ∨ Nat.pow 2 63 < Nat.ofDigitChars 10 ds 0 := by
          have hpow : Nat.pow 2 63 = 2 ^ 63 := rfl
          simp only [InRange] at hrange
          omega
        rw [number?, hread, wholeNumber, if_neg (by decide), if_pos hwhole]
        exact .inl ⟨_, rfl⟩
    · rw [number?, hread]
      simpa using ofParts_cases part e

/-- What is written for an integer is a literal of it. -/
theorem integer_renderInt (n : Int) : Integer (renderInt n) n := by
  have hwhole (m : Nat) : Whole (Nat.toDigits 10 m) := by
    refine ⟨⟨Nat.toDigits_ne_nil, fun _ => isDigit_of_mem⟩, fun hhead => ?_⟩
    rcases Nat.eq_zero_or_pos m with rfl | hpos
    · rfl
    · obtain ⟨c, cs, heq, hc⟩ := head_toDigits_ne_zero hpos
      rw [heq] at hhead
      exact absurd (Option.some.inj hhead) hc
  rcases Int.lt_or_le n 0 with hneg | hnonneg
  · obtain ⟨m, rfl⟩ : ∃ m : Nat, n = -(m : Int) := ⟨n.natAbs, by omega⟩
    have hnegative := Integer.negative (hwhole m)
    rwa [Nat.ofDigitChars_ten_toDigits, ← renderInt_of_neg (by omega)] at hnegative
  · obtain ⟨m, rfl⟩ := Int.eq_ofNat_of_zero_le hnonneg
    have hplain := Integer.plain (hwhole m)
    rwa [Nat.ofDigitChars_ten_toDigits, ← renderInt_of_nonneg] at hplain

theorem renderInt_ne_negative_zero (n : Int) : renderInt n ≠ ['-', '0'] := by
  intro heq
  rcases Int.lt_or_le n 0 with hneg | hnonneg
  · obtain ⟨m, rfl⟩ : ∃ m : Nat, n = -(m : Int) := ⟨n.natAbs, by omega⟩
    rw [renderInt_of_neg (by omega)] at heq
    obtain ⟨c, cs, hdigits, hc⟩ := head_toDigits_ne_zero (n := m) (by omega)
    rw [hdigits] at heq
    cases heq
    exact hc rfl
  · obtain ⟨m, rfl⟩ := Int.eq_ofNat_of_zero_le hnonneg
    rw [renderInt_of_nonneg] at heq
    have hsign : '-' ∈ Nat.toDigits 10 m := heq ▸ List.mem_cons_self
    exact absurd (isDigit_of_mem hsign) (by decide)

/-- **An integer in range reads back.** -/
theorem number?_renderInt {n : Int} (h : InRange n) :
    number? (renderInt n) = some (.integer n) :=
  number?_integer (integer_renderInt n) h (renderInt_ne_negative_zero n)

/-! ## Characters -/

/-- A number begins with a digit or a minus sign, and all its characters are those of numbers. -/
theorem Number.chars (h : Number cs) : ∃ c rest, cs = c :: rest ∧ (c = '-' ∨ c.isDigit = true) ∧
    ∀ d ∈ cs, isNumberChar d = true := by
  have hdigits : ∀ {ds : List Char}, (∀ c ∈ ds, c.isDigit = true) →
      ∀ c ∈ ds, isNumberChar c = true := fun hall c hc => by simp [isNumberChar, hall c hc]
  have hexponent : ∀ {cs : List Char}, Exponent cs → ∀ c ∈ cs, isNumberChar c = true := by
    intro cs h
    cases h with
    | none => nofun
    | digits he hds =>
      refine List.forall_mem_cons.2 ⟨?_, hdigits hds.2⟩
      rcases he with rfl | rfl <;> rfl
    | signed he hs hds =>
      refine List.forall_mem_cons.2 ⟨?_, List.forall_mem_cons.2 ⟨?_, hdigits hds.2⟩⟩
      · rcases he with rfl | rfl <;> rfl
      · rcases hs with rfl | rfl <;> rfl
  have hunsigned : ∀ {cs : List Char}, Unsigned cs →
      (∃ c rest, cs = c :: rest ∧ c.isDigit = true) ∧ ∀ d ∈ cs, isNumberChar d = true := by
    rintro cs ⟨whole, tail, rfl, ⟨⟨hne, hall⟩, -⟩, htail⟩
    obtain ⟨c, whole, rfl⟩ := List.exists_cons_of_ne_nil hne
    refine ⟨⟨c, _, rfl, hall c List.mem_cons_self⟩, ?_⟩
    refine List.forall_mem_append.2 ⟨hdigits hall, ?_⟩
    rcases tail_iff.1 htail with h | ⟨ds, exponent, rfl, hds, h⟩
    · exact hexponent h
    · exact List.forall_mem_cons.2 ⟨rfl, List.forall_mem_append.2 ⟨hdigits hds.2, hexponent h⟩⟩
  rcases h with h | ⟨ds, rfl, h⟩
  · obtain ⟨⟨c, rest, rfl, hc⟩, hall⟩ := hunsigned h
    exact ⟨c, rest, rfl, .inr hc, hall⟩
  · obtain ⟨-, hall⟩ := hunsigned h
    exact ⟨'-', ds, rfl, .inl rfl, List.forall_mem_cons.2 ⟨rfl, hall⟩⟩

end LedgerGate.Json
