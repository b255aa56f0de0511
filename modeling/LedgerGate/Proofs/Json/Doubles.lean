/-
  The text of a double is a number.

  The search for the shortest decimal ends: its grids get finer by a digit each, and the last
  of them is finer than the interval is wide, so a point of it lies inside.  All points inside
  are positive, and a positive decimal is laid out without a leading zero.

  * `Interval.hit?_pos`: what is hit is positive;
  * `Interval.exists_hit`: a grid that is fine enough is hit;
  * `shortest_pos`: **the shortest decimal of a double is found**;
  * `number_text`: **the text of a double is a number**, in every layout.
-/
import LedgerGate.Proofs.Json.Numbers
import Mathlib.Algebra.Order.Ring.Nat
import Mathlib.Tactic.Ring

namespace LedgerGate.Double

/-! ## Grids -/

section Grid

variable {tie : Tie} {i : Interval} {k : Int} {d : Decimal}

theorem unify_pos (k s : Int) : 0 < (unify k s).1 ∧ 0 < (unify k s).2 := by
  have hten (n : Nat) : 0 < Nat.pow 10 n := Nat.pow_pos (by decide)
  have htwo (n : Nat) : 0 < Nat.pow 2 n := Nat.pow_pos (by decide)
  exact ⟨Nat.mul_pos (hten _) (htwo _), Nat.mul_pos (htwo _) (hten _)⟩

/-- A point inside an interval above zero is above zero. -/
theorem Interval.pos_of_holds {point unit : Nat} (hlow : 0 < i.low) (hunit : 0 < unit)
    (h : i.holds point unit = true) : 0 < point := by
  have hpos : 0 < i.low * unit := Nat.mul_pos hlow hunit
  unfold holds at h
  split at h
  · simp only [Bool.and_eq_true, decide_eq_true_eq] at h
    omega
  · simp only [Bool.and_eq_true, decide_eq_true_eq] at h
    omega

/-- What is hit is positive. -/
theorem Interval.hit?_pos (hlow : 0 < i.low) (h : i.hit? tie k = some d) : 0 < d.digits := by
  obtain ⟨hstep, hunit⟩ := unify_pos k i.scale
  unfold hit? at h
  simp only at h
  have hpoint : ∀ n, i.holds (n * (unify k i.scale).1) (unify k i.scale).2 = true → 0 < n :=
    fun n hn => Nat.pos_of_mul_pos_right (pos_of_holds hlow hunit hn)
  split at h
  · rename_i hbelow _
    cases h
    exact hpoint _ hbelow
  · cases h
    exact Nat.succ_pos _
  · cases h
  · rename_i hbelow _
    split at h
    · cases h
      exact hpoint _ hbelow
    split at h
    · cases h
      exact Nat.succ_pos _
    · cases h
      simp only
      split
      · exact hpoint _ hbelow
      · exact Nat.succ_pos _

/-- A grid with steps shorter than what is above the middle is hit. -/
theorem Interval.exists_hit (hlow : i.low ≤ i.mid) (hhigh : i.high = i.mid + 2)
    (hstep : (unify k i.scale).1 < 2 * (unify k i.scale).2) : ∃ d, i.hit? tie k = some d := by
  obtain ⟨hpos, hunit⟩ := unify_pos k i.scale
  have habove : i.holds ((i.mid * (unify k i.scale).2 / (unify k i.scale).1 + 1) *
      (unify k i.scale).1) (unify k i.scale).2 = true := by
    generalize (unify k i.scale).1 = step at *
    generalize (unify k i.scale).2 = unit at *
    have hdiv := Nat.div_add_mod (i.mid * unit) step
    have hmod := Nat.mod_lt (i.mid * unit) hpos
    have hpoint : (i.mid * unit / step + 1) * step = step * (i.mid * unit / step) + step := by ring
    have hle : i.low * unit ≤ i.mid * unit := Nat.mul_le_mul_right unit hlow
    have heq : i.high * unit = i.mid * unit + 2 * unit := by rw [hhigh]; ring
    unfold holds
    split <;> simp only [Bool.and_eq_true, decide_eq_true_eq] <;> omega
  unfold hit?
  simp only [habove]
  split
  · exact ⟨_, rfl⟩
  · exact ⟨_, rfl⟩
  · rename_i h
    cases h
  · split
    · exact ⟨_, rfl⟩
    split
    · exact ⟨_, rfl⟩
    · exact ⟨_, rfl⟩

/-- A search over a grid that is hit finds something positive. -/
theorem Interval.search_pos (hlow : 0 < i.low) {n : Nat} {e : Nat} (he : e < n)
    (h : ∃ d, i.hit? tie (k - e) = some d) : 0 < (i.search tie n k).digits := by
  induction n generalizing k e with
  | zero => omega
  | succ n ih =>
    rw [search]
    cases hhit : i.hit? tie k with
    | some d => exact hit?_pos hlow hhit
    | none =>
      rw [Option.getD_none]
      cases e with
      | zero =>
        obtain ⟨d, hd⟩ := h
        rw [Int.natCast_zero, Int.sub_zero, hhit] at hd
        cases hd
      | succ e =>
        refine ih (e := e) (by omega) ?_
        rwa [show k - 1 - (e : Int) = k - ((e + 1 : Nat) : Int) by omega]

end Grid

/-! ## The last grid -/

theorem ten_pow_lt {a b : Nat} (h : 10 * a < 3 * b) : 10 ^ a < 2 ^ b := by
  refine lt_of_pow_lt_pow_left₀ 3 (Nat.zero_le _) ?_
  calc (10 ^ a) ^ 3 = (10 ^ 3) ^ a := by rw [← pow_mul, mul_comm, pow_mul]
    _ ≤ (2 ^ 10) ^ a := Nat.pow_le_pow_left (by decide) a
    _ = 2 ^ (10 * a) := by rw [pow_mul]
    _ < 2 ^ (3 * b) := Nat.pow_lt_pow_right (by decide) h
    _ = (2 ^ b) ^ 3 := by rw [← pow_mul, mul_comm]

theorem two_pow_lt {a b : Nat} (h : 10 * a < 33 * b) : 2 ^ a < 10 ^ b := by
  refine lt_of_pow_lt_pow_left₀ 10 (Nat.zero_le _) ?_
  calc (2 ^ a) ^ 10 = 2 ^ (10 * a) := by rw [← pow_mul, mul_comm]
    _ < 2 ^ (33 * b) := Nat.pow_lt_pow_right (by decide) h
    _ = (2 ^ 33) ^ b := by rw [pow_mul]
    _ ≤ (10 ^ 10) ^ b := Nat.pow_le_pow_left (by decide) b
    _ = (10 ^ b) ^ 10 := by rw [← pow_mul, mul_comm, pow_mul]

/-- Five digits below the size of an interval the grid is finer than the interval: three
    digits are less than ten bits, and ten digits are more than thirty-three. -/
theorem unify_fine {k s : Int} (hsize : s.natAbs ≤ 2000)
    (hk : 100000 * k ≤ (s + 55) * 30103 - 2200000) : (unify k s).1 < 2 * (unify k s).2 := by
  have heq : unify k s = (10 ^ k.toNat * 2 ^ (-s).toNat, 2 ^ s.toNat * 10 ^ (-k).toNat) := rfl
  simp only [heq]
  have hone (n : Nat) : 0 < 10 ^ n := Nat.pow_pos (by decide)
  rcases Int.le_total 0 k with hpos | hneg
  · have hlt : 10 ^ k.toNat < 2 ^ (s.toNat + 1) := ten_pow_lt (by omega)
    rw [show (-s).toNat = 0 by omega, show (-k).toNat = 0 by omega, pow_zero, pow_zero, mul_one,
      mul_one, mul_comm, ← pow_succ]
    exact hlt
  · rw [show k.toNat = 0 by omega, pow_zero, one_mul]
    rcases Int.le_total 0 s with hlarge | hsmall
    · have hunit : 0 < 2 ^ s.toNat * 10 ^ (-k).toNat :=
        Nat.mul_pos (Nat.pow_pos (by decide)) (hone _)
      rw [show (-s).toNat = 0 by omega, pow_zero]
      omega
    · have hlt : 2 ^ ((-s).toNat - 1) < 10 ^ (-k).toNat := two_pow_lt (by omega)
      rw [show s.toNat = 0 by omega, pow_zero, one_mul]
      calc 2 ^ (-s).toNat ≤ 2 ^ ((-s).toNat - 1 + 1) := Nat.pow_le_pow_right (by decide) (by omega)
        _ = 2 * 2 ^ ((-s).toNat - 1) := by rw [pow_succ, mul_comm]
        _ < 2 * 10 ^ (-k).toNat := Nat.mul_lt_mul_of_pos_left hlt (by decide)

/-- **The shortest decimal of a double is found.** -/
theorem shortest_pos (tie : Tie) {m : Nat} {q : Int} (hpos : 0 < m) (hm : m < 2 ^ 53)
    (hq : q.natAbs ≤ 1100) : 0 < (shortest tie m q).digits := by
  have hlog : Nat.log2 m < 53 := (Nat.log2_lt (by omega)).2 hm
  have hinterval : 0 < (Interval.of m q).low ∧ (Interval.of m q).low ≤ (Interval.of m q).mid := by
    simp only [Interval.of]
    split <;> omega
  refine Interval.search_pos (e := 23) hinterval.1 (by decide) (Interval.exists_hit hinterval.2 rfl
    (unify_fine ?_ ?_))
  · simp only [Interval.of]
    omega
  · -- the estimate is at most one above the size of the double in digits
    rw [Int.fdiv_eq_ediv_of_nonneg _ (by decide)]
    simp only [Interval.of]
    omega

/-! ## Layouts -/

section Layout

open Json

variable {ds : List Char}

/-- The digits of a number are digits. -/
theorem digits_toString (n : Nat) : Digits (toString n).toList := by
  rw [Nat.toString_eq_repr, Nat.toList_repr]
  exact ⟨Nat.toDigits_ne_nil, fun _ => isDigit_of_mem⟩

theorem head_toString {n : Nat} (h : 0 < n) : (toString n).toList.head? ≠ some '0' := by
  rw [Nat.toString_eq_repr, Nat.toList_repr]
  obtain ⟨c, cs, heq, hc⟩ := head_toDigits_ne_zero h
  rw [heq]
  exact fun hzero => hc (Option.some.inj hzero)

theorem isDigit_of_mem_zeros {n : Nat} {c : Char} (h : c ∈ zeros n) : c.isDigit = true := by
  rw [List.eq_of_mem_replicate h]
  rfl

theorem digits_zero : Digits ['0'] := ⟨nofun, List.all_eq_true.1 rfl⟩

theorem tail_fraction (hds : Digits ds) : Tail ('.' :: ds) :=
  ⟨'.' :: ds, [], (List.append_nil _).symm, .digits hds, .none⟩

/-- Digits that go on for a while are whole if they do not begin with a zero. -/
theorem whole_append {es : List Char} (hds : Digits ds) (hhead : ds.head? ≠ some '0')
    (hes : ∀ c ∈ es, c.isDigit = true) : Whole (ds ++ es) := by
  obtain ⟨hne, hall⟩ := hds
  obtain ⟨d, ds, rfl⟩ := List.exists_cons_of_ne_nil hne
  exact ⟨⟨nofun, List.forall_mem_append.2 ⟨hall, hes⟩⟩, fun h => absurd h hhead⟩

theorem unsigned_positional (hds : Digits ds) (hhead : ds.head? ≠ some '0') (scale : Int) :
    Unsigned (positional ds scale) := by
  unfold positional
  simp only
  split
  · exact ⟨_, _, rfl, whole_append hds hhead fun _ => isDigit_of_mem_zeros,
      tail_fraction digits_zero⟩
  · split
    · rename_i hscale hpoint
      obtain ⟨hne, hall⟩ := hds
      obtain ⟨d, ds, rfl⟩ := List.exists_cons_of_ne_nil hne
      generalize hcut : (((d :: ds).length : Int) + scale).toNat = point
      obtain ⟨p, rfl⟩ : ∃ p, point = p + 1 := ⟨point - 1, by omega⟩
      have hlength : (d :: ds).length = ds.length + 1 := rfl
      refine ⟨_, _, rfl, ⟨⟨nofun, fun c hc => hall c (List.mem_of_mem_take hc)⟩,
        fun h => absurd h hhead⟩, tail_fraction ⟨?_, fun c hc => hall c (List.mem_of_mem_drop hc)⟩⟩
      rw [Ne, List.drop_eq_nil_iff]
      omega
    · exact ⟨['0'], _, rfl, ⟨digits_zero, fun _ => rfl⟩, tail_fraction ⟨by simp [hds.1],
        List.forall_mem_append.2 ⟨fun _ => isDigit_of_mem_zeros, hds.2⟩⟩⟩

theorem unsigned_scientific (hds : Digits ds) (hhead : ds.head? ≠ some '0') (scale : Int) :
    Unsigned (scientific ds scale) := by
  have hexponent (e : Int) : Exponent
      ('e' :: (if e < 0 then '-' else '+') :: (toString e.natAbs).toList) :=
    .signed (.inl rfl) (by split <;> simp) (digits_toString _)
  have hfirst {d : Char} {ds : List Char} (hall : ∀ c ∈ d :: ds, c.isDigit = true)
      (hhead : (d :: ds).head? ≠ some '0') : Whole [d] :=
    ⟨⟨nofun, by simpa using hall d List.mem_cons_self⟩, fun h => absurd h hhead⟩
  unfold scientific
  match ds, hds, hhead with
  | [], hds, _ => exact absurd rfl hds.1
  | [d], hds, hhead =>
    exact ⟨[d], _, rfl, hfirst hds.2 hhead, tail_iff.2 (.inl (hexponent _))⟩
  | d :: c :: cs, hds, hhead =>
    exact ⟨[d], _, rfl, hfirst hds.2 hhead, '.' :: c :: cs, _, rfl,
      .digits ⟨nofun, fun x hx => hds.2 x (List.mem_cons_of_mem d hx)⟩, hexponent _⟩

theorem unsigned_body (l : Layout) {d : Decimal} (h : 0 < d.digits) : Unsigned (l.body d) := by
  have hdigits := digits_toString d.digits
  have hhead := head_toString h
  unfold Layout.body
  simp only
  split
  · exact unsigned_positional hdigits hhead _
  · exact unsigned_scientific hdigits hhead _

/-- The parts of a double that is not zero. -/
theorem scaled_bounds {d : Double} (hzero : d.isZero = false) :
    0 < d.scaled.1 ∧ d.scaled.1 < 2 ^ 53 ∧ d.scaled.2.natAbs ≤ 1100 := by
  have hfraction : d.fraction < 2 ^ 52 := by
    rw [fraction, UInt64.toNat_and]
    exact Nat.and_lt_two_pow _ (by decide)
  have hexponent : d.exponent < 2 ^ 11 := by
    rw [exponent, UInt64.toNat_and]
    exact Nat.and_lt_two_pow _ (by decide)
  have hpow : Nat.pow 2 52 = 2 ^ 52 := rfl
  simp only [isZero, Bool.and_eq_false_iff, beq_eq_false_iff_ne] at hzero
  unfold scaled
  split
  · omega
  · simp only
    omega

/-- **The text of a double is a number**, in every layout. -/
theorem number_text (d : Double) (l : Layout) : Number (d.text l) := by
  have hbody : Unsigned (if d.isZero then ['0', '.', '0']
      else l.body (shortest l.tie d.scaled.1 d.scaled.2)) := by
    split
    · exact ⟨['0'], _, rfl, ⟨digits_zero, fun _ => rfl⟩, tail_fraction digits_zero⟩
    · rename_i hzero
      obtain ⟨hpos, hm, hq⟩ := scaled_bounds (Bool.eq_false_of_not_eq_true hzero)
      exact unsigned_body l (shortest_pos l.tie hpos hm hq)
  unfold text
  simp only
  split
  · exact .inr ⟨_, rfl, hbody⟩
  · exact .inl hbody

end Layout

end LedgerGate.Double
