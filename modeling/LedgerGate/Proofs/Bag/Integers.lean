/-
  What becomes of the integers of a text that is read as a bag.

  An integer that fits 64 bits with a sign is held as itself; any other becomes a double, and
  so does a negative zero, although the conversion of an unsigned number keeps the same
  integers as their decimal text.

  * `Holds`: a value holds an integer, as itself or as its decimal text;
  * `KeepsIntegers`, `keepsIntegers_of`: **which integers of a text a bag holds**, and that
    these are never lost again;
  * `integer_lost`: an unsigned number that is not held.
-/
import LedgerGate.Proofs.Bag.Survival

namespace LedgerGate

open Json (Doc Literal Integer Writes)

/-! ## Integers -/

/-- A value holds an integer: as itself, or as its decimal text. -/
def BagValue.Holds (v : BagValue) (n : Int) : Prop :=
  (∃ m : Int64, v = .integer m ∧ m.toInt = n) ∨ v = .text (toString n)

/-- A literal of an integer of 64 bits with a sign, but not of the negative zero. -/
def Json.Literal.Fits (l : Literal) (n : Int) : Prop :=
  (-(2 ^ 63) ≤ n ∧ n < 2 ^ 63) ∧ l.chars ≠ ['-', '0']

namespace BagValue

variable {l : Literal} {n : Int} {v : BagValue}

theorem Holds.exact (h : v.Holds n) : v.Exact := by
  rcases h with ⟨m, rfl, -⟩ | rfl <;> trivial

theorem not_holds_double (x : Double) : ¬(double x).Holds n := by
  rintro (⟨m, h, -⟩ | h) <;> cases h

/-- An unsigned number is held after its conversion. -/
theorem holds_ofUInt64 (n : UInt64) : (ofUInt64 n).Holds n.toNat := by
  unfold ofUInt64
  split
  · rename_i hlt
    refine .inl ⟨_, rfl, ?_⟩
    rw [Int64.toInt_ofNat_of_lt hlt]
  · exact .inr rfl

theorem ofInt_eq (n : Int) : ofInt n =
    if -(2 ^ 63) ≤ n ∧ n < 2 ^ 63 then .integer (Int64.ofInt n)
    else .double (Double.ofFloat (UInt64.ofNat n.toNat).toFloat) := by
  have hlow : Int64.minValue.toInt = -(2 ^ 63) := by decide
  have hhigh : n ≤ Int64.maxValue.toInt ↔ n < 2 ^ 63 := by
    rw [show Int64.maxValue.toInt = 2 ^ 63 - 1 by decide]
    omega
  simp only [ofInt, hlow, hhigh]

/-- What an integer is read as: itself, or a double. -/
theorem ofJson?_integer (hinteger : Integer l.chars n) (h : ofJson? l.json = some v) :
    (l.Fits n → v = .integer (Int64.ofInt n)) ∧ (¬l.Fits n → ∃ x, v = .double x) := by
  have hchars := l.number?_chars
  by_cases hread : Json.InRange n ∧ l.chars ≠ ['-', '0']
  · rw [Json.number?_integer hinteger hread.1 hread.2] at hchars
    rw [← Option.some.inj hchars, ofJson?, ofInt_eq] at h
    split at h <;> cases h
    · rename_i hfits
      exact ⟨fun _ => rfl, fun hnot => absurd ⟨hfits, hread.2⟩ hnot⟩
    · rename_i hlarge
      exact ⟨fun hfits => absurd hfits.1 hlarge, fun _ => ⟨_, rfl⟩⟩
  · have hnot : ¬l.Fits n := by
      rintro ⟨⟨hlow, hhigh⟩, hzero⟩
      exact hread ⟨⟨hlow, by omega⟩, hzero⟩
    refine ⟨fun hfits => absurd hfits hnot, fun _ => ?_⟩
    rcases Json.number?_beyond hinteger fun hrange =>
      by_contra fun hzero => hread ⟨hrange, hzero⟩ with ⟨x, hx⟩ | hx
    · rw [hx] at hchars
      rw [← Option.some.inj hchars, ofJson?] at h
      exact ⟨x, (Option.some.inj h).symm⟩
    · rw [hx] at hchars
      rw [← Option.some.inj hchars, ofJson?] at h
      cases h

end BagValue

namespace Bag

/-- What becomes of the integers of a text that is read as a bag. -/
structure KeepsIntegers (s : String) (b : Bag) : Prop where
  /-- The text writes a document. -/
  document : ∃ d, Writes s d
  /-- An integer is held, wherever it stands, exactly if it fits 64 bits with a sign. -/
  held : ∀ d, Writes s d → ∀ bs l n, d.at? bs = some (.number l) → Integer l.chars n →
    ((∃ v, b.at? bs = some v ∧ v.Holds n) ↔ l.Fits n)
  /-- Any other has become a double. -/
  lost : ∀ d, Writes s d → ∀ bs l n, d.at? bs = some (.number l) → Integer l.chars n →
    ¬l.Fits n → ∃ x, b.at? bs = some (.double x)
  /-- The conversion of an unsigned number holds it, whatever it is. -/
  converted : ∀ n : UInt64, (BagValue.ofUInt64 n).Holds n.toNat
  /-- A bag without doubles is read again as itself, -/
  exact : b.Exact → ofText? b.toJson.compact = some b
  /-- and what is held stays as it is in any bag that is read again. -/
  again : ∀ other, ofText? b.toJson.compact = some other → ∀ bs v n, b.at? bs = some v →
    v.Holds n → other.at? bs = some v

/-- What a bag holds where its text has an integer. -/
theorem at?_integer {s : String} {b : Bag} {d : Doc} {bs : List Branch} {l : Literal} {n : Int}
    (h : ofText? s = some b) (hd : Writes s d) (hl : d.at? bs = some (.number l))
    (hinteger : Integer l.chars n) : ∃ v, b.at? bs = some v ∧
      (l.Fits n → v = .integer (Int64.ofInt n)) ∧ (¬l.Fits n → ∃ x, v = .double x) := by
  obtain ⟨-, v, hv, hheld⟩ := BagValue.ofJson?_at? (Nat.zero_le _) ((ofText?_of_writes hd).1 h) hl
  exact ⟨v, hheld, BagValue.ofJson?_integer hinteger hv⟩

/-- **A bag holds an integer of its text exactly if it fits 64 bits with a sign**, and then it
    keeps it. -/
theorem keepsIntegers_of {s : String} {b : Bag} (h : ofText? s = some b) : KeepsIntegers s b where
  document := by
    obtain ⟨j, hj, -⟩ := Option.bind_eq_some_iff.1 h
    obtain ⟨d, hd, -⟩ := Json.ofText?_eq_some_iff.1 hj
    exact ⟨d, hd⟩
  held d hd bs l n hl hinteger := by
    obtain ⟨v, hv, hfits, hnot⟩ := at?_integer h hd hl hinteger
    constructor
    · rintro ⟨w, hw, hholds⟩
      by_contra hlarge
      obtain ⟨x, rfl⟩ := hnot hlarge
      rw [hv] at hw
      cases hw
      exact BagValue.not_holds_double x hholds
    · intro hsmall
      exact ⟨v, hv, .inl ⟨_, hfits hsmall, Int64.toInt_ofInt_of_le hsmall.1.1 hsmall.1.2⟩⟩
  lost d hd bs l n hl hinteger hlarge := by
    obtain ⟨v, hv, -, hnot⟩ := at?_integer h hd hl hinteger
    obtain ⟨x, rfl⟩ := hnot hlarge
    exact ⟨x, hv⟩
  converted := BagValue.holds_ofUInt64
  exact hexact := ofText?_toJson hexact (depth_le_of_ofText? h)
  again other hother bs v n hv hholds := at?_again (ordered_of_ofText? h) hother hv hholds.exact

/-- The least and the greatest of the integers that fit, inside a list and a map. -/
theorem keepsIntegers_limits :
    ∃ b, ofText? "\x7b\"a\":[9223372036854775807,\x7b\"b\":-9223372036854775808\x7d]\x7d" = some b ∧
      KeepsIntegers "\x7b\"a\":[9223372036854775807,\x7b\"b\":-9223372036854775808\x7d]\x7d" b := by
  have htext : "\x7b\"a\":[9223372036854775807,\x7b\"b\":-9223372036854775808\x7d]\x7d" =
      (Json.object [("a", .list [.integer 9223372036854775807,
        .object [("b", .integer (-9223372036854775808))]])]).compact := rfl
  have hread : ofText?
      "\x7b\"a\":[9223372036854775807,\x7b\"b\":-9223372036854775808\x7d]\x7d" = some ⟨[("a",
        .list [.integer 9223372036854775807, .map [("b", .integer (-9223372036854775808))]])]⟩ := by
    rw [ofText?, htext, Json.ofText?_compact
      (by simp [Json.Plain, Json.PlainFields, Json.PlainItems, Json.InRange]) (by decide)]
    rfl
  exact ⟨_, hread, keepsIntegers_of hread⟩

/-- An unsigned number that is not held, although its conversion keeps it as a text. -/
theorem integer_lost : ∃ b d l, ofText? "\x7b\"amount\":18446744073709551615\x7d" = some b ∧
    Writes "\x7b\"amount\":18446744073709551615\x7d" d ∧
    d.at? [.entry "amount"] = some (.number l) ∧ Integer l.chars 18446744073709551615 ∧
    (¬∃ v, b.at? [.entry "amount"] = some v ∧ v.Holds 18446744073709551615) ∧
    BagValue.ofUInt64 18446744073709551615 = .text "18446744073709551615" := by
  have htext : "\x7b\"amount\":18446744073709551615\x7d" =
      (Json.object [("amount", .integer 18446744073709551615)]).compact := rfl
  have hread : ofText? "\x7b\"amount\":18446744073709551615\x7d" =
      some ⟨[("amount", BagValue.ofInt 18446744073709551615)]⟩ := by
    rw [ofText?, htext, Json.ofText?_compact
      (by simp [Json.Plain, Json.PlainFields, Json.InRange]) (by decide)]
    rfl
  refine ⟨_, _, .ofInt 18446744073709551615, hread, htext ▸ Json.writes_compact _, rfl,
    Json.integer_renderInt _, ?_, rfl⟩
  rintro ⟨v, hv, hholds⟩
  obtain rfl : BagValue.ofInt 18446744073709551615 = v := Option.some.inj hv
  rw [BagValue.ofInt_eq, if_neg (by decide)] at hholds
  exact BagValue.not_holds_double _ hholds

end Bag

end LedgerGate
