/-
  What is printed falls into lines: one for every response.

  Control characters are escaped between quotes, and outside of quotes nothing is written
  with any.  So a line break stands neither in the compact text of a value nor, as UTF-8 keeps
  that byte for that character, in its bytes.

  * `Inline`: the characters that are no control characters;
  * `Json.inline_compact`: **a compact text has no control characters**, whatever the value;
  * `Transport.isLineEnd_toUTF8`: the bytes of such a text end no line;
  * `Transport.lines_printed`: **every response is a line of its own.**
-/
import LedgerGate.Proofs.Json.Doubles
import LedgerGate.Proofs.Text.Hex
import LedgerGate.Transport

namespace LedgerGate

/-- A character is no control character. -/
def Inline (c : Char) : Prop := 0x20 ≤ c.toNat

instance (c : Char) : Decidable (Inline c) := inferInstanceAs (Decidable (0x20 ≤ c.toNat))

/-- Characters that are written out are looked at one by one. -/
theorem inline_literal {cs : List Char} (h : cs.all fun c => decide (Inline c)) :
    ∀ c ∈ cs, Inline c :=
  fun c hc => of_decide_eq_true (List.all_eq_true.1 h c hc)

theorem inline_of_isDigit {c : Char} (h : c.isDigit = true) : Inline c := by
  simp only [Char.isDigit, Bool.and_eq_true, decide_eq_true_eq] at h
  have hlow : '0'.toNat ≤ c.toNat := h.1
  exact Nat.le_trans (by decide) hlow

/-! ## Values -/

namespace Json

theorem inline_escape (c : Char) : ∀ e ∈ escape c, Inline e := by
  have hdigit : ∀ n < 16, Inline (Text.hexDigit n) := by decide
  unfold escape
  split_ifs with h₁ h₂ h₃ h₄ h₅ h₆ h₇ hcontrol
  · exact inline_literal (by decide)
  · exact inline_literal (by decide)
  · exact inline_literal (by decide)
  · exact inline_literal (by decide)
  · exact inline_literal (by decide)
  · exact inline_literal (by decide)
  · exact inline_literal (by decide)
  · have hhigh := hdigit (c.toNat / 16) (by omega)
    have hlow := hdigit (c.toNat % 16) (by omega)
    simp only [List.forall_mem_cons]
    refine ⟨by decide, by decide, by decide, by decide, hhigh, hlow, by simp⟩
  · intro e he
    rw [List.mem_singleton.1 he]
    exact Nat.le_of_not_lt hcontrol

theorem inline_quote (s : List Char) : ∀ c ∈ quote s, Inline c := by
  intro c hc
  simp only [quote, List.cons_append, List.mem_cons, List.mem_append, List.mem_flatMap,
    List.not_mem_nil, or_false] at hc
  rcases hc with rfl | ⟨d, -, hc⟩ | rfl
  · decide
  · exact inline_escape d c hc
  · decide

theorem inline_number {cs : List Char} (h : Number cs) : ∀ c ∈ cs, Inline c := by
  obtain ⟨-, -, -, -, hall⟩ := h.chars
  intro c hc
  have hchar := hall c hc
  simp only [isNumberChar, Bool.or_eq_true, beq_iff_eq] at hchar
  rcases hchar with ((((hdigit | rfl) | rfl) | rfl) | rfl) | rfl
  · exact inline_of_isDigit hdigit
  all_goals decide

mutual

theorem inline_render : ∀ (j : Json), ∀ c ∈ j.render, Inline c
  | null => inline_literal (by decide)
  | bool true => inline_literal (by decide)
  | bool false => inline_literal (by decide)
  | integer n => inline_number (integer_renderInt n).number
  | double d => by
    rw [render]
    split
    · exact inline_number (d.number_text layout)
    · exact inline_literal (by decide)
  | text s => inline_quote s.toList
  | list [] => inline_literal (by decide)
  | list (x :: xs) => by
    have hx := inline_render x
    have hxs := inline_renderItems xs
    simp only [render, List.cons_append, List.forall_mem_cons, List.forall_mem_append]
    exact ⟨by decide, hx, hxs⟩
  | object [] => inline_literal (by decide)
  | object ((k, v) :: fs) => by
    have hk := inline_quote k.toList
    have hv := inline_render v
    have hfs := inline_renderFields fs
    simp only [render, List.cons_append, List.append_assoc, List.forall_mem_cons,
      List.forall_mem_append]
    exact ⟨by decide, hk, by decide, hv, hfs⟩
  | invalid => inline_literal (by decide)

theorem inline_renderItems : ∀ (xs : List Json), ∀ c ∈ renderItems xs, Inline c
  | [] => inline_literal (by decide)
  | x :: xs => by
    have hx := inline_render x
    have hxs := inline_renderItems xs
    simp only [renderItems, List.cons_append, List.forall_mem_cons, List.forall_mem_append]
    exact ⟨by decide, hx, hxs⟩

theorem inline_renderFields : ∀ (fs : List (String × Json)), ∀ c ∈ renderFields fs, Inline c
  | [] => inline_literal (by decide)
  | (k, v) :: fs => by
    have hk := inline_quote k.toList
    have hv := inline_render v
    have hfs := inline_renderFields fs
    simp only [renderFields, List.cons_append, List.append_assoc, List.forall_mem_cons,
      List.forall_mem_append]
    exact ⟨by decide, hk, by decide, hv, hfs⟩

end

/-- **A compact text has no control characters.** -/
theorem inline_compact (j : Json) : ∀ c ∈ j.compact.toList, Inline c := by
  rw [compact, String.toList_ofList]
  exact inline_render j

theorem newline_not_mem_compact (j : Json) : '\n' ∉ j.compact.toList := by
  intro h
  exact absurd (inline_compact j _ h) (by decide)

end Json

/-! ## Bytes -/

namespace Transport

theorem isLineEnd_ofNat {n : Nat} (h : n % 256 ≠ 10) : isLineEnd (UInt8.ofNat n) = false := by
  refine beq_eq_false_iff_ne.2 fun heq => h ?_
  have hten := congrArg UInt8.toNat heq
  rwa [UInt8.toNat_ofNat'] at hten

/-- The bytes of a character are above those of all control characters. -/
theorem isLineEnd_utf8EncodeChar {c : Char} (h : Inline c) :
    ∀ b ∈ String.utf8EncodeChar c, isLineEnd b = false := by
  have hlow : 0x20 ≤ c.val.toNat := h
  unfold String.utf8EncodeChar
  dsimp only
  intro b hb
  split_ifs at hb <;> simp only [List.mem_cons, List.not_mem_nil, or_false] at hb
  · subst hb
    exact isLineEnd_ofNat (by omega)
  · rcases hb with rfl | rfl <;> exact isLineEnd_ofNat (by omega)
  · rcases hb with rfl | rfl | rfl <;> exact isLineEnd_ofNat (by omega)
  · rcases hb with rfl | rfl | rfl | rfl <;> exact isLineEnd_ofNat (by omega)

theorem toList_toUTF8_append (a b : String) :
    (a ++ b).toUTF8.toList = a.toUTF8.toList ++ b.toUTF8.toList := by
  simp only [Text.toList_toUTF8, String.toList_append, List.flatMap_append]

/-- A text without control characters has no byte that ends a line. -/
theorem isLineEnd_toUTF8 {text : String} (h : ∀ c ∈ text.toList, Inline c) :
    ∀ b ∈ text.toUTF8.toList, isLineEnd b = false := by
  intro b hb
  rw [Text.toList_toUTF8] at hb
  obtain ⟨c, hc, hb⟩ := List.mem_flatMap.1 hb
  exact isLineEnd_utf8EncodeChar (h c hc) b hb

/-! ## Lines -/

/-- Bytes that end no line are read on. -/
theorem linesFrom_append {bs : List UInt8} (h : ∀ b ∈ bs, isLineEnd b = false)
    (taken rest : List UInt8) :
    linesFrom taken (bs ++ rest) = linesFrom (bs.reverse ++ taken) rest := by
  induction bs generalizing taken with
  | nil => rfl
  | cons b bs ih =>
    obtain ⟨hb, hbs⟩ := List.forall_mem_cons.1 h
    rw [List.cons_append, linesFrom, hb, if_neg Bool.false_ne_true, ih hbs]
    simp

/-- What is printed of some responses. -/
def printed (rs : List Response) : String := String.join (rs.map line)

theorem printed_cons (r : Response) (rs : List Response) :
    printed (r :: rs) = line r ++ printed rs := by
  rw [printed, List.map_cons, String.join_cons, printed]

/-- **Every response is a line of its own**: what is printed falls into the compact texts of
    the responses, whatever texts they hold. -/
theorem lines_printed (rs : List Response) :
    lines (printed rs).toUTF8.toList = rs.map fun r => r.toJson.compact.toUTF8.toList := by
  induction rs with
  | nil =>
    rw [Text.toList_toUTF8]
    rfl
  | cons r rs ih =>
    have hinline := isLineEnd_toUTF8 (Json.inline_compact r.toJson)
    have hend : "\n".toUTF8.toList = [10] := by
      rw [Text.toList_toUTF8]
      rfl
    have hbreak : isLineEnd 10 = true := rfl
    rw [printed_cons, line, toList_toUTF8_append, toList_toUTF8_append, hend, lines,
      List.append_assoc, linesFrom_append hinline, List.cons_append, List.nil_append, linesFrom,
      if_pos hbreak, List.append_nil, List.reverse_reverse, List.map_cons, ← ih, lines]

end Transport

end LedgerGate
