/-
  Hexadecimal text reads back: what `encodeHex` writes, `decodeHex` reads, and so it is
  for keys.

  The digits are plain characters, so a written text is as long in bytes as in
  characters, and neither blanks nor an `0x` at its start get lost in reading.

  * `decodeHex_encodeHex`: bytes read back;
  * `Key.ofHex_toHex`: keys read back.
-/
import LedgerGate.Crypto.Key
import Mathlib.Data.List.Basic

namespace LedgerGate.Text

/-! ## Digits -/

/-- What is to be known of a digit that is written. -/
theorem hexDigit_spec {n : Nat} (h : n < 16) :
    digitValue? (hexDigit n) = some n ∧ (hexDigit n).toNat < 0x80 ∧ isBlank (hexDigit n) = false ∧
      hexDigit n ≠ '\n' ∧ hexDigit n ≠ 'x' := by
  have hall : ∀ n : Fin 16, digitValue? (hexDigit n) = some n.val ∧ (hexDigit n).toNat < 0x80 ∧
      isBlank (hexDigit n) = false ∧ hexDigit n ≠ '\n' ∧ hexDigit n ≠ 'x' := by decide
  exact hall ⟨n, h⟩

/-- The characters of a hexadecimal text are digits. -/
theorem mem_encodeHexChars {c : Char} {bytes : List UInt8} (h : c ∈ encodeHexChars bytes) :
    ∃ n < 16, c = hexDigit n := by
  obtain ⟨b, -, hc⟩ := List.mem_flatMap.1 h
  have hb := b.toNat_lt
  simp only [hexByte, List.mem_cons, List.not_mem_nil, or_false] at hc
  rcases hc with rfl | rfl
  · exact ⟨_, by omega, rfl⟩
  · exact ⟨_, by omega, rfl⟩

/-! ## Bytes of a text -/

theorem toList_loop (bytes : ByteArray) (i : Nat) (acc : List UInt8) :
    ByteArray.toList.loop bytes i acc = acc.reverse ++ bytes.data.toList.drop i := by
  induction i, acc using ByteArray.toList.loop.induct bytes with
  | case1 i acc hlt ih =>
    have hlt' : i < bytes.data.toList.length := hlt
    rw [ByteArray.toList.loop, if_pos hlt, ih, List.drop_eq_getElem_cons hlt']
    simp [ByteArray.get!, getElem!_pos bytes.data i hlt]
  | case2 i acc hge =>
    have hge' : bytes.data.toList.length ≤ i := Nat.le_of_not_lt hge
    rw [ByteArray.toList.loop, if_neg hge, List.drop_eq_nil_of_le hge', List.append_nil]

theorem byteArray_toList (bytes : ByteArray) : bytes.toList = bytes.data.toList := by
  rw [ByteArray.toList, toList_loop]
  rfl

/-- The bytes of a text are those of its characters. -/
theorem toList_toUTF8 (text : String) :
    text.toUTF8.toList = text.toList.flatMap String.utf8EncodeChar := by
  conv_lhs => rw [← String.ofList_toList (s := text)]
  rw [byteArray_toList, String.toUTF8_eq_toByteArray, String.toByteArray_ofList,
    List.utf8Encode, List.data_toByteArray, List.toList_toArray]

/-- The bytes of a text of plain characters are the numbers of its characters. -/
theorem utf8_ofList {cs : List Char} (h : ∀ c ∈ cs, c.toNat < 0x80) :
    (String.ofList cs).toUTF8.toList = cs.map (·.toUInt8) := by
  rw [toList_toUTF8, String.toList_ofList]
  induction cs with
  | nil => rfl
  | cons c cs ih =>
    have hc : c.utf8Size = 1 :=
      Char.utf8Size_eq_one_iff.2 (Nat.le_of_lt_succ (h c List.mem_cons_self))
    rw [List.flatMap_cons, String.utf8EncodeChar_eq_singleton hc,
      ih fun d hd => h d (List.mem_cons_of_mem c hd)]
    rfl

/-! ## Reading back -/

theorem toNat_toUInt8 {c : Char} (h : c.toNat < 0x80) : c.toUInt8.toNat = c.toNat := by
  rw [Char.toUInt8, UInt32.toNat_toUInt8]
  exact Nat.mod_eq_of_lt (Nat.lt_trans h (by decide))

/-- A digit that was written is read as its value. -/
theorem byteDigit?_hexDigit {n : Nat} (h : n < 16) :
    byteDigit? (hexDigit n).toUInt8 = some n := by
  obtain ⟨hvalue, hplain, -⟩ := hexDigit_spec h
  have hlt : (hexDigit n).toUInt8 < 0x80 := by
    rw [UInt8.lt_iff_toNat_lt, toNat_toUInt8 hplain]
    exact hplain
  rw [byteDigit?, if_pos hlt, toNat_toUInt8 hplain, Char.ofNat_toNat, hvalue]

theorem decodeHexPairs_encode (bytes : List UInt8) (index : Nat) :
    decodeHexPairs ((encodeHexChars bytes).map (·.toUInt8)) index = .ok bytes := by
  induction bytes generalizing index with
  | nil => rfl
  | cons b bs ih =>
    have hb := b.toNat_lt
    have hhi : b.toNat / 16 < 16 := by omega
    have hlo : b.toNat % 16 < 16 := by omega
    have hbyte : b.toNat / 16 * 16 + b.toNat % 16 = b.toNat := by omega
    simp only [encodeHexChars, List.flatMap_cons, hexByte, List.cons_append, List.nil_append,
      List.map_cons, decodeHexPairs, byteDigit?_hexDigit hhi, byteDigit?_hexDigit hlo, hbyte]
    rw [← encodeHexChars, ih, UInt8.ofNat_toNat]
    rfl

theorem length_encodeHexChars (bytes : List UInt8) :
    (encodeHexChars bytes).length = 2 * bytes.length := by
  induction bytes with
  | nil => rfl
  | cons b bs ih =>
    rw [encodeHexChars, List.flatMap_cons, ← encodeHexChars, List.length_append, ih]
    simp only [hexByte, List.length_cons, List.length_nil]
    omega

/-- **Bytes read back** from their hexadecimal text. -/
theorem decodeHex_encodeHex (bytes : List UInt8) : decodeHex (encodeHex bytes) = .ok bytes := by
  have hplain : ∀ c ∈ encodeHexChars bytes, c.toNat < 0x80 := by
    intro c hc
    obtain ⟨n, hn, rfl⟩ := mem_encodeHexChars hc
    exact (hexDigit_spec hn).2.1
  have heven : ((encodeHexChars bytes).map (·.toUInt8)).length % 2 ≠ 1 := by
    rw [List.length_map, length_encodeHexChars]
    omega
  rw [decodeHex, encodeHex, utf8_ofList hplain, decodeHexBytes, if_neg heven,
    decodeHexPairs_encode]

/-! ## Blanks and marks -/

/-- A text without blanks is left as it is. -/
theorem trimBlanks_eq_self {cs : List Char} (h : ∀ c ∈ cs, isBlank c = false) :
    trimBlanks cs = cs := by
  have hdrop : ∀ {l : List Char}, (∀ c ∈ l, isBlank c = false) → l.dropWhile isBlank = l := by
    intro l hl
    cases l with
    | nil => rfl
    | cons c l => rw [List.dropWhile_cons, hl c List.mem_cons_self]; rfl
  rw [trimBlanks, hdrop h, hdrop fun c hc => h c (List.mem_reverse.1 hc), List.reverse_reverse]

theorem trimBlanks_encodeHexChars (bytes : List UInt8) :
    trimBlanks (encodeHexChars bytes) = encodeHexChars bytes := by
  refine trimBlanks_eq_self fun c hc => ?_
  obtain ⟨n, hn, rfl⟩ := mem_encodeHexChars hc
  exact (hexDigit_spec hn).2.2.1

end LedgerGate.Text

namespace LedgerGate.Crypto.Key

open Text

theorem dropMark_eq_self {cs : List Char} (h : 'x' ∉ cs) : dropMark cs = cs := by
  unfold dropMark
  split
  · exact absurd (List.mem_cons_of_mem _ List.mem_cons_self) h
  · rfl

/-- **Keys read back** from their hexadecimal text. -/
theorem ofHex_toHex (k : Key) : ofHex k.toHex = .ok k := by
  have hx : 'x' ∉ encodeHexChars k.bytes := by
    intro hc
    obtain ⟨n, hn, heq⟩ := mem_encodeHexChars hc
    exact (hexDigit_spec hn).2.2.2.2 heq.symm
  rw [ofHex, toHex, encodeHex, String.toList_ofList, trimBlanks_encodeHexChars,
    dropMark_eq_self hx, ← encodeHex, decodeHex_encodeHex]
  simp only [ofBytes, dif_pos k.length_eq]

/-- There is no line break in a written key. -/
theorem not_mem_toHex (k : Key) : '\n' ∉ k.toHex.toList := by
  intro hc
  rw [toHex, encodeHex, String.toList_ofList] at hc
  obtain ⟨n, hn, heq⟩ := mem_encodeHexChars hc
  exact (hexDigit_spec hn).2.2.2.1 heq.symm

/-- There are no blanks around a written key. -/
theorem trimBlanks_toHex (k : Key) : trimBlanks k.toHex.toList = k.toHex.toList := by
  rw [toHex, encodeHex, String.toList_ofList, trimBlanks_encodeHexChars]

end LedgerGate.Crypto.Key
