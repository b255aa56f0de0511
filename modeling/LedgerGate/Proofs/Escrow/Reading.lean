/-
  Which texts are read as the record of an escrow.

  A record is three lines: the address of the contract, the public key of its owner and the
  private key.  Blanks around each of them do not count, and a key may have one `0x` before
  its digits.  What was read is written without all this, and so it is read again as it is.

  * `KeyLine`: a line that holds a key;
  * `Spelled`: a text that is a record;
  * `parse_eq_ok_iff`: **a text is read as a record exactly if it is one**;
  * `ReadsRecord`, `readsRecord_of`: what is read from a text, and that it lasts.
-/
import LedgerGate.Proofs.Escrow.Record
import LedgerGate.Proofs.Text.Blanks
import LedgerGate.Proofs.Text.Spelling

namespace LedgerGate.Text

variable {text : List Char} {bytes : List UInt8}

/-- Two digits are spelled for every byte, -/
theorem Spells.length_eq (h : Spells text bytes) : text.length = 2 * bytes.length := by
  induction h with
  | nil => rfl
  | cons _ _ _ ih =>
    rw [List.length_cons, List.length_cons, List.length_cons, ih]
    omega

/-- and nothing but digits. -/
theorem Spells.isSome_digitValue? (h : Spells text bytes) {c : Char} (hc : c ∈ text) :
    (digitValue? c).isSome := by
  induction h with
  | nil => cases hc
  | cons hhi hlo _ ih =>
    rcases List.mem_cons.1 hc with rfl | hc
    · rw [hhi]
      rfl
    · rcases List.mem_cons.1 hc with rfl | hc
      · rw [hlo]
        rfl
      · exact ih hc

end LedgerGate.Text

namespace LedgerGate.Crypto.Key

open Text (Spells)

/-- A text is read as a key if, without its mark, it spells the key's bytes. -/
theorem ofHex_eq_ok_iff {s : String} {k : Key} :
    ofHex s = .ok k ↔ Spells (dropMark (Text.trimBlanks s.toList)) k.bytes := by
  have hdecode : ∀ bytes, Text.decodeHex (String.ofList (dropMark (Text.trimBlanks s.toList))) =
      .ok bytes ↔ Spells (dropMark (Text.trimBlanks s.toList)) bytes := by
    intro bytes
    rw [Text.decodeHex_eq_ok_iff, String.toList_ofList]
  rw [← hdecode, ofHex]
  split
  · rename_i e he
    rw [he]
    constructor <;> rintro ⟨⟩
  · rename_i bytes hbytes
    rw [hbytes, ofBytes]
    constructor
    · intro h
      split at h <;> cases h
      rfl
    · intro h
      cases h
      rw [dif_pos k.length_eq]

/-- What is behind the mark spells a key: there is one mark, or none. -/
theorem spells_dropMark_iff {text : List Char} {bytes : List UInt8} :
    Spells (dropMark text) bytes ↔
      ∃ digits, (text = digits ∨ text = '0' :: 'x' :: digits) ∧ Spells digits bytes := by
  constructor
  · intro h
    refine ⟨dropMark text, ?_, h⟩
    unfold dropMark
    split
    · exact .inr rfl
    · exact .inl rfl
  · rintro ⟨digits, rfl | rfl, h⟩
    · have hx : 'x' ∉ text := fun hx => absurd (h.isSome_digitValue? hx) (by decide)
      rwa [dropMark_eq_self hx]
    · exact h

end LedgerGate.Crypto.Key

namespace LedgerGate.Escrow.Record

open Text (Spells Trimmed trimBlanks_eq_iff)

/-! ## Lines -/

/-- The first line of a text ends with the text or at its first line break. -/
theorem lines_eq_cons_iff {cs l : List Char} {ls : List (List Char)} :
    lines cs = l :: ls ↔
      '\n' ∉ l ∧ (cs = l ∧ ls = [] ∨ ∃ rest, cs = l ++ '\n' :: rest ∧ lines rest = ls) := by
  constructor
  · intro h
    by_cases hbreak : '\n' ∈ cs
    · obtain ⟨before, rest, rfl, hfirst⟩ := List.eq_append_cons_of_mem hbreak
      rw [lines_append, lines_eq_singleton hfirst, List.singleton_append] at h
      cases h
      exact ⟨hfirst, .inr ⟨rest, rfl, rfl⟩⟩
    · rw [lines_eq_singleton hbreak] at h
      cases h
      exact ⟨hbreak, .inl ⟨rfl, rfl⟩⟩
  · rintro ⟨hl, ⟨rfl, rfl⟩ | ⟨rest, rfl, rfl⟩⟩
    · exact lines_eq_singleton hl
    · rw [lines_append, lines_eq_singleton hl, List.singleton_append]

/-- A text has three lines if there are two line breaks. -/
theorem lines_eq_three_iff {cs first second third : List Char} :
    lines cs = [first, second, third] ↔
      cs = first ++ '\n' :: (second ++ '\n' :: third) ∧
        '\n' ∉ first ∧ '\n' ∉ second ∧ '\n' ∉ third := by
  have hlast : ∀ rest, lines rest = [third] ↔ rest = third ∧ '\n' ∉ third := by
    intro rest
    rw [lines_eq_cons_iff]
    constructor
    · rintro ⟨hthird, ⟨rfl, -⟩ | ⟨more, -, hmore⟩⟩
      · exact ⟨rfl, hthird⟩
      · exact absurd hmore (lines_ne_nil more)
    · rintro ⟨rfl, hthird⟩
      exact ⟨hthird, .inl ⟨rfl, rfl⟩⟩
  rw [lines_eq_cons_iff]
  constructor
  · rintro ⟨hfirst, ⟨-, ⟨⟩⟩ | ⟨rest, rfl, hrest⟩⟩
    obtain ⟨hsecond, ⟨-, ⟨⟩⟩ | ⟨more, rfl, hmore⟩⟩ := lines_eq_cons_iff.1 hrest
    obtain ⟨rfl, hthird⟩ := (hlast more).1 hmore
    exact ⟨rfl, hfirst, hsecond, hthird⟩
  · rintro ⟨rfl, hfirst, hsecond, hthird⟩
    refine ⟨hfirst, .inr ⟨_, rfl, lines_eq_cons_iff.2 ⟨hsecond, .inr ⟨_, rfl, ?_⟩⟩⟩⟩
    exact (hlast third).2 ⟨rfl, hthird⟩

/-! ## Keys -/

/-- A line holds a key: blanks around them aside, these are its 64 digits, perhaps behind one
    `0x`. -/
def KeyLine (line : List Char) (k : Crypto.Key) : Prop :=
  ∃ text digits, Trimmed line text ∧ (text = digits ∨ text = '0' :: 'x' :: digits) ∧
    digits.length = 64 ∧ Spells digits k.bytes

/-- **A key is read from the lines that hold it.** -/
theorem parseKey_eq_ok_iff {line : List Char} {k : Crypto.Key} :
    parseKey line = .ok k ↔ KeyLine line k := by
  have htrim := Text.trimmed_trimBlanks line
  have hread : parseKey line = .ok k ↔
      Crypto.Key.ofHex (String.ofList (Text.trimBlanks line)) = .ok k := by
    unfold parseKey
    split <;> rename_i heq <;> simp [heq]
  rw [hread, Crypto.Key.ofHex_eq_ok_iff, String.toList_ofList, htrim.trimBlanks_eq,
    Crypto.Key.spells_dropMark_iff]
  constructor
  · rintro ⟨digits, hmark, h⟩
    exact ⟨_, digits, htrim, hmark, by rw [h.length_eq, k.length_eq], h⟩
  · rintro ⟨text, digits, htext, hmark, -, h⟩
    rw [trimBlanks_eq_iff.2 htext]
    exact ⟨digits, hmark, h⟩

/-! ## Records -/

/-- A text is a record: its address, the public key that belongs to its private key, and the
    private key, each on its line. -/
def Spelled (text : String) (r : Record) : Prop :=
  ∃ first second third : List Char,
    text.toList = first ++ '\n' :: (second ++ '\n' :: third) ∧
      ('\n' ∉ first ∧ '\n' ∉ second ∧ '\n' ∉ third) ∧
      (Trimmed first r.address.toList ∧ r.address ≠ "") ∧
      KeyLine second r.keys.publicKey ∧ KeyLine third r.keys.privateKey ∧
      r.keys.publicKey = Crypto.publicOf r.keys.privateKey

/-- **A text is read as a record exactly if it is one.** -/
theorem parse_eq_ok_iff {text : String} {r : Record} : parse text = .ok r ↔ Spelled text r := by
  constructor
  · intro h
    unfold parse at h
    split at h
    · rename_i first second third hlines
      obtain ⟨htext, hbreaks⟩ := lines_eq_three_iff.1 hlines
      dsimp only at h
      split at h
      · cases h
      · rename_i haddress
        split at h
        · cases h
        · rename_i publicKey hpublic
          split at h
          · cases h
          · rename_i privateKey hprivate
            split at h
            · rename_i hkeys
              cases h
              refine ⟨first, second, third, htext, hbreaks, ⟨?_, ?_⟩, ?_, ?_, rfl⟩
              · rw [String.toList_ofList]
                exact Text.trimmed_trimBlanks first
              · rwa [String.isEmpty_iff] at haddress
              · rw [hkeys]
                exact parseKey_eq_ok_iff.1 hpublic
              · exact parseKey_eq_ok_iff.1 hprivate
            · cases h
    · cases h
  · rintro ⟨first, second, third, htext, hbreaks, ⟨htrimmed, haddress⟩, hpublic, hprivate, hpair⟩
    have htrim : String.ofList (Text.trimBlanks first) = r.address := by
      rw [trimBlanks_eq_iff.2 htrimmed, String.ofList_toList]
    have hkeys : Crypto.KeyPair.ofPrivate r.keys.privateKey = r.keys := by
      rw [Crypto.KeyPair.ofPrivate, ← hpair]
    have hempty : ¬r.address.isEmpty := by rwa [String.isEmpty_iff]
    unfold parse
    rw [lines_eq_three_iff.2 ⟨htext, hbreaks⟩]
    simp only [htrim, parseKey_eq_ok_iff.2 hpublic, parseKey_eq_ok_iff.2 hprivate, hkeys]
    rw [if_neg hempty, if_pos trivial]

/-- **What was read and is written is read as the same.** -/
theorem Spelled.parse_format {text : String} {r : Record} (h : Spelled text r) :
    parse r.format = .ok r := by
  obtain ⟨first, second, third, -, ⟨hfirst, -⟩, ⟨htrimmed, haddress⟩, -, -, hpair⟩ := h
  have hkeys : ∃ secret, r.keys = .ofPrivate secret :=
    ⟨r.keys.privateKey, by rw [Crypto.KeyPair.ofPrivate, ← hpair]⟩
  rw [Record.parse_format hkeys, reread_eq_ok_self haddress]
  constructor
  · obtain ⟨-, before, after, hline, -⟩ := htrimmed
    rw [hline] at hfirst
    simp only [List.mem_append, not_or] at hfirst
    exact hfirst.1.2
  · rw [Text.trim, htrimmed.trimBlanks_eq, String.ofList_toList]

/-- A text that is no record is malformed. -/
theorem parse_error {text : String} {f : Fault} (h : parse text = .error f) :
    ∃ what, f = malformed what := by
  have hkey : ∀ {line f}, parseKey line = .error f → ∃ what, f = malformed what := by
    intro line f hline
    unfold parseKey at hline
    split at hline <;> cases hline
    exact ⟨_, rfl⟩
  unfold parse at h
  split at h
  · dsimp only at h
    split at h
    · cases h
      exact ⟨_, rfl⟩
    · split at h
      · rename_i hpublic
        cases h
        exact hkey hpublic
      · split at h
        · rename_i hprivate
          cases h
          exact hkey hprivate
        · split at h <;> cases h
          exact ⟨_, rfl⟩
  · cases h
    exact ⟨_, rfl⟩

/-- What is read from a text. -/
structure ReadsRecord (text : String) : Prop where
  /-- A record is read exactly if the text is that record, -/
  exactly : ∀ r, parse text = .ok r ↔ Spelled text r
  /-- and any other text is malformed: -/
  otherwise : (∀ r, ¬Spelled text r) → ∃ what, parse text = .error (malformed what)
  /-- what stands in the place of a record is none. -/
  marker : text = claimMarker → parse text = .error (malformed "expected three lines")
  /-- A record that was read and is written is read as the same. -/
  stable : ∀ r, parse text = .ok r → parse r.format = .ok r

/-- **What is read from a text.** -/
theorem readsRecord_of (text : String) : ReadsRecord text where
  exactly r := parse_eq_ok_iff
  otherwise hnone := by
    rcases hparse : parse text with f | r
    · obtain ⟨what, rfl⟩ := parse_error hparse
      exact ⟨what, rfl⟩
    · exact absurd (parse_eq_ok_iff.1 hparse) (hnone r)
  marker := by
    rintro rfl
    rfl
  stable r hr := (parse_eq_ok_iff.1 hr).parse_format

end LedgerGate.Escrow.Record
