/-
  Records read back, as far as they do.

  Reading cuts a text at its line breaks and removes the blanks around each line, and
  writing does nothing against either.  So a record comes back as it was exactly if its
  address is one line without blanks around it.

  * `Record.reread`: what becomes of a record that is written and read;
  * `Record.parse_format`: that is what `parse` makes of what `format` wrote;
  * `Record.reread_eq_ok_self`: which records come back as they were.
-/
import LedgerGate.Escrow.Record
import LedgerGate.Proofs.Text.Hex

namespace LedgerGate.Escrow.Record

/-! ## Lines -/

theorem lines_ne_nil (cs : List Char) : lines cs ≠ [] := by
  cases cs with
  | nil => exact List.cons_ne_nil _ _
  | cons c cs =>
    unfold lines
    split
    · exact List.cons_ne_nil _ _
    · split <;> exact List.cons_ne_nil _ _

/-- A line break between two texts keeps their lines apart. -/
theorem lines_append (cs ds : List Char) : lines (cs ++ '\n' :: ds) = lines cs ++ lines ds := by
  induction cs with
  | nil => simp [lines]
  | cons c cs ih =>
    by_cases hc : c = '\n'
    · simp [lines, hc, ih]
    · obtain ⟨l, ls, hl⟩ := List.exists_cons_of_ne_nil (lines_ne_nil cs)
      simp [lines, hc, ih, hl]

theorem lines_eq_singleton {cs : List Char} (h : '\n' ∉ cs) : lines cs = [cs] := by
  induction cs with
  | nil => rfl
  | cons c cs ih =>
    obtain ⟨hc, hcs⟩ : '\n' ≠ c ∧ '\n' ∉ cs := by simpa using h
    simp [lines, hc.symm, ih hcs]

theorem length_lines_of_mem {cs : List Char} (h : '\n' ∈ cs) : 2 ≤ (lines cs).length := by
  obtain ⟨as, bs, rfl⟩ := List.append_of_mem h
  have ha := List.length_pos_iff.2 (lines_ne_nil as)
  have hb := List.length_pos_iff.2 (lines_ne_nil bs)
  rw [lines_append, List.length_append]
  omega

/-! ## Writing and reading -/

/-- What becomes of a record that is written and read. -/
def reread (r : Record) : Except Fault Record :=
  if '\n' ∈ r.address.toList then .error (malformed "expected three lines")
  else if (Text.trim r.address).isEmpty then .error (malformed "empty contract address")
  else .ok ⟨Text.trim r.address, r.keys⟩

theorem parseKey_toHex (k : Crypto.Key) : parseKey k.toHex.toList = .ok k := by
  rw [parseKey, Crypto.Key.trimBlanks_toHex, String.ofList_toList, Crypto.Key.ofHex_toHex]

theorem lines_format (r : Record) :
    lines r.format.toList = lines r.address.toList ++
      [r.keys.publicKey.toHex.toList, r.keys.privateKey.toHex.toList] := by
  have hformat : r.format.toList = r.address.toList ++
      '\n' :: (r.keys.publicKey.toHex.toList ++ '\n' :: r.keys.privateKey.toHex.toList) := by
    simp [format]
  rw [hformat, lines_append, lines_append, lines_eq_singleton (Crypto.Key.not_mem_toHex _),
    lines_eq_singleton (Crypto.Key.not_mem_toHex _)]
  rfl

/-- **What `parse` makes of a written record** whose keys belong together. -/
theorem parse_format {r : Record} (hkeys : ∃ secret, r.keys = .ofPrivate secret) :
    parse r.format = r.reread := by
  obtain ⟨secret, hkeys⟩ := hkeys
  have hlines := lines_format r
  by_cases hbreak : '\n' ∈ r.address.toList
  · have hlen := length_lines_of_mem hbreak
    rw [parse, reread, if_pos hbreak, hlines]
    split
    · rename_i hthree
      have := congrArg List.length hthree
      rw [List.length_append] at this
      simp only [List.length_cons, List.length_nil] at this
      omega
    · rfl
  · rw [lines_eq_singleton hbreak] at hlines
    rw [parse, reread, if_neg hbreak, hlines]
    have htrim : String.ofList (Text.trimBlanks r.address.toList) = Text.trim r.address := rfl
    simp only [List.cons_append, List.nil_append, parseKey_toHex, htrim]
    by_cases hempty : (Text.trim r.address).isEmpty
    · rw [if_pos hempty, if_pos hempty]
    · have hpair : (Crypto.KeyPair.ofPrivate r.keys.privateKey).publicKey = r.keys.publicKey := by
        rw [hkeys]; rfl
      have hsame : Crypto.KeyPair.ofPrivate r.keys.privateKey = r.keys := by rw [hkeys]; rfl
      rw [if_neg hempty, if_neg hempty, if_pos hpair, hsame]

/-- **Which records come back as they were**: those whose address is one line without
    blanks around it. -/
theorem reread_eq_ok_self {r : Record} (hr : r.address ≠ "") :
    r.reread = .ok r ↔ '\n' ∉ r.address.toList ∧ Text.trim r.address = r.address := by
  constructor
  · intro h
    rw [reread] at h
    split at h
    · cases h
    · rename_i hbreak
      split at h
      · cases h
      · exact ⟨hbreak, congrArg Record.address (Except.ok.inj h)⟩
  · rintro ⟨hbreak, htrim⟩
    have hempty : ¬ r.address.isEmpty := by rwa [String.isEmpty_iff]
    rw [reread, if_neg hbreak, htrim, if_neg hempty]

end LedgerGate.Escrow.Record
