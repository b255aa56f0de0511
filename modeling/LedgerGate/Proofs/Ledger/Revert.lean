/-
  What is read out of an encoded failure reason.

  The offset and the length of the text are words of 256 bits that whoever wrote the reason has
  chosen, and may point anywhere.  The text is found exactly if the bytes are laid out for it.

  * `Laid`: bytes that are laid out for a text (`errorText?_eq_some_iff`);
  * `checkedText?`: the text in arithmetic of machine words, every sum checked
    (`checkedText?_eq`);
  * `encoded`: the usual layout, `laid_encoded`;
  * `ReadsError`, `readsError_of`: **what a reason with the selector of an error says**, and
    what becomes of a confirmation with it.
-/
import LedgerGate.Ledger.Confirmation
import LedgerGate.Proofs.Ledger.Bracket
import LedgerGate.Proofs.Text.Spelling
import Mathlib.Data.List.Induction
import Mathlib.Data.Nat.Digits.Defs

namespace LedgerGate.Ledger.Revert

open BlockSearch (plus?)
open Text (Spells)

/-! ## Numbers -/

/-- The number whose digits in base 256 are some bytes, the highest first. -/
def bigEndian (bytes : List UInt8) : Nat := Nat.ofDigits 256 (bytes.reverse.map UInt8.toNat)

theorem foldl_number (bytes : List UInt8) (n : Nat) :
    bytes.foldl (fun n b => n * 256 + b.toNat) n = n * 256 ^ bytes.length + number bytes := by
  induction bytes generalizing n with
  | nil => simp [number]
  | cons b bs ih =>
    have hhead : number (b :: bs) = b.toNat * 256 ^ bs.length + number bs := by
      simp [number, List.foldl_cons, ih b.toNat]
    rw [List.foldl_cons, ih, hhead, List.length_cons, Nat.pow_succ]
    ring

theorem number_append (xs ys : List UInt8) :
    number (xs ++ ys) = number xs * 256 ^ ys.length + number ys := by
  rw [number, List.foldl_append, foldl_number]
  rfl

@[simp]
theorem number_concat (bytes : List UInt8) (b : UInt8) :
    number (bytes ++ [b]) = number bytes * 256 + b.toNat := by
  simp [number]

theorem number_eq_bigEndian (bytes : List UInt8) : number bytes = bigEndian bytes := by
  induction bytes using List.reverseRecOn with
  | nil => rfl
  | append_singleton bs b ih =>
    rw [number_concat, ih, bigEndian, bigEndian, List.reverse_append, List.reverse_singleton,
      List.singleton_append, List.map_cons, Nat.ofDigits_cons]
    ring

theorem number_lt (bytes : List UInt8) : number bytes < 256 ^ bytes.length := by
  induction bytes using List.reverseRecOn with
  | nil => simp [number]
  | append_singleton bs b ih =>
    have hb := b.toNat_lt
    rw [number_concat, List.length_append, Nat.pow_add, List.length_singleton]
    omega

theorem number_eq_zero_iff (bytes : List UInt8) : number bytes = 0 ↔ ∀ b ∈ bytes, b = 0 := by
  induction bytes using List.reverseRecOn with
  | nil => simp [number]
  | append_singleton bs b ih =>
    have hb : b.toNat = 0 ↔ b = 0 := by
      rw [← UInt8.toNat_inj, UInt8.toNat_zero]
    rw [number_concat, List.forall_mem_append, List.forall_mem_singleton, ← ih, ← hb]
    omega

/-! ## Layout -/

/-- Bytes are laid out for a text: a first word says how many bytes stand before a second one,
    that one says how many bytes follow it, and those are the text.  Both numbers are short,
    and anything may stand elsewhere. -/
inductive Laid (data : List UInt8) (s : String) : Prop
  | intro {offset rest before length after : List UInt8} :
      data = offset ++ rest → offset.length = wordSize →
      data = before ++ (length ++ (s.toUTF8.toList ++ after)) → length.length = wordSize →
      bigEndian offset = before.length → before.length < UInt64.size →
      bigEndian length = s.toUTF8.toList.length → s.toUTF8.toList.length < UInt64.size →
      Laid data s

variable {data : List UInt8} {s : String}

theorem slice?_eq_some_iff {offset count : Nat} {bytes : List UInt8} :
    slice? data offset count = some bytes ↔ ∃ before after,
      data = before ++ (bytes ++ after) ∧ before.length = offset ∧ bytes.length = count := by
  unfold slice?
  constructor
  · intro h
    split at h
    · rename_i hle
      cases h
      refine ⟨data.take offset, (data.drop offset).drop count, ?_, ?_, ?_⟩
      · rw [List.take_append_drop, List.take_append_drop]
      · rw [List.length_take]
        omega
      · rw [List.length_take, List.length_drop]
        omega
    · cases h
  · rintro ⟨before, after, rfl, rfl, rfl⟩
    rw [if_pos (by simp), List.drop_left, List.take_left]

theorem shortWord?_eq_some_iff {offset n : Nat} :
    shortWord? data offset = some n ↔ ∃ before word after,
      data = before ++ (word ++ after) ∧ before.length = offset ∧ word.length = wordSize ∧
        bigEndian word = n ∧ n < UInt64.size := by
  simp only [shortWord?, Option.bind_eq_some_iff, slice?_eq_some_iff, number_eq_bigEndian]
  constructor
  · rintro ⟨word, ⟨before, after, hdata, hbefore, hword⟩, h⟩
    split at h
    · rename_i hlt
      cases h
      exact ⟨before, word, after, hdata, hbefore, hword, rfl, hlt⟩
    · cases h
  · rintro ⟨before, word, after, hdata, hbefore, hword, rfl, hlt⟩
    exact ⟨word, ⟨before, after, hdata, hbefore, hword⟩, if_pos hlt⟩

/-- Bytes are read as a text if they are its bytes. -/
theorem fromUTF8?_eq_some_iff {bytes : List UInt8} :
    String.fromUTF8? ⟨bytes.toArray⟩ = some s ↔ bytes = s.toUTF8.toList := by
  rw [Text.byteArray_toList]
  unfold String.fromUTF8?
  constructor
  · intro h
    split at h
    · cases h
      rfl
    · cases h
  · rintro rfl
    exact dif_pos s.isValidUTF8

/-- **The text of an error is found exactly if the bytes are laid out for it.** -/
theorem errorText?_eq_some_iff : errorText? data = some s ↔ Laid data s := by
  simp only [errorText?, Option.bind_eq_some_iff, shortWord?_eq_some_iff, slice?_eq_some_iff,
    fromUTF8?_eq_some_iff]
  constructor
  · rintro ⟨o, ⟨start, offset, rest, hoffset, hstart, hwidth, ho, hshort⟩, n,
      ⟨before, length, behind, hlength, hbefore, hwidth', hn, hshort'⟩, bytes,
      ⟨head, after, hbytes, hhead, hcount⟩, rfl⟩
    rw [List.length_eq_zero_iff.1 hstart, List.nil_append] at hoffset
    -- what stands before the text ends with the word for its length
    have hsplit : head = before ++ length := by
      have hsame : head ++ (s.toUTF8.toList ++ after) = (before ++ length) ++ behind := by
        rw [← hbytes, hlength, List.append_assoc]
      exact (List.append_inj hsame (by rw [List.length_append]; omega)).1
    rw [hsplit, List.append_assoc] at hbytes
    exact .intro hoffset hwidth hbytes hwidth' (ho.trans hbefore.symm) (hbefore ▸ hshort)
      (hn.trans hcount.symm) (hcount ▸ hshort')
  · rintro ⟨hoffset, hwidth, hdata, hwidth', ho, hshort, hn, hshort'⟩
    rename_i offset rest before length after
    refine ⟨_, ⟨[], offset, rest, hoffset, rfl, hwidth, ho, hshort⟩, _,
      ⟨before, length, _, hdata, rfl, hwidth', hn, hshort'⟩, _,
      ⟨before ++ length, after, ?_, ?_, rfl⟩, rfl⟩
    · rw [hdata, List.append_assoc]
    · rw [List.length_append, hwidth']

/-! ## In machine words -/

/-- The bytes from a position up to another one, if there are such bytes. -/
def between? (data : List UInt8) (start stop : UInt64) : Option (List UInt8) :=
  if start ≤ stop ∧ stop.toNat ≤ data.length then
    some ((data.take stop.toNat).drop start.toNat)
  else none

/-- A word as a machine word: all but its last eight bytes must be zero. -/
def machineWord? (word : List UInt8) : Option UInt64 :=
  if (word.take (wordSize - 8)).any (· != 0) then none
  else some (UInt64.ofNat (number (word.drop (wordSize - 8))))

/-- The text of an encoded error, found with machine words; a sum that is too large for one
    leads to no text. -/
def checkedText? (data : List UInt8) : Option String := do
  let offset ← machineWord? (← between? data 0 32)
  let lengthEnd ← plus? offset 32
  let length ← machineWord? (← between? data offset lengthEnd)
  let textEnd ← plus? lengthEnd length
  let bytes ← between? data lengthEnd textEnd
  String.fromUTF8? ⟨bytes.toArray⟩

theorem toNat_of_plus? {a b c : UInt64} (h : plus? a b = some c) :
    c.toNat = a.toNat + b.toNat := by
  unfold BlockSearch.plus? at h
  split at h
  · rename_i hlt
    cases h
    rw [UInt64.toNat_add, Nat.mod_eq_of_lt hlt]
  · cases h

theorem le_of_plus?_eq_none {a b : UInt64} (h : plus? a b = none) :
    2 ^ 64 ≤ a.toNat + b.toNat := by
  unfold BlockSearch.plus? at h
  split at h
  · cases h
  · rename_i hge
    exact Nat.le_of_not_lt hge

/-- Bytes up to a sum are so many bytes. -/
theorem between?_eq {start count stop : UInt64} (h : plus? start count = some stop) :
    between? data start stop = slice? data start.toNat count.toNat := by
  have hstop := toNat_of_plus? h
  have hle : start ≤ stop := by
    rw [UInt64.le_iff_toNat_le]
    omega
  simp only [between?, slice?, hle, true_and, hstop, List.drop_take, Nat.add_sub_cancel_left]

/-- Where a sum is too large there are no bytes. -/
theorem slice?_eq_none {start count : UInt64} (hdata : data.length < 2 ^ 64)
    (h : plus? start count = none) : slice? data start.toNat count.toNat = none := by
  have hlarge := le_of_plus?_eq_none h
  rw [slice?, if_neg (by omega)]

/-- A word fits a machine word exactly if its high bytes are zero. -/
theorem machineWord?_eq {word : List UInt8} (h : word.length = wordSize) :
    machineWord? word =
      (if number word < UInt64.size then some (number word) else none).map UInt64.ofNat := by
  have hsplit : number word =
      number (word.take (wordSize - 8)) * 2 ^ 64 + number (word.drop (wordSize - 8)) := by
    have hlow : (word.drop (wordSize - 8)).length = 8 := by
      rw [List.length_drop, h]
      rfl
    conv_lhs => rw [← List.take_append_drop (wordSize - 8) word]
    rw [number_append, hlow]
    norm_num
  have hlow : number (word.drop (wordSize - 8)) < 2 ^ 64 := by
    have hlt := number_lt (word.drop (wordSize - 8))
    rw [List.length_drop, h] at hlt
    simpa [wordSize] using hlt
  have hsize : UInt64.size = 2 ^ 64 := rfl
  have hhigh : (word.take (wordSize - 8)).any (· != 0) = true ↔
      number (word.take (wordSize - 8)) ≠ 0 := by
    rw [Ne, number_eq_zero_iff]
    simp
  unfold machineWord?
  by_cases hzero : number (word.take (wordSize - 8)) = 0
  · rw [if_neg (fun hany => hhigh.1 hany hzero), if_pos (by omega), hsplit, hzero]
    simp
  · rw [if_pos (hhigh.2 hzero), if_neg (by omega)]
    rfl

/-- A word that is found is one that fits. -/
theorem bind_machineWord? (offset : Nat) :
    (slice? data offset wordSize).bind machineWord? =
      (shortWord? data offset).map UInt64.ofNat := by
  rcases hslice : slice? data offset wordSize with _ | word
  · simp [shortWord?, hslice]
  · obtain ⟨-, -, -, -, hlength⟩ := slice?_eq_some_iff.1 hslice
    simp [shortWord?, hslice, machineWord?_eq hlength]

theorem toNat_ofNat_of_shortWord? {offset n : Nat} (h : shortWord? data offset = some n) :
    (UInt64.ofNat n).toNat = n := by
  obtain ⟨-, -, -, -, -, -, -, hlt⟩ := shortWord?_eq_some_iff.1 h
  exact UInt64.toNat_ofNat_of_lt' hlt

/-- **With machine words the same text is found**: no sum that matters is too large for one, and
    no byte is looked for where there is none. -/
theorem checkedText?_eq (hdata : data.length < 2 ^ 64) : checkedText? data = errorText? data := by
  have hword : (32 : UInt64).toNat = wordSize := rfl
  have hzero : (0 : UInt64).toNat = 0 := rfl
  have hstart : plus? 0 32 = some 32 := rfl
  have hfirst : (between? data 0 32).bind machineWord? = (shortWord? data 0).map UInt64.ofNat := by
    rw [between?_eq hstart, hword, hzero, bind_machineWord?]
  unfold checkedText? errorText?
  simp only [Option.bind_eq_bind, ← Option.bind_assoc, hfirst]
  rcases hoffset : shortWord? data 0 with _ | o
  · rfl
  have ho := toNat_ofNat_of_shortWord? hoffset
  simp only [Option.map_some, Option.bind_some]
  rcases hsum : plus? (UInt64.ofNat o) 32 with _ | lengthEnd
  · have hnone := slice?_eq_none hdata hsum
    rw [ho, hword] at hnone
    simp [shortWord?, hnone]
  have hend := toNat_of_plus? hsum
  rw [ho, hword] at hend
  simp only [Option.bind_some, between?_eq hsum, ho, hword, bind_machineWord?]
  rcases hlength : shortWord? data o with _ | n
  · rfl
  have hn := toNat_ofNat_of_shortWord? hlength
  simp only [Option.map_some, Option.bind_some]
  rcases hsum' : plus? lengthEnd (UInt64.ofNat n) with _ | textEnd
  · have hnone := slice?_eq_none hdata hsum'
    rw [hend, hn] at hnone
    simp [hnone]
  · simp only [Option.bind_some, between?_eq hsum', hend, hn]

/-! ## The usual layout -/

/-- A number as so many bytes, the highest first. -/
def digits : Nat → Nat → List UInt8
  | 0, _ => []
  | count + 1, n => digits count (n / 256) ++ [UInt8.ofNat n]

@[simp]
theorem length_digits (count n : Nat) : (digits count n).length = count := by
  induction count generalizing n with
  | zero => rfl
  | succ count ih => simp [digits, ih]

theorem number_digits {count n : Nat} (h : n < 256 ^ count) : number (digits count n) = n := by
  induction count generalizing n with
  | zero =>
    rw [Nat.pow_zero, Nat.lt_one_iff] at h
    subst h
    rfl
  | succ count ih =>
    rw [Nat.pow_succ] at h
    rw [digits, number_concat, ih (Nat.div_lt_of_lt_mul (by omega)), UInt8.toNat_ofNat']
    omega

/-- A number as a word. -/
def word (n : Nat) : List UInt8 := digits wordSize n

theorem bigEndian_word {n : Nat} (h : n < UInt64.size) : bigEndian (word n) = n := by
  have hle : UInt64.size ≤ 256 ^ wordSize := by decide
  rw [← number_eq_bigEndian, word, number_digits (Nat.lt_of_lt_of_le h hle)]

/-- A text in the usual layout: the word for its length comes right behind the first word, and
    the text behind that.  More may follow. -/
def encoded (s : String) (more : List UInt8) : List UInt8 :=
  word wordSize ++ (word s.toUTF8.toList.length ++ (s.toUTF8.toList ++ more))

/-- The usual layout is one. -/
theorem laid_encoded (hs : s.toUTF8.toList.length < UInt64.size) (more : List UInt8) :
    Laid (encoded s more) s := by
  have hword : (word wordSize).length = wordSize := length_digits _ _
  have hfirst : bigEndian (word wordSize) = (word wordSize).length := by
    rw [hword, bigEndian_word (by decide)]
  exact .intro rfl hword rfl (length_digits _ _) hfirst (by rw [hword]; decide)
    (bigEndian_word hs) hs

/-! ## Reasons -/

theorem afterSelector?_eq {selector head rest : List Char}
    (h : head.map Char.toLower = selector) : afterSelector? selector (head ++ rest) = some rest := by
  have hlength : head.length = selector.length := by rw [← h, List.length_map]
  rw [afterSelector?, ← hlength, List.take_left, List.drop_left, if_pos h]

theorem body?_eq_some_iff {text : List Char} : body? text = some data ↔ Spells text data := by
  rw [body?, ← String.toList_ofList (l := text), ← Text.decodeHex_eq_ok_iff,
    String.ofList_toList]
  rcases Text.decodeHex (String.ofList text) with e | bytes <;> simp [Except.toOption]

/-- What is said by a reason that has the selector of an error before some text. -/
structure ReadsError (reason : String) (text : List Char) : Prop where
  /-- It is put into words exactly if the text spells bytes that are laid out for them. -/
  decodes : ∀ s, decode? reason = some s ↔ ∃ data, Spells text data ∧ Laid data s
  /-- Machine words are wide enough for every sum of it, and no byte is looked for where there
      is none. -/
  checked : ∀ data, Spells text data → data.length < UInt64.size →
    decode? reason = checkedText? data
  /-- The usual layout of a text says that text, whatever follows it. -/
  usual : ∀ s more, s.toUTF8.toList.length < UInt64.size → Spells text (encoded s more) →
    decode? reason = some s
  /-- A confirmation has its reason put into words, -/
  readable : ∀ (c : Confirmation) s, c.reason = some reason → decode? reason = some s →
    c.readable = { c with reason := some s }
  /-- and is left as it is if there are none. -/
  kept : ∀ c : Confirmation, (∀ r, c.reason = some r → decode? r = none) → c.readable = c

/-- **What a reason with the selector of an error says.** -/
theorem readsError_of {reason : String} {head text : List Char}
    (hreason : reason.toList = head ++ text) (hhead : head.map Char.toLower = errorSelector) :
    ReadsError reason text := by
  have hdecode : decode? reason = (body? text).bind errorText? := by
    rw [decode?, hreason, afterSelector?_eq hhead]
  have hdecodes : ∀ s, decode? reason = some s ↔ ∃ data, Spells text data ∧ Laid data s := by
    intro s
    simp only [hdecode, Option.bind_eq_some_iff, body?_eq_some_iff, errorText?_eq_some_iff]
  constructor
  · exact hdecodes
  · intro data hspells hlength
    rw [hdecode, body?_eq_some_iff.2 hspells, Option.bind_some, checkedText?_eq hlength]
  · intro s more hs hspells
    exact (hdecodes s).2 ⟨_, hspells, laid_encoded hs more⟩
  · intro c s hc hs
    simp [Confirmation.readable, hc, hs]
  · intro c hc
    unfold Confirmation.readable
    rcases hr : c.reason with _ | r
    · rfl
    · simp [hc r hr]

/-- A text of three bytes in the usual layout, filled up to whole words. -/
def padded : List Char := Text.encodeHexChars (encoded "nö" (List.replicate 29 0))

/-- The same with the selector in capital letters says the text. -/
theorem readsError_capital : ("0X08C379A0".toList).map Char.toLower = errorSelector ∧
    ReadsError (String.ofList ("0X08C379A0".toList ++ padded)) padded ∧
    decode? (String.ofList ("0X08C379A0".toList ++ padded)) = some "nö" := by
  have hhead : ("0X08C379A0".toList).map Char.toLower = errorSelector := by decide
  have hreads : ReadsError (String.ofList ("0X08C379A0".toList ++ padded)) padded :=
    readsError_of String.toList_ofList hhead
  have hshort : "nö".toUTF8.toList.length < UInt64.size := by
    rw [Text.toList_toUTF8]
    decide
  exact ⟨hhead, hreads, hreads.usual "nö" _ hshort (Text.spells_encodeHexChars _)⟩

end LedgerGate.Ledger.Revert
