/-
  What is read out of an encoded panic.

  A panic is reported as the selector and a code of 256 bits.  A few codes have a wording, the
  others are shown as they are; a text never stands for two codes.

  * `Shown`: what may be said of a code, `Shown.code_unique`, `Shown.text_unique`;
  * `panicText?_word`: every code is put into words;
  * `checkedPanic?`: the text found in two ways, a short code as a number and any other by its
    bytes (`checkedPanic?_eq`);
  * `PanicCode`, `ReadsPanic`, `readsPanic_of`: **what a reason with the selector of a panic
    says**.
-/
import LedgerGate.Proofs.Ledger.Revert
import LedgerGate.Proofs.Text.Numeral

namespace LedgerGate.Ledger.Revert

open Text (Numeral Shortest Spells)

/-! ## Codes and wordings -/

/-- What is said of a panic code: its wording, or else its shortest digits in lower case. -/
inductive Shown : Nat → String → Prop
  | known {code : Nat} {wording : String} :
      (code, wording) ∈ panicWordings → Shown code ("PANIC: " ++ wording)
  | bare {code : Nat} {digits : List Char} :
      code ∉ panicWordings.map (·.1) → Shortest digits code →
      Shown code ("PANIC: 0x" ++ String.ofList digits)

variable {n m : Nat} {s t : String} {data : List UInt8}

/-- No wording begins as a bare code does. -/
theorem head?_wording {wording : String} (h : (n, wording) ∈ panicWordings) :
    wording.toList.head? ≠ some '0' := by
  have hall : ∀ p ∈ panicWordings, p.2.toList.head? ≠ some '0' := by decide
  exact hall _ h

/-- A code has one wording, and a wording one code. -/
theorem wordings_apart {wording wording' : String} (h : (n, wording) ∈ panicWordings)
    (h' : (m, wording') ∈ panicWordings) : n = m ↔ wording = wording' := by
  have hall : ∀ p ∈ panicWordings, ∀ q ∈ panicWordings, p.1 = q.1 ↔ p.2 = q.2 := by
    decide +kernel
  exact hall _ h _ h'

theorem append_left_cancel_text {a b c : String} (h : a ++ b = a ++ c) : b = c := by
  have hchars := congrArg String.toList h
  rw [String.toList_append, String.toList_append] at hchars
  exact String.toList_injective (List.append_cancel_left hchars)

/-- A bare code as a wording of its own. -/
theorem bare_eq (digits : List Char) :
    "PANIC: 0x" ++ String.ofList digits = "PANIC: " ++ ("0x" ++ String.ofList digits) := by
  rw [← String.append_assoc]
  rfl

/-- A wording is never a bare code. -/
theorem wording_ne_bare {wording : String} (h : (n, wording) ∈ panicWordings)
    (digits : List Char) : "PANIC: " ++ wording ≠ "PANIC: 0x" ++ String.ofList digits := by
  intro heq
  rw [bare_eq] at heq
  have hsame := append_left_cancel_text heq
  refine head?_wording h ?_
  rw [hsame, String.toList_append]
  rfl

/-- **Two codes are never shown alike.** -/
theorem Shown.code_unique (h : Shown n s) (h' : Shown m s) : n = m := by
  cases h with
  | known hn =>
    generalize hs : "PANIC: " ++ _ = s at h'
    cases h' with
    | known hm => exact (wordings_apart hn hm).2 (append_left_cancel_text hs)
    | bare => exact absurd hs (wording_ne_bare hn _)
  | bare _ hn =>
    generalize hs : "PANIC: 0x" ++ _ = s at h'
    cases h' with
    | known hm => exact absurd hs.symm (wording_ne_bare hm _)
    | bare _ hm =>
      have hdigits := String.ofList_injective (append_left_cancel_text hs)
      exact hn.numeral.unique (hdigits ▸ hm.numeral)

/-- A code is shown in one way. -/
theorem Shown.text_unique (h : Shown n s) (h' : Shown n t) : s = t := by
  cases h with
  | known hn =>
    cases h' with
    | known hm => rw [(wordings_apart hn hm).1 rfl]
    | bare hnone => exact absurd (List.mem_map_of_mem hn) hnone
  | bare hnone hn =>
    cases h' with
    | known hm => exact absurd (List.mem_map_of_mem hm) hnone
    | bare _ hm => rw [hn.unique hm]

/-- Every code is shown by what is said of it. -/
theorem shown_panicWording (code : Nat) : Shown code ("PANIC: " ++ panicWording code) := by
  unfold panicWording
  split
  · rename_i key wording hfind
    obtain rfl : key = code := by simpa using List.find?_some hfind
    exact .known (List.mem_of_find?_eq_some hfind)
  · rename_i hnone
    have hunknown : code ∉ panicWordings.map (·.1) := by
      intro hmem
      obtain ⟨p, hp, rfl⟩ := List.mem_map.1 hmem
      exact absurd (List.find?_eq_none.1 hnone p hp) (by simp)
    rw [Text.hexNat, ← bare_eq]
    exact .bare hunknown (Text.shortest_toDigits code)

/-! ## In two ways -/

/-- The text of an encoded panic, found with machine words: a code of 32 bits is looked up and
    written as a number, a larger one is written as the digits of its bytes. -/
def checkedPanic? (data : List UInt8) : Option String := do
  let word ← between? data 0 32
  match machineWord? word with
  | some code =>
    if code.toNat < UInt32.size then some ("PANIC: " ++ panicWording code.toNat)
    else some ("PANIC: 0x" ++ String.ofList (Text.withoutZeros (Text.encodeHexChars word)))
  | none => some ("PANIC: 0x" ++ String.ofList (Text.withoutZeros (Text.encodeHexChars word)))

/-- A large code is shown by the digits of its bytes. -/
theorem shown_large {word : List UInt8} (hword : word.length = wordSize)
    (hlarge : UInt32.size ≤ number word) : Shown (number word)
      ("PANIC: 0x" ++ String.ofList (Text.withoutZeros (Text.encodeHexChars word))) := by
  have hne : word ≠ [] := by
    rintro rfl
    cases hword
  have hall : ∀ p ∈ panicWordings, p.1 < UInt32.size := by decide
  refine .bare ?_ (number_eq_bigEndian word ▸ Text.shortest_bytes hne)
  intro hmem
  obtain ⟨p, hp, hcode⟩ := List.mem_map.1 hmem
  have hsmall := hall p hp
  omega

/-- **Both ways lead to the same text** as the number of the word. -/
theorem checkedPanic?_eq : checkedPanic? data = panicText? data := by
  have hstart : BlockSearch.plus? 0 32 = some 32 := rfl
  have hbetween : between? data 0 32 = slice? data 0 wordSize := between?_eq hstart
  unfold checkedPanic? panicText?
  rw [hbetween]
  rcases hslice : slice? data 0 wordSize with _ | word
  · rfl
  obtain ⟨-, -, -, -, hword⟩ := slice?_eq_some_iff.1 hslice
  have hshown := shown_panicWording (number word)
  simp only [Option.bind_eq_bind, Option.bind_some, Option.map_some, machineWord?_eq hword]
  by_cases hfits : number word < UInt64.size
  · have hcode : (UInt64.ofNat (number word)).toNat = number word :=
      UInt64.toNat_ofNat_of_lt' hfits
    simp only [if_pos hfits, Option.map_some, hcode]
    split
    · rfl
    · rename_i hlarge
      rw [(shown_large hword (Nat.le_of_not_lt hlarge)).text_unique hshown]
  · have hlarge : UInt32.size ≤ number word :=
      Nat.le_trans (by decide) (Nat.le_of_not_lt hfits)
    simp only [if_neg hfits, Option.map_none]
    rw [(shown_large hword hlarge).text_unique hshown]

/-! ## Reasons -/

/-- A text begins with the digits of a code, as a word with the highest byte first; any whole
    bytes may follow. -/
def HasCode (text : List Char) (n : Nat) : Prop :=
  ∃ word more, Spells text (word ++ more) ∧ word.length = wordSize ∧ bigEndian word = n

/-- Every number of 256 bits can be a code. -/
theorem hasCode_word {text : List Char} (hn : n < 2 ^ 256) (more : List UInt8)
    (h : Spells text (word n ++ more)) : HasCode text n := by
  have hlt : n < 256 ^ wordSize := by simpa [wordSize] using hn
  exact ⟨word n, more, h, length_digits wordSize n,
    by rw [← number_eq_bigEndian, word, number_digits hlt]⟩

/-- The word of an encoded panic is found if there are as many bytes. -/
theorem panicText?_eq_some_iff : panicText? data = some s ↔ ∃ word more,
    data = word ++ more ∧ word.length = wordSize ∧
      s = "PANIC: " ++ panicWording (bigEndian word) := by
  simp only [panicText?, Option.map_eq_some_iff, slice?_eq_some_iff, number_eq_bigEndian]
  constructor
  · rintro ⟨word, ⟨before, more, hdata, hbefore, hword⟩, rfl⟩
    rw [List.length_eq_zero_iff.1 hbefore, List.nil_append] at hdata
    exact ⟨word, more, hdata, hword, rfl⟩
  · rintro ⟨word, more, hdata, hword, rfl⟩
    exact ⟨word, ⟨[], more, hdata, rfl, hword⟩, rfl⟩

/-- What is said by a reason that has the selector of a panic before some text. -/
structure ReadsPanic (reason : String) (text : List Char) : Prop where
  /-- A code is put into words, -/
  shown : ∀ n, HasCode text n → ∃ s, decode? reason = some s ∧ Shown n s
  /-- every number of 256 bits is one, whatever bytes follow it, -/
  coded : ∀ n more, n < 2 ^ 256 → Spells text (word n ++ more) →
    ∃ s, decode? reason = some s ∧ Shown n s
  /-- and without a code there are no words: -/
  nothing : (∀ n, ¬HasCode text n) → decode? reason = none
  /-- not for fewer bytes than a word has. -/
  short : ∀ data, Spells text data → data.length < wordSize → decode? reason = none
  /-- The words are the same by either way. -/
  checked : ∀ data, Spells text data → decode? reason = checkedPanic? data
  /-- Two reasons are put into the same words exactly if they have the same code. -/
  apart : ∀ {other : String} {head' text' : List Char} {n m : Nat},
    other.toList = head' ++ text' → head'.map Char.toLower = panicSelector →
    HasCode text n → HasCode text' m → (decode? reason = decode? other ↔ n = m)

variable {reason : String} {head text : List Char}

/-- A reason with the selector of a panic is read as one. -/
theorem decode?_panic (hreason : reason.toList = head ++ text)
    (hhead : head.map Char.toLower = panicSelector) :
    decode? reason = (body? text).bind panicText? := by
  have hother : afterSelector? errorSelector (head ++ text) = none := by
    have hsame : errorSelector.length = panicSelector.length := by decide
    have hlength : errorSelector.length = head.length := by
      rw [hsame, ← hhead, List.length_map]
    have hne : panicSelector ≠ errorSelector := by decide
    rw [afterSelector?, hlength, List.take_left, hhead, if_neg hne]
  rw [decode?, hreason, hother, afterSelector?_eq hhead]

/-- The words of a code. -/
theorem decode?_of_hasCode (hreason : reason.toList = head ++ text)
    (hhead : head.map Char.toLower = panicSelector) (h : HasCode text n) :
    decode? reason = some ("PANIC: " ++ panicWording n) := by
  obtain ⟨word, more, hspells, hword, rfl⟩ := h
  rw [decode?_panic hreason hhead, body?_eq_some_iff.2 hspells, Option.bind_some]
  exact panicText?_eq_some_iff.2 ⟨word, more, rfl, hword, rfl⟩

/-- **What a reason with the selector of a panic says.** -/
theorem readsPanic_of (hreason : reason.toList = head ++ text)
    (hhead : head.map Char.toLower = panicSelector) : ReadsPanic reason text := by
  have hdecode := decode?_panic hreason hhead
  have hshown : ∀ n, HasCode text n → ∃ s, decode? reason = some s ∧ Shown n s := fun n hn =>
    ⟨_, decode?_of_hasCode hreason hhead hn, shown_panicWording n⟩
  constructor
  · exact hshown
  · exact fun n more hn hspells => hshown n (hasCode_word hn more hspells)
  · intro hnone
    rw [hdecode, Option.eq_none_iff_forall_ne_some]
    intro s hs
    obtain ⟨data, hbody, hpanic⟩ := Option.bind_eq_some_iff.1 hs
    obtain ⟨word, more, rfl, hword, -⟩ := panicText?_eq_some_iff.1 hpanic
    exact hnone _ ⟨word, more, body?_eq_some_iff.1 hbody, hword, rfl⟩
  · intro data hspells hlength
    rw [hdecode, body?_eq_some_iff.2 hspells, Option.bind_some, panicText?, slice?,
      if_neg (by omega), Option.map_none]
  · intro data hspells
    rw [hdecode, body?_eq_some_iff.2 hspells, Option.bind_some, checkedPanic?_eq]
  · intro other head' text' n m hother hhead' hn hm
    rw [decode?_of_hasCode hreason hhead hn, decode?_of_hasCode hother hhead' hm,
      Option.some.injEq]
    constructor
    · intro hsame
      exact (shown_panicWording n).code_unique (hsame ▸ shown_panicWording m)
    · rintro rfl
      rfl

/-- The least code that no machine word holds, and a further byte. -/
def wideCode : List Char := Text.encodeHexChars (word (2 ^ 64) ++ [15])

/-- It is shown as it is, with the selector in capital letters. -/
theorem readsPanic_wide : ("0X4E487B71".toList).map Char.toLower = panicSelector ∧
    ReadsPanic (String.ofList ("0X4E487B71".toList ++ wideCode)) wideCode ∧
    decode? (String.ofList ("0X4E487B71".toList ++ wideCode)) =
      some "PANIC: 0x10000000000000000" := by
  have hhead : ("0X4E487B71".toList).map Char.toLower = panicSelector := by decide
  have hreads : ReadsPanic (String.ofList ("0X4E487B71".toList ++ wideCode)) wideCode :=
    readsPanic_of String.toList_ofList hhead
  obtain ⟨s, hs, hshown⟩ := hreads.coded (2 ^ 64) [15] (by decide) (Text.spells_encodeHexChars _)
  have htext : "PANIC: " ++ panicWording (2 ^ 64) = "PANIC: 0x10000000000000000" := by decide
  refine ⟨hhead, hreads, ?_⟩
  rw [hs, hshown.text_unique (shown_panicWording _), htext]

end LedgerGate.Ledger.Revert
