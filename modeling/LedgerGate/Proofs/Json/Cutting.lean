/-
  Texts cut into tokens.

  Blanks stand between tokens, a mark is one character, a text goes from quote to quote; a
  word and a number end where something stands that does not go on with them.  The lexer cuts
  a text in exactly this way, and nothing else is cut.

  * `Literal`: the characters of a number, and the value they are read as;
  * `Written`: a token as it is written, so that the characters of a number are not lost;
  * `Quoted`, `Cut`: **how texts are cut**;
  * `Cut.tokens?`, `exists_cut`: the lexer cuts a text exactly if it can be cut.
-/
import LedgerGate.Proofs.Json.Numbers

namespace LedgerGate.Json

/-! ## Tokens as they are written -/

/-- The characters of a number. -/
structure Literal where
  chars : List Char
  isNumber : Number chars

/-- What a number is read as. -/
def Literal.json (l : Literal) : Json :=
  (number? l.chars).get (number?_isSome_iff.2 l.isNumber)

theorem Literal.number?_chars (l : Literal) : number? l.chars = some l.json :=
  (Option.some_get _).symm

/-- A token as it is written: a truth value or null for a word, and the characters of a
    number. -/
inductive Written where
  | openList
  | closeList
  | openObject
  | closeObject
  | comma
  | colon
  | text (s : Option String)
  | constant (b : Option Bool)
  | number (l : Literal)

def Written.token : Written → Token
  | openList => .openList
  | closeList => .closeList
  | openObject => .openObject
  | closeObject => .closeObject
  | comma => .comma
  | colon => .colon
  | text s => .text s
  | constant b => .atom (ofOption .bool b)
  | number l => .atom l.json

/-! ## Cuts -/

/-- A blank between tokens. -/
def Blank (c : Char) : Prop := c = ' ' ∨ c = '\n' ∨ c = '\t' ∨ c = '\r'

/-- Characters between quotes, and the units that they stand for. -/
inductive Quoted : List Char → List TextUnit → Prop
  | nil : Quoted [] []
  | plain {c : Char} {cs : List Char} {us : List TextUnit} : c ≠ '"' → c ≠ '\\' →
      ¬c.toNat < 0x20 → Quoted cs us → Quoted (c :: cs) (.char c :: us)
  | letter {c e : Char} {cs : List Char} {us : List TextUnit} : letterEscape? c = some e →
      Quoted cs us → Quoted ('\\' :: c :: cs) (.char e :: us)
  | code {c₁ c₂ c₃ c₄ : Char} {d₁ d₂ d₃ d₄ : Nat} {cs : List Char} {us : List TextUnit} :
      Text.digitValue? c₁ = some d₁ → Text.digitValue? c₂ = some d₂ →
      Text.digitValue? c₃ = some d₃ → Text.digitValue? c₄ = some d₄ → Quoted cs us →
      Quoted ('\\' :: 'u' :: c₁ :: c₂ :: c₃ :: c₄ :: cs)
        (.ofCode (((d₁ * 16 + d₂) * 16 + d₃) * 16 + d₄) :: us)

/-- **How a text is cut** into tokens. -/
inductive Cut : List Char → List Written → Prop
  | nil : Cut [] []
  | blank {c : Char} {cs : List Char} {ws : List Written} : Blank c → Cut cs ws → Cut (c :: cs) ws
  | mark {c : Char} {w : Written} {cs : List Char} {ws : List Written} :
      mark? c = some w.token → Cut cs ws → Cut (c :: cs) (w :: ws)
  | text {body cs : List Char} {us : List TextUnit} {ws : List Written} : Quoted body us →
      Cut cs ws → Cut ('"' :: body ++ '"' :: cs)
        (.text ((TextUnit.join us).map String.ofList) :: ws)
  | word {chars cs : List Char} {b : Option Bool} {ws : List Written} :
      word? chars = some (ofOption .bool b) → (∀ c ∈ cs.head?, c.isLower = false) → Cut cs ws →
      Cut (chars ++ cs) (.constant b :: ws)
  | number {l : Literal} {cs : List Char} {ws : List Written} :
      (∀ c ∈ cs.head?, isNumberChar c = false) → Cut cs ws → Cut (l.chars ++ cs) (.number l :: ws)

/-! ## Runs of the lexer -/

/-- The tokens that a lexer has read at the end of a text, in reverse. -/
def Lexer.run (l : Lexer) (cs : List Char) : Option (List Token) :=
  (cs.foldlM Lexer.step l).bind Lexer.settle

theorem tokens?_eq_run (cs : List Char) :
    tokens? cs = (Lexer.run ⟨.between, []⟩ cs).map List.reverse := rfl

namespace Lexer

variable {l : Lexer} {c : Char} {cs : List Char} {ts out : List Token}

@[simp]
theorem run_nil (l : Lexer) : l.run [] = l.settle := rfl

@[simp]
theorem run_cons (l : Lexer) (c : Char) (cs : List Char) :
    l.run (c :: cs) = (l.step c).bind fun m => m.run cs := by
  rw [run, List.foldlM_cons]
  exact Option.bind_assoc _ _ _

/-- A lexer between tokens has read all of them. -/
@[simp]
theorem settle_between (ts : List Token) : settle ⟨.between, ts⟩ = some ts := rfl

@[simp]
theorem step_between (ts : List Token) (c : Char) : step ⟨.between, ts⟩ c = start ts c := rfl

/-- What may start between tokens. -/
theorem start_cases (h : start ts c = some l) :
    (Blank c ∧ l = ⟨.between, ts⟩) ∨ (c = '"' ∧ l = ⟨.quoted [], ts⟩) ∨
      ((c = '-' ∨ c.isDigit = true) ∧ l = ⟨.number [c], ts⟩) ∨
      (c.isLower = true ∧ l = ⟨.word [c], ts⟩) ∨
      ∃ t, mark? c = some t ∧ l = ⟨.between, t :: ts⟩ := by
  unfold start at h
  split at h
  · rename_i hblank
    exact .inl ⟨hblank, (Option.some.inj h).symm⟩
  split at h
  · rename_i hquote
    exact .inr (.inl ⟨hquote, (Option.some.inj h).symm⟩)
  split at h
  · rename_i hnumber
    exact .inr (.inr (.inl ⟨hnumber, (Option.some.inj h).symm⟩))
  split at h
  · rename_i hlower
    exact .inr (.inr (.inr (.inl ⟨hlower, (Option.some.inj h).symm⟩)))
  · obtain ⟨t, ht, rfl⟩ := Option.map_eq_some_iff.1 h
    exact .inr (.inr (.inr (.inr ⟨t, ht, rfl⟩)))

theorem start_blank (h : Blank c) (ts : List Token) : start ts c = some ⟨.between, ts⟩ :=
  if_pos h

theorem start_lower (h : c.isLower = true) (ts : List Token) :
    start ts c = some ⟨.word [c], ts⟩ := by
  have hblank : ¬(c = ' ' ∨ c = '\n' ∨ c = '\t' ∨ c = '\r') := by
    rintro (rfl | rfl | rfl | rfl) <;> cases h
  have hquote : c ≠ '"' := by
    rintro rfl
    cases h
  have hnumber : ¬(c = '-' ∨ c.isDigit = true) := by
    rintro (rfl | hdigit)
    · cases h
    · have hlow : 'a'.val ≤ c.val := of_decide_eq_true (Bool.and_eq_true_iff.1 h).1
      have hhigh : c.val ≤ '9'.val := of_decide_eq_true (Bool.and_eq_true_iff.1 hdigit).2
      exact absurd (UInt32.le_trans hlow hhigh) (by decide)
  rw [start, if_neg hblank, if_neg hquote, if_neg hnumber, if_pos h]

theorem start_number {c : Char} (h : c = '-' ∨ c.isDigit = true) (ts : List Token) :
    start ts c = some ⟨.number [c], ts⟩ := by
  have hblank : ¬ (c = ' ' ∨ c = '\n' ∨ c = '\t' ∨ c = '\r') := by
    rintro (rfl | rfl | rfl | rfl) <;> simp [Char.isDigit] at h
  have hquote : c ≠ '"' := by
    rintro rfl
    simp [Char.isDigit] at h
  rw [start, if_neg hblank, if_neg hquote, if_pos h]

theorem start_mark {c : Char} {t : Token} (h : mark? c = some t) (ts : List Token) :
    start ts c = some ⟨.between, t :: ts⟩ := by
  unfold mark? at h
  split at h
  · rename_i hc; subst hc; cases h; rfl
  split at h
  · rename_i hc; subst hc; cases h; rfl
  split at h
  · rename_i hc; subst hc; cases h; rfl
  split at h
  · rename_i hc; subst hc; cases h; rfl
  split at h
  · rename_i hc; subst hc; cases h; rfl
  split at h
  · rename_i hc; subst hc; cases h; rfl
  · cases h

/-! ## Words and numbers -/

/-- A token of more than one character goes as far as its characters do. -/
theorem run_span {inside : List Char → Mode} {p : Char → Bool}
    (hgo : ∀ seen c, p c = true → step ⟨inside seen, ts⟩ c = some ⟨inside (c :: seen), ts⟩)
    (hstop : ∀ seen c, p c = false →
      step ⟨inside seen, ts⟩ c = (settle ⟨inside seen, ts⟩).bind fun us => start us c)
    (seen : List Char) (cs : List Char) : run ⟨inside seen, ts⟩ cs =
      (settle ⟨inside ((cs.takeWhile p).reverse ++ seen), ts⟩).bind fun us =>
        run ⟨.between, us⟩ (cs.dropWhile p) := by
  induction cs generalizing seen with
  | nil => simp
  | cons c cs ih =>
    cases hc : p c with
    | true => simp [hgo seen c hc, ih, hc]
    | false => simp [hstop seen c hc, hc, Option.bind_assoc]

theorem run_word (c : Char) (cs : List Char) (ts : List Token) : run ⟨.word [c], ts⟩ cs =
    (word? (c :: cs.takeWhile Char.isLower)).bind fun j =>
      run ⟨.between, .atom j :: ts⟩ (cs.dropWhile Char.isLower) := by
  rw [run_span (p := Char.isLower) (fun seen c hc => by simp [step, hc])
    (fun seen c hc => by simp [step, hc])]
  simp only [settle, List.reverse_append, List.reverse_reverse, List.reverse_singleton,
    List.singleton_append]
  exact Option.bind_map

theorem run_number (c : Char) (cs : List Char) (ts : List Token) : run ⟨.number [c], ts⟩ cs =
    (number? (c :: cs.takeWhile isNumberChar)).bind fun j =>
      run ⟨.between, .atom j :: ts⟩ (cs.dropWhile isNumberChar) := by
  rw [run_span (p := isNumberChar) (fun seen c hc => by simp [step, hc])
    (fun seen c hc => by simp [step, hc])]
  simp only [settle, List.reverse_append, List.reverse_reverse, List.reverse_singleton,
    List.singleton_append]
  exact Option.bind_map

/-! ## Quoted texts -/

/-- A quoted text is read to its closing quote. -/
theorem run_quoted {body : List Char} {us : List TextUnit} (h : Quoted body us)
    (seen : List TextUnit) (ts : List Token) (cs : List Char) :
    run ⟨.quoted seen, ts⟩ (body ++ '"' :: cs) =
      run ⟨.between, .text ((TextUnit.join (seen.reverse ++ us)).map String.ofList) :: ts⟩ cs := by
  induction h generalizing seen with
  | nil => simp [step]
  | plain hquote hslash hshown _ ih => simp [step, hquote, hslash, hshown, ih]
  | @letter c e _ _ hletter _ ih =>
    have hcode : c ≠ 'u' := by
      rintro rfl
      cases hletter
    simp [step, hcode, hletter, ih]
  | code h₁ h₂ h₃ h₄ _ ih => simp [step, h₁, h₂, h₃, h₄, ih]

/-- One digit of an escape by number. -/
theorem digit_of_run {seen : List TextUnit} {digits value : Nat}
    (h : run ⟨.code seen digits value, ts⟩ cs = some out) :
    ∃ c rest d, cs = c :: rest ∧ Text.digitValue? c = some d ∧
      run (if digits = 3 then ⟨.quoted (.ofCode (value * 16 + d) :: seen), ts⟩
        else ⟨.code seen (digits + 1) (value * 16 + d), ts⟩) rest = some out := by
  cases cs with
  | nil => cases h
  | cons c rest =>
    rw [run_cons] at h
    obtain ⟨l, hl, hrest⟩ := Option.bind_eq_some_iff.1 h
    obtain ⟨d, hd, rfl⟩ := Option.map_eq_some_iff.1 hl
    exact ⟨c, rest, d, rfl, hd, hrest⟩

/-- What is read from inside a quoted text has a closing quote. -/
theorem exists_quoted {seen : List TextUnit} (h : run ⟨.quoted seen, ts⟩ cs = some out) :
    ∃ body us rest, cs = body ++ '"' :: rest ∧ Quoted body us := by
  induction hlength : cs.length using Nat.strongRecOn generalizing cs seen with
  | ind n ih =>
    subst hlength
    cases cs with
    | nil => cases h
    | cons c cs =>
      rw [run_cons] at h
      by_cases hquote : c = '"'
      · subst hquote
        exact ⟨[], [], cs, rfl, .nil⟩
      by_cases hslash : c = '\\'
      · subst hslash
        have hescape : run ⟨.escape seen, ts⟩ cs = some out := h
        cases cs with
        | nil => cases hescape
        | cons e cs =>
          rw [run_cons] at hescape
          by_cases hcode : e = 'u'
          · subst hcode
            have hdigits : run ⟨.code seen 0 0, ts⟩ cs = some out := hescape
            obtain ⟨c₁, cs, d₁, rfl, h₁, hdigits⟩ := digit_of_run hdigits
            obtain ⟨c₂, cs, d₂, rfl, h₂, hdigits⟩ := digit_of_run hdigits
            obtain ⟨c₃, cs, d₃, rfl, h₃, hdigits⟩ := digit_of_run hdigits
            obtain ⟨c₄, cs, d₄, rfl, h₄, hdigits⟩ := digit_of_run hdigits
            obtain ⟨body, us, rest, rfl, hbody⟩ := ih _ (by simp only [List.length_cons]; omega)
              hdigits rfl
            exact ⟨_, _, rest, rfl, .code h₁ h₂ h₃ h₄ hbody⟩
          · obtain ⟨l, hl, hrest⟩ := Option.bind_eq_some_iff.1 hescape
            simp only [step, hcode, if_false] at hl
            obtain ⟨x, hx, rfl⟩ := Option.map_eq_some_iff.1 hl
            obtain ⟨body, us, rest, rfl, hbody⟩ := ih _ (by simp only [List.length_cons]; omega)
              hrest rfl
            exact ⟨_, _, rest, rfl, .letter hx hbody⟩
      · obtain ⟨l, hl, hrest⟩ := Option.bind_eq_some_iff.1 h
        simp only [step, hquote, hslash, if_false] at hl
        split at hl
        · cases hl
        · rename_i hshown
          cases hl
          obtain ⟨body, us, rest, rfl, hbody⟩ := ih _ (by simp only [List.length_cons]; omega)
            hrest rfl
          exact ⟨_, _, rest, rfl, .plain hquote hslash hshown hbody⟩

end Lexer

/-! ## What is cut -/

open Lexer

/-- What is left of a text behind a run does not go on with it. -/
theorem head_dropWhile (p : Char → Bool) (cs : List Char) :
    ∀ c ∈ (cs.dropWhile p).head?, p c = false := by
  intro c hc
  rw [← List.find?_not_eq_head?_dropWhile] at hc
  simpa using List.find?_some hc

/-- A word that is a value is one letter or more, and says a truth value or null. -/
theorem word?_cases {chars : List Char} {j : Json} (h : word? chars = some j) :
    (∃ c cs, chars = c :: cs ∧ ∀ d ∈ chars, d.isLower = true) ∧ ∃ b, j = ofOption .bool b := by
  unfold word? at h
  split at h
  · rename_i heq
    cases h
    exact ⟨⟨_, _, heq, heq ▸ List.all_eq_true.1 rfl⟩, none, rfl⟩
  split at h
  · rename_i heq
    cases h
    exact ⟨⟨_, _, heq, heq ▸ List.all_eq_true.1 rfl⟩, some true, rfl⟩
  split at h
  · rename_i heq
    cases h
    exact ⟨⟨_, _, heq, heq ▸ List.all_eq_true.1 rfl⟩, some false, rfl⟩
  · cases h

/-- A mark is written in one way. -/
theorem exists_written {c : Char} {t : Token} (h : mark? c = some t) :
    ∃ w : Written, w.token = t := by
  cases t with
  | openList => exact ⟨.openList, rfl⟩
  | closeList => exact ⟨.closeList, rfl⟩
  | openObject => exact ⟨.openObject, rfl⟩
  | closeObject => exact ⟨.closeObject, rfl⟩
  | comma => exact ⟨.comma, rfl⟩
  | colon => exact ⟨.colon, rfl⟩
  | text s => exact ⟨.text s, rfl⟩
  | atom j =>
    unfold mark? at h
    repeat' split at h
    all_goals cases h

/-- A text that can be cut is cut that way. -/
theorem Cut.run {cs : List Char} {ws : List Written} (h : Cut cs ws) (ts : List Token) :
    Lexer.run ⟨.between, ts⟩ cs = some ((ws.map Written.token).reverse ++ ts) := by
  induction h generalizing ts with
  | nil => rfl
  | blank hblank _ ih => rw [run_cons, step_between, start_blank hblank, Option.bind_some, ih]
  | mark hmark _ ih => simp [start_mark hmark, ih]
  | text hbody _ ih =>
    have hopen : Lexer.start ts '"' = some ⟨.quoted [], ts⟩ := rfl
    simp [hopen, run_quoted hbody, ih, Written.token]
  | word hword hends _ ih =>
    obtain ⟨⟨c, chars, rfl, hlower⟩, -⟩ := word?_cases hword
    obtain ⟨hc, hchars⟩ := List.forall_mem_cons.1 hlower
    obtain ⟨htake, hdrop⟩ := takeWhile_run hchars hends
    rw [List.cons_append, run_cons, step_between, start_lower hc, Option.bind_some, run_word,
      htake, hdrop, hword, Option.bind_some, ih]
    simp [Written.token]
  | @number l cs ws hends _ ih =>
    obtain ⟨c, chars, heq, hc, hall⟩ := l.isNumber.chars
    rw [heq] at hall
    obtain ⟨htake, hdrop⟩ := takeWhile_run (List.forall_mem_cons.1 hall).2 hends
    have hnumber : number? (c :: chars) = some l.json := heq ▸ l.number?_chars
    rw [heq, List.cons_append, run_cons, step_between, start_number hc, Option.bind_some,
      run_number, htake, hdrop, hnumber, Option.bind_some, ih]
    simp [Written.token]

theorem Cut.tokens? {cs : List Char} {ws : List Written} (h : Cut cs ws) :
    tokens? cs = some (ws.map Written.token) := by
  simp [tokens?_eq_run, h.run]

/-- What the lexer reads between tokens can be cut. -/
theorem exists_cut_of_run {cs : List Char} {ts out : List Token}
    (h : Lexer.run ⟨.between, ts⟩ cs = some out) : ∃ ws, Cut cs ws := by
  induction hlength : cs.length using Nat.strongRecOn generalizing cs ts with
  | ind n ih =>
    subst hlength
    cases cs with
    | nil => exact ⟨[], .nil⟩
    | cons c cs =>
      rw [run_cons] at h
      obtain ⟨l, hl, hrest⟩ := Option.bind_eq_some_iff.1 h
      rcases start_cases hl with ⟨hblank, rfl⟩ | ⟨rfl, rfl⟩ | ⟨hc, rfl⟩ | ⟨hc, rfl⟩ | ⟨t, ht, rfl⟩
      · obtain ⟨ws, hws⟩ := ih _ (Nat.lt_succ_self _) hrest rfl
        exact ⟨ws, .blank hblank hws⟩
      · obtain ⟨body, us, rest, rfl, hbody⟩ := exists_quoted hrest
        rw [run_quoted hbody] at hrest
        obtain ⟨ws, hws⟩ := ih _ (by simp only [List.length_cons, List.length_append]; omega)
          hrest rfl
        exact ⟨_, .text hbody hws⟩
      · rw [run_number] at hrest
        obtain ⟨j, hj, hrest⟩ := Option.bind_eq_some_iff.1 hrest
        have hle := (List.dropWhile_suffix isNumberChar (l := cs)).length_le
        obtain ⟨ws, hws⟩ := ih _ (by rw [List.length_cons]; omega) hrest rfl
        have hnumber : Number (c :: cs.takeWhile isNumberChar) :=
          number?_isSome_iff.1 (Option.isSome_of_eq_some hj)
        have hcut := Cut.number (l := ⟨_, hnumber⟩) (head_dropWhile isNumberChar cs) hws
        rw [List.cons_append, List.takeWhile_append_dropWhile] at hcut
        exact ⟨_, hcut⟩
      · rw [run_word] at hrest
        obtain ⟨j, hj, hrest⟩ := Option.bind_eq_some_iff.1 hrest
        have hle := (List.dropWhile_suffix Char.isLower (l := cs)).length_le
        obtain ⟨ws, hws⟩ := ih _ (by rw [List.length_cons]; omega) hrest rfl
        obtain ⟨-, b, rfl⟩ := word?_cases hj
        have hcut := Cut.word hj (head_dropWhile Char.isLower cs) hws
        rw [List.cons_append, List.takeWhile_append_dropWhile] at hcut
        exact ⟨_, hcut⟩
      · obtain ⟨ws, hws⟩ := ih _ (Nat.lt_succ_self _) hrest rfl
        obtain ⟨w, rfl⟩ := exists_written ht
        exact ⟨_, .mark ht hws⟩

/-- **The lexer cuts a text exactly if it can be cut**, and then that way. -/
theorem tokens?_eq_some_iff {cs : List Char} {ts : List Token} :
    tokens? cs = some ts ↔ ∃ ws, Cut cs ws ∧ ts = ws.map Written.token := by
  constructor
  · intro h
    rw [tokens?_eq_run] at h
    obtain ⟨out, hout, rfl⟩ := Option.map_eq_some_iff.1 h
    obtain ⟨ws, hws⟩ := exists_cut_of_run hout
    rw [hws.run] at hout
    cases hout
    exact ⟨ws, hws, by simp⟩
  · rintro ⟨ws, hws, rfl⟩
    exact hws.tokens?

end LedgerGate.Json
