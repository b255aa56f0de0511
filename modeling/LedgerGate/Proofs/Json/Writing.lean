/-
  What the compact text of a value writes.

  Every value has a document, whether its text says everything about it or not: a double that
  is no number and what denotes no value are written as null.

  * `document`: the document of a value;
  * `writes_compact`: **the compact text of a value writes its document**.
-/
import LedgerGate.Proofs.Json.Documents
import LedgerGate.Proofs.Json.Doubles
import LedgerGate.Proofs.Text.Hex

namespace LedgerGate.Json

/-! ## Documents of values -/

/-- The literal of an integer. -/
def Literal.ofInt (n : Int) : Literal := ⟨renderInt n, (integer_renderInt n).number⟩

/-- The literal of a double. -/
def Literal.ofDouble (d : Double) : Literal := ⟨d.text layout, d.number_text layout⟩

mutual

/-- The document of a value. -/
def document : Json → Doc
  | .null => .constant none
  | .bool b => .constant (some b)
  | .integer n => .number (.ofInt n)
  | .double d => if d.isFinite then .number (.ofDouble d) else .constant none
  | .text s => .text (some s)
  | .list xs => .list (documentItems xs)
  | .object fs => .object (documentFields fs)
  | .invalid => .constant none

def documentItems : List Json → List Doc
  | [] => []
  | x :: xs => document x :: documentItems xs

def documentFields : List (String × Json) → List (Option String × Doc)
  | [] => []
  | (k, v) :: fs => (some k, document v) :: documentFields fs

end

/-! ## Texts of values -/

section Cut

variable {cs body : List Char} {ws : List Written} {us : List TextUnit}

theorem mark?_openList : mark? '[' = some Written.openList.token := rfl

theorem mark?_openObject : mark? '{' = some Written.openObject.token := rfl

theorem mark?_comma : mark? ',' = some Written.comma.token := rfl

theorem mark?_colon : mark? ':' = some Written.colon.token := rfl

/-- What does not go on with a word or a number. -/
def Ends (cs : List Char) : Prop := ∀ c ∈ cs.head?, c.isLower = false ∧ isNumberChar c = false

/-- No mark goes on with a word or a number. -/
theorem ends_of_mark {c : Char} {t : Token} (h : mark? c = some t) :
    c.isLower = false ∧ isNumberChar c = false := by
  have hc : c = '[' ∨ c = ']' ∨ c = '{' ∨ c = '}' ∨ c = ',' ∨ c = ':' := by
    by_contra hnone
    simp only [not_or] at hnone
    obtain ⟨h₁, h₂, h₃, h₄, h₅, h₆⟩ := hnone
    simp [mark?, h₁, h₂, h₃, h₄, h₅, h₆] at h
  rcases hc with rfl | rfl | rfl | rfl | rfl | rfl <;> exact ⟨rfl, rfl⟩

theorem ends_mark {c : Char} {t : Token} (h : mark? c = some t) (cs : List Char) :
    Ends (c :: cs) := by
  intro d hd
  cases hd
  exact ends_of_mark h

/-- A control character is written by its number. -/
theorem ofCode_control {c : Char} (h : c.toNat < 0x20) : TextUnit.ofCode c.toNat = .char c := by
  have hhigh : ¬ (0xD800 ≤ c.toNat ∧ c.toNat < 0xDC00) := by omega
  have hlow : ¬ (0xDC00 ≤ c.toNat ∧ c.toNat < 0xE000) := by omega
  rw [TextUnit.ofCode, if_neg hhigh, if_neg hlow, Char.ofNat_toNat]

theorem Quoted.escape (c : Char) (h : Quoted cs us) :
    Quoted (Json.escape c ++ cs) (.char c :: us) := by
  unfold Json.escape
  split
  · rename_i hc; subst hc; exact .letter rfl h
  split
  · rename_i hc; subst hc; exact .letter rfl h
  split
  · rename_i hc; subst hc; exact .letter rfl h
  split
  · rename_i hc; subst hc; exact .letter rfl h
  split
  · rename_i hc; subst hc; exact .letter rfl h
  split
  · rename_i hc; subst hc; exact .letter rfl h
  split
  · rename_i hc; subst hc; exact .letter rfl h
  split
  · rename_i hcontrol
    have hzero : Text.digitValue? '0' = some 0 := rfl
    have hcode := Quoted.code hzero hzero (Text.hexDigit_spec (show c.toNat / 16 < 16 by omega)).1
      (Text.hexDigit_spec (show c.toNat % 16 < 16 by omega)).1 h
    rwa [show ((0 * 16 + 0) * 16 + c.toNat / 16) * 16 + c.toNat % 16 = c.toNat by omega,
      ofCode_control hcontrol] at hcode
  · rename_i hquote hslash _ _ _ _ _ hshown
    exact .plain hquote hslash hshown h

theorem quoted_flatMap_escape (cs : List Char) :
    Quoted (cs.flatMap Json.escape) (cs.map .char) := by
  induction cs with
  | nil => exact .nil
  | cons c cs ih => exact ih.escape c

theorem join_map_char (cs : List Char) : TextUnit.join (cs.map .char) = some cs := by
  induction cs with
  | nil => rfl
  | cons c cs ih => rw [List.map_cons, TextUnit.join, ih]; rfl

theorem cut_quote (s : String) (h : Cut cs ws) :
    Cut (quote s.toList ++ cs) (.text (some s) :: ws) := by
  have hcut := Cut.text (quoted_flatMap_escape s.toList) h
  rw [join_map_char, Option.map_some, String.ofList_toList] at hcut
  simpa [quote] using hcut

theorem cut_word {chars : List Char} {b : Option Bool} (h : word? chars = some (ofOption .bool b))
    (hends : Ends cs) (hcs : Cut cs ws) : Cut (chars ++ cs) (.constant b :: ws) :=
  .word h (fun c hc => (hends c hc).1) hcs

theorem cut_literal (l : Literal) (hends : Ends cs) (hcs : Cut cs ws) :
    Cut (l.chars ++ cs) (.number l :: ws) :=
  .number (fun c hc => (hends c hc).2) hcs

end Cut

mutual

/-- The text of a value is cut into the tokens of its document, before whatever does not go
    on with it. -/
theorem cut_render : ∀ (j : Json) {cs : List Char} {ws : List Written}, Ends cs → Cut cs ws →
    Cut (j.render ++ cs) (j.document.written ++ ws)
  | .null, _, _, hends, hcs => by
    rw [render, document, Doc.written]
    exact cut_word rfl hends hcs
  | .bool true, _, _, hends, hcs => by
    rw [render, document, Doc.written]
    exact cut_word rfl hends hcs
  | .bool false, _, _, hends, hcs => by
    rw [render, document, Doc.written]
    exact cut_word rfl hends hcs
  | .integer n, _, _, hends, hcs => by
    rw [render, document, Doc.written]
    exact cut_literal (.ofInt n) hends hcs
  | .double d, _, _, hends, hcs => by
    rw [render, document]
    split
    · rw [Doc.written]
      exact cut_literal (.ofDouble d) hends hcs
    · rw [Doc.written]
      exact cut_word rfl hends hcs
  | .text s, _, _, _, hcs => by
    rw [render, document, Doc.written]
    exact cut_quote s hcs
  | .invalid, _, _, hends, hcs => by
    rw [render, document, Doc.written]
    exact cut_word rfl hends hcs
  | .list [], _, _, _, hcs => .mark rfl (.mark rfl hcs)
  | .list (x :: xs), cs, ws, _, hcs => by
    obtain ⟨hends, hitems⟩ := cut_renderItems xs hcs
    have hlist := Cut.mark mark?_openList (cut_render x hends hitems)
    simpa [render, document, documentItems, Doc.written] using hlist
  | .object [], _, _, _, hcs => .mark rfl (.mark rfl hcs)
  | .object ((k, v) :: fs), cs, ws, _, hcs => by
    obtain ⟨hends, hfields⟩ := cut_renderFields fs hcs
    have hvalue := Cut.mark mark?_colon (cut_render v hends hfields)
    have hobject := Cut.mark mark?_openObject (cut_quote k hvalue)
    simpa [render, document, documentFields, Doc.written] using hobject

theorem cut_renderItems : ∀ (xs : List Json) {cs : List Char} {ws : List Written}, Cut cs ws →
    Ends (renderItems xs ++ cs) ∧
      Cut (renderItems xs ++ cs) (Doc.writtenItems (documentItems xs) ++ ws)
  | [], cs, _, hcs => ⟨ends_mark rfl cs, .mark rfl hcs⟩
  | x :: xs, cs, ws, hcs => by
    obtain ⟨hends, hitems⟩ := cut_renderItems xs hcs
    refine ⟨ends_mark mark?_comma _, ?_⟩
    have hitem := Cut.mark mark?_comma (cut_render x hends hitems)
    simpa [renderItems, documentItems, Doc.writtenItems] using hitem

theorem cut_renderFields : ∀ (fs : List (String × Json)) {cs : List Char} {ws : List Written},
    Cut cs ws → Ends (renderFields fs ++ cs) ∧
      Cut (renderFields fs ++ cs) (Doc.writtenFields (documentFields fs) ++ ws)
  | [], cs, _, hcs => ⟨ends_mark rfl cs, .mark rfl hcs⟩
  | (k, v) :: fs, cs, ws, hcs => by
    obtain ⟨hends, hfields⟩ := cut_renderFields fs hcs
    refine ⟨ends_mark mark?_comma _, ?_⟩
    have hvalue := Cut.mark mark?_colon (cut_render v hends hfields)
    have hfield := Cut.mark mark?_comma (cut_quote k hvalue)
    simpa [renderFields, documentFields, Doc.writtenFields] using hfield

end

/-- **The compact text of a value writes its document.** -/
theorem writes_compact (j : Json) : Writes j.compact j.document := by
  have hcut : Cut (j.render ++ []) (j.document.written ++ []) := cut_render j nofun .nil
  simpa [Writes, compact] using hcut

end LedgerGate.Json
