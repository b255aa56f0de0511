/-
  Compact text reads back.

  A plain value is the value of its document, as long as no more containers are around its
  parts than the reader allows.

  * `json_document`: **a plain value within the limit is the value of its document**;
  * `ofText?_compact`: **a plain value within the limit reads back from its text**.
-/
import LedgerGate.Proofs.Json.Plain
import LedgerGate.Proofs.Json.Writing

namespace LedgerGate.Json

/-! ## Values of documents -/

theorem Literal.json_ofInt {n : Int} (h : InRange n) : (Literal.ofInt n).json = .integer n := by
  have hchars := (Literal.ofInt n).number?_chars
  rw [Literal.ofInt, number?_renderInt h] at hchars
  exact (Option.some.inj hchars).symm

/-- The fields of an open object whose names are strings. -/
def heldFields (fields : List (String × Json)) : List (Option String × Json) :=
  fields.map fun f => (some f.1, f.2)

theorem namedFields_heldFields (fields rest : List (String × Json)) :
    namedFields (heldFields fields) rest = some (fields.reverse ++ rest) := by
  induction fields generalizing rest with
  | nil => rfl
  | cons f fs ih =>
    have hcons : namedFields (heldFields (f :: fs)) rest =
      namedFields (heldFields fs) (f :: rest) := rfl
    rw [hcons, ih, List.reverse_cons, List.append_assoc, List.singleton_append]

/-- Fields whose names are strings. -/
theorem namedFields_eq_some {fs : List (Option String × Json)} {acc gs : List (String × Json)}
    (h : namedFields fs acc = some gs) : ∃ hs, fs = heldFields hs ∧ gs = hs.reverse ++ acc := by
  induction fs generalizing acc with
  | nil =>
    cases h
    exact ⟨[], rfl, rfl⟩
  | cons f fs ih =>
    obtain ⟨k, j⟩ := f
    cases k with
    | none => cases h
    | some k =>
      obtain ⟨hs, rfl, rfl⟩ := ih h
      exact ⟨(k, j) :: hs, rfl, by simp⟩

/-- The fields of an object whose names are all strings. -/
theorem eq_heldFields {fs : List (Option String × Json)} {gs : List (String × Json)}
    (h : namedFields fs.reverse [] = some gs) : fs = heldFields gs := by
  obtain ⟨hs, heq, rfl⟩ := namedFields_eq_some h
  rw [List.append_nil, heldFields, List.map_reverse, ← heldFields, ← heq, List.reverse_reverse]

theorem close_items {xs : List Json} {depth : Nat} (h : depth ≤ depthLimit) :
    (Frame.list xs.reverse).close depth = .list xs := by
  rw [Frame.close, if_pos h, List.reverse_reverse]

theorem close_fields {fs : List (String × Json)} {depth : Nat} (h : depth ≤ depthLimit) :
    (Frame.object (heldFields fs).reverse).close depth = .object fs := by
  have hheld : (heldFields fs).reverse = heldFields fs.reverse := List.map_reverse.symm
  rw [Frame.close, if_pos h, hheld, namedFields_heldFields, List.reverse_reverse, List.append_nil]

mutual

/-- **A plain value within the limit is the value of its document.** -/
theorem json_document : ∀ (j : Json) (around : Nat), j.Plain → around + j.depth ≤ depthLimit →
    j.document.json around = j
  | .null, _, _, _ => rfl
  | .bool _, _, _, _ => rfl
  | .integer n, _, h, _ => Literal.json_ofInt (Plain.eq_1 n ▸ h)
  | .text _, _, _, _ => rfl
  | .list xs, around, h, hdepth => by
    have hlimit : around + (depthItems xs + 1) ≤ depthLimit := hdepth
    rw [document, Doc.json, jsonItems_documentItems xs (around + 1) h (by omega),
      close_items (by omega)]
  | .object fs, around, h, hdepth => by
    have hlimit : around + (depthFields fs + 1) ≤ depthLimit := hdepth
    rw [document, Doc.json, jsonFields_documentFields fs (around + 1) h (by omega),
      close_fields (by omega)]

theorem jsonItems_documentItems : ∀ (xs : List Json) (around : Nat), PlainItems xs →
    around + depthItems xs ≤ depthLimit → Doc.jsonItems (documentItems xs) around = xs
  | [], _, _, _ => rfl
  | x :: xs, around, h, hdepth => by
    have hmax : around + max x.depth (depthItems xs) ≤ depthLimit := hdepth
    rw [documentItems, Doc.jsonItems, json_document x around h.1 (by omega),
      jsonItems_documentItems xs around h.2 (by omega)]

theorem jsonFields_documentFields : ∀ (fs : List (String × Json)) (around : Nat),
    PlainFields fs → around + depthFields fs ≤ depthLimit →
      Doc.jsonFields (documentFields fs) around = heldFields fs
  | [], _, _, _ => rfl
  | (k, v) :: fs, around, h, hdepth => by
    have hmax : around + max v.depth (depthFields fs) ≤ depthLimit := hdepth
    rw [documentFields, Doc.jsonFields, json_document v around h.1 (by omega),
      jsonFields_documentFields fs around h.2 (by omega)]
    rfl

end

/-! ## Nesting -/

section Numbers

variable {negative : Bool} {significand : Nat} {start : Int} {cs : List Char} {j : Json}

theorem depth_ofParts (negative : Bool) (significand : Nat) (exponent : Int) :
    (ofParts negative significand exponent).depth = 0 := by
  unfold ofParts
  split <;> rfl

theorem depth_exponentPart (h : exponentPart negative significand start cs = some j) :
    j.depth = 0 := by
  unfold exponentPart at h
  split at h
  split at h
  · cases h
  split at h
  · cases h
    exact depth_ofParts ..
  · split at h <;> cases h <;> rfl

theorem depth_afterFraction (h : afterFraction negative significand start cs = some j) :
    j.depth = 0 := by
  unfold afterFraction at h
  split at h
  · cases h
    exact depth_ofParts ..
  · exact depth_exponentPart h
  · exact depth_exponentPart h
  · cases h

theorem depth_body (h : unsignedNumber?.body negative cs = some j) : j.depth = 0 := by
  unfold unsignedNumber?.body at h
  simp only at h
  split at h
  · split at h <;> cases h
    · unfold wholeNumber
      split
      · rfl
      · split <;> rfl
    · exact depth_ofParts ..
  · unfold fractionPart at h
    simp only at h
    split at h
    · cases h
    · exact depth_afterFraction h
  · exact depth_exponentPart h
  · exact depth_exponentPart h
  · cases h

theorem depth_unsignedNumber? (h : unsignedNumber? negative cs = some j) : j.depth = 0 := by
  unfold unsignedNumber? at h
  split at h
  · split at h
    · cases h
    · exact depth_body h
  · split at h
    · exact depth_body h
    · cases h
  · cases h

/-- What a number is read as is no container. -/
theorem Literal.depth_json (l : Literal) : l.json.depth = 0 := by
  have hchars := l.number?_chars
  unfold number? at hchars
  split at hchars <;> exact depth_unsignedNumber? hchars

end Numbers

mutual

/-- No value of a document is nested deeper than the limit, whatever is around it. -/
theorem depth_json_le : ∀ (d : Doc) {around : Nat}, around ≤ depthLimit →
    around + (d.json around).depth ≤ depthLimit
  | .constant none, _, h | .constant (some _), _, h | .text none, _, h | .text (some _), _, h => h
  | .number l, _, h => by rwa [Doc.json, l.depth_json]
  | .list xs, around, h => by
    rw [Doc.json, Frame.close]
    split
    · rename_i hdepth
      have hitems := depthItems_jsonItems_le xs hdepth
      rw [List.reverse_reverse, depth]
      omega
    · exact h
  | .object fs, around, h => by
    rw [Doc.json, Frame.close]
    split
    · rename_i hdepth
      split
      · rename_i gs hgs
        have hfields := depthFields_jsonFields_le fs hdepth (eq_heldFields hgs)
        rw [depth]
        omega
      · exact h
    · exact h

theorem depthItems_jsonItems_le : ∀ (xs : List Doc) {around : Nat}, around ≤ depthLimit →
    around + depthItems (Doc.jsonItems xs around) ≤ depthLimit
  | [], _, h => h
  | x :: xs, around, h => by
    have hx := depth_json_le x h
    have hxs := depthItems_jsonItems_le xs h
    rw [Doc.jsonItems, depthItems]
    omega

theorem depthFields_jsonFields_le : ∀ (fs : List (Option String × Doc)) {around : Nat}
    {gs : List (String × Json)}, around ≤ depthLimit →
      Doc.jsonFields fs around = heldFields gs → around + depthFields gs ≤ depthLimit
  | [], _, gs, h, hgs => by
    obtain rfl : gs = [] := List.map_eq_nil_iff.1 hgs.symm
    exact h
  | (k, d) :: fs, around, gs, h, hgs => by
    cases gs with
    | nil => cases hgs
    | cons g gs =>
      obtain ⟨hhead, htail⟩ := List.cons.inj hgs
      obtain ⟨-, hj⟩ := Prod.mk.inj hhead
      have hd := depth_json_le d h
      have hfs := depthFields_jsonFields_le fs h htail
      rw [hj] at hd
      rw [depthFields]
      omega

end

/-! ## Texts -/

/-- **A plain value within the limit reads back** from its compact text. -/
theorem ofText?_compact {j : Json} (hplain : j.Plain) (hdepth : j.depth ≤ depthLimit) :
    ofText? j.compact = some j := by
  rw [(writes_compact j).ofText?, json_document j 0 hplain (by omega)]

end LedgerGate.Json
