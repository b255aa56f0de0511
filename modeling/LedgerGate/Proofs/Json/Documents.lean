/-
  Documents: what a JSON text says, with its numbers as they are written.

  The tokens of a document make its value wherever a value is waited for; and tokens that
  make a value are those of a document, container by container.

  * `Doc`, `Doc.written`: a document and its tokens;
  * `Doc.json`: its value inside so many containers;
  * `run_written`: **the tokens of a document make its value**;
  * `exists_value`: tokens that go on to a value begin with a document;
  * `ofText?_eq_some_iff`: **a text is read exactly if it writes a document**.
-/
import LedgerGate.Proofs.Json.Cutting

namespace LedgerGate.Json

/-! ## Documents -/

/-- A document. A text is none if it holds a lone surrogate. -/
inductive Doc where
  | constant (b : Option Bool)
  | number (l : Literal)
  | text (s : Option String)
  | list (items : List Doc)
  | object (fields : List (Option String × Doc))
  deriving Inhabited

namespace Doc

mutual

/-- The tokens of a document. -/
def written : Doc → List Written
  | constant b => [.constant b]
  | number l => [.number l]
  | text s => [.text s]
  | list [] => [.openList, .closeList]
  | list (x :: xs) => .openList :: written x ++ writtenItems xs
  | object [] => [.openObject, .closeObject]
  | object ((k, v) :: fs) =>
    .openObject :: .text k :: .colon :: written v ++ writtenFields fs

/-- The tokens of the further items of a list and of its end. -/
def writtenItems : List Doc → List Written
  | [] => [.closeList]
  | x :: xs => .comma :: written x ++ writtenItems xs

/-- The tokens of the further fields of an object and of its end. -/
def writtenFields : List (Option String × Doc) → List Written
  | [] => [.closeObject]
  | (k, v) :: fs =>
    .comma :: .text k :: .colon :: written v ++ writtenFields fs

end

mutual

/-- The value of a document inside so many containers. -/
def json : Doc → Nat → Json
  | constant b, _ => ofOption .bool b
  | number l, _ => l.json
  | text (some s), _ => .text s
  | text none, _ => .invalid
  | list xs, around => (Frame.list (jsonItems xs (around + 1)).reverse).close (around + 1)
  | object fs, around => (Frame.object (jsonFields fs (around + 1)).reverse).close (around + 1)

def jsonItems : List Doc → Nat → List Json
  | [], _ => []
  | x :: xs, around => json x around :: jsonItems xs around

def jsonFields : List (Option String × Doc) → Nat → List (Option String × Json)
  | [], _ => []
  | (k, v) :: fs, around => (k, json v around) :: jsonFields fs around

end

end Doc

/-! ## Runs of the assembler -/

/-- The assembler after some tokens. -/
def Assembler.run (a : Assembler) (ws : List Written) : Option Assembler :=
  ws.foldlM (fun b w => b.step w.token) a

namespace Assembler

variable {a : Assembler} {ws : List Written} {w : Written} {frames : List Frame} {r : Json}

@[simp]
theorem run_nil (a : Assembler) : a.run [] = some a := rfl

@[simp]
theorem run_cons (a : Assembler) (w : Written) (ws : List Written) :
    a.run (w :: ws) = (a.step w.token).bind fun b => b.run ws := rfl

theorem run_append (a : Assembler) (ws vs : List Written) :
    a.run (ws ++ vs) = (a.run ws).bind fun b => b.run vs := List.foldlM_append ..

theorem ofTokens?_map_token (ws : List Written) : ofTokens? (ws.map Written.token) =
    (run ⟨[], .value, .null⟩ ws).bind fun a =>
      if a.expect = .nothing then some a.result else none := by
  rw [ofTokens?, List.foldlM_map, run]

end Assembler

open Assembler Doc

/-! ## From a document to its value -/

theorem step_value {e : Expect} (he : e = .value ∨ e = .valueOrEnd) (frames : List Frame)
    (r : Json) : (∀ j, step ⟨frames, e, r⟩ (.atom j) = put frames j) ∧
      (∀ s, step ⟨frames, e, r⟩ (.text s) = put frames (Doc.json (.text s) frames.length)) ∧
      step ⟨frames, e, r⟩ .openList = some ⟨.list [] :: frames, .valueOrEnd, .null⟩ ∧
      step ⟨frames, e, r⟩ .openObject = some ⟨.object [] :: frames, .nameOrEnd, .null⟩ := by
  rcases he with rfl | rfl <;> exact ⟨fun _ => rfl, fun s => by cases s <;> rfl, rfl, rfl⟩

mutual

/-- **The tokens of a document make its value**, where one is waited for. -/
theorem run_written : ∀ (d : Doc) (frames : List Frame) (e : Expect) (r : Json),
    e = .value ∨ e = .valueOrEnd →
      run ⟨frames, e, r⟩ d.written = put frames (d.json frames.length)
  | .constant b, frames, e, r, he => by
    simp [written, Written.token, (step_value he frames r).1, json]
  | .number l, frames, e, r, he => by
    simp [written, Written.token, (step_value he frames r).1, json]
  | .text s, frames, e, r, he => by
    simp [written, Written.token, (step_value he frames r).2.1]
  | .list [], frames, e, r, he => by
    have hclose : step ⟨.list [] :: frames, .valueOrEnd, .null⟩ .closeList =
        put frames ((Frame.list []).close (frames.length + 1)) := rfl
    simp [written, Written.token, (step_value he frames r).2.2.1, hclose, json, jsonItems]
  | .list (x :: xs), frames, e, r, he => by
    have hx := run_written x (.list [] :: frames) .valueOrEnd .null (.inr rfl)
    have hxs := run_writtenItems xs [x.json (frames.length + 1)] frames
    simp [written, Written.token, (step_value he frames r).2.2.1, run_append, hx, put, hxs, json,
      jsonItems]
  | .object [], frames, e, r, he => by
    have hclose : step ⟨.object [] :: frames, .nameOrEnd, .null⟩ .closeObject =
        put frames ((Frame.object []).close (frames.length + 1)) := rfl
    simp [written, Written.token, (step_value he frames r).2.2.2, hclose, json, jsonFields]
  | .object ((k, v) :: fs), frames, e, r, he => by
    have hname : step ⟨.object [] :: frames, .nameOrEnd, .null⟩ (.text k) =
        some ⟨.field [] k :: frames, .colon, .null⟩ := rfl
    have hcolon : step ⟨.field [] k :: frames, .colon, .null⟩ .colon =
        some ⟨.field [] k :: frames, .value, .null⟩ := rfl
    have hv := run_written v (.field [] k :: frames) .value .null (.inl rfl)
    have hfs := run_writtenFields fs [(k, v.json (frames.length + 1))] frames
    simp [written, Written.token, (step_value he frames r).2.2.2, hname, hcolon, run_append, hv,
      put, hfs, json, jsonFields]

theorem run_writtenItems : ∀ (xs : List Doc) (items : List Json) (frames : List Frame),
    run ⟨.list items :: frames, .commaOrEnd, .null⟩ (writtenItems xs) =
      put frames ((Frame.list ((jsonItems xs (frames.length + 1)).reverse ++ items)).close
        (frames.length + 1))
  | [], items, frames => by
    have hclose : step ⟨.list items :: frames, .commaOrEnd, .null⟩ .closeList =
        put frames ((Frame.list items).close (frames.length + 1)) := rfl
    simp [writtenItems, Written.token, hclose, jsonItems]
  | x :: xs, items, frames => by
    have hcomma : step ⟨.list items :: frames, .commaOrEnd, .null⟩ .comma =
        some ⟨.list items :: frames, .value, .null⟩ := rfl
    have hx := run_written x (.list items :: frames) .value .null (.inl rfl)
    have hxs := run_writtenItems xs (x.json (frames.length + 1) :: items) frames
    simp [writtenItems, Written.token, hcomma, run_append, hx, put, hxs, jsonItems]

theorem run_writtenFields : ∀ (fs : List (Option String × Doc))
    (fields : List (Option String × Json)) (frames : List Frame),
    run ⟨.object fields :: frames, .commaOrEnd, .null⟩ (writtenFields fs) =
      put frames ((Frame.object ((jsonFields fs (frames.length + 1)).reverse ++ fields)).close
        (frames.length + 1))
  | [], fields, frames => by
    have hclose : step ⟨.object fields :: frames, .commaOrEnd, .null⟩ .closeObject =
        put frames ((Frame.object fields).close (frames.length + 1)) := rfl
    simp [writtenFields, Written.token, hclose, jsonFields]
  | (k, v) :: fs, fields, frames => by
    have hcomma : step ⟨.object fields :: frames, .commaOrEnd, .null⟩ .comma =
        some ⟨.object fields :: frames, .name, .null⟩ := rfl
    have hname : step ⟨.object fields :: frames, .name, .null⟩ (.text k) =
        some ⟨.field fields k :: frames, .colon, .null⟩ := rfl
    have hcolon : step ⟨.field fields k :: frames, .colon, .null⟩ .colon =
        some ⟨.field fields k :: frames, .value, .null⟩ := rfl
    have hv := run_written v (.field fields k :: frames) .value .null (.inl rfl)
    have hfs := run_writtenFields fs ((k, v.json (frames.length + 1)) :: fields) frames
    simp [writtenFields, Written.token, hcomma, hname, hcolon, run_append, hv, put, hfs,
      jsonFields]

end

/-! ## From a value to its document -/

/-- The tokens go on to a value. -/
def Completes (a : Assembler) (ws : List Written) : Prop :=
  ∃ b, a.run ws = some b ∧ b.expect = .nothing

section Completes

variable {a b : Assembler} {w : Written} {ws vs : List Written} {t : Token}
  {frames : List Frame} {items : List Json} {fields : List (Option String × Json)} {r : Json}

theorem Completes.step (h : Completes a (w :: ws)) :
    ∃ b, a.step w.token = some b ∧ Completes b ws := by
  obtain ⟨c, hrun, hc⟩ := h
  rw [run_cons] at hrun
  obtain ⟨b, hb, hrest⟩ := Option.bind_eq_some_iff.1 hrun
  exact ⟨b, hb, c, hrest, hc⟩

theorem Completes.next (h : Completes a (w :: ws)) (hb : a.step w.token = some b) :
    Completes b ws := by
  obtain ⟨c, hc, hrest⟩ := h.step
  rw [hb] at hc
  cases hc
  exact hrest

theorem Completes.append (h : Completes a (ws ++ vs)) (hb : a.run ws = some b) :
    Completes b vs := by
  obtain ⟨c, hrun, hc⟩ := h
  rw [run_append, hb] at hrun
  exact ⟨c, hrun, hc⟩

/-- A value is not complete while something is waited for. -/
theorem Completes.exists_cons (h : Completes a ws) (hexpect : a.expect ≠ .nothing) :
    ∃ w rest, ws = w :: rest := by
  cases ws with
  | nil =>
    obtain ⟨b, hb, hnothing⟩ := h
    cases hb
    exact absurd hnothing hexpect
  | cons w rest => exact ⟨w, rest, rfl⟩

/-- Where a list may end and does not, a value is waited for. -/
theorem Completes.value (h : Completes ⟨.list [] :: frames, .valueOrEnd, r⟩ (w :: ws))
    (hw : w ≠ .closeList) : Completes ⟨.list [] :: frames, .value, r⟩ (w :: ws) := by
  cases w with
  | closeList => exact absurd rfl hw
  | _ => exact h

/-- Likewise where an object may end and does not. -/
theorem Completes.name (h : Completes ⟨.object [] :: frames, .nameOrEnd, r⟩ (w :: ws))
    (hw : w ≠ .closeObject) : Completes ⟨.object [] :: frames, .name, r⟩ (w :: ws) := by
  cases w with
  | closeObject => exact absurd rfl hw
  | _ => exact h

/-- What may stand inside a list behind an item. -/
theorem Completes.inList (h : Completes ⟨.list items :: frames, .commaOrEnd, .null⟩ (w :: ws)) :
    w = .closeList ∨ w = .comma ∧ Completes ⟨.list items :: frames, .value, .null⟩ ws := by
  obtain ⟨b, hb, hrest⟩ := h.step
  cases w with
  | closeList => exact .inl rfl
  | comma =>
    cases hb
    exact .inr ⟨rfl, hrest⟩
  | _ => cases hb

/-- What may stand inside an object behind a field. -/
theorem Completes.inObject
    (h : Completes ⟨.object fields :: frames, .commaOrEnd, .null⟩ (w :: ws)) :
    w = .closeObject ∨ w = .comma ∧ Completes ⟨.object fields :: frames, .name, .null⟩ ws := by
  obtain ⟨b, hb, hrest⟩ := h.step
  cases w with
  | closeObject => exact .inl rfl
  | comma =>
    cases hb
    exact .inr ⟨rfl, hrest⟩
  | _ => cases hb

/-- Where a name is waited for stand a name and a colon. -/
theorem Completes.field (h : Completes ⟨.object fields :: frames, .name, .null⟩ ws) :
    ∃ k rest, ws = .text k :: .colon :: rest ∧
      Completes ⟨.field fields k :: frames, .value, .null⟩ rest := by
  obtain ⟨w, ws, rfl⟩ := h.exists_cons nofun
  obtain ⟨b, hb, hrest⟩ := h.step
  cases w with
  | text k =>
    cases hb
    obtain ⟨v, rest, rfl⟩ := hrest.exists_cons nofun
    obtain ⟨c, hc, hvalue⟩ := hrest.step
    cases v with
    | colon =>
      cases hc
      exact ⟨k, rest, rfl, hvalue⟩
    | _ => cases hc
  | _ => cases hb

theorem length_le_of_append {n : Nat} (ws : List Written) (h : (ws ++ vs).length ≤ n) :
    vs.length ≤ n := by
  rw [List.length_append] at h
  omega

end Completes

mutual

/-- **Tokens that go on to a value begin with a document**, where a value is waited for; by
    induction on a bound of their number. -/
theorem exists_value : ∀ (n : Nat) (ws : List Written) (frames : List Frame) (r : Json),
    ws.length ≤ n → Completes ⟨frames, .value, r⟩ ws → ∃ d rest, ws = written d ++ rest
  | _, [], frames, r, _, h => by
    obtain ⟨w, rest, heq⟩ := h.exists_cons nofun
    cases heq
  | _, .number l :: ws, frames, r, _, h => ⟨.number l, ws, rfl⟩
  | _, .constant b :: ws, frames, r, _, h => ⟨.constant b, ws, rfl⟩
  | _, .text s :: ws, frames, r, _, h => ⟨.text s, ws, rfl⟩
  | n + 1, .openList :: ws, frames, r, hn, h => by
    have hws : ws.length ≤ n := Nat.le_of_succ_le_succ hn
    have hopen := h.next (b := ⟨.list [] :: frames, .valueOrEnd, .null⟩) rfl
    obtain ⟨w, ws, rfl⟩ := hopen.exists_cons nofun
    by_cases hw : w = .closeList
    · subst hw
      exact ⟨.list [], ws, rfl⟩
    · have hfirst := hopen.value hw
      obtain ⟨x, rest, heq⟩ := exists_value n (w :: ws) _ _ hws hfirst
      rw [heq] at hws hfirst ⊢
      obtain ⟨xs, rest, rfl⟩ := exists_items n rest _ _ (length_le_of_append _ hws)
        (hfirst.append (run_written x _ _ _ (.inl rfl)))
      exact ⟨.list (x :: xs), rest, by simp [written]⟩
  | n + 1, .openObject :: ws, frames, r, hn, h => by
    have hws : ws.length ≤ n := Nat.le_of_succ_le_succ hn
    have hopen := h.next (b := ⟨.object [] :: frames, .nameOrEnd, .null⟩) rfl
    obtain ⟨w, ws, rfl⟩ := hopen.exists_cons nofun
    by_cases hw : w = .closeObject
    · subst hw
      exact ⟨.object [], ws, rfl⟩
    · obtain ⟨k, rest, heq, hfirst⟩ := (hopen.name hw).field
      rw [heq] at hws ⊢
      have hrest : rest.length ≤ n := length_le_of_append [_, _] hws
      obtain ⟨v, rest, rfl⟩ := exists_value n rest _ _ hrest hfirst
      obtain ⟨fs, rest, rfl⟩ := exists_fields n rest _ _ (length_le_of_append _ hrest)
        (hfirst.append (run_written v _ _ _ (.inl rfl)))
      exact ⟨.object ((k, v) :: fs), rest, by simp [written]⟩
  | _, .closeList :: ws, frames, r, _, h => by
    obtain ⟨b, hb, -⟩ := h.step
    cases hb
  | _, .closeObject :: ws, frames, r, _, h => by
    obtain ⟨b, hb, -⟩ := h.step
    cases hb
  | _, .comma :: ws, frames, r, _, h => by
    obtain ⟨b, hb, -⟩ := h.step
    cases hb
  | _, .colon :: ws, frames, r, _, h => by
    obtain ⟨b, hb, -⟩ := h.step
    cases hb

theorem exists_items : ∀ (n : Nat) (ws : List Written) (items : List Json) (frames : List Frame),
    ws.length ≤ n → Completes ⟨.list items :: frames, .commaOrEnd, .null⟩ ws →
      ∃ xs rest, ws = writtenItems xs ++ rest
  | _, [], items, frames, _, h => by
    obtain ⟨w, rest, heq⟩ := h.exists_cons nofun
    cases heq
  | n + 1, w :: ws, items, frames, hn, h => by
    have hws : ws.length ≤ n := Nat.le_of_succ_le_succ hn
    rcases h.inList with rfl | ⟨rfl, hvalue⟩
    · exact ⟨[], ws, rfl⟩
    · obtain ⟨x, rest, rfl⟩ := exists_value n ws _ _ hws hvalue
      obtain ⟨xs, rest, rfl⟩ := exists_items n rest _ _ (length_le_of_append _ hws)
        (hvalue.append (run_written x _ _ _ (.inl rfl)))
      exact ⟨x :: xs, rest, by simp [writtenItems]⟩

theorem exists_fields : ∀ (n : Nat) (ws : List Written) (fields : List (Option String × Json))
    (frames : List Frame), ws.length ≤ n →
      Completes ⟨.object fields :: frames, .commaOrEnd, .null⟩ ws →
        ∃ fs rest, ws = writtenFields fs ++ rest
  | _, [], fields, frames, _, h => by
    obtain ⟨w, rest, heq⟩ := h.exists_cons nofun
    cases heq
  | n + 1, w :: ws, fields, frames, hn, h => by
    have hws : ws.length ≤ n := Nat.le_of_succ_le_succ hn
    rcases h.inObject with rfl | ⟨rfl, hname⟩
    · exact ⟨[], ws, rfl⟩
    · obtain ⟨k, rest, rfl, hvalue⟩ := hname.field
      have hrest : rest.length ≤ n := length_le_of_append [_, _] hws
      obtain ⟨v, rest, rfl⟩ := exists_value n rest _ _ hrest hvalue
      obtain ⟨fs, rest, rfl⟩ := exists_fields n rest _ _ (length_le_of_append _ hrest)
        (hvalue.append (run_written v _ _ _ (.inl rfl)))
      exact ⟨(k, v) :: fs, rest, by simp [writtenFields]⟩

end

/-! ## Texts -/

/-- A text writes a document. -/
def Writes (s : String) (d : Doc) : Prop := Cut s.toList d.written

theorem Writes.ofText? {s : String} {d : Doc} (h : Writes s d) : ofText? s = some (d.json 0) := by
  rw [Json.ofText?, ofChars?, Cut.tokens? h, Option.bind_some, ofTokens?_map_token,
    run_written d [] .value .null (.inl rfl)]
  rfl

/-- Nothing follows a value. -/
theorem step_nothing (j : Json) (t : Token) : Assembler.step ⟨[], .nothing, j⟩ t = none := by
  cases t <;> rfl

/-- **A text is read exactly if it writes a document**, and then as the document's value. -/
theorem ofText?_eq_some_iff {s : String} {j : Json} :
    ofText? s = some j ↔ ∃ d, Writes s d ∧ j = d.json 0 := by
  constructor
  · intro h
    obtain ⟨ts, hts, hmake⟩ := Option.bind_eq_some_iff.1 h
    obtain ⟨ws, hcut, rfl⟩ := tokens?_eq_some_iff.1 hts
    have hcompletes : Completes ⟨[], .value, .null⟩ ws := by
      rw [ofTokens?_map_token] at hmake
      obtain ⟨a, ha, hresult⟩ := Option.bind_eq_some_iff.1 hmake
      refine ⟨a, ha, ?_⟩
      by_contra hexpect
      rw [if_neg hexpect] at hresult
      cases hresult
    obtain ⟨d, rest, rfl⟩ := exists_value _ ws [] .null (Nat.le_refl _) hcompletes
    have hrest : Completes ⟨[], .nothing, d.json 0⟩ rest :=
      hcompletes.append (run_written d [] .value .null (.inl rfl))
    cases rest with
    | nil =>
      rw [List.append_nil] at hcut
      refine ⟨d, hcut, ?_⟩
      rw [Writes.ofText? hcut] at h
      exact (Option.some.inj h).symm
    | cons w rest =>
      obtain ⟨b, hb, -⟩ := hrest.step
      rw [step_nothing] at hb
      cases hb
  · rintro ⟨d, hd, rfl⟩
    exact hd.ofText?

end LedgerGate.Json
