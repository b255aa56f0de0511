/-
  The blanks around a text.

  * `Bare`: a text begins and ends with other characters than blanks;
  * `Trimmed`: a text is what is left of a line without the blanks around it;
  * `trimBlanks_eq_iff`: **that, and nothing else, is what trimming leaves.**
-/
import LedgerGate.Text.Blank
import Mathlib.Data.List.Basic

namespace LedgerGate.Text

/-- A text neither begins nor ends with a blank. -/
structure Bare (text : List Char) : Prop where
  first : ∀ c ∈ text.head?, isBlank c = false
  last : ∀ c ∈ text.getLast?, isBlank c = false

/-- A line is a text with blanks around it, which are not its own. -/
def Trimmed (line text : List Char) : Prop :=
  Bare text ∧ ∃ before after, line = before ++ text ++ after ∧
    (∀ c ∈ before, isBlank c = true) ∧ ∀ c ∈ after, isBlank c = true

variable {line text : List Char}

theorem dropWhile_eq_self {p : Char → Bool} (h : ∀ c ∈ text.head?, p c = false) :
    text.dropWhile p = text := by
  cases text with
  | nil => rfl
  | cons c cs => rw [List.dropWhile_cons, h c rfl, if_neg Bool.false_ne_true]

/-- Blanks and a text that begins with something else. -/
theorem dropWhile_blanks {blanks : List Char} (hblanks : ∀ c ∈ blanks, isBlank c = true)
    (h : ∀ c ∈ text.head?, isBlank c = false) : (blanks ++ text).dropWhile isBlank = text := by
  rw [List.dropWhile_append_of_pos hblanks, dropWhile_eq_self h]

theorem head?_dropWhile_blank (cs : List Char) :
    ∀ c ∈ (cs.dropWhile isBlank).head?, isBlank c = false := by
  intro c hc
  have hnot := List.head?_dropWhile_not isBlank cs
  rwa [hc] at hnot

theorem blank_of_mem_takeWhile {cs : List Char} : ∀ c ∈ cs.takeWhile isBlank, isBlank c = true :=
  List.all_eq_true.1 List.all_takeWhile

/-- Trimming a line leaves a text with blanks around it. -/
theorem trimmed_trimBlanks (line : List Char) : Trimmed line (trimBlanks line) := by
  have hback : line.dropWhile isBlank = trimBlanks line ++
      ((line.dropWhile isBlank).reverse.takeWhile isBlank).reverse := by
    rw [trimBlanks, ← List.reverse_append, List.takeWhile_append_dropWhile, List.reverse_reverse]
  refine ⟨⟨fun c hc => ?_, fun c hc => ?_⟩, line.takeWhile isBlank,
    ((line.dropWhile isBlank).reverse.takeWhile isBlank).reverse, ?_, blank_of_mem_takeWhile, ?_⟩
  · refine head?_dropWhile_blank line c ?_
    rw [hback, List.head?_append, Option.mem_def.1 hc]
    rfl
  · rw [trimBlanks, List.getLast?_reverse] at hc
    exact head?_dropWhile_blank _ c hc
  · rw [List.append_assoc, ← hback, List.takeWhile_append_dropWhile]
  · exact fun c hc => blank_of_mem_takeWhile c (List.mem_reverse.1 hc)

/-- **Trimming a line leaves the text that has only blanks around it there.** -/
theorem trimBlanks_eq_iff : trimBlanks line = text ↔ Trimmed line text := by
  constructor
  · rintro rfl
    exact trimmed_trimBlanks line
  · rintro ⟨hbare, before, after, rfl, hbefore, hafter⟩
    cases text with
    | nil =>
      -- there is no character to stop at, so the first pass takes the blanks behind as well
      have hall : ∀ c ∈ before ++ after, isBlank c = true := by
        intro c hc
        rcases List.mem_append.1 hc with hc | hc
        · exact hbefore c hc
        · exact hafter c hc
      have hnothing : (before ++ after ++ []).dropWhile isBlank = [] :=
        dropWhile_blanks hall (by simp)
      rw [List.append_nil] at hnothing
      rw [trimBlanks, List.append_nil, hnothing]
      rfl
    | cons c cs =>
      have hfront : (before ++ (c :: cs ++ after)).dropWhile isBlank = c :: cs ++ after :=
        dropWhile_blanks hbefore hbare.first
      have hrear : (after.reverse ++ (c :: cs).reverse).dropWhile isBlank = (c :: cs).reverse := by
        refine dropWhile_blanks (fun d hd => hafter d (List.mem_reverse.1 hd)) fun d hd => ?_
        rw [List.head?_reverse] at hd
        exact hbare.last d hd
      rw [trimBlanks, List.append_assoc, hfront, List.reverse_append, hrear, List.reverse_reverse]

/-- A text that is bare is left as it is. -/
theorem Bare.trimmed (h : Bare text) : Trimmed text text :=
  ⟨h, [], [], by simp, by simp, by simp⟩

theorem Trimmed.trimBlanks_eq (h : Trimmed line text) : trimBlanks text = text :=
  trimBlanks_eq_iff.2 h.1.trimmed

end LedgerGate.Text
