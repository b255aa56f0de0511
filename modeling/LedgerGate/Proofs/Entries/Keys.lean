/-
  The names of association lists: they increase, so no name stands twice, and looking a
  name up is finding its entry.

  * `keys`, `Increasing`: the names, and that they stand in order;
  * `Increasing.insert`, `Increasing.erase`: setting and removing names keeps the order;
  * `perm_keys_insert`, `keys_erase`: the names after a change;
  * `Increasing.find?_eq_some_iff`: a look-up finds exactly the entries;
  * `Increasing.mem_insert`, `mem_erase`: the entries after a change;
  * `Increasing.ext`: entries in order are settled by their look-ups;
  * `find?_ofList`: a list of entries with distinct names loses none of them;
  * `find?_key_eq_some_iff`: in any list with distinct keys a key finds its entry.
-/
import LedgerGate.Entries
import Mathlib.Data.List.Induction
import Mathlib.Data.List.Nodup
import Mathlib.Data.List.Perm.Basic
import Mathlib.Data.String.Basic

namespace LedgerGate.Entries

variable {α : Type}

/-! ## Names -/

/-- The names of some entries. -/
def keys (entries : List (String × α)) : List String := entries.map (·.1)

/-- The names stand in increasing order. -/
def Increasing (entries : List (String × α)) : Prop := (keys entries).Pairwise (· < ·)

@[simp]
theorem keys_nil : keys ([] : List (String × α)) = [] := rfl

@[simp]
theorem keys_cons (e : String × α) (es : List (String × α)) :
    keys (e :: es) = e.1 :: keys es := rfl

theorem mem_keys {entries : List (String × α)} {name : String} :
    name ∈ keys entries ↔ ∃ value, (name, value) ∈ entries := by
  simp [keys]

theorem mem_keys_of_find? {entries : List (String × α)} {name : String} {value : α}
    (h : find? entries name = some value) : name ∈ keys entries := by
  induction entries with
  | nil => cases h
  | cons e es ih =>
    obtain ⟨k, v⟩ := e
    simp only [find?] at h
    split at h
    · rename_i hk
      simp [hk]
    · exact List.mem_cons_of_mem _ (ih h)

theorem find?_eq_none_iff {entries : List (String × α)} {name : String} :
    find? entries name = none ↔ name ∉ keys entries := by
  induction entries with
  | nil => simp
  | cons e es ih =>
    obtain ⟨k, v⟩ := e
    simp only [find?, keys_cons, List.mem_cons, not_or]
    split
    · rename_i hk
      simp [hk]
    · rename_i hk
      simp [ih, Ne.symm hk]

theorem contains_iff {entries : List (String × α)} {name : String} :
    contains entries name ↔ name ∈ keys entries := by
  rw [contains, ← not_iff_not, Bool.not_eq_true, Option.isSome_eq_false_iff,
    Option.isNone_iff_eq_none, find?_eq_none_iff]

/-! ## Setting a name -/

theorem perm_keys_insert {entries : List (String × α)} {name : String}
    (hn : name ∉ keys entries) (value : α) :
    (keys (insert entries name value)).Perm (name :: keys entries) := by
  induction entries with
  | nil => exact .refl _
  | cons e es ih =>
    obtain ⟨k, v⟩ := e
    obtain ⟨hne, hes⟩ := not_or.1 (mt List.mem_cons.2 hn)
    unfold insert
    rw [if_neg (Ne.symm hne)]
    split
    · exact .refl _
    · exact ((ih hes).cons k).trans (.swap _ _ _)

/-- Every name of an insertion is the new one, or it was there. -/
theorem mem_keys_insert {entries : List (String × α)} {name other : String} {value : α} :
    other ∈ keys (insert entries name value) ↔ other = name ∨ other ∈ keys entries := by
  by_cases h : other = name
  · simp only [h, true_or, iff_true]
    exact mem_keys_of_find? (find?_insert_self entries name value)
  · have hfind : find? (insert entries name value) other = find? entries other :=
      find?_insert_ne entries value h
    rw [← not_iff_not, ← find?_eq_none_iff, hfind, find?_eq_none_iff]
    simp [h]

theorem Increasing.insert {entries : List (String × α)} (h : Increasing entries) (name : String)
    (value : α) : Increasing (insert entries name value) := by
  induction entries with
  | nil => exact List.pairwise_singleton _ _
  | cons e es ih =>
    obtain ⟨k, v⟩ := e
    obtain ⟨hk, hes⟩ := List.pairwise_cons.1 h
    unfold Entries.insert
    split
    · rename_i heq
      subst heq
      exact h
    · rename_i hne
      split
      · rename_i hlt
        refine List.pairwise_cons.2 ⟨fun other hother => ?_, h⟩
        rcases List.mem_cons.1 hother with rfl | hmem
        · exact hlt
        · exact hlt.trans (hk other hmem)
      · rename_i hge
        have hlt : k < name := lt_of_le_of_ne (not_lt.1 hge) hne
        refine List.pairwise_cons.2 ⟨fun other hother => ?_, ih hes⟩
        rcases mem_keys_insert.1 hother with rfl | hmem
        · exact hlt
        · exact hk other hmem

/-- Setting a name that is there adds no entry. -/
theorem Increasing.length_insert {entries : List (String × α)}
    (h : Increasing entries) {name : String} (hname : name ∈ keys entries)
    (value : α) : (Entries.insert entries name value).length = entries.length := by
  induction entries with
  | nil => cases hname
  | cons e es ih =>
    obtain ⟨k, v⟩ := e
    obtain ⟨hk, hes⟩ := List.pairwise_cons.1 h
    unfold Entries.insert
    split
    · rfl
    · rename_i hne
      have hrest : name ∈ keys es := by
        rcases List.mem_cons.1 hname with hsame | hrest
        · exact absurd hsame.symm hne
        · exact hrest
      split
      · rename_i hlt
        exact absurd (hlt.trans (hk name hrest)) (lt_irrefl name)
      · rw [List.length_cons, List.length_cons, ih hes hrest]

/-! ## Removing a name -/

theorem keys_erase (entries : List (String × α)) (name : String) :
    keys (erase entries name) = (keys entries).filter (· != name) := by
  rw [keys, erase, keys, List.filter_map]
  rfl

theorem Increasing.erase {entries : List (String × α)} (h : Increasing entries) (name : String) :
    Increasing (erase entries name) := by
  rw [Increasing, keys_erase]
  exact h.filter _

/-! ## Looking up -/

theorem Increasing.nodup {entries : List (String × α)} (h : Increasing entries) :
    (keys entries).Nodup := h.imp ne_of_lt

/-- A look-up finds exactly the entries. -/
theorem Increasing.find?_eq_some_iff {entries : List (String × α)} (h : Increasing entries)
    {name : String} {value : α} : find? entries name = some value ↔ (name, value) ∈ entries := by
  induction entries with
  | nil => simp
  | cons e es ih =>
    obtain ⟨k, v⟩ := e
    obtain ⟨hk, hes⟩ := List.pairwise_cons.1 h
    simp only [find?, List.mem_cons, Prod.mk.injEq]
    split
    · rename_i heq
      subst heq
      have hnot : (k, value) ∉ es := fun hmem => lt_irrefl k (hk k (mem_keys.2 ⟨value, hmem⟩))
      simp [hnot, eq_comm]
    · rename_i hne
      simp [ih hes, Ne.symm hne]

/-- The entries of an insertion: the new one, and the old ones of other names. -/
theorem Increasing.mem_insert {entries : List (String × α)} (h : Increasing entries)
    {name other : String} {value v : α} : (other, v) ∈ Entries.insert entries name value ↔
      other = name ∧ v = value ∨ other ≠ name ∧ (other, v) ∈ entries := by
  rw [← (h.insert name value).find?_eq_some_iff]
  by_cases hother : other = name
  · simp [hother, eq_comm]
  · simp [hother, find?_insert_ne entries value hother, h.find?_eq_some_iff]

theorem mem_erase {entries : List (String × α)} {name other : String} {v : α} :
    (other, v) ∈ erase entries name ↔ other ≠ name ∧ (other, v) ∈ entries := by
  simp [erase, and_comm]

/-- A name that was just set is removed with its value. -/
theorem erase_insert_self (entries : List (String × α)) (name : String) (value : α) :
    erase (Entries.insert entries name value) name = erase entries name := by
  unfold erase
  induction entries with
  | nil => simp [Entries.insert]
  | cons e es ih =>
    obtain ⟨k, v⟩ := e
    unfold Entries.insert
    split
    · rename_i hk
      simp [hk]
    · split
      · simp
      · rename_i hk hge
        simp [hk, ih]

/-- Entries in order are the same if every look-up finds the same. -/
theorem Increasing.ext {entries others : List (String × α)} (h : Increasing entries)
    (h' : Increasing others) (hfind : ∀ name, find? entries name = find? others name) :
    entries = others := by
  have hpairs : ∀ es : List (String × α), Increasing es → es.Pairwise (·.1 < ·.1) :=
    fun es hes => List.pairwise_map.1 hes
  have hapart : ∀ a b : String × α, a ∈ entries → b ∈ others → a.1 < b.1 → b.1 < a.1 → a = b := by
    rintro a b - - hlt hgt
    exact absurd hgt (lt_asymm hlt)
  have hnodup : ∀ es : List (String × α), Increasing es → es.Nodup := by
    intro es hes
    refine (hpairs es hes).imp ?_
    rintro a b hlt rfl
    exact lt_irrefl _ hlt
  refine List.Perm.eq_of_pairwise hapart (hpairs _ h) (hpairs _ h') ?_
  rw [List.perm_ext_iff_of_nodup (hnodup _ h) (hnodup _ h')]
  rintro ⟨name, value⟩
  rw [← h.find?_eq_some_iff, ← h'.find?_eq_some_iff, hfind]

/-- Every entry of a list with distinct names is found. -/
theorem find?_ofList {pairs : List (String × α)} (h : (keys pairs).Nodup) {name : String} {v : α}
    (hv : (name, v) ∈ pairs) : find? (ofList pairs) name = some v := by
  induction pairs using List.reverseRecOn with
  | nil => cases hv
  | append_singleton ps p ih =>
    have hconcat : ofList (ps ++ [p]) = insert (ofList ps) p.1 p.2 := by
      simp [ofList, List.foldl_append]
    rw [keys, List.map_append, List.nodup_append] at h
    obtain ⟨hnodup, -, hdisjoint⟩ := h
    rw [hconcat]
    rcases List.mem_append.1 hv with hold | hnew
    · have hne : name ≠ p.1 := hdisjoint name (List.mem_map_of_mem hold) p.1 (by simp)
      rw [find?_insert_ne _ _ hne]
      exact ih hnodup hold
    · cases List.mem_singleton.1 hnew
      exact find?_insert_self _ _ _

/-- In a list with distinct keys the first entry with a key is the only one. -/
theorem find?_key_eq_some_iff {β κ : Type} [BEq κ] [LawfulBEq κ] {key : β → κ} {xs : List β}
    (h : (xs.map key).Nodup) {k : κ} {x : β} :
    xs.find? (key · == k) = some x ↔ x ∈ xs ∧ key x = k := by
  constructor
  · intro hfind
    exact ⟨List.mem_of_find?_eq_some hfind, by simpa using List.find?_some hfind⟩
  · rintro ⟨hx, rfl⟩
    rcases hfind : xs.find? (key · == key x) with _ | y
    · exact absurd (List.find?_eq_none.1 hfind x hx) (by simp)
    · have hkey : key y = key x := by simpa using List.find?_some hfind
      rw [List.inj_on_of_nodup_map h (List.mem_of_find?_eq_some hfind) hx hkey]

end LedgerGate.Entries
