/-
  Association lists in the order of their names: at most one entry a name, names
  increasing by code point.

  * `find?` looks a name up, `insert` sets it, `erase` removes it;
  * `find?_insert_self`, `find?_insert_ne`: what an insertion changes;
  * `find?_erase_self`, `find?_erase_ne`: what a removal changes.
-/
namespace LedgerGate.Entries

variable {α : Type}

/-! ## Operations -/

/-- The value of a name. -/
def find? (entries : List (String × α)) (name : String) : Option α :=
  match entries with
  | [] => none
  | (k, v) :: es => if k = name then some v else find? es name

/-- Sets the value of a name. -/
def insert (entries : List (String × α)) (name : String) (value : α) : List (String × α) :=
  match entries with
  | [] => [(name, value)]
  | (k, v) :: es =>
    if k = name then (name, value) :: es
    else if name < k then (name, value) :: (k, v) :: es
    else (k, v) :: insert es name value

/-- Removes a name. -/
def erase (entries : List (String × α)) (name : String) : List (String × α) :=
  entries.filter (·.1 != name)

def contains (entries : List (String × α)) (name : String) : Bool :=
  (find? entries name).isSome

/-- Sets the names of a list one after the other, so the last value of a name stays. -/
def ofList (pairs : List (String × α)) : List (String × α) :=
  pairs.foldl (fun entries p => insert entries p.1 p.2) []

/-- Sets every name of a second list. -/
def extend (entries other : List (String × α)) : List (String × α) :=
  other.foldl (fun acc p => insert acc p.1 p.2) entries

/-! ## Laws -/

@[simp]
theorem find?_nil (name : String) : find? ([] : List (String × α)) name = none := rfl

@[simp]
theorem find?_insert_self (entries : List (String × α)) (name : String) (value : α) :
    find? (insert entries name value) name = some value := by
  induction entries with
  | nil => simp [insert, find?]
  | cons e es ih =>
    obtain ⟨k, v⟩ := e
    unfold insert
    split
    · simp [find?]
    · split
      · simp [find?]
      · simp [find?, *]

theorem find?_insert_ne (entries : List (String × α)) {name other : String} (value : α)
    (h : other ≠ name) : find? (insert entries name value) other = find? entries other := by
  induction entries with
  | nil => simp [insert, find?, h.symm]
  | cons e es ih =>
    obtain ⟨k, v⟩ := e
    unfold insert
    split
    · next hk => simp [find?, hk, h.symm]
    · split
      · simp [find?, h.symm]
      · simp [find?, ih]

theorem find?_erase (entries : List (String × α)) (name other : String) :
    find? (erase entries name) other = if other = name then none else find? entries other := by
  induction entries with
  | nil => simp [erase, find?]
  | cons e es ih =>
    obtain ⟨k, v⟩ := e
    have ih : find? (es.filter (·.1 != name)) other = _ := ih
    by_cases hk : k = name
    · subst hk
      rw [erase, List.filter_cons_of_neg (by simp), ih]
      by_cases ho : other = k
      · simp [ho]
      · simp [find?, ho, Ne.symm ho]
    · rw [erase, List.filter_cons_of_pos (by simpa using hk)]
      by_cases ho : k = other
      · subst ho; simp [find?, hk]
      · simp only [find?, ho, if_false, ih]

@[simp]
theorem find?_erase_self (entries : List (String × α)) (name : String) :
    find? (erase entries name) name = none := by
  rw [find?_erase, if_pos rfl]

theorem find?_erase_ne (entries : List (String × α)) {name other : String} (h : other ≠ name) :
    find? (erase entries name) other = find? entries other := by
  rw [find?_erase, if_neg h]

end LedgerGate.Entries
