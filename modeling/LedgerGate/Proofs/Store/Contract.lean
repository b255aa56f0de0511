/-
  What a store promises to those who share it: requests are carried out one at a time,
  each on its own key, and `putIfAbsent` looks and writes in one step.

  * `Query.Serves`: what may be answered to a request, and what is under its key then;
  * `Durable.serves`, `Memory.serves`: the stores on disk and in memory keep to it.
-/
import LedgerGate.Store.Durable
import LedgerGate.Store.Memory

namespace LedgerGate.Store

/-- The key that a request is about. -/
def Query.key : Query → String
  | get key => key
  | put key _ => key
  | putIfAbsent key _ => key
  | delete key => key

/-- What a store may answer to a request when `before` is under its key, and what is
    there after it.  A request that fails may have been carried out all the same. -/
def Query.Serves (before : Option String) : (q : Query) → q.Answer → Option String → Prop
  | get _, .ok found, after => found = before ∧ after = before
  | get _, .error _, after => after = before
  | put _ value, .ok _, after => after = some value
  | put _ value, .error _, after => after = before ∨ after = some value
  | putIfAbsent _ value, .ok true, after => before = none ∧ after = some value
  | putIfAbsent _ _, .ok false, after => before ≠ none ∧ after = before
  | putIfAbsent _ value, .error _, after => after = before ∨ after = before.or (some value)
  | delete _, .ok _, after => after = none
  | delete _, .error _, after => after = before ∨ after = none

/-! ## The store on disk -/

namespace Durable

theorem set_ok {α : Type} {table next : List (String × α)} {key : String} {value : α}
    (h : set table key value = .ok next) : next = Entries.insert table key value := by
  unfold set at h
  split at h
  · cases h
  · cases h; rfl

theorem find_ok {α : Type} {table : List (String × α)} {key : String} {found : Option α}
    (h : find table key = .ok found) : found = Entries.find? table key := by
  unfold find at h
  split at h
  · cases h
  · cases h; rfl

theorem put_ok {d next : Durable} {key value : String} (h : d.put key value = .ok next) :
    next.values = Entries.insert d.values key value := by
  unfold put at h
  cases hs : set d.values key value with
  | error e => rw [hs] at h; cases h
  | ok values => rw [hs] at h; cases h; exact set_ok hs

theorem putIfAbsent_ok {d next : Durable} {key value : String} {written : Bool}
    (h : d.putIfAbsent key value = .ok (written, next)) :
    (written = false ∧ Entries.find? d.values key ≠ none ∧ next = d) ∨
      (written = true ∧ Entries.find? d.values key = none ∧
        next.values = Entries.insert d.values key value) := by
  unfold putIfAbsent at h
  cases hf : find d.values key with
  | error e => rw [hf] at h; cases h
  | ok found =>
    rw [hf] at h
    have hfound := find_ok hf
    rcases found with _ | v
    · cases hp : d.put key value with
      | error e => simp only [Except.bind, Except.map, hp, reduceCtorEq] at h
      | ok d' =>
        simp only [Except.bind, Except.map, hp, Except.ok.injEq, Prod.mk.injEq] at h
        obtain ⟨rfl, rfl⟩ := h
        exact Or.inr ⟨rfl, hfound.symm, put_ok hp⟩
    · simp only [Except.bind, Except.ok.injEq, Prod.mk.injEq] at h
      obtain ⟨rfl, rfl⟩ := h
      exact Or.inl ⟨rfl, by rw [← hfound]; exact Option.some_ne_none v, rfl⟩

/-- **The store on disk serves every request**, and touches no other key. -/
theorem serves (d : Durable) (q : Query) :
    q.Serves (Entries.find? d.values q.key) (d.answer q).1
        (Entries.find? (d.answer q).2.values q.key) ∧
      ∀ k ≠ q.key, Entries.find? (d.answer q).2.values k = Entries.find? d.values k := by
  cases q with
  | get key =>
    refine ⟨?_, fun _ _ => rfl⟩
    simp only [answer, get]
    cases hf : find d.values key with
    | error e => exact rfl
    | ok found => exact ⟨find_ok hf, rfl⟩
  | put key value =>
    simp only [answer]
    cases hp : d.put key value with
    | error e => exact ⟨Or.inl rfl, fun _ _ => rfl⟩
    | ok next =>
      simp only [Query.Serves, Query.key, put_ok hp]
      exact ⟨Entries.find?_insert_self .., fun k hk => Entries.find?_insert_ne _ _ hk⟩
  | putIfAbsent key value =>
    simp only [answer]
    cases hp : d.putIfAbsent key value with
    | error e => exact ⟨Or.inl rfl, fun _ _ => rfl⟩
    | ok written =>
      obtain ⟨written, next⟩ := written
      rcases putIfAbsent_ok hp with ⟨rfl, hfound, rfl⟩ | ⟨rfl, hnone, hnext⟩
      · exact ⟨⟨hfound, rfl⟩, fun _ _ => rfl⟩
      · simp only [Query.Serves, Query.key, hnext]
        exact ⟨⟨hnone, Entries.find?_insert_self ..⟩, fun k hk => Entries.find?_insert_ne _ _ hk⟩
  | delete key =>
    by_cases hk : key.isEmpty
    · simp only [answer, delete, hk, if_true]
      exact ⟨Or.inl rfl, fun _ _ => trivial⟩
    · simp only [answer, delete, hk, if_false, Bool.false_eq_true]
      exact ⟨Entries.find?_erase_self .., fun k hk => Entries.find?_erase_ne _ hk⟩

end Durable

/-! ## The store in memory -/

namespace Memory

theorem writeIfAbsent_serves (m : Memory) (key value : String) :
    (Query.putIfAbsent key value).Serves (Entries.find? m.values key)
        (.ok (m.writeIfAbsent key value).1)
        (Entries.find? (m.writeIfAbsent key value).2.values key) ∧
      ∀ k ≠ key, Entries.find? (m.writeIfAbsent key value).2.values k =
        Entries.find? m.values k := by
  unfold writeIfAbsent
  split
  · rename_i h
    exact ⟨⟨Option.isSome_iff_ne_none.1 h, rfl⟩, fun _ _ => rfl⟩
  · rename_i h
    have hnone : Entries.find? m.values key = none := by
      simpa [Entries.contains] using h
    exact ⟨⟨hnone, Entries.find?_insert_self ..⟩, fun k hk => Entries.find?_insert_ne _ _ hk⟩

/-- **The store in memory serves every request**, and touches no other key, as long as
    no rival comes first. -/
theorem serves {m : Memory} (hm : m.rival = none) (q : Query) :
    q.Serves (Entries.find? m.values q.key) (m.answer q).1
        (Entries.find? (m.answer q).2.values q.key) ∧
      ∀ k ≠ q.key, Entries.find? (m.answer q).2.values k = Entries.find? m.values k := by
  cases q with
  | get key =>
    simp only [answer, read]
    split
    · exact ⟨rfl, fun _ _ => rfl⟩
    · split
      · exact ⟨rfl, fun _ _ => rfl⟩
      · exact ⟨⟨rfl, rfl⟩, fun _ _ => rfl⟩
  | put key value =>
    simp only [answer]
    split
    · exact ⟨Or.inl rfl, fun _ _ => rfl⟩
    · exact ⟨Entries.find?_insert_self .., fun k hk => Entries.find?_insert_ne _ _ hk⟩
  | putIfAbsent key value =>
    simp only [answer, overtaken, hm]
    split
    · exact ⟨Or.inl rfl, fun _ _ => rfl⟩
    · exact m.writeIfAbsent_serves key value
  | delete key =>
    simp only [answer]
    split
    · exact ⟨Or.inl rfl, fun _ _ => rfl⟩
    · exact ⟨Entries.find?_erase_self .., fun k hk => Entries.find?_erase_ne _ hk⟩

end Memory

end LedgerGate.Store
