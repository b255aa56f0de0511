/-
  Matching: which delegate serves a key depends on which delegates there are, and not on the
  order in which they were registered.

  * `RouteKey.place`: where a key stands in the order of keys, `precedes_iff`; two keys never
    stand in one place (`place_injective`);
  * `Assignments.Clash`: the first delegate of a list that comes too late for its key;
    `ofList_eq_error_iff`: registration stops there, and only there;
  * `Assignments.keys_perm`, `keys_sorted`: the keys stand in order, so they are settled by which
    there are (`keys_eq_of_perm`);
  * `Assignments.Serves`: who serves an operation on a shape for a brand; `find?_eq_iff`: the one
    that is found;
  * `Assignments.Matching`, `matching_of`: **when there is a table, what it answers, and that
    both are the same for the delegates in any order**.
-/
import LedgerGate.Proofs.Gateway.Building
import Mathlib.Data.List.Count
import Mathlib.Data.List.Induction
import Mathlib.Data.Prod.Lex

namespace LedgerGate

/-! ## The order of keys -/

/-- Ranks at which a list has everything are apart. -/
theorem injective_of_getElem? {α : Type} (xs : List α) {rank : α → ℕ}
    (h : ∀ a, xs[rank a]? = some a) : Function.Injective rank := by
  intro a b hrank
  have hfound := h a
  rw [hrank, h b] at hfound
  exact (Option.some.inj hfound).symm

theorem Shape.rank_injective : Function.Injective Shape.rank :=
  injective_of_getElem? all fun s => by cases s <;> rfl

theorem Brand.rank_injective : Function.Injective Brand.rank :=
  injective_of_getElem? all fun b => by cases b <;> rfl

namespace RouteKey

/-- The place of a key: by operation, then shape, then brand. -/
def place (k : RouteKey) : String ×ₗ ℕ ×ₗ ℕ :=
  toLex (k.operation, toLex (k.shape.rank, k.brand.rank))

theorem place_injective : Function.Injective place := by
  intro j k h
  obtain ⟨hoperation, hranks⟩ := Prod.mk.inj (toLex.injective h)
  obtain ⟨hshape, hbrand⟩ := Prod.mk.inj (toLex.injective hranks)
  cases j
  cases k
  simp only [mk.injEq]
  exact ⟨hoperation, Shape.rank_injective hshape, Brand.rank_injective hbrand⟩

theorem precedes_iff {j k : RouteKey} : j.precedes k = true ↔ j.place < k.place := by
  unfold precedes place
  simp only [Prod.Lex.toLex_lt_toLex]
  split
  · rename_i hoperation
    split
    · rename_i hshape
      simp [hoperation, hshape]
    · rename_i hshape
      have hrank : j.shape.rank ≠ k.shape.rank := Shape.rank_injective.ne hshape
      simp [hoperation, hrank]
  · rename_i hoperation
    simp [hoperation]

/-- A key comes no later than another just if that one does not precede it. -/
theorem not_precedes_iff {j k : RouteKey} : (!k.precedes j) = true ↔ j.place ≤ k.place := by
  rw [Bool.not_eq_true', ← Bool.not_eq_true, precedes_iff, not_lt]

end RouteKey

namespace Assignments

variable {D : Type} {keyOf : D → RouteKey} {ds : List D}

/-! ## Clashes -/

/-- A delegate of a list comes too late for its key, and it is the first one. -/
def Clash (keyOf : D → RouteKey) (ds : List D) (key : RouteKey) : Prop :=
  ∃ before d after, ds = before ++ d :: after ∧ keyOf d = key ∧ key ∈ before.map keyOf ∧
    (before.map keyOf).Nodup

/-- Somebody else has the key as well. -/
theorem Clash.two_le_count {key : RouteKey} (h : Clash keyOf ds key) :
    2 ≤ (ds.map keyOf).count key := by
  obtain ⟨before, d, after, rfl, rfl, htaken, -⟩ := h
  have hbefore : 1 ≤ (before.map keyOf).count (keyOf d) := List.count_pos_iff.2 htaken
  rw [List.map_append, List.map_cons, List.count_append, List.count_cons_self]
  omega

theorem Clash.append {key : RouteKey} (h : Clash keyOf ds key) (more : List D) :
    Clash keyOf (ds ++ more) key := by
  obtain ⟨before, d, after, rfl, hkey⟩ := h
  exact ⟨before, d, after ++ more, by simp, hkey⟩

/-- If two delegates share a key, one of them is the first to come too late. -/
theorem exists_clash (h : ¬(ds.map keyOf).Nodup) : ∃ key, Clash keyOf ds key := by
  induction ds using List.reverseRecOn with
  | nil => exact absurd List.nodup_nil h
  | append_singleton ds d ih =>
    by_cases hbefore : (ds.map keyOf).Nodup
    · refine ⟨keyOf d, ds, d, [], rfl, rfl, ?_, hbefore⟩
      by_contra hfree
      rw [List.map_append, List.map_singleton, ← List.concat_eq_append] at h
      exact h ((List.nodup_concat _ _).2 ⟨hfree, hbefore⟩)
    · obtain ⟨key, hclash⟩ := ih hbefore
      exact ⟨key, hclash.append [d]⟩

theorem register_append (a : Assignments D) (before after : List D) :
    register keyOf a (before ++ after) =
      register keyOf a before >>= fun a' => register keyOf a' after := by
  induction before generalizing a with
  | nil => rfl
  | cons d before ih =>
    rw [List.cons_append, register, register]
    split
    · rfl
    · exact ih _

/-- Registration stops at a delegate that comes too late for its key. -/
theorem Clash.refused {key : RouteKey} (h : Clash keyOf ds key) :
    ofList keyOf ds = .error (.duplicateImplementation key) := by
  obtain ⟨before, d, after, rfl, rfl, htaken, hbefore⟩ := h
  have hregistered : register keyOf ⟨[]⟩ before = .ok ⟨under keyOf before⟩ :=
    ofList_eq_ok_iff.2 ⟨hbefore, rfl⟩
  have hkeys : (under keyOf before).map (·.1) = before.map keyOf := List.map_map
  rw [ofList, register_append, hregistered]
  exact if_pos (isSome_get?.2 (hkeys ▸ htaken))

/-- Delegates are refused just if there is one that comes too late for its key. -/
theorem ofList_eq_error_iff {f : Fault} :
    ofList keyOf ds = .error f ↔ ∃ key, Clash keyOf ds key ∧ f = .duplicateImplementation key := by
  constructor
  · intro h
    have hshared : ¬(ds.map keyOf).Nodup := fun hkeys => by
      rw [ofList_eq_ok_iff.2 ⟨hkeys, rfl⟩] at h
      cases h
    obtain ⟨key, hclash⟩ := exists_clash hshared
    rw [hclash.refused] at h
    cases h
    exact ⟨key, hclash, rfl⟩
  · rintro ⟨key, hclash, rfl⟩
    exact hclash.refused

/-! ## Keys -/

theorem keys_perm (a : Assignments D) : a.keys.Perm (a.entries.map (·.1)) :=
  List.mergeSort_perm _ _

theorem keys_sorted (a : Assignments D) : a.keys.Pairwise (·.place ≤ ·.place) := by
  refine (List.pairwise_mergeSort (fun i j k hij hjk => ?_) (fun j k => ?_) _).imp
    RouteKey.not_precedes_iff.1
  · rw [RouteKey.not_precedes_iff] at *
    exact hij.trans hjk
  · rw [Bool.or_eq_true, RouteKey.not_precedes_iff, RouteKey.not_precedes_iff]
    exact le_total _ _

/-- Tables of the same keys list them alike. -/
theorem keys_eq_of_perm {a a' : Assignments D}
    (h : (a.entries.map (·.1)).Perm (a'.entries.map (·.1))) : a.keys = a'.keys := by
  refine List.Perm.eq_of_pairwise (fun j k _ _ hjk hkj => ?_) a.keys_sorted a'.keys_sorted ?_
  · exact RouteKey.place_injective (le_antisymm hjk hkj)
  · exact (a.keys_perm.trans h).trans a'.keys_perm.symm

/-! ## Answers -/

/-- Who serves an operation on a shape of input for a brand of ledger. -/
inductive Serves (keyOf : D → RouteKey) (ds : List D) (operation : String) (shape : Shape)
    (brand : Brand) : Option D → Prop
  /-- the delegate under exactly that key -/
  | own {d : D} : d ∈ ds → keyOf d = ⟨operation, shape, brand⟩ →
      Serves keyOf ds operation shape brand (some d)
  /-- if there is none, the one for the same operation and shape and every brand -/
  | everyBrand {d : D} : (∀ e ∈ ds, keyOf e ≠ ⟨operation, shape, brand⟩) →
      d ∈ ds → keyOf d = ⟨operation, shape, .none⟩ → Serves keyOf ds operation shape brand (some d)
  /-- and if there is neither, nobody -/
  | nobody : (∀ e ∈ ds, keyOf e ≠ ⟨operation, shape, brand⟩) →
      (∀ e ∈ ds, keyOf e ≠ ⟨operation, shape, .none⟩) → Serves keyOf ds operation shape brand none

variable {operation : String} {shape : Shape} {brand : Brand}

/-- The order of delegates does not count. -/
theorem Serves.perm {ds' : List D} {answer : Option D} (h : ds.Perm ds')
    (hserves : Serves keyOf ds operation shape brand answer) :
    Serves keyOf ds' operation shape brand answer := by
  have hnone : ∀ key, (∀ e ∈ ds, keyOf e ≠ key) → ∀ e ∈ ds', keyOf e ≠ key :=
    fun key hall e he => hall e (h.mem_iff.2 he)
  cases hserves with
  | own hd hkey => exact .own (h.mem_iff.1 hd) hkey
  | everyBrand hno hd hkey => exact .everyBrand (hnone _ hno) (h.mem_iff.1 hd) hkey
  | nobody hno hnoAny => exact .nobody (hnone _ hno) (hnone _ hnoAny)

section
variable (h : (ds.map keyOf).Nodup)
include h

/-- There are no two answers. -/
theorem Serves.unique {answer answer' : Option D}
    (hserves : Serves keyOf ds operation shape brand answer)
    (hserves' : Serves keyOf ds operation shape brand answer') : answer = answer' := by
  have hsame : ∀ {d e : D} {key}, d ∈ ds → e ∈ ds → keyOf d = key → keyOf e = key →
      some d = some e := fun hd he hkey hkey' =>
    congrArg some (List.inj_on_of_nodup_map h hd he (hkey.trans hkey'.symm))
  cases hserves with
  | own hd hkey =>
    cases hserves' with
    | own he hkey' => exact hsame hd he hkey hkey'
    | everyBrand hno => exact absurd hkey (hno _ hd)
    | nobody hno => exact absurd hkey (hno _ hd)
  | everyBrand hno hd hkey =>
    cases hserves' with
    | own he hkey' => exact absurd hkey' (hno _ he)
    | everyBrand _ he hkey' => exact hsame hd he hkey hkey'
    | nobody _ hnoAny => exact absurd hkey (hnoAny _ hd)
  | nobody hno hnoAny =>
    cases hserves' with
    | own he hkey' => exact absurd hkey' (hno _ he)
    | everyBrand _ he hkey' => exact absurd hkey' (hnoAny _ he)
    | nobody => rfl

theorem get?_under_eq_none_iff {key : RouteKey} :
    get? ⟨under keyOf ds⟩ key = none ↔ ∀ d ∈ ds, keyOf d ≠ key := by
  rw [Option.eq_none_iff_forall_ne_some]
  simp only [ne_eq, get?_under_eq_some_iff h, not_and]

theorem serves_find? (operation : String) (shape : Shape) (brand : Brand) :
    Serves keyOf ds operation shape brand
      (find? ⟨under keyOf ds⟩ ⟨operation, shape, brand⟩) := by
  rcases hown : get? ⟨under keyOf ds⟩ ⟨operation, shape, brand⟩ with _ | d
  · have hfallback : find? ⟨under keyOf ds⟩ ⟨operation, shape, brand⟩ =
        get? ⟨under keyOf ds⟩ ⟨operation, shape, .none⟩ := by
      rw [find?, hown, Option.none_or]
      rfl
    have hno := (get?_under_eq_none_iff h).1 hown
    rw [hfallback]
    rcases hany : get? ⟨under keyOf ds⟩ ⟨operation, shape, .none⟩ with _ | d
    · exact .nobody hno ((get?_under_eq_none_iff h).1 hany)
    · obtain ⟨hd, hkey⟩ := (get?_under_eq_some_iff h).1 hany
      exact .everyBrand hno hd hkey
  · obtain ⟨hd, hkey⟩ := (get?_under_eq_some_iff h).1 hown
    rw [find?, hown]
    exact .own hd hkey

/-- What is found is who serves. -/
theorem find?_eq_iff {answer : Option D} :
    find? ⟨under keyOf ds⟩ ⟨operation, shape, brand⟩ = answer ↔
      Serves keyOf ds operation shape brand answer := by
  constructor
  · rintro rfl
    exact serves_find? h operation shape brand
  · exact Serves.unique h (serves_find? h operation shape brand)

end

/-! ## Matching -/

/-- What becomes of a list of delegates. -/
structure Matching (keyOf : D → RouteKey) (ds : List D) : Prop where
  /-- There is a table just if no two delegates share a key. -/
  made : (∃ a, ofList keyOf ds = .ok a) ↔ (ds.map keyOf).Nodup
  /-- Otherwise the fault names the key of the first delegate that comes too late for it, -/
  refused : ∀ f, ofList keyOf ds = .error f ↔
    ∃ key, Clash keyOf ds key ∧ f = .duplicateImplementation key
  /-- and this key occurs twice. -/
  shared : ∀ key, ofList keyOf ds = .error (.duplicateImplementation key) →
    2 ≤ (ds.map keyOf).count key
  /-- A table lists the keys of its delegates in their order, each once, -/
  listed : ∀ a, ofList keyOf ds = .ok a → a.size = ds.length ∧ a.keys.Perm (ds.map keyOf) ∧
    a.keys.Pairwise (·.place < ·.place)
  /-- and it finds the delegate that serves. -/
  found : ∀ a, ofList keyOf ds = .ok a → ∀ operation shape brand answer,
    a.find? ⟨operation, shape, brand⟩ = answer ↔ Serves keyOf ds operation shape brand answer
  /-- The same delegates in another order make a table as well, with the same keys and answers. -/
  unordered : ∀ a, ofList keyOf ds = .ok a → ∀ ds', ds.Perm ds' →
    ∃ a', ofList keyOf ds' = .ok a' ∧ a'.keys = a.keys ∧ ∀ key, a'.find? key = a.find? key

/-- **Delegates are matched by which there are, in whatever order they come.** -/
theorem matching_of (keyOf : D → RouteKey) (ds : List D) : Matching keyOf ds where
  made := by
    constructor
    · rintro ⟨a, ha⟩
      exact (ofList_eq_ok_iff.1 ha).1
    · exact fun h => ⟨_, ofList_eq_ok_iff.2 ⟨h, rfl⟩⟩
  refused f := ofList_eq_error_iff
  shared key h := by
    obtain ⟨key', hclash, heq⟩ := ofList_eq_error_iff.1 h
    cases heq
    exact hclash.two_le_count
  listed a ha := by
    obtain ⟨hkeys, rfl⟩ := ofList_eq_ok_iff.1 ha
    have hperm := keys_perm ⟨under keyOf ds⟩
    rw [under, List.map_map] at hperm
    refine ⟨by simp [size, under], hperm, ?_⟩
    have hnodup := hperm.nodup_iff.2 hkeys
    exact ((keys_sorted ⟨under keyOf ds⟩).and hnodup).imp fun hapart =>
      lt_of_le_of_ne hapart.1 (RouteKey.place_injective.ne hapart.2)
  found a ha operation shape brand answer := by
    obtain ⟨hkeys, rfl⟩ := ofList_eq_ok_iff.1 ha
    exact find?_eq_iff hkeys
  unordered a ha ds' h := by
    obtain ⟨hkeys, rfl⟩ := ofList_eq_ok_iff.1 ha
    have hkeys' : (ds'.map keyOf).Nodup := (h.map keyOf).nodup_iff.1 hkeys
    refine ⟨_, ofList_eq_ok_iff.2 ⟨hkeys', rfl⟩, keys_eq_of_perm ?_, fun key => ?_⟩
    · exact ((h.map fun d => (keyOf d, d)).map _).symm
    · exact (find?_eq_iff hkeys').2 ((serves_find? hkeys _ _ _).perm h)

/-- The delegate for every brand stands first, and yet the one for the brand is found. -/
example : (ofList id [⟨"OP", .address, .none⟩, ⟨"OP", .address, .besu⟩]).map
    (fun a => (a.find? ⟨"OP", .address, .besu⟩, a.find? ⟨"OP", .address, .fabric⟩)) =
    .ok (some ⟨"OP", .address, .besu⟩, some ⟨"OP", .address, .none⟩) := rfl

end Assignments

end LedgerGate
