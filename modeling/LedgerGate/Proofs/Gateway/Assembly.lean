/-
  Assembly: every valid configuration makes a gateway, and what this resolves.

  What the configuration lets through is not refused afterwards, neither by the table of ledgers
  nor by that of delegates: each brand has its delegates once, so no key is registered twice.

  * `Config.Default`: the ledger of requests that name none, and `Sensible.get?_default`: it is
    the one under the default id;
  * `nodup_standardKeys`: no two standard delegates share a key; `Config.Employs`: which there are;
  * `Gateway.Resolves`: what the ids of ledgers and the keys of delegates stand for;
  * `Gateway.Assembly`, `Gateway.assembly_of`: **every valid configuration assembles, and resolves
    its ledgers**.
-/
import LedgerGate.Proofs.Gateway.Building
import LedgerGate.Proofs.Gateway.Trackers
import Mathlib.Data.List.Nodup

namespace LedgerGate

/-! ## The default ledger -/

namespace Config

/-- The ledger of requests that name none: the one that claims it, else the first, else the
    internal one. -/
inductive Default (c : Config) : LedgerEntry → Prop
  | flagged {l : LedgerSettings} : l ∈ c.ledgers → l.isDefault = true → Default c l.entry
  | first {l : LedgerSettings} {ls : List LedgerSettings} : c.ledgers = l :: ls →
      (∀ l' ∈ c.ledgers, l'.isDefault = false) → Default c l.entry
  | internal : c.ledgers = [] → Default c .internal

variable {c : Config}

theorem exists_default (c : Config) : ∃ e, c.Default e := by
  by_cases hflagged : ∃ l ∈ c.ledgers, l.isDefault = true
  · obtain ⟨l, hl, hdefault⟩ := hflagged
    exact ⟨_, .flagged hl hdefault⟩
  · rcases hledgers : c.ledgers with _ | ⟨l, ls⟩
    · exact ⟨_, .internal hledgers⟩
    · exact ⟨_, .first hledgers (by simpa using hflagged)⟩

section
variable (h : c.Sensible)
include h

/-- A ledger that claims to be the default one is found as such. -/
theorem Sensible.find?_isDefault_eq_some_iff {l : LedgerSettings} :
    c.ledgers.find? (·.isDefault) = some l ↔ l ∈ c.ledgers ∧ l.isDefault = true := by
  have hone := h.oneDefault
  have hmem : l ∈ c.ledgers.filter (·.isDefault) ↔ l ∈ c.ledgers ∧ l.isDefault = true :=
    List.mem_filter
  rw [← List.head?_filter, ← hmem]
  rcases hflagged : c.ledgers.filter (·.isDefault) with _ | ⟨first, _ | ⟨second, rest⟩⟩ <;>
    rw [hflagged] at hone ⊢
  · exact iff_of_false nofun List.not_mem_nil
  · rw [List.head?_cons, List.mem_singleton, Option.some_inj, eq_comm]
  · exact absurd hone (by simp)

/-- A configured id gives its ledger. -/
theorem Sensible.get?_entry {l : LedgerSettings} (hl : l ∈ c.ledgers) :
    c.table.get? l.id = some l.entry := by
  have hkeys : (c.table.configured.map (·.id)).Nodup := by
    rw [table, List.map_map]
    exact h.distinct
  rw [LedgerTable.get?, if_neg (h.unreserved l hl)]
  exact (Entries.find?_key_eq_some_iff hkeys).2 ⟨List.mem_map_of_mem hl, rfl⟩

/-- The default id gives the default ledger, -/
theorem Sensible.get?_default {e : LedgerEntry} (he : c.Default e) :
    c.table.get? c.defaultLedgerId = some e := by
  cases he with
  | @flagged l hl hflagged =>
    have hid : c.defaultLedgerId = l.id := by
      rw [defaultLedgerId, h.find?_isDefault_eq_some_iff.2 ⟨hl, hflagged⟩]
      rfl
    rw [hid]
    exact h.get?_entry hl
  | @first l ls hledgers hnone =>
    have hfind : c.ledgers.find? (·.isDefault) = none :=
      List.find?_eq_none.2 fun l' hl' => by simp [hnone l' hl']
    have hid : c.defaultLedgerId = l.id := by
      rw [defaultLedgerId, hfind, hledgers]
      rfl
    rw [hid]
    exact h.get?_entry (hledgers ▸ List.mem_cons_self)
  | internal hledgers =>
    have hid : c.defaultLedgerId = internalLedger := by rw [defaultLedgerId, hledgers]; rfl
    rw [hid]
    exact if_pos rfl

/-- and no other one is the default. -/
theorem Sensible.default_iff {e e' : LedgerEntry} (he : c.Default e) :
    c.Default e' ↔ e' = e := by
  constructor
  · intro he'
    have hfound := h.get?_default he'
    rw [h.get?_default he] at hfound
    exact (Option.some.inj hfound).symm
  · rintro rfl
    exact he

end

end Config

/-! ## Delegates -/

theorem nodup_eraseDups {α : Type} [BEq α] [LawfulBEq α] (xs : List α) : xs.eraseDups.Nodup := by
  match xs with
  | [] => exact List.nodup_nil
  | x :: xs =>
    rw [List.eraseDups_cons]
    refine List.nodup_cons.2 ⟨fun hx => ?_, nodup_eraseDups (xs.filter fun y => !y == x)⟩
    simpa using (List.mem_filter.1 (List.mem_eraseDups.1 hx)).2
termination_by xs.length
decreasing_by
  exact Nat.lt_succ_of_le (List.length_filter_le _ _)

namespace Delegate

theorem brand_of_mem_forBrand {brand : Brand} {d : Delegate} (h : d ∈ forBrand brand) :
    d.key.brand = brand := by
  simp only [forBrand, List.mem_cons, List.not_mem_nil, or_false] at h
  rcases h with rfl | rfl | rfl | rfl | rfl <;> rfl

theorem nodup_forBrandKeys (brand : Brand) : ((forBrand brand).map key).Nodup := by
  simp [forBrand, key]

end Delegate

/-- No two standard delegates share a key, whatever the brands. -/
theorem nodup_standardKeys {brands : List Brand} (h : brands.Nodup) :
    ((standardDelegates brands).map Delegate.key).Nodup := by
  rw [standardDelegates, List.map_cons, List.map_flatMap, List.nodup_cons]
  constructor
  · intro hping
    obtain ⟨brand, hbrand, hkey⟩ := List.mem_flatMap.1 hping
    obtain ⟨d, hd, heq⟩ := List.mem_map.1 hkey
    have hnone : brand = .none := by
      rw [← Delegate.brand_of_mem_forBrand hd, heq]
      rfl
    simp [hnone] at hbrand
  · refine List.nodup_flatMap.2 ⟨fun brand _ => Delegate.nodup_forBrandKeys brand, ?_⟩
    refine (h.filter _).imp fun {brand brand'} hne key hkey hkey' => hne ?_
    obtain ⟨d, hd, rfl⟩ := List.mem_map.1 hkey
    obtain ⟨d', hd', heq⟩ := List.mem_map.1 hkey'
    rw [← Delegate.brand_of_mem_forBrand hd, ← heq, Delegate.brand_of_mem_forBrand hd']

/-- A delegate is there for every gateway, or for one with ledgers of its brand. -/
def Config.Employs (c : Config) (d : Delegate) : Prop :=
  d = .ping ∨ ∃ l ∈ c.ledgers, l.brand ≠ .none ∧ d ∈ Delegate.forBrand l.brand

theorem Config.mem_delegates_iff {c : Config} {f : Fittings} {d : Delegate} :
    d ∈ c.delegates f ↔ c.Employs d ∨ d ∈ f.delegates := by
  have hbrand : ∀ brand, brand ∈ c.table.brands ↔ ∃ l ∈ c.ledgers, l.brand = brand := by
    intro brand
    rw [LedgerTable.brands, List.mem_eraseDups]
    simp [Config.table, LedgerSettings.entry]
  simp only [Config.delegates, standardDelegates, List.mem_append, List.mem_cons,
    List.mem_flatMap, List.mem_filter, bne_iff_ne, hbrand]
  refine or_congr_left (or_congr_right ⟨?_, ?_⟩)
  · rintro ⟨_, ⟨⟨l, hl, rfl⟩, hne⟩, hd⟩
    exact ⟨l, hl, hne, hd⟩
  · rintro ⟨l, hl, hne, hd⟩
    exact ⟨l.brand, ⟨⟨l, hl, rfl⟩, hne⟩, hd⟩

/-! ## Assembly -/

/-- A name that is not empty is an id. -/
theorem LedgerTable.find?_id {t : LedgerTable} {id : String} (h : id ≠ "") :
    t.find? (some id) = t.get? id := by
  rw [find?, if_neg (mt String.isEmpty_iff.1 h)]

namespace Gateway

variable {W : Type} {c : Config} {f : Fittings} {g : Gateway W}

/-- What a gateway that was built of a configuration resolves. -/
structure Resolves (c : Config) (f : Fittings) (g : Gateway W) : Prop where
  /-- no id and the empty one give the one default ledger -/
  unnamed : ∃ e, g.ledgers.find? none = some e ∧ g.ledgers.find? (some "") = some e ∧
    ∀ e', c.Default e' ↔ e' = e
  /-- a configured id gives that ledger, and the desk on which nothing has happened yet -/
  configured : ∀ l ∈ c.ledgers, g.ledgers.find? (some l.id) = some l.entry ∧
    g.desk? l.id = some (l.desk c)
  /-- the reserved id gives the internal ledger -/
  internal : g.ledgers.find? (some internalLedger) = some .internal
  /-- every other id gives nothing -/
  unknown : ∀ id, id ≠ "" → id ≠ internalLedger → (∀ l ∈ c.ledgers, l.id ≠ id) →
    g.ledgers.find? (some id) = none ∧ g.desk? id = none
  /-- a key gives the delegate of every gateway, of a brand or of the embedder that has it -/
  assigned : ∀ key d, g.delegates.get? key = some d ↔
    d.key = key ∧ (c.Employs d ∨ d ∈ f.delegates)

theorem resolves_ofConfig (hsensible : c.Sensible)
    (hkeys : ((c.delegates f).map Delegate.key).Nodup) (w : W) :
    Resolves c f (ofConfig c f w) where
  unnamed := by
    obtain ⟨e, he⟩ := c.exists_default
    have hfound : c.table.get? c.defaultLedgerId = some e := hsensible.get?_default he
    exact ⟨e, hfound, hfound, fun _ => hsensible.default_iff he⟩
  configured l hl := by
    have hids : (ofConfig c f w).ledgerIds.Nodup := by
      have hsame : (ofConfig c f w).ledgerIds = c.ledgers.map (·.id) := List.map_map
      rw [hsame]
      exact hsensible.distinct
    refine ⟨(LedgerTable.find?_id (hsensible.named l hl)).trans (hsensible.get?_entry hl), ?_⟩
    exact desk?_of_mem (d := l.desk c) hids (List.mem_map_of_mem hl)
  internal := (LedgerTable.find?_id (by decide)).trans (if_pos rfl)
  unknown id hnamed hexternal hother := by
    have hnone : c.table.get? id = none := by
      rw [LedgerTable.get?, if_neg hexternal, List.find?_eq_none]
      intro e he
      obtain ⟨l, hl, rfl⟩ := List.mem_map.1 he
      simpa [LedgerSettings.entry] using hother l hl
    refine ⟨(LedgerTable.find?_id hnamed).trans hnone, List.find?_eq_none.2 fun d hd => ?_⟩
    obtain ⟨l, hl, rfl⟩ := List.mem_map.1 hd
    simpa [LedgerSettings.desk, Desk.new] using hother l hl
  assigned key d := by
    rw [← Config.mem_delegates_iff, and_comm]
    exact Assignments.get?_under_eq_some_iff hkeys

/-- What becomes of a configuration with some fittings. -/
structure Assembly (c : Config) (f : Fittings) : Prop where
  /-- the configurations that are valid -/
  valid : c.validate = .ok () ↔ c.Sensible
  /-- without delegates of the embedder, nothing that is valid is refused afterwards -/
  builds : f.delegates = [] → ∀ (W : Type) (w : W),
    (∃ g, build c f w = .ok g) ↔ c.validate = .ok () ∧ f.Suits c
  /-- what is built resolves -/
  resolves : ∀ (W : Type) (w : W) (g : Gateway W), build c f w = .ok g → g.Resolves c f
  /-- what is not valid is never built, whatever the fittings -/
  never : ¬c.Sensible → ∃ e, c.validate = .error e ∧
    ∀ (W : Type) (w : W), build c f w = .error e

/-- **Every valid configuration assembles, and resolves its ledgers.** -/
theorem assembly_of (c : Config) (f : Fittings) : Assembly c f where
  valid := Config.validate_eq_ok_iff
  builds hstandard W w := by
    have hkeys : ((c.delegates f).map Delegate.key).Nodup := by
      rw [Config.delegates, hstandard, List.append_nil]
      exact nodup_standardKeys (nodup_eraseDups _)
    rw [Config.validate_eq_ok_iff]
    constructor
    · rintro ⟨g, h⟩
      obtain ⟨hsensible, hsuits, -⟩ := build_eq_ok_iff.1 h
      exact ⟨hsensible, hsuits⟩
    · rintro ⟨hsensible, hsuits⟩
      exact ⟨_, build_eq_ok_iff.2 ⟨hsensible, hsuits, hkeys, rfl⟩⟩
  resolves W w g h := by
    obtain ⟨hsensible, -, hkeys, rfl⟩ := build_eq_ok_iff.1 h
    exact resolves_ofConfig hsensible hkeys w
  never hnot := by
    rcases hvalid : c.validate with e | ⟨⟩
    · refine ⟨e, rfl, fun W w => ?_⟩
      rw [build, hvalid]
      rfl
    · exact absurd (Config.validate_eq_ok_iff.1 hvalid) hnot

/-- The ledger that claims it is the default one, though it stands second and has no
    technology. -/
example : ∃ g, build
    { ledgers := [{ id := "a", brand := .besu, escrowFee := some 5 },
      { id := "b", brand := .none, isDefault := true }] } plainFittings () = .ok g ∧
    g.ledgers.find? none = some ⟨"b", .none, false⟩ := ⟨_, rfl, rfl⟩

end Gateway

end LedgerGate
