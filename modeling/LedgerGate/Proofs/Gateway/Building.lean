/-
  Building: which configurations make a gateway, and of which parts.

  The ids of the ledgers are checked twice, once in the configuration and once for the table of
  ledgers, and the default ledger is worked out from the configuration but must be in the table.
  Both agree, for ledgers of any number, brands and flags.

  * `Usable`: ids that can be told apart; `Config.checkIds_eq_ok_iff` and
    `LedgerTable.checkEntries_eq_ok_iff`: both checks let through just these;
  * `Config.Sensible`: what a valid configuration is, `Config.validate_eq_ok_iff`;
  * `Config.ofList_eq_ok_iff`: the table of its ledgers, and when it is made;
  * `Fittings.Suits`: the fittings have all that the ledgers need; `Fittings.desks_eq_ok_iff`: the
    desks, and when they are made;
  * `Assignments.ofList_eq_ok_iff`: delegates are refused just if two share a key;
  * `Gateway.build_eq_ok_iff`: **what is built, and when**.
-/
import LedgerGate.Gateway.Build
import LedgerGate.Proofs.Entries.Keys
import Mathlib.Data.List.Nodup

namespace LedgerGate

/-! ## Ids -/

/-- Ids that ledgers can have beside those already `seen`. -/
structure Usable (seen ids : List String) : Prop where
  named : ∀ id ∈ ids, id ≠ ""
  unreserved : ∀ id ∈ ids, id ≠ internalLedger
  fresh : ∀ id ∈ ids, id ∉ seen
  distinct : ids.Nodup

theorem Usable.nil (seen : List String) : Usable seen [] := by
  constructor <;> simp

theorem usable_cons {seen ids : List String} {id : String} :
    Usable seen (id :: ids) ↔
      id ≠ "" ∧ id ≠ internalLedger ∧ id ∉ seen ∧ Usable (id :: seen) ids := by
  constructor
  · rintro ⟨hnamed, hunreserved, hfresh, hdistinct⟩
    obtain ⟨hid, hids⟩ := List.nodup_cons.1 hdistinct
    obtain ⟨hname, hnamed⟩ := List.forall_mem_cons.1 hnamed
    obtain ⟨hreserved, hunreserved⟩ := List.forall_mem_cons.1 hunreserved
    obtain ⟨hseen, hfresh⟩ := List.forall_mem_cons.1 hfresh
    refine ⟨hname, hreserved, hseen, hnamed, hunreserved, fun i hi hmem => ?_, hids⟩
    rcases List.mem_cons.1 hmem with rfl | hmem
    · exact hid hi
    · exact hfresh i hi hmem
  · rintro ⟨hname, hreserved, hseen, hnamed, hunreserved, hfresh, hdistinct⟩
    constructor
    · exact List.forall_mem_cons.2 ⟨hname, hnamed⟩
    · exact List.forall_mem_cons.2 ⟨hreserved, hunreserved⟩
    · exact List.forall_mem_cons.2
        ⟨hseen, fun i hi hmem => hfresh i hi (List.mem_cons_of_mem _ hmem)⟩
    · exact List.nodup_cons.2 ⟨fun hid => hfresh id hid List.mem_cons_self, hdistinct⟩

/-- The configuration lets usable ids through, -/
theorem Config.checkIds_eq_ok_iff {seen : List String} {ls : List LedgerSettings} :
    checkIds seen ls = .ok () ↔ Usable seen (ls.map (·.id)) := by
  induction ls generalizing seen with
  | nil => exact iff_of_true rfl (.nil seen)
  | cons l ls ih =>
    rw [List.map_cons, usable_cons, checkIds]
    split_ifs with hname hreserved hseen
    · exact iff_of_false nofun fun h => h.1 (String.isEmpty_iff.1 hname)
    · exact iff_of_false nofun fun h => h.2.1 hreserved
    · exact iff_of_false nofun fun h => h.2.2.1 (List.contains_iff_mem.1 hseen)
    · rw [ih]
      rw [String.isEmpty_iff] at hname
      rw [List.contains_iff_mem] at hseen
      exact ⟨fun h => ⟨hname, hreserved, hseen, h⟩, fun h => h.2.2.2⟩

/-- and so does the table of ledgers. -/
theorem LedgerTable.checkEntries_eq_ok_iff {seen : List String} {ls : List LedgerEntry} :
    checkEntries seen ls = .ok () ↔ Usable seen (ls.map (·.id)) := by
  induction ls generalizing seen with
  | nil => exact iff_of_true rfl (.nil seen)
  | cons l ls ih =>
    rw [List.map_cons, usable_cons, checkEntries]
    split_ifs with hbad hseen
    · exact iff_of_false nofun fun h =>
        hbad.elim (fun hname => h.1 (String.isEmpty_iff.1 hname)) h.2.1
    · exact iff_of_false nofun fun h => h.2.2.1 (List.contains_iff_mem.1 hseen)
    · rw [ih]
      rw [String.isEmpty_iff, not_or] at hbad
      rw [List.contains_iff_mem] at hseen
      exact ⟨fun h => ⟨hbad.1, hbad.2, hseen, h⟩, fun h => h.2.2.2⟩

/-! ## Configurations -/

namespace Config

/-- A configuration with ledgers that can be told apart, at most one of which claims to be the
    default one, and with limits that are not zero. -/
structure Sensible (c : Config) : Prop where
  named : ∀ l ∈ c.ledgers, l.id ≠ ""
  unreserved : ∀ l ∈ c.ledgers, l.id ≠ internalLedger
  distinct : (c.ledgers.map (·.id)).Nodup
  oneDefault : (c.ledgers.filter (·.isDefault)).length ≤ 1
  scans : c.scanInterval ≠ 0
  continues : c.maxDepth ≠ 0

/-- The ledgers as routing sees them. -/
def table (c : Config) : LedgerTable := ⟨c.ledgers.map LedgerSettings.entry, c.defaultLedgerId⟩

variable {c : Config}

theorem usable_ids_iff : Usable [] (c.ledgers.map (·.id)) ↔
    (∀ l ∈ c.ledgers, l.id ≠ "") ∧ (∀ l ∈ c.ledgers, l.id ≠ internalLedger) ∧
      (c.ledgers.map (·.id)).Nodup := by
  constructor
  · rintro ⟨hnamed, hunreserved, -, hdistinct⟩
    exact ⟨fun l hl => hnamed l.id (List.mem_map_of_mem hl),
      fun l hl => hunreserved l.id (List.mem_map_of_mem hl), hdistinct⟩
  · rintro ⟨hnamed, hunreserved, hdistinct⟩
    exact ⟨List.forall_mem_map.2 hnamed, List.forall_mem_map.2 hunreserved, nofun, hdistinct⟩

/-- **Valid configurations are the sensible ones.** -/
theorem validate_eq_ok_iff : c.validate = .ok () ↔ c.Sensible := by
  have hcheck : checkIds [] c.ledgers = .ok () ↔ (∀ l ∈ c.ledgers, l.id ≠ "") ∧
      (∀ l ∈ c.ledgers, l.id ≠ internalLedger) ∧ (c.ledgers.map (·.id)).Nodup :=
    checkIds_eq_ok_iff.trans usable_ids_iff
  have hflags : c.defaultIds.length = (c.ledgers.filter (·.isDefault)).length := List.length_map _
  unfold validate
  constructor
  · intro h
    rcases hids : checkIds [] c.ledgers with e | ⟨⟩ <;> rw [hids] at h
    · cases h
    · obtain ⟨hnamed, hunreserved, hdistinct⟩ := hcheck.1 hids
      dsimp only at h
      split_ifs at h with hflagged hscans hcontinues
      exact ⟨hnamed, hunreserved, hdistinct, by omega, hscans, hcontinues⟩
  · rintro ⟨hnamed, hunreserved, hdistinct, hflagged, hscans, hcontinues⟩
    rw [hcheck.2 ⟨hnamed, hunreserved, hdistinct⟩]
    dsimp only
    rw [if_neg (by omega), if_neg hscans, if_neg hcontinues]

/-- The table of a configuration is made just if its ids are usable; the default ledger is
    among its ledgers. -/
theorem ofList_eq_ok_iff {t : LedgerTable} :
    LedgerTable.ofList (c.ledgers.map LedgerSettings.entry) (some c.defaultLedgerId) = .ok t ↔
      Usable [] (c.ledgers.map (·.id)) ∧ t = c.table := by
  have hpick : LedgerTable.pickDefault (c.ledgers.map LedgerSettings.entry)
      (some c.defaultLedgerId) = .ok c.defaultLedgerId := by
    refine if_pos ?_
    unfold defaultLedgerId
    split
    · rename_i l hl
      refine Or.inr (List.any_eq_true.2 ⟨l.entry, List.mem_map_of_mem ?_, beq_self_eq_true _⟩)
      rcases Option.or_eq_some_iff.1 hl with hflagged | ⟨-, hfirst⟩
      · exact List.mem_of_find?_eq_some hflagged
      · exact List.mem_of_head? hfirst
    · exact Or.inl rfl
  have hids : (c.ledgers.map LedgerSettings.entry).map (·.id) = c.ledgers.map (·.id) :=
    List.map_map
  rw [← hids, ← LedgerTable.checkEntries_eq_ok_iff]
  unfold LedgerTable.ofList
  rw [hpick]
  rcases LedgerTable.checkEntries [] (c.ledgers.map LedgerSettings.entry) with e | ⟨⟩
  · exact iff_of_false nofun fun h => nomatch h.1
  · constructor
    · intro h
      cases h
      exact ⟨rfl, rfl⟩
    · rintro ⟨-, rfl⟩
      rfl

theorem Sensible.usable (h : c.Sensible) : Usable [] (c.ledgers.map (·.id)) :=
  usable_ids_iff.2 ⟨h.named, h.unreserved, h.distinct⟩

end Config

/-! ## Fittings -/

/-- The desk of a ledger at which nothing has happened yet. -/
def LedgerSettings.desk (l : LedgerSettings) (c : Config) : Desk :=
  .new l.id c.recentReceipts.toNat c.recentBlockLifetime.toNat
    (l.escrowFee.map fun fee => .new (.standard l.brand l.id fee.toNat))

namespace Fittings

/-- What a ledger needs is there: a factory for its brand that makes its client, and a store if
    it is to host an escrow. -/
structure Equips (f : Fittings) (l : LedgerSettings) : Prop where
  connects : ∃ create, f.factory l.brand = some create ∧ create l = .ok ()
  stores : l.escrowFee.isSome = true → f.hasStore = true

/-- What a configuration needs is there. -/
structure Suits (f : Fittings) (c : Config) : Prop where
  directories : f.hasDirectories = true
  equips : ∀ l ∈ c.ledgers, f.Equips l

variable {f : Fittings} {c : Config}

theorem connect_eq_ok_iff {l : LedgerSettings} :
    f.connect l = .ok () ↔ ∃ create, f.factory l.brand = some create ∧ create l = .ok () := by
  unfold connect
  rcases f.factory l.brand with _ | create <;> simp

theorem escrowOf_eq_ok_iff {l : LedgerSettings} {b : Option Escrow.Bootstrap} :
    f.escrowOf l = .ok b ↔ (l.escrowFee.isSome = true → f.hasStore = true) ∧
      b = l.escrowFee.map fun fee => .new (.standard l.brand l.id fee.toNat) := by
  unfold escrowOf
  rw [eq_comm (a := b)]
  rcases l.escrowFee with _ | fee
  · simp
  · rcases f.hasStore with _ | _ <;> simp

/-- The desk of a ledger is made just if it is equipped. -/
theorem desk_eq_ok_iff {l : LedgerSettings} {d : Desk} :
    f.desk c l = .ok d ↔ f.Equips l ∧ d = l.desk c := by
  have hequips : f.Equips l ↔ f.connect l = .ok () ∧
      (l.escrowFee.isSome = true → f.hasStore = true) := by
    rw [connect_eq_ok_iff]
    exact ⟨fun h => ⟨h.1, h.2⟩, fun h => ⟨h.1, h.2⟩⟩
  unfold desk
  rw [hequips]
  rcases f.connect l with e | ⟨⟩
  · exact iff_of_false nofun fun h => nomatch h.1.1
  · constructor
    · intro h
      rcases hescrow : f.escrowOf l with e | b <;> rw [hescrow] at h <;> cases h
      obtain ⟨hstore, rfl⟩ := escrowOf_eq_ok_iff.1 hescrow
      exact ⟨⟨rfl, hstore⟩, rfl⟩
    · rintro ⟨⟨-, hstore⟩, rfl⟩
      dsimp only
      rw [escrowOf_eq_ok_iff.2 ⟨hstore, rfl⟩]
      rfl

/-- The desks of ledgers are made just if all of these are equipped. -/
theorem desks_eq_ok_iff {ls : List LedgerSettings} {ds : List Desk} :
    f.desks c ls = .ok ds ↔ (∀ l ∈ ls, f.Equips l) ∧ ds = ls.map (·.desk c) := by
  induction ls generalizing ds with
  | nil =>
    constructor
    · intro h
      cases h
      exact ⟨nofun, rfl⟩
    · rintro ⟨-, rfl⟩
      rfl
  | cons l ls ih =>
    unfold desks
    rw [List.forall_mem_cons, List.map_cons]
    constructor
    · intro h
      rcases hdesk : f.desk c l with e | d <;> rw [hdesk] at h
      · cases h
      · rcases hdesks : f.desks c ls with e | rest <;> rw [hdesks] at h <;> cases h
        obtain ⟨hl, rfl⟩ := desk_eq_ok_iff.1 hdesk
        obtain ⟨hls, rfl⟩ := ih.1 hdesks
        exact ⟨⟨hl, hls⟩, rfl⟩
    · rintro ⟨⟨hl, hls⟩, rfl⟩
      rw [desk_eq_ok_iff.2 ⟨hl, rfl⟩, ih.2 ⟨hls, rfl⟩]
      rfl

end Fittings

/-! ## Delegates -/

namespace Assignments

variable {D : Type} {keyOf : D → RouteKey}

/-- Delegates under their keys. -/
def under (keyOf : D → RouteKey) (ds : List D) : List (RouteKey × D) :=
  ds.map fun d => (keyOf d, d)

theorem isSome_get? {a : Assignments D} {key : RouteKey} :
    (a.get? key).isSome = true ↔ key ∈ a.entries.map (·.1) := by
  rw [get?, Option.isSome_map, List.find?_isSome]
  simp

/-- Delegates are registered just if no two share a key. -/
theorem register_eq_ok_iff {a a' : Assignments D} {ds : List D}
    (h : (a.entries.map (·.1)).Nodup) : register keyOf a ds = .ok a' ↔
      (a.entries.map (·.1) ++ ds.map keyOf).Nodup ∧ a' = ⟨a.entries ++ under keyOf ds⟩ := by
  induction ds generalizing a with
  | nil => simp [register, under, h, eq_comm]
  | cons d ds ih =>
    unfold register
    split
    · rename_i htaken
      refine iff_of_false nofun fun hnodup => ?_
      exact (List.nodup_append.1 hnodup.1).2.2 _ (isSome_get?.1 htaken) _ List.mem_cons_self rfl
    · rename_i hfree
      rw [isSome_get?] at hfree
      have hnext : ((a.entries ++ [(keyOf d, d)]).map (·.1)).Nodup := by
        rw [List.map_append]
        refine List.nodup_append.2 ⟨h, List.nodup_singleton _, fun k hk k' hk' hsame => hfree ?_⟩
        have hnew : k' = keyOf d := List.mem_singleton.1 hk'
        rwa [← hnew, ← hsame]
      rw [ih hnext]
      simp [under]

theorem ofList_eq_ok_iff {ds : List D} {a : Assignments D} :
    ofList keyOf ds = .ok a ↔ (ds.map keyOf).Nodup ∧ a = ⟨under keyOf ds⟩ :=
  register_eq_ok_iff List.nodup_nil

/-- Among delegates with distinct keys a key finds its own. -/
theorem get?_under_eq_some_iff {ds : List D} (h : (ds.map keyOf).Nodup) {key : RouteKey} {d : D} :
    get? ⟨under keyOf ds⟩ key = some d ↔ d ∈ ds ∧ keyOf d = key := by
  have hkeys : ((under keyOf ds).map (·.1)).Nodup := by
    rw [under, List.map_map]
    exact h
  simp only [get?, Option.map_eq_some_iff, Entries.find?_key_eq_some_iff hkeys]
  constructor
  · rintro ⟨⟨k, e⟩, ⟨hmem, rfl⟩, rfl⟩
    obtain ⟨d, hd, heq⟩ := List.mem_map.1 hmem
    cases heq
    exact ⟨hd, rfl⟩
  · rintro ⟨hd, rfl⟩
    exact ⟨_, ⟨List.mem_map_of_mem hd, rfl⟩, rfl⟩

end Assignments

/-! ## Gateways -/

/-- The delegates of a gateway: the standard ones for the brands of its ledgers, and those of the
    embedder. -/
def Config.delegates (c : Config) (f : Fittings) : List Delegate :=
  standardDelegates c.table.brands ++ f.delegates

namespace Gateway

variable {W : Type} {c : Config} {f : Fittings} {w : W} {g : Gateway W}

/-- The gateway of a configuration, before its start. -/
def ofConfig (c : Config) (f : Fittings) (w : W) : Gateway W :=
  .ofParts c c.table ⟨Assignments.under Delegate.key (c.delegates f)⟩ (c.ledgers.map (·.desk c)) w

/-- Steps that can fail succeed one after the other. -/
theorem bind_eq_ok_iff {α β : Type} {x : Except Fault α} {next : α → Except Fault β} {b : β} :
    x >>= next = .ok b ↔ ∃ a, x = .ok a ∧ next a = .ok b := by
  cases x with
  | error e => exact iff_of_false nofun fun ⟨a, h, _⟩ => nomatch h
  | ok a =>
    constructor
    · exact fun h => ⟨a, rfl, h⟩
    · rintro ⟨_, ⟨⟩, h⟩
      exact h

/-- **What is built, and when.** -/
theorem build_eq_ok_iff : build c f w = .ok g ↔
    c.Sensible ∧ f.Suits c ∧ ((c.delegates f).map Delegate.key).Nodup ∧ g = ofConfig c f w := by
  rcases hdirectories : f.hasDirectories with _ | _
  · refine iff_of_false (fun h => ?_) fun h => ?_
    · obtain ⟨_, -, h⟩ := bind_eq_ok_iff.1 h
      rw [hdirectories] at h
      cases h
    · rw [h.2.1.directories] at hdirectories
      cases hdirectories
  · simp only [build, hdirectories, bind_eq_ok_iff, Bool.not_true, Bool.false_eq_true, if_false]
    constructor
    · rintro ⟨⟨⟩, hvalid, desks, hdesks, ledgers, hledgers, delegates, hassigned, ⟨⟩⟩
      obtain ⟨hequips, rfl⟩ := Fittings.desks_eq_ok_iff.1 hdesks
      obtain ⟨-, rfl⟩ := Config.ofList_eq_ok_iff.1 hledgers
      obtain ⟨hkeys, rfl⟩ := Assignments.ofList_eq_ok_iff.1 hassigned
      exact ⟨Config.validate_eq_ok_iff.1 hvalid, ⟨hdirectories, hequips⟩, hkeys, rfl⟩
    · rintro ⟨hsensible, ⟨-, hequips⟩, hkeys, rfl⟩
      exact ⟨(), Config.validate_eq_ok_iff.2 hsensible,
        _, Fittings.desks_eq_ok_iff.2 ⟨hequips, rfl⟩,
        _, Config.ofList_eq_ok_iff.2 ⟨hsensible.usable, rfl⟩,
        _, Assignments.ofList_eq_ok_iff.2 ⟨hkeys, rfl⟩, rfl⟩

end Gateway

end LedgerGate
