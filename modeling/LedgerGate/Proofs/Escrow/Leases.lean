/-
  Leases exclude each other, whatever is forgotten in between.

  A party fetches the lease of its key and locks it later, and a cleanup may come between the
  two.  It forgets only the leases that nobody has fetched, so whoever has one has the same as
  all others who are there for that key.

  * `Move`, `of`: everything that can happen to leases, in any order; `present`: who is there;
  * `Orderly`: how claims fit each other and the table; what each change of the claims keeps;
  * `Sound`, `sound_of`: the table and the claims after every history;
  * `references`: how often a lease is referred to;
  * `Exclusive`, `exclusive_of`: **one holder a key, one lease for all who are there for it,
    and nothing left when they are gone.**
-/
import LedgerGate.Escrow.Lease
import LedgerGate.Proofs.Entries.Keys
import Mathlib.Data.List.Count
import Mathlib.Data.List.Induction
import Mathlib.Data.List.Nodup
import Mathlib.Data.List.Perm.Basic

namespace LedgerGate.Escrow

variable {N : Type}

/-- The first item that passes a test is the one that is erased. -/
theorem perm_cons_eraseP {α : Type} {p : α → Bool} {l : List α} {a : α}
    (h : l.find? p = some a) : p a = true ∧ l.Perm (a :: l.eraseP p) := by
  obtain ⟨ha, before, after, rfl, hbefore⟩ := List.find?_eq_some_iff_append.1 h
  refine ⟨ha, ?_⟩
  rw [List.eraseP_append_right _ fun b hb => by simpa using hbefore b hb,
    List.eraseP_cons_of_pos ha]
  exact List.perm_middle

/-! ## Claims -/

/-- Whether a claim holds a lease. -/
def Claim.holds (lease : Nat) (c : Claim N) : Bool := c.lease == lease && c.stage == .holding

theorem Claim.holds_iff {lease : Nat} {c : Claim N} :
    c.holds lease = true ↔ c.lease = lease ∧ c.stage = .holding := by
  simp [holds]

namespace Leases

/-- A lease is handed to one of the claims that wait for it, if there are any. -/
theorem promote_cases (lease : Nat) (cs : List (Claim N)) :
    (∀ c ∈ cs, c.lease = lease → c.stage ≠ .waiting) ∧ promote lease cs = cs ∨
      ∃ c others, c.lease = lease ∧ c.stage = .waiting ∧ cs.Perm (c :: others) ∧
        (promote lease cs).Perm ({ c with stage := .holding } :: others) := by
  induction cs with
  | nil => exact .inl ⟨nofun, rfl⟩
  | cons c cs ih =>
    unfold promote
    split
    · rename_i hwaits
      exact .inr ⟨c, cs, hwaits.1, hwaits.2, .refl _, .refl _⟩
    · rename_i hnot
      rcases ih with ⟨hnone, hsame⟩ | ⟨w, others, hlease, hstage, hperm, hpromoted⟩
      · refine .inl ⟨fun d hd => ?_, by rw [hsame]⟩
        rcases List.mem_cons.1 hd with rfl | hd
        · exact fun hlease hstage => hnot ⟨hlease, hstage⟩
        · exact hnone d hd
      · exact .inr ⟨w, c :: others, hlease, hstage, (hperm.cons c).trans (.swap _ _ _),
          (hpromoted.cons c).trans (.swap _ _ _)⟩

theorem perm_names_promote (lease : Nat) (cs : List (Claim N)) :
    ((promote lease cs).map (·.name)).Perm (cs.map (·.name)) := by
  rcases promote_cases lease cs with ⟨-, hsame⟩ | ⟨w, rest, -, -, hperm, hpromoted⟩
  · rw [hsame]
  · exact (hpromoted.map (·.name)).trans (hperm.map (·.name)).symm

/-- The claims fit the table and each other: everybody has the lease of its key, a lease has
    at most one holder, and nobody waits for a lease that is free. -/
structure Orderly (keyOf : N → String) (table : List (String × Nat)) (cs : List (Claim N)) :
    Prop where
  known : ∀ c ∈ cs, (keyOf c.name, c.lease) ∈ table
  single : ∀ lease, cs.countP (Claim.holds lease) ≤ 1
  awaited : ∀ c ∈ cs, c.stage = .waiting → ∃ d ∈ cs, d.holds c.lease = true

namespace Orderly

variable {keyOf : N → String} {table : List (String × Nat)} {cs ds others : List (Claim N)}
  {c : Claim N}

theorem perm (h : Orderly keyOf table cs) (hperm : cs.Perm ds) : Orderly keyOf table ds where
  known d hd := h.known d (hperm.mem_iff.2 hd)
  single lease := hperm.countP_eq (Claim.holds lease) ▸ h.single lease
  awaited d hd hwaits := by
    obtain ⟨e, he, hholds⟩ := h.awaited d (hperm.mem_iff.2 hd) hwaits
    exact ⟨e, hperm.mem_iff.1 he, hholds⟩

/-- Somebody fetches the lease of its key. -/
theorem fetch (h : Orderly keyOf table cs) (hc : (keyOf c.name, c.lease) ∈ table)
    (hstage : c.stage = .fetched) : Orderly keyOf table (c :: cs) where
  known := List.forall_mem_cons.2 ⟨hc, h.known⟩
  single lease := by
    have hnot : ¬c.holds lease = true := by simp [Claim.holds_iff, hstage]
    rw [List.countP_cons_of_neg hnot]
    exact h.single lease
  awaited := by
    refine List.forall_mem_cons.2 ⟨fun hwaits => ?_, fun d hd hwaits => ?_⟩
    · rw [hstage] at hwaits
      cases hwaits
    · obtain ⟨e, he, hholds⟩ := h.awaited d hd hwaits
      exact ⟨e, List.mem_cons_of_mem c he, hholds⟩

/-- Whoever holds a lease stays there when somebody goes who does not. -/
theorem awaited_tail (h : Orderly keyOf table (c :: others)) (hstage : c.stage ≠ .holding)
    {d : Claim N} (hd : d ∈ others) (hwaits : d.stage = .waiting) :
    ∃ e ∈ others, e.holds d.lease = true := by
  obtain ⟨e, he, hholds⟩ := h.awaited d (List.mem_cons_of_mem c hd) hwaits
  rcases List.mem_cons.1 he with rfl | he
  · exact absurd (Claim.holds_iff.1 hholds).2 hstage
  · exact ⟨e, he, hholds⟩

theorem single_tail (h : Orderly keyOf table (c :: others)) (lease : Nat) :
    others.countP (Claim.holds lease) ≤ 1 := by
  have hsingle := h.single lease
  rw [List.countP_cons] at hsingle
  omega

/-- Somebody locks the lease, or waits if it is held. -/
theorem lock (h : Orderly keyOf table (c :: others)) (hstage : c.stage = .fetched) :
    Orderly keyOf table ({ c with
      stage := if others.any (Claim.holds c.lease) then .waiting else .holding } :: others) := by
  have hnot : c.stage ≠ .holding := by simp [hstage]
  constructor
  · exact List.forall_mem_cons.2 (List.forall_mem_cons.1 h.known)
  · intro lease
    by_cases hholds : ({ c with
        stage := if others.any (Claim.holds c.lease) then .waiting else .holding } : Claim N).holds
          lease = true
    · obtain ⟨rfl, hfree⟩ := Claim.holds_iff.1 hholds
      have hnone : others.countP (Claim.holds c.lease) = 0 := by
        refine List.countP_eq_zero.2 fun d hd hdholds => ?_
        dsimp only at hfree
        rw [if_pos (List.any_eq_true.2 ⟨d, hd, hdholds⟩)] at hfree
        cases hfree
      refine Nat.le_of_eq ?_
      rw [List.countP_cons_of_pos hholds, hnone]
    · rw [List.countP_cons_of_neg hholds]
      exact h.single_tail lease
  · refine List.forall_mem_cons.2 ⟨fun hwaits => ?_, fun d hd hwaits => ?_⟩
    · dsimp only at hwaits ⊢
      split at hwaits
      · rename_i hheld
        obtain ⟨d, hd, hholds⟩ := List.any_eq_true.1 hheld
        exact ⟨d, List.mem_cons_of_mem _ hd, hholds⟩
      · cases hwaits
    · obtain ⟨e, he, hholds⟩ := h.awaited_tail hnot hd hwaits
      exact ⟨e, List.mem_cons_of_mem _ he, hholds⟩

/-- Somebody goes who does not hold its lease. -/
theorem leave (h : Orderly keyOf table (c :: others)) (hstage : c.stage ≠ .holding) :
    Orderly keyOf table others where
  known := (List.forall_mem_cons.1 h.known).2
  single := h.single_tail
  awaited _ hd hwaits := h.awaited_tail hstage hd hwaits

/-- Nobody else holds the lease of a claim that does. -/
theorem alone (h : Orderly keyOf table (c :: others)) (hstage : c.stage = .holding) :
    others.countP (Claim.holds c.lease) = 0 := by
  have hsingle := h.single c.lease
  rw [List.countP_cons_of_pos (Claim.holds_iff.2 ⟨rfl, hstage⟩)] at hsingle
  omega

/-- Somebody gives up the lease that it holds, and the next one gets it. -/
theorem hand (h : Orderly keyOf table (c :: others)) (hstage : c.stage = .holding) :
    Orderly keyOf table (promote c.lease others) := by
  have hknown := (List.forall_mem_cons.1 h.known).2
  have halone := h.alone hstage
  rcases promote_cases c.lease others with
    ⟨hnone, hsame⟩ | ⟨w, rest, hlease, hwaiting, hperm, hpromoted⟩
  · rw [hsame]
    refine ⟨hknown, h.single_tail, fun d hd hwaits => ?_⟩
    obtain ⟨e, he, hholds⟩ := h.awaited d (List.mem_cons_of_mem c hd) hwaits
    rcases List.mem_cons.1 he with rfl | he
    · exact absurd hwaits (hnone d hd (Claim.holds_iff.1 hholds).1.symm)
    · exact ⟨e, he, hholds⟩
  · refine perm ?_ hpromoted.symm
    have hnot : ∀ lease, ¬w.holds lease = true := by simp [Claim.holds_iff, hwaiting]
    have hcount : ∀ lease, others.countP (Claim.holds lease) = rest.countP (Claim.holds lease) := by
      intro lease
      rw [hperm.countP_eq, List.countP_cons_of_neg (hnot lease)]
    have hown : ({ w with stage := .holding } : Claim N).holds c.lease = true :=
      Claim.holds_iff.2 ⟨hlease, rfl⟩
    constructor
    · exact List.forall_mem_cons.2 ⟨hknown w (hperm.mem_iff.2 List.mem_cons_self),
        fun d hd => hknown d (hperm.mem_iff.2 (List.mem_cons_of_mem w hd))⟩
    · intro lease
      by_cases hsame : lease = c.lease
      · refine Nat.le_of_eq ?_
        rw [hsame, List.countP_cons_of_pos hown, ← hcount, halone]
      · have hother : ¬({ w with stage := .holding } : Claim N).holds lease = true :=
          fun hholds => hsame ((Claim.holds_iff.1 hholds).1.symm.trans hlease)
        rw [List.countP_cons_of_neg hother, ← hcount]
        exact h.single_tail lease
    · refine List.forall_mem_cons.2 ⟨nofun, fun d hd hwaits => ?_⟩
      by_cases hsame : d.lease = c.lease
      · exact ⟨_, List.mem_cons_self, hsame ▸ hown⟩
      · have hd' : d ∈ c :: others :=
          List.mem_cons_of_mem c (hperm.mem_iff.2 (List.mem_cons_of_mem w hd))
        obtain ⟨e, he, hholds⟩ := h.awaited d hd' hwaits
        rcases List.mem_cons.1 he with rfl | he
        · exact absurd (Claim.holds_iff.1 hholds).1.symm hsame
        · rcases List.mem_cons.1 (hperm.mem_iff.1 he) with rfl | he
          · exact absurd hholds (hnot d.lease)
          · exact ⟨e, List.mem_cons_of_mem _ he, hholds⟩

end Orderly

/-! ## Tables -/

variable {keyOf : N → String} {l : Leases N}

/-- How often a lease is referred to: by the table, and by everybody who has fetched it. -/
def references (l : Leases N) (lease : Nat) : Nat :=
  l.table.countP (·.2 = lease) + l.claims.countP (·.lease = lease)

/-- The table has one lease for a key and one key for a lease, and knows of no lease that is
    not made yet; the claims are orderly. -/
structure Sound (keyOf : N → String) (l : Leases N) : Prop where
  keys : (l.table.map (·.1)).Nodup
  leases : (l.table.map (·.2)).Nodup
  made : ∀ e ∈ l.table, e.2 < l.made
  claims : Orderly keyOf l.table l.claims

/-- The lease of a key is the one that stands beside it. -/
theorem leaseOf?_eq_some_iff (hkeys : (l.table.map (·.1)).Nodup) {key : String} {lease : Nat} :
    l.leaseOf? key = some lease ↔ (key, lease) ∈ l.table := by
  simp only [leaseOf?, Option.map_eq_some_iff, Entries.find?_key_eq_some_iff hkeys]
  constructor
  · rintro ⟨⟨k, n⟩, ⟨hmem, rfl⟩, rfl⟩
    exact hmem
  · exact fun hmem => ⟨_, ⟨hmem, rfl⟩, rfl⟩

theorem leaseOf?_eq_none_iff {key : String} :
    l.leaseOf? key = none ↔ key ∉ l.table.map (·.1) := by
  rw [leaseOf?, Option.map_eq_none_iff, List.find?_eq_none]
  simp only [List.mem_map, not_exists, not_and, beq_iff_eq]

namespace Sound

theorem fetch (h : Sound keyOf l) (name : N) : Sound keyOf (l.fetch (keyOf name) name) := by
  have hback : ∀ {c : Claim N}, (c :: l.claims).Perm (l.claims ++ [c]) :=
    (List.perm_append_singleton _ _).symm
  unfold Leases.fetch
  split
  · rename_i lease hlease
    have hmem := (leaseOf?_eq_some_iff h.keys).1 hlease
    exact ⟨h.keys, h.leases, h.made, (h.claims.fetch (c := ⟨name, lease, .fetched⟩) hmem rfl).perm
      hback⟩
  · rename_i hnone
    have hfresh : l.made ∉ l.table.map (·.2) := by
      intro hmem
      obtain ⟨e, he, hsame⟩ := List.mem_map.1 hmem
      have hlt := h.made e he
      omega
    have hclaims : Orderly keyOf (l.table ++ [(keyOf name, l.made)]) l.claims :=
      ⟨fun c hc => List.mem_append_left _ (h.claims.known c hc), h.claims.single,
        h.claims.awaited⟩
    refine ⟨?_, ?_, ?_, (hclaims.fetch (c := ⟨name, l.made, .fetched⟩) (by simp) rfl).perm hback⟩
    · rw [List.map_append, List.map_singleton, ← List.concat_eq_append]
      exact h.keys.concat (leaseOf?_eq_none_iff.1 hnone)
    · rw [List.map_append, List.map_singleton, ← List.concat_eq_append]
      exact h.leases.concat hfresh
    · intro e he
      rcases List.mem_append.1 he with he | he
      · exact Nat.lt_succ_of_lt (h.made e he)
      · rw [List.mem_singleton.1 he]
        exact Nat.lt_succ_self _

/-- What a claim refers to stays. -/
theorem mem_cleanup (h : Sound keyOf l) {c : Claim N} (hc : c ∈ l.claims) :
    (keyOf c.name, c.lease) ∈ l.cleanup.table := by
  refine List.mem_filter.2 ⟨h.claims.known c hc, ?_⟩
  exact List.any_eq_true.2 ⟨c, hc, beq_self_eq_true c.lease⟩

theorem cleanup (h : Sound keyOf l) : Sound keyOf l.cleanup where
  keys := h.keys.sublist (List.filter_sublist.map _)
  leases := h.leases.sublist (List.filter_sublist.map _)
  made e he := h.made e (List.mem_filter.1 he).1
  claims := ⟨fun _ hc => h.mem_cleanup hc, h.claims.single, h.claims.awaited⟩

/-- A lease in the table has been fetched if it is referred to from elsewhere too. -/
theorem isFetched_iff (h : Sound keyOf l) {e : String × Nat} (he : e ∈ l.table) :
    l.isFetched e.2 = true ↔ 1 < l.references e.2 := by
  have hone : l.table.countP (·.2 = e.2) = 1 := by
    have hcount := List.count_eq_one_of_mem h.leases (List.mem_map_of_mem he)
    rw [List.count, List.countP_map] at hcount
    rw [← hcount]
    exact List.countP_congr fun x _ => by simp
  have hclaims : l.isFetched e.2 = true ↔ 0 < l.claims.countP (·.lease = e.2) := by
    rw [List.countP_pos_iff]
    simp [isFetched]
  rw [hclaims, references, hone]
  omega

/-- Everybody has the lease of its key, -/
theorem leaseOf? (h : Sound keyOf l) {c : Claim N} (hc : c ∈ l.claims) :
    l.leaseOf? (keyOf c.name) = some c.lease :=
  (leaseOf?_eq_some_iff h.keys).2 (h.claims.known c hc)

/-- so two have the same one exactly if they are there for the same key. -/
theorem lease_eq_iff (h : Sound keyOf l) {c d : Claim N} (hc : c ∈ l.claims) (hd : d ∈ l.claims) :
    c.lease = d.lease ↔ keyOf c.name = keyOf d.name := by
  constructor
  · intro hlease
    exact congrArg Prod.fst
      (List.inj_on_of_nodup_map h.leases (h.claims.known c hc) (h.claims.known d hd) hlease)
  · intro hkey
    have hfound := h.leaseOf? hd
    rw [← hkey, h.leaseOf? hc] at hfound
    exact Option.some.inj hfound

/-- The lease of a key has one holder at most. -/
theorem countP_holders (h : Sound keyOf l) (key : String) :
    l.holders.countP (keyOf · = key) ≤ 1 := by
  rw [holders, List.countP_map, List.countP_filter]
  by_cases hthere : ∃ c ∈ l.claims, keyOf c.name = key
  · obtain ⟨c, hc, rfl⟩ := hthere
    refine Nat.le_trans (List.countP_mono_left fun d hd hholds => ?_) (h.claims.single c.lease)
    obtain ⟨hkey, hstage⟩ : keyOf d.name = keyOf c.name ∧ d.stage = .holding := by
      simpa using hholds
    exact Claim.holds_iff.2 ⟨(h.lease_eq_iff hd hc).2 hkey, hstage⟩
  · have hnone : ∀ c ∈ l.claims, keyOf c.name ≠ key := fun c hc hkey => hthere ⟨c, hc, hkey⟩
    rw [List.countP_eq_zero.2 fun c hc => by simp [hnone c hc]]
    exact Nat.zero_le 1

/-- A cleanup leaves nothing exactly if there are no claims. -/
theorem size_cleanup_eq_zero_iff (h : Sound keyOf l) : l.cleanup.size = 0 ↔ l.claims = [] := by
  rw [size, List.length_eq_zero_iff]
  constructor
  · intro hnil
    by_contra hsome
    obtain ⟨c, cs, hclaims⟩ := List.exists_cons_of_ne_nil hsome
    have hmem := h.mem_cleanup (c := c) (by simp [hclaims])
    rw [hnil] at hmem
    cases hmem
  · intro hnil
    simp [Leases.cleanup, isFetched, hnil]

section
variable [DecidableEq N]

theorem lock (h : Sound keyOf l) (name : N) : Sound keyOf (l.lock name) := by
  unfold Leases.lock
  split
  · exact h
  · rename_i c hfind
    obtain ⟨hc, hperm⟩ := perm_cons_eraseP hfind
    have hstage : c.stage = .fetched := by simpa using (Bool.and_eq_true_iff.1 hc).2
    have hnot : c.holds c.lease = false := by simp [Claim.holds, hstage]
    -- the claim itself does not hold the lease, so the others decide
    have hheld : l.isHeld c.lease =
        (l.claims.eraseP fun c => c.name == name && c.stage == .fetched).any
          (Claim.holds c.lease) := by
      rw [show l.isHeld c.lease = l.claims.any (Claim.holds c.lease) from rfl, hperm.any_eq,
        List.any_cons, hnot, Bool.false_or]
    refine ⟨h.keys, h.leases, h.made, ?_⟩
    have hlocked := ((h.claims.perm hperm).lock hstage).perm (List.perm_append_singleton _ _).symm
    rw [← hheld] at hlocked
    exact hlocked

theorem drop (h : Sound keyOf l) (name : N) : Sound keyOf (l.drop name) := by
  unfold Leases.drop
  split
  · exact h
  · rename_i c hfind
    have hclaims := h.claims.perm (perm_cons_eraseP hfind).2
    refine ⟨h.keys, h.leases, h.made, ?_⟩
    dsimp only
    split
    · rename_i hstage
      exact hclaims.hand hstage
    · rename_i hstage
      exact hclaims.leave hstage

end

end Sound

/-! ## Histories -/

section
variable [DecidableEq N]

/-- What can happen: a party fetches the lease of its key, locks what it has fetched (the two
    together are `acquire`), or gives up, be it that it holds the lease (`release`) or that it
    still waits for it; and the table is cleaned up. -/
inductive Move (N : Type) where
  | fetch (name : N)
  | lock (name : N)
  | drop (name : N)
  | cleanup

/-- The leases after a move, when everybody asks for the key of its own. -/
def after (keyOf : N → String) (l : Leases N) : Move N → Leases N
  | .fetch name => l.fetch (keyOf name) name
  | .lock name => l.lock name
  | .drop name => l.drop name
  | .cleanup => l.cleanup

/-- The leases after a history. -/
def of (keyOf : N → String) (moves : List (Move N)) : Leases N :=
  moves.foldl (after keyOf) empty

/-- Who has come and has not gone. -/
def present (moves : List (Move N)) : List N :=
  moves.foldl (fun names m =>
    match m with
    | .fetch name => names ++ [name]
    | .drop name => names.erase name
    | _ => names) []

theorem of_concat (keyOf : N → String) (moves : List (Move N)) (m : Move N) :
    of keyOf (moves ++ [m]) = (of keyOf moves).after keyOf m := by
  simp [of, List.foldl_append]

/-- **Leases are sound after every history.** -/
theorem sound_of (keyOf : N → String) (moves : List (Move N)) : Sound keyOf (of keyOf moves) := by
  induction moves using List.reverseRecOn with
  | nil => exact ⟨List.nodup_nil, List.nodup_nil, nofun, nofun, fun _ => Nat.zero_le 1, nofun⟩
  | append_singleton moves m ih =>
    rw [of_concat]
    cases m with
    | fetch name => exact ih.fetch name
    | lock name => exact ih.lock name
    | drop name => exact ih.drop name
    | cleanup => exact ih.cleanup

/-! ## Parties -/

/-- **The claims are those of the parties that have come and have not gone.** -/
theorem perm_present (keyOf : N → String) (moves : List (Move N)) :
    ((of keyOf moves).claims.map (·.name)).Perm (present moves) := by
  induction moves using List.reverseRecOn with
  | nil => exact .refl _
  | append_singleton moves m ih =>
    have hpresent : present (moves ++ [m]) = match m with
        | .fetch name => present moves ++ [name]
        | .drop name => (present moves).erase name
        | _ => present moves := by
      simp [present, List.foldl_append]
    rw [of_concat, hpresent]
    generalize of keyOf moves = l at ih ⊢
    cases m with
    | fetch name =>
      have hnames : (l.fetch (keyOf name) name).claims.map (·.name) =
          l.claims.map (·.name) ++ [name] := by
        unfold Leases.fetch
        split <;> simp
      dsimp only [after]
      rw [hnames]
      exact ih.append_right _
    | lock name =>
      dsimp only [after]
      unfold Leases.lock
      split
      · exact ih
      · rename_i c hfind
        refine List.Perm.trans ?_ (((perm_cons_eraseP hfind).2.map _).symm.trans ih)
        rw [List.map_append, List.map_cons]
        exact List.perm_append_singleton _ _
    | drop name =>
      dsimp only [after]
      unfold Leases.drop
      split
      · rename_i hnone
        have hgone : name ∉ present moves := by
          rw [← ih.mem_iff]
          simpa using hnone
        rwa [List.erase_of_not_mem hgone]
      · rename_i c hfind
        obtain ⟨hname, hperm⟩ := perm_cons_eraseP hfind
        have herased := ((hperm.map (·.name)).symm.trans ih).erase name
        rw [List.map_cons, beq_iff_eq.1 hname, List.erase_cons_head] at herased
        refine List.Perm.trans ?_ herased
        dsimp only
        split
        · exact perm_names_promote _ _
        · exact .refl _
    | cleanup => exact ih

/-! ## Exclusion -/

/-- What holds of the leases after a history. -/
structure Exclusive (keyOf : N → String) (moves : List (Move N)) (l : Leases N) : Prop where
  /-- At most one party holds the lease of a key. -/
  alone : ∀ key, l.holders.countP (keyOf · = key) ≤ 1
  /-- Who holds a lease, waits for one or has only fetched it, has the one in the table, -/
  shared : ∀ c ∈ l.claims, l.leaseOf? (keyOf c.name) = some c.lease
  /-- so two have the same exactly if they are there for the same key. -/
  same : ∀ c ∈ l.claims, ∀ d ∈ l.claims, c.lease = d.lease ↔ keyOf c.name = keyOf d.name
  /-- Nobody waits for a lease that nobody holds. -/
  awaited : ∀ c ∈ l.claims, c.stage = .waiting →
    ∃ d ∈ l.claims, d.stage = .holding ∧ d.lease = c.lease
  /-- A cleanup keeps the leases that are referred to from elsewhere than the table: -/
  counted : l.cleanup.table = l.table.filter fun e => 1 < l.references e.2
  /-- everybody still has the lease that is in the table for its key, -/
  kept : ∀ c ∈ l.claims, l.cleanup.leaseOf? (keyOf c.name) = some c.lease
  /-- and no lease is left exactly if all parties are gone. -/
  emptied : l.cleanup.size = 0 ↔ present moves = []

/-- **Leases exclude each other after every history**, whatever was cleaned up in between. -/
theorem exclusive_of (keyOf : N → String) (moves : List (Move N)) :
    Exclusive keyOf moves (of keyOf moves) := by
  have h := sound_of keyOf moves
  have hpresent := perm_present keyOf moves
  generalize of keyOf moves = l at h hpresent ⊢
  constructor
  · exact h.countP_holders
  · exact fun c hc => h.leaseOf? hc
  · exact fun c hc d hd => h.lease_eq_iff hc hd
  · intro c hc hwaits
    obtain ⟨d, hd, hholds⟩ := h.claims.awaited c hc hwaits
    obtain ⟨hlease, hstage⟩ := Claim.holds_iff.1 hholds
    exact ⟨d, hd, hstage, hlease⟩
  · refine List.filter_congr fun e he => ?_
    rw [Bool.eq_iff_iff, h.isFetched_iff he, decide_eq_true_iff]
  · exact fun c hc => h.cleanup.leaseOf? hc
  · rw [h.size_cleanup_eq_zero_iff, ← List.map_eq_nil_iff (f := Claim.name)]
    exact ⟨fun hnil => (hnil ▸ hpresent.symm).eq_nil, fun hnil => (hnil ▸ hpresent).eq_nil⟩

/-- A cleanup between the two steps of one party, and another party for the same key. -/
example : ((of (fun _ => "k") [.fetch 1, .cleanup, .fetch 2, .lock 2, .lock 1, .cleanup]).claims.map
    fun c => (c.name, c.lease, c.stage)) = [(2, 0, .holding), (1, 0, .waiting)] := by
  decide

end

end Leases

end LedgerGate.Escrow
