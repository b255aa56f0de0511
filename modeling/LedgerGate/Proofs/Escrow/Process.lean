/-
  Processes in a contest: the bootstraps of gateways and fleets act as those of a contest
  do.

  The world outside has a store that serves requests one at a time.  What a gateway does
  with the bootstrap on one of its desks is then some acts of that bootstrap in a contest
  over the values of this store, whoever else takes part.

  * `KeepsStore`: a world with such a store; `World.keepsStore`: the daemon's is one;
  * `Gateway.onStore`, `Fleet.onStore`: the surroundings of a bootstrap in such a world;
  * `Gateway.runEscrow_run`: **a gateway's bootstrap takes part in the contest.**
-/
import LedgerGate.Daemon.World
import LedgerGate.Escrow.Fleet
import LedgerGate.Gateway.Escrows
import LedgerGate.Proofs.Escrow.Contest

namespace LedgerGate

open Escrow

/-! ## Worlds with a store -/

/-- A world whose store has `view` under its keys: it serves requests, and nothing else
    that is asked of the world changes it. -/
structure KeepsStore {W : Type} [Outside W] (view : W → String → Option String) : Prop where
  store : ∀ q w, Act.Changes (view w) (view (Outside.store q w).2) (.store q (Outside.store q w).1)
  ledger : ∀ ledgerId q w, view (Outside.ledger ledgerId q w).2 = view w
  draw : ∀ w, view (Outside.draw w).2 = view w

/-- The values in the store of the daemon's world. -/
def World.stored (w : World) : String → Option String := Entries.find? w.store.values

theorem World.keepsStore : KeepsStore World.stored where
  store q w := w.store.serves q
  ledger ledgerId q w := by
    unfold Outside.ledger
    dsimp only [instOutside]
    split <;> rfl
  draw _ := rfl

section
variable {W : Type} [Outside W] {view : W → String → Option String}

/-! ## Fleets -/

namespace Escrow.Fleet

omit [Outside W] in
@[simp]
theorem outside_grant (f : Fleet W) (name : String) : (f.grant name).outside = f.outside := by
  unfold grant
  split
  · split <;> rfl
  · rfl

omit [Outside W] in
@[simp]
theorem outside_giveUpLease (f : Fleet W) (m : Member) :
    (f.giveUpLease m).outside = f.outside := by
  have hgrants : ∀ (names : List String) (f : Fleet W),
      (names.foldl grant f).outside = f.outside := by
    intro names
    induction names with
    | nil => exact fun f => rfl
    | cons name names ih => exact fun f => (ih _).trans (outside_grant f name)
  exact hgrants _ _

/-- A member of a fleet in a world with a store has its surroundings on this store. -/
theorem onStore (hW : KeepsStore view) (m : Member) :
    (surroundings m).OnStore fun f : Fleet W => view f.outside where
  store q f := hW.store q f.outside
  lease _ := rfl
  unlease f := congrArg view (f.outside_giveUpLease m)
  ledger q f := hW.ledger _ q f.outside
  draw f := hW.draw f.outside
  sleep _ _ := rfl
  track workId f := by
    dsimp only [surroundings]
    split <;> rfl
  alarm _ _ := rfl

end Escrow.Fleet

/-! ## Gateways -/

namespace Gateway

omit [Outside W] in
@[simp]
theorem outside_grantLeases (g : Gateway W) : g.grantLeases.outside = g.outside := by
  unfold grantLeases
  induction g.leases.holders generalizing g with
  | nil => rfl
  | cons ledgerId rest ih =>
    rw [List.foldl_cons, ih]
    split
    · split <;> rfl
    · rfl

/-- A bootstrap of a gateway in a world with a store has its surroundings on this store. -/
theorem onStore (hW : KeepsStore view) (s : Settings) :
    (surroundings s).OnStore fun g : Gateway W => view g.outside where
  store q g := hW.store q g.outside
  lease _ := rfl
  unlease g := congrArg view (outside_grantLeases _)
  ledger q g := by
    obtain ⟨_, h | ⟨_, h⟩⟩ := g.askLedger_cases s.ledgerId q <;> simp only [surroundings, h]
    exact hW.ledger _ q g.outside
  draw g := hW.draw g.outside
  sleep _ _ := rfl
  track workId g := by
    dsimp only [surroundings, withDesk]
    split <;> rfl
  alarm _ _ := rfl

/-! ## The bootstrap on a desk -/

/-- Whether the desk of a ledger has a bootstrap with some settings that was not stopped. -/
def Hosts (g : Gateway W) (ledgerId : String) (s : Settings) : Prop :=
  ∃ d b, g.desk? ledgerId = some d ∧ d.escrow = some b ∧ b.settings = s ∧ b.halted = false

section
omit [Outside W]
variable {g : Gateway W} {ledgerId k : String} {s : Settings}

theorem desk?_updateDesk {f : Desk → Desk} (hf : ∀ d, d.ledgerId = k → (f d).ledgerId = k) :
    (g.updateDesk k f).desk? ledgerId =
      (g.desk? ledgerId).map fun d => if d.ledgerId = k then f d else d := by
  have hsame : (fun d : Desk => d.ledgerId == ledgerId) ∘
      (fun d => if d.ledgerId = k then f d else d) = fun d => d.ledgerId == ledgerId := by
    funext d
    by_cases hd : d.ledgerId = k
    · simp only [Function.comp, hd, if_true, hf d hd]
    · simp only [Function.comp, hd, if_false]
  rw [desk?, updateDesk, List.find?_map, hsame, desk?]

theorem ledgerId_of_desk? {d : Desk} (h : g.desk? ledgerId = some d) : d.ledgerId = ledgerId := by
  simpa using List.find?_some h

theorem Hosts.updateDesk {f : Desk → Desk} (h : Hosts g ledgerId s)
    (hid : ∀ d, d.ledgerId = k → (f d).ledgerId = k)
    (hescrow : ∀ d b, g.desk? k = some d → d.escrow = some b →
      ∃ b', (f d).escrow = some b' ∧ b'.settings = b.settings ∧ b'.halted = b.halted) :
    Hosts (g.updateDesk k f) ledgerId s := by
  obtain ⟨d, b, hd, hb, hs, hlive⟩ := h
  by_cases hk : d.ledgerId = k
  · obtain rfl : ledgerId = k := (ledgerId_of_desk? hd).symm.trans hk
    obtain ⟨b', hb', hs', hlive'⟩ := hescrow d b hd hb
    refine ⟨f d, b', ?_, hb', hs'.trans hs, hlive'.trans hlive⟩
    rw [desk?_updateDesk hid, hd, Option.map_some, if_pos hk]
  · refine ⟨d, b, ?_, hb, hs, hlive⟩
    rw [desk?_updateDesk hid, hd, Option.map_some, if_neg hk]

/-- News to an escrow change its phase and nothing else. -/
theorem Hosts.tellEscrow (h : Hosts g ledgerId s) (k : String) (news : Phase → Phase) :
    Hosts (g.updateDesk k (·.tellEscrow news)) ledgerId s := by
  refine h.updateDesk (fun d hd => hd) fun d b _ hb => ⟨b.hear news, ?_, ?_, ?_⟩
  · rw [Desk.tellEscrow, hb]; rfl
  · unfold Bootstrap.hear; split <;> rfl
  · unfold Bootstrap.hear; split <;> rfl

theorem Hosts.grantLeases (h : Hosts g ledgerId s) : Hosts g.grantLeases ledgerId s := by
  unfold Gateway.grantLeases
  induction g.leases.holders generalizing g with
  | nil => exact h
  | cons holder rest ih =>
    refine ih ?_
    dsimp only
    split
    · split
      · exact h.tellEscrow holder _
      · exact h
    · exact h

/-- Work that is tracked changes the tracker of a desk and nothing else. -/
theorem Hosts.track (h : Hosts g ledgerId s) (k : String) (workId : WorkId) (w : Waiter) :
    Hosts (g.withDesk k ([], .awaited) fun d =>
      (((d.prepare workId w).2.1, (d.prepare workId w).2.2), (d.prepare workId w).1)).2
      ledgerId s := by
  unfold withDesk
  split
  · rename_i d hd
    have hk : d.ledgerId = k := ledgerId_of_desk? hd
    refine h.updateDesk (fun _ _ => hk) fun d' b hd' hb => ?_
    obtain rfl : d = d' := Option.some.inj (hd.symm.trans hd')
    exact ⟨b, hb, rfl, rfl⟩
  · exact h

end

/-- The work of a bootstrap leaves every bootstrap on its desk. -/
theorem keeps_hosts (s' : Settings) (ledgerId : String) (s : Settings) :
    (surroundings s').Keeps fun g : Gateway W => Hosts g ledgerId s where
  lease h := h
  unlease {g} h :=
    Hosts.grantLeases (g := { g with leases := (g.leases.drop s'.ledgerId).cleanup }) h
  store _ _ h := h
  ledger _ {g} h := by
    rename_i q
    obtain ⟨_, hg | ⟨_, hg⟩⟩ := g.askLedger_cases s'.ledgerId q <;>
      simp only [surroundings, hg] <;> exact h
  draw h := h
  sleep _ _ h := h
  track workId _ h := h.track _ workId _
  alarm _ _ h := h

variable {I : Type} [DecidableEq I] {settings : I → Settings}

/-- **A gateway's bootstrap takes part in the contest**: what a gateway does with the
    bootstrap on a desk is some acts of it over the store of the world outside, and its
    phase is then on the desk. -/
theorem runEscrow_run (hW : KeepsStore view) {g : Gateway W} {d : Desk} {b : Bootstrap}
    {ledgerId : String} (hd : g.desk? ledgerId = some d) (hb : d.escrow = some b)
    (hlive : b.halted = false) {c : Contest I} {i : I} (hs : settings i = b.settings)
    (hp : c.phase i = b.phase) (hv : c.values = view g.outside) (hc : c.crashed i = false) :
    ∃ (acts : List Act) (d' : Desk) (b' : Bootstrap),
      Contest.Run settings c (acts.map (i, ·))
        (c.goesTo i (view (g.runEscrow ledgerId).outside) b'.phase) ∧
      (g.runEscrow ledgerId).desk? ledgerId = some d' ∧ d'.escrow = some b' ∧
      b'.settings = b.settings ∧ b'.halted = false := by
  have hhosts : Hosts g ledgerId b.settings := ⟨d, b, hd, hb, rfl, hlive⟩
  have hkept := drive_keeps (keeps_hosts b.settings ledgerId b.settings) b.settings stretch
    b.phase hhosts
  have henv := onStore hW (settings i)
  have hdrives : Contest.Drives settings (fun g : Gateway W => view g.outside) c i _ :=
    Contest.drive_run henv stretch b.phase hc hp hv
  rw [hs] at hdrives
  obtain ⟨acts, hrun⟩ := hdrives
  rw [runEscrow, hd, Option.bind_some, hb]
  dsimp only
  rw [if_neg (by simp [hlive])]
  rcases hdrive : drive (surroundings b.settings) b.settings stretch b.phase g with ⟨p, g'⟩
  rw [hdrive] at hkept hrun
  obtain ⟨d', b', hd', hb', hs', hlive'⟩ := hkept
  have hid : d'.ledgerId = ledgerId := ledgerId_of_desk? hd'
  refine ⟨acts, d'.tellEscrow fun _ => p, { b' with phase := p }, hrun, ?_, ?_, hs', hlive'⟩
  · have hsame (d : Desk) (hd : d.ledgerId = ledgerId) :
        (d.tellEscrow fun _ => p).ledgerId = ledgerId := hd
    dsimp only at hd' ⊢
    rw [desk?_updateDesk hsame, hd', Option.map_some, if_pos hid]
  · simp [Desk.tellEscrow, hb', Bootstrap.hear, hlive']

end Gateway

end

end LedgerGate
