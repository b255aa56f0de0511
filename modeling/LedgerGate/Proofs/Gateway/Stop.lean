/-
  What a stop leaves in the store.

  A stop waits a while for the bootstraps that are under way and then halts them where they
  stand: before an answer of their ledger, before the receipt, or in a nap.  One that is halted
  does nothing more, so if it holds its claim then, nobody takes its marker away.

  * `Contest.texts_of_run`: what can be under a key at all;
  * `Gateway.Leaves`: what a stop leaves under the key of an escrow;
  * `Gateway.stop_leaves`: **the marker of a bootstrap is left exactly if it was halted while
    it held the claim**, and then no gateway of later gets its escrow ready.
-/
import LedgerGate.Proofs.Escrow.Rollback
import LedgerGate.Proofs.Gateway.Company
import LedgerGate.Stage

namespace LedgerGate

open Escrow

/-! ## What can be under a key -/

namespace Escrow

/-- A text that was there at the beginning, or that bootstraps put there, or none. -/
def Textual (initial text : Option String) : Prop :=
  text = initial ∨ text = none ∨ text = some claimMarker ∨ ∃ r : Record, text = some r.format

theorem Advance.textual {s : Settings} {x y : Standing} {a : Act} (h : Advance s x a y)
    {before after : String → Option String} (hch : a.Changes before after) {initial : Option String}
    (hb : Textual initial (before s.key)) : Textual initial (after s.key) := by
  have hsame : after s.key = before s.key → Textual initial (after s.key) := fun h => h ▸ hb
  have hquiet : a.Quiet s → Textual initial (after s.key) := by
    intro ha
    rcases (ha.changes hch).2 with h | ⟨-, h⟩
    · exact hsame h
    · exact Or.inr (Or.inr (Or.inl h))
  cases h with
  | quiet ha => exact hquiet ha
  | leaves ha => exact hquiet ha
  | wins => exact Or.inr (Or.inr (Or.inl hch.1.2))
  | fails ha => exact hquiet ha
  | deploys answer => exact hsame (congrFun hch s.key)
  | @saves record answer =>
    rcases answer with e | _
    · rcases hch.1 with h | h
      · exact hsame h
      · exact Or.inr (Or.inr (Or.inr ⟨record, h⟩))
    · exact Or.inr (Or.inr (Or.inr ⟨record, hch.1⟩))
  | frees answer =>
    rcases answer with e | _
    · rcases hch.1 with h | h
      · exact hsame h
      · exact Or.inr (Or.inl h)
    · exact Or.inr (Or.inl hch.1)

/-- **Under every key** is at all times what was there at the beginning, nothing, a marker or
    a record. -/
theorem Contest.texts_of_run {I : Type} [DecidableEq I] {settings : I → Settings}
    {values : String → Option String} {trace : List (I × Act)} {c : Contest I}
    (h : Run settings (start values) trace c) (key : String) :
    Textual (values key) (c.values key) := by
  induction h with
  | refl => exact Or.inl rfl
  | @snoc before c₁ i a c₂ _ hstep ih =>
    cases hstep with
    | crash hc => exact ih
    | act hc hgo hch =>
      by_cases hi : key = (settings i).key
      · subst hi
        exact hgo.advance.textual hch ih
      · rwa [show (c₁.goesTo i _ _).values key = c₁.values key from
          hgo.advance.changes_ne hch key hi]

end Escrow

/-! ## What a stop leaves -/

namespace Gateway

section
variable {I W : Type} [DecidableEq I] [Outside W] {view : W → String → Option String}
  {config : Config} {settings : I → Settings} {seat : String → I}
  {values : String → Option String} {trace : List (I × Act)} {c : Contest I} {g : Gateway W}

/-- What is left of the escrow of a ledger, with bootstrap `b`, when a gateway that was built
    on a store with `values` has come to `g` in a contest that has come to `c`. -/
structure Leaves (settings : I → Settings) (seat : String → I)
    (view : W → String → Option String) (values : String → Option String)
    (trace : List (I × Act)) (c : Contest I) (g : Gateway W) (ledgerId : String)
    (b : Bootstrap) : Prop where
  /-- The bootstrap is not under way. -/
  ended : b.isRunning = false
  /-- Under its key is what was there before the gateway, nothing, a marker or a record. -/
  text : Textual (values b.settings.key) (view g.outside b.settings.key)
  /-- If it was halted while it held the claim, its marker is there. -/
  marked : b.halted → b.phase.standing.owns →
    Contest.Remains settings values (seat ledgerId) trace c
  /-- Its marker is there only then, or if the store refused its record or the deletion. -/
  cause : Contest.Remains settings values (seat ledgerId) trace c →
    (b.halted ∧ b.phase.standing.owns) ∨
      (∃ e, .store (.delete b.settings.key) (.error e) ∈
        Contest.actsOf (seat ledgerId) trace) ∨
      ∃ (r : Record) (e : Store.Error), .store (.put b.settings.key r.format) (.error e) ∈
        Contest.actsOf (seat ledgerId) trace
  /-- If its marker is there, it is there for good, whatever others do; and no gateway that
      is built on the store later, whatever happens to it, gets the escrow under this key
      ready: in the end its bootstrap failed because it waited in vain. -/
  forever : Contest.Remains settings values (seat ledgerId) trace c →
    ∀ more c', Contest.Run settings c more c' →
      c'.values b.settings.key = some claimMarker ∧
      ∀ later settings' seat' trace' c'' (g' : Gateway W) k' b', Seating later settings' seat' →
        InCompany (I := I) later settings' seat' view c'.values trace' c'' g' →
        g'.escrowAt k' = some b' → b'.settings.key = b.settings.key →
        b'.phase.Waits (b'.settings.Hopeless (Contest.actsOf (seat' k') trace'))

/-- No gateway that is built on a store with a marker gets the escrow ready whose key it is
    under; in the end its bootstrap failed because it waited in vain. -/
theorem InCompany.waits (hs : Seating config settings seat)
    (h : InCompany config settings seat view values trace c g) {k : String} {b : Bootstrap}
    (hb : g.escrowAt k = some b) (hmark : values b.settings.key = some claimMarker) :
    b.phase.Waits (b.settings.Hopeless (Contest.actsOf (seat k) trace)) := by
  obtain ⟨hrun, hseated⟩ := h.run hs
  rw [← hseated.told hb] at hmark ⊢
  have hphase : c.phase (seat k) = b.phase := hseated.phase hb
  rw [← hphase]
  exact (Contest.stranded_start hmark).late rfl hrun

/-- Whoever holds its claim and is not under way was halted. -/
theorem halted_of_owns {b : Bootstrap} (hown : b.phase.standing.owns)
    (hended : b.isRunning = false) : b.halted := by
  cases hp : b.phase with
  | drawing | submitting | tracking | awaiting | recording | releasing =>
    simpa [Bootstrap.isRunning, hp] using hended
  | _ => rw [hp] at hown; cases hown

/-- **What a stop leaves**, whenever it comes and whatever others did on the store. -/
theorem stop_leaves (hW : KeepsStore view) (hs : Seating config settings seat)
    (h : InCompany config settings seat view values trace c g) :
    ∃ acts c', InCompany config settings seat view values (trace ++ acts) c' g.stop ∧
      ∀ k b, g.stop.escrowAt k = some b →
        Leaves settings seat view values (trace ++ acts) c' g.stop k b := by
  obtain ⟨acts, c', -, hstopped⟩ := h.moves hW hs g.stop_moves
  obtain ⟨hrun, hseated⟩ := hstopped.run hs
  refine ⟨acts, c', hstopped, fun k b hb => ?_⟩
  have hended := not_isRunning_stop hb
  have hphase : c'.phase (seat k) = b.phase := hseated.phase hb
  have htold := hseated.told hb
  refine ⟨hended, ?_, fun _ hown => ?_, fun hremains => ?_, fun hremains more c'' hmore => ?_⟩
  · rw [← hseated.stored]
    exact Contest.texts_of_run hrun _
  · exact Contest.remains_of_owns hrun (by rw [hphase]; exact hown)
  · by_cases hown : b.phase.standing.owns
    · exact Or.inl ⟨halted_of_owns hown hended, hown⟩
    · rw [← hphase, Bool.not_eq_true] at hown
      rw [← htold]
      exact Or.inr (hremains.refused hown)
  · have hstranded := hremains.stranded fun hlive => by
      by_contra hnot
      rw [hphase, Bool.not_eq_false] at hnot
      rw [hseated.halted hb, halted_of_owns hnot hended] at hlive
      cases hlive
    rw [htold] at hstranded
    have hmark := (hstranded.run hmore).1.marked
    refine ⟨hmark, fun later settings' seat' trace' c₃ g' k' b' hs' hlater hb' hkey => ?_⟩
    exact hlater.waits hs' hb' (by rw [hkey]; exact hmark)

end

/-! ## A stop in the middle of a deployment -/

/-- A stage on whose store no rival comes first. -/
structure Calm where
  stage : LedgerGate.Stage
  calm : stage.store.rival = none

theorem rival_answer {m : Store.Memory} (hm : m.rival = none) (q : Store.Query) :
    (m.answer q).2.rival = none := by
  cases q with
  | get key =>
    simp only [Store.Memory.answer]
    split <;> exact hm
  | put key value =>
    simp only [Store.Memory.answer]
    split <;> exact hm
  | putIfAbsent key value =>
    simp only [Store.Memory.answer, Store.Memory.overtaken, hm, Store.Memory.writeIfAbsent]
    split
    · exact hm
    · dsimp only
      split <;> exact hm
  | delete key =>
    simp only [Store.Memory.answer]
    split <;> exact hm

instance : Outside Calm where
  ledger ledgerId q w :=
    let answer := Outside.ledger ledgerId q w.stage
    (answer.1, ⟨answer.2, w.calm⟩)
  store q w :=
    let answer := Outside.store q w.stage
    (answer.1, ⟨answer.2, rival_answer w.calm q⟩)
  lookup l w := Outside.lookup l w.stage
  draw w :=
    let drawn := Outside.draw w.stage
    (drawn.1, ⟨drawn.2, w.calm⟩)
  clock w := Outside.clock w.stage

/-- The values in the store of a calm stage. -/
def Calm.stored (w : Calm) : String → Option String := Entries.find? w.stage.store.values

theorem Calm.keepsStore : KeepsStore Calm.stored where
  store q w := Store.Memory.serves w.calm q
  ledger _ _ _ := rfl
  draw _ := rfl

/-- A gateway for one ledger, with an escrow. -/
def lone : Config := { ledgers := [{ id := "main", brand := .besu, escrowFee := some 0 }] }

def fittings : Fittings := ⟨true, true, fun _ => some fun _ => .ok (), []⟩

def calm : Calm := ⟨.empty, rfl⟩

/-- The escrows of ledgers of one brand that charge nothing. -/
def gratis (ledgerId : String) : Settings := .standard .besu ledgerId 0

theorem seating_lone : Seating lone gratis id where
  apart := Function.injective_id
  told l hl fee hfee := by
    obtain rfl := List.mem_singleton.1 hl
    cases hfee
    rfl

/-- A gateway is started and stopped at once.  Its bootstrap has deployed and waits for the
    receipt when it is halted, and its marker is left; the next gateway waits for ten minutes
    and fails.  If the ledger takes ten seconds to answer the submission, the bootstrap is
    halted before it has the answer, and its marker is left too. -/
theorem stop_leaves_lone : ∃ g : Gateway Calm, build lone fittings calm = .ok g ∧
    (∃ trace c, InCompany lone gratis id Calm.stored (fun _ => none) trace c g.start.stop ∧
      Contest.Remains gratis (fun _ => none) "main" trace c ∧
      ∃ g' : Gateway Calm, build lone fittings g.start.stop.outside = .ok g' ∧
        ((g'.start.settle.advance 600000).escrowAt "main").map (·.phase.state) =
          some (.failed (gratis "main").overdue.message)) ∧
    ∃ trace c, InCompany lone gratis id Calm.stored (fun _ => none) trace c
        (g.delay "main" [0, 10000]).start.stop ∧
      Contest.Remains gratis (fun _ => none) "main" trace c ∧
      ∃ b keys, (g.delay "main" [0, 10000]).start.stop.escrowAt "main" = some b ∧
        b.phase = .submitting keys := by
  obtain ⟨g, hbuild, ⟨b, hb, hhalted, hown⟩, hlater, b', keys, hb', hhalted', hphase⟩ :
      ∃ g, build lone fittings calm = .ok g ∧
        (∃ b, g.start.stop.escrowAt "main" = some b ∧ b.halted ∧ b.phase.standing.owns) ∧
        (∃ g', build lone fittings g.start.stop.outside = .ok g' ∧
          ((g'.start.settle.advance 600000).escrowAt "main").map (·.phase.state) =
            some (.failed (gratis "main").overdue.message)) ∧
        ∃ b keys, (g.delay "main" [0, 10000]).start.stop.escrowAt "main" = some b ∧ b.halted ∧
          b.phase = .submitting keys :=
    ⟨_, rfl, ⟨_, rfl, rfl, rfl⟩, ⟨_, rfl, rfl⟩, _, _, rfl, rfl, rfl⟩
  have hbuilt : InCompany lone gratis id Calm.stored (fun _ => none) [] _ g :=
    .built hbuild rfl
  obtain ⟨acts, c, -, hstarted⟩ := hbuilt.moves Calm.keepsStore seating_lone (.single .start)
  obtain ⟨more, c₁, hstopped, hleaves⟩ := stop_leaves Calm.keepsStore seating_lone hstarted
  obtain ⟨acts', c', -, hstarted'⟩ := hbuilt.moves Calm.keepsStore seating_lone
    (.tail (.single (.delay "main" [0, 10000])) .start)
  obtain ⟨more', c₂, hstopped', hasleft⟩ := stop_leaves Calm.keepsStore seating_lone hstarted'
  refine ⟨g, hbuild, ⟨_, c₁, hstopped, ?_, hlater⟩, _, c₂, hstopped', ?_, b', keys, hb', hphase⟩
  · exact (hleaves "main" b hb).marked hhalted hown
  · exact (hasleft "main" b' hb').marked hhalted' (by rw [hphase]; rfl)

end Gateway

end LedgerGate
