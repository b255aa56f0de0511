/-
  The escrow bootstraps of a gateway.

  * `surroundings`: how the steps of a bootstrap are carried out in a gateway;
  * `startEscrow`, `runEscrow`, `wakeEscrow`, `answerEscrow`: a bootstrap starts and goes
    on, up to a question to its ledger that is not answered at once;
  * `haltEscrows` stops those that are not at an end, where they stand.
-/
import LedgerGate.Gateway.Receipts

namespace LedgerGate.Gateway

variable {W : Type}

/-! ## Leases -/

/-- Lets bootstraps go on that waited for a lease and have it now. -/
def grantLeases (g : Gateway W) : Gateway W :=
  g.leases.holders.foldl (fun g ledgerId =>
    match (g.desk? ledgerId).bind (·.escrow) with
    | some b =>
      match b.phase with
      | .leasing =>
        (g.updateDesk ledgerId (·.tellEscrow (Escrow.Phase.granted b.settings g.now))).enqueue
          (.bootstrap ledgerId)
      | _ => g
    | none => g) g

/-- Takes the lease of a bootstrap, or waits for it in line. -/
def takeLease (g : Gateway W) (key ledgerId : String) : Bool × Gateway W :=
  let leases := g.leases.acquire key ledgerId
  (leases.holders.contains ledgerId, { g with leases })

/-- Gives the lease of a bootstrap up. -/
def giveUpLease (g : Gateway W) (ledgerId : String) : Gateway W :=
  { g with leases := (g.leases.drop ledgerId).cleanup }.grantLeases

/-! ## Questions -/

/-- How long a ledger takes for its next answers to its bootstrap. -/
def delaysOf (g : Gateway W) (ledgerId : String) : List Nat :=
  (Entries.find? g.delays ledgerId).getD []

/-- Lets a ledger take some time for its next answers to its bootstrap; the answers after
    those come at once. -/
def delay (g : Gateway W) (ledgerId : String) (durations : List Nat) : Gateway W :=
  { g with delays := Entries.insert g.delays ledgerId durations }

/-- Puts a question of its bootstrap to a ledger, which answers at once or later. -/
def askLedger [Outside W] (g : Gateway W) (ledgerId : String) (q : Ledger.Query) :
    Option q.Answer × Gateway W :=
  let asked := g.delay ledgerId (g.delaysOf ledgerId).tail
  match (g.delaysOf ledgerId).headD 0 with
  | 0 =>
    let answer := Outside.ledger ledgerId q g.outside
    (some answer.1, { asked with outside := answer.2 })
  | duration =>
    (none, { asked with timers := g.timers.set (g.now + duration) (.answer ledgerId) })

/-- Whether an answer comes at once or later, nothing else changes. -/
theorem askLedger_cases [Outside W] (g : Gateway W) (ledgerId : String) (q : Ledger.Query) :
    ∃ delays, g.askLedger ledgerId q = (some (Outside.ledger ledgerId q g.outside).1,
        { g with delays, outside := (Outside.ledger ledgerId q g.outside).2 }) ∨
      ∃ time, g.askLedger ledgerId q =
        (none, { g with delays, timers := g.timers.set time (.answer ledgerId) }) := by
  unfold askLedger
  dsimp only
  split
  · exact ⟨_, .inl rfl⟩
  · exact ⟨_, .inr ⟨_, rfl⟩⟩

/-! ## Running -/

/-- How the steps of the bootstrap on a ledger are carried out. -/
def surroundings [Outside W] (s : Escrow.Settings) : Escrow.Surroundings (Gateway W) where
  now g := g.now
  lease g := g.takeLease s.key s.ledgerId
  unlease g := g.giveUpLease s.ledgerId
  store q g :=
    let answer := Outside.store q g.outside
    (answer.1, { g with outside := answer.2 })
  ledger q g := g.askLedger s.ledgerId q
  draw g :=
    let drawn := Outside.draw g.outside
    (drawn.1, { g with outside := drawn.2 })
  sleep duration g := { g with timers := g.timers.set (g.now + duration) (.wake s.ledgerId) }
  track workId g :=
    let prepared := g.withDesk s.ledgerId ([], .awaited) fun d =>
      let (d, notices, prospect) := d.prepare workId .escrow
      ((notices, prospect), d)
    (prepared.1.2, { prepared.2 with meters := prepared.2.meters.observeAll prepared.1.1 })
  alarm reason g := g.requestShutdown (Escrow.Bootstrap.alarmText s reason)

/-- Lets the bootstrap on a ledger go on until it has to wait. -/
def runEscrow [Outside W] (g : Gateway W) (ledgerId : String) : Gateway W :=
  match (g.desk? ledgerId).bind (·.escrow) with
  | none => g
  | some b =>
    if b.halted then g
    else
      let (phase, g) :=
        Escrow.drive (surroundings b.settings) b.settings Escrow.stretch b.phase g
      g.updateDesk ledgerId (·.tellEscrow fun _ => phase)

/-- Where there is no bootstrap, or a halted one, nothing changes. -/
theorem runEscrow_cases [Outside W] (g : Gateway W) (ledgerId : String) :
    g.runEscrow ledgerId = g ∨ ∃ b, (g.desk? ledgerId).bind (·.escrow) = some b ∧
      b.halted = false ∧ g.runEscrow ledgerId =
        (Escrow.drive (surroundings b.settings) b.settings Escrow.stretch b.phase
          g).2.updateDesk ledgerId (·.tellEscrow fun _ =>
            (Escrow.drive (surroundings b.settings) b.settings Escrow.stretch b.phase g).1) := by
  unfold runEscrow
  split
  · exact .inl rfl
  · rename_i b hb
    split
    · exact .inl rfl
    · rename_i hlive
      exact .inr ⟨b, hb, Bool.eq_false_iff.2 hlive, rfl⟩

/-- Lets the bootstrap on a ledger go on after a nap. -/
def wakeEscrow [Outside W] (g : Gateway W) (ledgerId : String) : Gateway W :=
  (g.updateDesk ledgerId (·.tellEscrow Escrow.Phase.awake)).runEscrow ledgerId

/-- Lets the bootstrap on a ledger go on with the answer to its question. -/
def answerEscrow [Outside W] (g : Gateway W) (ledgerId : String) : Gateway W :=
  match (g.desk? ledgerId).bind (·.escrow) with
  | none => g
  | some b =>
    if b.halted then g
    else
      let (phase, outside) := b.phase.answered b.settings g.now
        (Outside.ledger b.settings.ledgerId) g.outside
      ({ g with outside }.updateDesk ledgerId (·.tellEscrow fun _ => phase)).runEscrow ledgerId

/-- Where there is no bootstrap, or a halted one, no answer changes anything. -/
theorem answerEscrow_cases [Outside W] (g : Gateway W) (ledgerId : String) :
    g.answerEscrow ledgerId = g ∨ ∃ b, (g.desk? ledgerId).bind (·.escrow) = some b ∧
      b.halted = false ∧ ∃ phase outside, b.phase.answered b.settings g.now
          (Outside.ledger b.settings.ledgerId) g.outside = (phase, outside) ∧
        g.answerEscrow ledgerId = ({ g with outside }.updateDesk ledgerId
          (·.tellEscrow fun _ => phase)).runEscrow ledgerId := by
  unfold answerEscrow
  split
  · exact .inl rfl
  · rename_i b hb
    split
    · exact .inl rfl
    · rename_i hlive
      exact .inr ⟨b, hb, Bool.eq_false_iff.2 hlive, _, _, rfl, rfl⟩

/-- Starts the bootstrap on a desk, if there is one that was not started. -/
def startEscrow (g : Gateway W) (d : Desk) : Gateway W :=
  match d.escrow.bind (·.phase.start?) with
  | some phase =>
    (g.updateDesk d.ledgerId (·.tellEscrow fun _ => phase)).enqueue (.bootstrap d.ledgerId)
  | none => g

/-! ## Stopping -/

/-- Whether some bootstrap is under way. -/
def hasRunningEscrow (g : Gateway W) : Bool :=
  g.desks.any fun d => d.escrow.any (·.isRunning)

/-- Stops the bootstraps that are under way. They do nothing more, not even tidy
    up, but their leases are free. -/
def haltEscrows (g : Gateway W) : Gateway W :=
  let running := (g.desks.filter fun d => d.escrow.any (·.isRunning)).map (·.ledgerId)
  { g with
    desks := g.desks.map fun d =>
      if running.contains d.ledgerId then
        { d with escrow := d.escrow.map fun b => { b with halted := true } }
      else d
    leases := running.foldl (fun l ledgerId => l.drop ledgerId) g.leases
    timers := g.timers.discard fun
      | .wake _ => true
      | .answer _ => true
      | _ => false }

end LedgerGate.Gateway
