/-
  The career of a bootstrap: what others see of it while it works.

  The state, the keys and the lease of a bootstrap are cells that are updated one after the other,
  and callers may read them between any two updates; a reader of the keys reads the state first.
  Whatever the ledger, the store and the draw of keys answer, the updates are those of one of two
  chronicles, of a bootstrap that gets ready and of one that fails.

  * `Cells`, `Update`: the cells, and what is done to them in the order in which it is done;
  * `Phase.Path`: the acts of a bootstrap since it was made, with their updates;
  * `Path.chronicle_eq`, `Path.isPrefix`: **the updates are known from the phase**, and are the
    beginning of one of the chronicles;
  * `Path.drive`: what a bootstrap does when it is driven is such a path;
  * `career_of`: **all that callers see**, at every moment of every career.
-/
import LedgerGate.Desk
import LedgerGate.Proofs.Escrow.Contest
import Mathlib.Tactic.IntervalCases

namespace LedgerGate.Escrow

/-! ## Cells -/

/-- What a bootstrap shows: its state, its keys, whether it has its lease, and the alarms that it
    gave. -/
structure Cells where
  state : State
  keys : Option Crypto.KeyPair
  leased : Bool
  alarms : List String

/-- One thing that is done to the cells. -/
inductive Update where
  | turn (state : State)
  | keep (keys : Crypto.KeyPair)
  | take
  | drop
  | call (text : String)

namespace Update

/-- The state that is written. -/
def state? : Update → Option State
  | turn state => some state
  | _ => none

/-- The alarm that is given. -/
def alarm? : Update → Option String
  | call text => some text
  | _ => none

/-- It is done outside of the bootstrap, to its lease or by an alarm. -/
def isOutward : Update → Bool
  | turn _ => false
  | keep _ => false
  | _ => true

end Update

/-- The identity of the escrow, as the state has it. -/
def State.identity (s : Settings) : State → Except Fault Identity
  | .ready identity => .ok identity
  | .failed reason => .error (.own ("escrow bootstrap failed: " ++ reason))
  | _ => .error (.notReady ("escrow on ledger " ++ s.ledgerId))

namespace Cells

/-- The cells of a bootstrap that was made. -/
def new : Cells := ⟨.uninitialised, none, false, []⟩

def update (c : Cells) : Update → Cells
  | .turn state => { c with state }
  | .keep keys => { c with keys := some keys }
  | .take => { c with leased := true }
  | .drop => { c with leased := false }
  | .call text => { c with alarms := c.alarms ++ [text] }

/-- The cells after some updates. -/
def after (c : Cells) (updates : List Update) : Cells := updates.foldl update c

/-- The fault of a bootstrap that is ready without keys. -/
def keyless : Fault := .own "escrow ready without key material"

/-- What a caller gets for the keys, who reads the state first and the keys later. -/
def keyPair (s : Settings) (earlier later : Cells) : Except Fault Crypto.KeyPair :=
  (earlier.state.identity s).bind fun _ =>
    match later.keys with
    | some keys => .ok keys
    | none => .error keyless

/-- A start: the state turns, unless it has turned before. -/
def start? (c : Cells) : Option Cells :=
  match c.state with
  | .uninitialised => some (c.update (.turn .initialising))
  | _ => none

end Cells

/-! ## Paths -/

/-- What an act that leads to a phase does to the cells: the lease is given up before the outcome
    is shown, keys before the state that promises them, and the state before the alarm. -/
def Act.updates (s : Settings) : Act → Phase → List Update
  | start, _ => [.turn .initialising]
  | lease, _ => [.take]
  | unlease, .ready record => [.drop, .keep record.keys, .turn (.ready record.identity)]
  | unlease, .alarming reason => [.drop, .turn (.failed reason)]
  | alarm reason, _ => [.call (Bootstrap.alarmText s reason)]
  | _, _ => []

/-- The start of a bootstrap. -/
def Act.isStart : Act → Bool
  | start => true
  | _ => false

/-- The acts of a bootstrap since it was made, what they did to its cells, and the phase that they
    led to. -/
inductive Phase.Path (s : Settings) : List Act → List Update → Phase → Prop
  | new : Path s [] [] .idle
  | act {acts updates p a p'} : Path s acts updates p → p.Goes s a p' →
      Path s (acts ++ [a]) (updates ++ a.updates s p') p'

/-- What was done to the cells until a phase. -/
def Phase.chronicle (s : Settings) : Phase → List Update
  | idle => []
  | queueing => [.turn .initialising]
  | leasing => [.turn .initialising]
  | ready record => [.turn .initialising, .take, .drop, .keep record.keys,
      .turn (.ready record.identity)]
  | alarming reason => [.turn .initialising, .take, .drop, .turn (.failed reason)]
  | failed reason => [.turn .initialising, .take, .drop, .turn (.failed reason),
      .call (Bootstrap.alarmText s reason)]
  | _ => [.turn .initialising, .take]

/-- Keys that a bootstrap has in hand belong together. -/
def Phase.Matched : Phase → Prop
  | submitting keys => keys = .ofPrivate keys.privateKey
  | tracking keys _ => keys = .ofPrivate keys.privateKey
  | awaiting keys _ => keys = .ofPrivate keys.privateKey
  | recording record => record.keys = .ofPrivate record.keys.privateKey
  | leaving (.ok record) => record.keys = .ofPrivate record.keys.privateKey
  | ready record => record.keys = .ofPrivate record.keys.privateKey
  | _ => True

/-- Whether a bootstrap was started. -/
def Phase.isStarted : Phase → Bool
  | idle => false
  | _ => true

variable {s : Settings} {acts : List Act} {updates : List Update} {p p' : Phase} {a : Act}

/-- A record that was read has the public key that belongs to its private key. -/
theorem Record.matched_of_parse {text : String} {record : Record}
    (h : Record.parse text = .ok record) : record.keys = .ofPrivate record.keys.privateKey := by
  unfold Record.parse at h
  split at h
  · dsimp only at h
    split at h
    · cases h
    · split at h
      · cases h
      · split at h
        · cases h
        · split at h
          · cases h
            rfl
          · cases h
  · cases h

/-- A bootstrap is at work with its lease. -/
structure Phase.AtWork (s : Settings) (p : Phase) : Prop where
  chronicle : p.chronicle s = [.turn .initialising, .take]
  matched : p.Matched
  isStarted : p.isStarted = true

theorem Phase.atWork_found (s : Settings) (now deadline : Nat) (contested : Bool)
    (text : Option String) : (found s now deadline contested text).AtWork s := by
  unfold found
  split
  · split <;> exact ⟨rfl, trivial, rfl⟩
  · rename_i text
    split
    · split <;> exact ⟨rfl, trivial, rfl⟩
    · cases h : Record.parse text with
      | error f => exact ⟨rfl, trivial, rfl⟩
      | ok record => exact ⟨rfl, Record.matched_of_parse h, rfl⟩

theorem Phase.atWork_priced (s : Settings) (fee : Nat) : (priced s fee).AtWork s := by
  unfold priced
  split <;> exact ⟨rfl, trivial, rfl⟩

theorem Phase.atWork_judged {keys : Crypto.KeyPair} (hkeys : keys = .ofPrivate keys.privateKey)
    (s : Settings) (workId : WorkId) (c : Confirmation) : (judged keys workId c).AtWork s := by
  unfold judged
  split
  · split
    · split
      · exact ⟨rfl, trivial, rfl⟩
      · exact ⟨rfl, hkeys, rfl⟩
    · exact ⟨rfl, trivial, rfl⟩
  · exact ⟨rfl, trivial, rfl⟩

/-- **Every act adds its updates** to the chronicle, and keeps keys together, be they drawn or
    read. -/
theorem Phase.Goes.chronicle_eq (h : p.Goes s a p') (hp : p.Matched) :
    p'.chronicle s = p.chronicle s ++ a.updates s p' ∧ p'.Matched := by
  cases h.turn with
  | @looked now deadline contested text =>
    have hwork := atWork_found s now deadline contested text
    exact ⟨hwork.chronicle, hwork.matched⟩
  | @priced fee =>
    have hwork := atWork_priced s fee
    exact ⟨hwork.chronicle, hwork.matched⟩
  | @receive keys workId c =>
    have hwork := atWork_judged hp s workId c
    exact ⟨hwork.chronicle, hwork.matched⟩
  | drawn => exact ⟨rfl, rfl⟩
  | submitted => exact ⟨rfl, hp⟩
  | track => exact ⟨rfl, hp⟩
  | saved => exact ⟨rfl, hp⟩
  | succeed => exact ⟨rfl, hp⟩
  | _ => exact ⟨rfl, trivial⟩

/-- Only a start leads away from the beginning, and no start comes later. -/
theorem Phase.Goes.isStarted (h : p.Goes s a p') (hp : p.Matched) :
    p'.isStarted = true ∧ a.isStart = !p.isStarted := by
  cases h.turn with
  | looked => exact ⟨(atWork_found s _ _ _ _).isStarted, rfl⟩
  | priced => exact ⟨(atWork_priced s _).isStarted, rfl⟩
  | receive c => exact ⟨(atWork_judged hp s _ c).isStarted, rfl⟩
  | _ => exact ⟨rfl, rfl⟩

namespace Phase.Path

/-- **The updates are known from the phase**, and its keys belong together. -/
theorem chronicle_eq (h : Path s acts updates p) : updates = p.chronicle s ∧ p.Matched := by
  induction h with
  | new => exact ⟨rfl, trivial⟩
  | act _ hgo ih =>
    obtain ⟨hchronicle, hmatched⟩ := hgo.chronicle_eq ih.2
    exact ⟨by rw [hchronicle, ih.1], hmatched⟩

/-- There is one start, and nothing is done before it. -/
theorem starts (h : Path s acts updates p) :
    acts.countP Act.isStart = (if p.isStarted then 1 else 0) ∧
      ∀ a rest, acts = a :: rest → a.isStart = true := by
  induction h with
  | new => exact ⟨rfl, fun a rest h => by cases h⟩
  | @act acts _ p a p' hpath hgo ih =>
    obtain ⟨hcount, hfirst⟩ := ih
    obtain ⟨hstarted, hstart⟩ := hgo.isStarted hpath.chronicle_eq.2
    refine ⟨?_, fun a' rest heq => ?_⟩
    · rw [List.countP_append, hcount, hstarted, List.countP_singleton, hstart]
      cases p.isStarted <;> rfl
    · cases acts with
      | nil =>
        obtain ⟨rfl, -⟩ := List.cons.inj heq
        cases hp : p.isStarted with
        | false => rw [hstart, hp]; rfl
        | true => simp [hp] at hcount
      | cons first more =>
        obtain ⟨rfl, -⟩ := List.cons.inj heq
        exact hfirst _ more rfl

end Phase.Path

/-! ## The two chronicles -/

/-- All that is done to the cells in a career that comes to its end. -/
inductive Chronicle (s : Settings) : List Update → Prop
  | ready (record : Record) : record.keys = .ofPrivate record.keys.privateKey →
      Chronicle s ((Phase.ready record).chronicle s)
  | failed (reason : String) : Chronicle s ((Phase.failed reason).chronicle s)

/-- **The updates are the beginning of a chronicle.** -/
theorem Phase.Path.isPrefix (h : Path s acts updates p) :
    ∃ all, Chronicle s all ∧ updates <+: all := by
  obtain ⟨rfl, hmatched⟩ := h.chronicle_eq
  cases p with
  | ready record => exact ⟨_, .ready record hmatched, List.prefix_rfl⟩
  | alarming reason => exact ⟨_, .failed reason, ⟨[.call _], rfl⟩⟩
  | failed reason => exact ⟨_, .failed reason, List.prefix_rfl⟩
  | idle => exact ⟨_, .failed "", List.nil_prefix⟩
  | queueing | leasing => exact ⟨_, .failed "", ⟨[.take, .drop, .turn (.failed ""), .call _], rfl⟩⟩
  | _ => exact ⟨_, .failed "", ⟨[.drop, .turn (.failed ""), .call _], rfl⟩⟩

/-- A moment: what has been done to the cells, and what is still to be done. -/
inductive Moment (s : Settings) : List Update → List Update → Prop
  | unstarted {all} : Chronicle s all → Moment s [] all
  /-- it waits for its lease, is at work, or has just given the lease up -/
  | waiting {rest} : Chronicle s (.turn .initialising :: rest) →
      Moment s [.turn .initialising] rest
  | working {rest} : Chronicle s (.turn .initialising :: .take :: rest) →
      Moment s [.turn .initialising, .take] rest
  | leaving {rest} : Chronicle s (.turn .initialising :: .take :: .drop :: rest) →
      Moment s [.turn .initialising, .take, .drop] rest
  | kept (record : Record) : record.keys = .ofPrivate record.keys.privateKey →
      Moment s [.turn .initialising, .take, .drop, .keep record.keys]
        [.turn (.ready record.identity)]
  | ready (record : Record) : record.keys = .ofPrivate record.keys.privateKey →
      Moment s ((Phase.ready record).chronicle s) []
  | alarming (reason : String) : Moment s ((Phase.alarming reason).chronicle s)
      [.call (Bootstrap.alarmText s reason)]
  | failed (reason : String) : Moment s ((Phase.failed reason).chronicle s) []

/-- A list of five is cut in one of six places. -/
theorem append_eq_five {α : Type} {x y : List α} {a b c d e : α} (h : x ++ y = [a, b, c, d, e]) :
    (x = [] ∧ y = [a, b, c, d, e]) ∨ (x = [a] ∧ y = [b, c, d, e]) ∨
      (x = [a, b] ∧ y = [c, d, e]) ∨ (x = [a, b, c] ∧ y = [d, e]) ∨
      (x = [a, b, c, d] ∧ y = [e]) ∨ (x = [a, b, c, d, e] ∧ y = []) := by
  have hx : x = [a, b, c, d, e].take x.length := by rw [← h, List.take_left]
  have hy : y = [a, b, c, d, e].drop x.length := by rw [← h, List.drop_left]
  have hlength : x.length ≤ 5 := by
    have hsum := congrArg List.length h
    rw [List.length_append] at hsum
    exact Nat.le.intro hsum
  generalize x.length = n at hx hy hlength
  subst hx hy
  interval_cases n <;> simp

/-- **Every moment of a career is one of these.** -/
theorem Chronicle.moment {done rest : List Update} (h : Chronicle s (done ++ rest)) :
    Moment s done rest := by
  generalize hall : done ++ rest = all at h
  cases h with
  | ready record hkeys =>
    rcases append_eq_five hall with ⟨rfl, rfl⟩ | ⟨rfl, rfl⟩ | ⟨rfl, rfl⟩ | ⟨rfl, rfl⟩ |
      ⟨rfl, rfl⟩ | ⟨rfl, rfl⟩
    · exact .unstarted (.ready record hkeys)
    · exact .waiting (.ready record hkeys)
    · exact .working (.ready record hkeys)
    · exact .leaving (.ready record hkeys)
    · exact .kept record hkeys
    · exact .ready record hkeys
  | failed reason =>
    rcases append_eq_five hall with ⟨rfl, rfl⟩ | ⟨rfl, rfl⟩ | ⟨rfl, rfl⟩ | ⟨rfl, rfl⟩ |
      ⟨rfl, rfl⟩ | ⟨rfl, rfl⟩
    · exact .unstarted (.failed reason)
    · exact .waiting (.failed reason)
    · exact .working (.failed reason)
    · exact .leaving (.failed reason)
    · exact .alarming reason
    · exact .failed reason

/-! ## What is driven -/

section
variable {W : Type} {env : Surroundings W}

/-- The same surroundings, with a note of what is done to the lease and of every alarm. -/
def Surroundings.noted (env : Surroundings W) (s : Settings) : Surroundings (W × List Update) where
  now w := env.now w.1
  lease w :=
    let answer := env.lease w.1
    (answer.1, answer.2, if answer.1 then w.2 ++ [.take] else w.2)
  unlease w := (env.unlease w.1, w.2 ++ [.drop])
  store q w :=
    let answer := env.store q w.1
    (answer.1, answer.2, w.2)
  ledger q w :=
    let answer := env.ledger q w.1
    (answer.1, answer.2, w.2)
  draw w :=
    let drawn := env.draw w.1
    (drawn.1, drawn.2, w.2)
  sleep duration w := (env.sleep duration w.1, w.2)
  track workId w :=
    let answer := env.track workId w.1
    (answer.1, answer.2, w.2)
  alarm reason w := (env.alarm reason w.1, w.2 ++ [.call (Bootstrap.alarmText s reason)])

/-- Notes change nothing in what is driven. -/
theorem drive_noted (fuel : Nat) (p : Phase) (w : W) (notes : List Update) :
    (drive (env.noted s) s fuel p (w, notes)).1 = (drive env s fuel p w).1 ∧
      (drive (env.noted s) s fuel p (w, notes)).2.1 = (drive env s fuel p w).2 := by
  induction fuel generalizing p w notes with
  | zero => exact ⟨rfl, rfl⟩
  | succ fuel ih =>
    unfold drive
    rw [show (env.noted s).now (w, notes) = env.now w from rfl]
    cases p.step s (env.now w) with
    | rest => exact ⟨rfl, rfl⟩
    | lease =>
      rcases h : env.lease w with ⟨_ | _, w'⟩
      · simp [Surroundings.noted, h]
      · simpa [Surroundings.noted, h] using ih (.look s (env.now w') false) w' _
    | unlease next => exact ih next _ _
    | store q resume => exact ih _ _ _
    | ledger q resume =>
      rcases h : env.ledger q w with ⟨_ | answer, w'⟩
      · simp [Surroundings.noted, h]
      · simpa [Surroundings.noted, h] using ih (resume answer) w' _
    | draw resume => exact ih _ _ _
    | sleep duration next => exact ⟨rfl, rfl⟩
    | track workId next =>
      rcases h : env.track workId w with ⟨c | _ | _, w'⟩
      · simpa [Surroundings.noted, h] using ih (next.received c) w' _
      · simp [Surroundings.noted, h]
      · simpa [Surroundings.noted, h] using ih next.dropped w' _
    | alarm reason next => exact ih next _ _

/-- A bootstrap drives along a path, and its notes are the updates that are done outside. -/
def Drives (s : Settings) (acts : List Act) (updates notes : List Update)
    (result : Phase × W × List Update) : Prop :=
  ∃ more added, Phase.Path s (acts ++ more) (updates ++ added) result.1 ∧
    result.2.2 = notes ++ added.filter Update.isOutward

theorem Phase.Path.still (h : Path s acts updates p) (w : W) (notes : List Update) :
    Drives s acts updates notes (p, w, notes) :=
  ⟨[], [], by simpa using h, by simp⟩

/-- First an act, and then the rest of the way. -/
theorem Drives.first (p' : Phase) {notes : List Update} {result : Phase × W × List Update}
    (h : Drives s (acts ++ [a]) (updates ++ a.updates s p')
      (notes ++ (a.updates s p').filter Update.isOutward) result) :
    Drives s acts updates notes result := by
  obtain ⟨more, added, hpath, hnotes⟩ := h
  refine ⟨a :: more, a.updates s p' ++ added, by simpa using hpath, ?_⟩
  rw [hnotes, List.filter_append, List.append_assoc]

/-- An act that does nothing to the cells goes without notice. -/
theorem Drives.quiet (p' : Phase) {notes : List Update} {result : Phase × W × List Update}
    (hnone : a.updates s p' = []) (h : Drives s (acts ++ [a]) updates notes result) :
    Drives s acts updates notes result := by
  refine Drives.first p' (a := a) ?_
  rwa [hnone, List.filter_nil, List.append_nil, List.append_nil]

theorem Phase.Path.quiet (h : Path s acts updates p) (hgo : p.Goes s a p')
    (hnone : a.updates s p' = []) : Path s (acts ++ [a]) updates p' := by
  have hpath := h.act hgo
  rwa [hnone, List.append_nil] at hpath

/-- A lease is given up on the way to an outcome. -/
theorem Phase.updates_unlease {now : Nat} {next : Phase} (h : p.step s now = .unlease next) :
    (Act.unlease.updates s next).filter Update.isOutward = [.drop] := by
  have hgo : p.Goes s .unlease next := .unlease h
  cases hgo.turn <;> rfl

/-- **What a bootstrap does when it is driven is a path.** -/
theorem Phase.Path.drive (fuel : Nat) (h : Path s acts updates p) (w : W) (notes : List Update) :
    Drives s acts updates notes (drive (env.noted s) s fuel p (w, notes)) := by
  induction fuel generalizing p w notes acts updates with
  | zero => exact h.still w notes
  | succ fuel ih =>
    have hnow : (env.noted s).now (w, notes) = env.now w := rfl
    unfold Escrow.drive
    rw [hnow]
    cases hstep : p.step s (env.now w) with
    | rest => exact h.still w notes
    | lease =>
      rcases hlease : env.lease w with ⟨_ | _, w'⟩ <;> simp only [Surroundings.noted, hlease]
      · exact Drives.quiet .leasing rfl ((h.quiet (.queue hstep) rfl).still w' notes)
      · exact Drives.first _ (ih (h.act (.lease hstep)) w' _)
    | unlease next =>
      refine Drives.first next (a := .unlease) ?_
      rw [Phase.updates_unlease hstep]
      exact ih (h.act (.unlease hstep)) _ _
    | store q resume =>
      let answer := env.store q w
      exact Drives.quiet (resume answer.1) rfl
        (ih (h.quiet (.store answer.1 hstep) rfl) answer.2 notes)
    | ledger q resume =>
      rcases hledger : env.ledger q w with ⟨_ | answer, w'⟩ <;>
        simp only [Surroundings.noted, hledger]
      · exact h.still w' notes
      · exact Drives.quiet (resume answer) rfl
          (ih (h.quiet (.ledger answer hstep) rfl) w' notes)
    | draw resume =>
      let drawn := env.draw w
      exact Drives.quiet (resume drawn.1) rfl
        (ih (h.quiet (.draw drawn.1 hstep) rfl) drawn.2 notes)
    | sleep duration next =>
      exact Drives.quiet next rfl ((h.quiet (.doze hstep) rfl).still _ notes)
    | track workId next =>
      obtain ⟨keys, -, rfl⟩ := step_track hstep
      have hpath : Path s (acts ++ [.track workId]) updates (.awaiting keys workId) :=
        h.quiet (.track hstep) rfl
      rcases htrack : env.track workId w with ⟨c | _ | _, w'⟩ <;>
        simp only [Surroundings.noted, htrack] <;>
        refine Drives.quiet (.awaiting keys workId) (a := .track workId) rfl ?_
      · exact Drives.quiet ((Phase.awaiting keys workId).received c) (a := .receive c) rfl
          (ih (hpath.quiet (.receive c) rfl) w' notes)
      · exact hpath.still w' notes
      · exact Drives.quiet (Phase.awaiting keys workId).dropped (a := .lose) rfl
          (ih (hpath.quiet .lose rfl) w' notes)
    | alarm reason next =>
      refine Drives.first next (a := .alarm reason) ?_
      exact ih (h.act (.alarm hstep)) _ _

end

/-! ## What callers see -/

/-- What callers see of a bootstrap in a career: at every moment, which is after some of the
    updates, whether or not they end an act. -/
structure Career (s : Settings) (acts : List Act) (updates : List Update) (p : Phase) : Prop where
  /-- The state turns to initialising and then to one end, and nowhere else. -/
  moves : ∃ settled : Option State, (∀ x ∈ settled, x.isSettled = true) ∧
    updates.filterMap Update.state? <+: .initialising :: settled.toList
  /-- A state that is settled stays. -/
  stays : ∀ done more, done ++ more <+: updates → (Cells.new.after done).state.isSettled = true →
    (Cells.new.after (done ++ more)).state = (Cells.new.after done).state
  /-- A start does something only if nothing has been done, -/
  starts : ∀ done, done <+: updates → ((Cells.new.after done).start?.isSome = true ↔ done = [])
  /-- so the work begins once, and with a start. -/
  begins : acts.countP Act.isStart ≤ 1 ∧ ∀ a rest, acts = a :: rest → a.isStart = true
  /-- The identity is not ready until the state is settled, it is there if the bootstrap is ready,
      and there is a fault of its own if it has failed. -/
  identity : ∀ done, done <+: updates →
    (((∃ what, (Cells.new.after done).state.identity s = .error (.notReady what)) ↔
        (Cells.new.after done).state = .uninitialised ∨
          (Cells.new.after done).state = .initialising) ∧
      (∀ identity, (Cells.new.after done).state.identity s = .ok identity ↔
        (Cells.new.after done).state = .ready identity) ∧
      ((∃ text, (Cells.new.after done).state.identity s = .error (.own text)) ↔
        ∃ reason, (Cells.new.after done).state = .failed reason))
  /-- Who sees that it is ready gets the keys, now or later: their public key is that of the
      identity, and belongs to the private key. -/
  keys : ∀ done more identity, done ++ more <+: updates →
    (Cells.new.after done).state = .ready identity →
      ∃ keys, Cells.keyPair s (Cells.new.after done) (Cells.new.after (done ++ more)) = .ok keys ∧
        keys.publicKey = identity.publicKey ∧ keys = .ofPrivate keys.privateKey
  /-- Nobody ever finds it ready without keys. -/
  keyed : ∀ done more, done ++ more <+: updates →
    Cells.keyPair s (Cells.new.after done) (Cells.new.after (done ++ more)) ≠ .error Cells.keyless
  /-- When the alarm is given the bootstrap has failed, and its lease was taken and given up. -/
  alarm : ∀ done text, done ++ [.call text] <+: updates →
    (∃ reason, (Cells.new.after done).state = .failed reason ∧
      text = Bootstrap.alarmText s reason) ∧
    .take ∈ done ∧ (Cells.new.after done).leased = false
  /-- It is given once if the bootstrap fails, and else never: a bootstrap that shows that it has
      failed has given it, or gives it next. -/
  alarms : (∀ reason, (Cells.new.after updates).state ≠ .failed reason) ∧
      (Cells.new.after updates).alarms = [] ∨
    ∃ reason, (Cells.new.after updates).state = .failed reason ∧
      (p = .failed reason ∧
          (Cells.new.after updates).alarms = [Bootstrap.alarmText s reason] ∨
        (Cells.new.after updates).alarms = [] ∧
          ∀ a p', p.Goes s a p' ↔ a = .alarm reason ∧ p' = .failed reason)
  /-- Between two acts callers see what the phase shows. -/
  agrees : (Cells.new.after updates).state = p.state ∧
    (Cells.new.after updates).state.identity s = p.identity s ∧
    Cells.keyPair s (Cells.new.after updates) (Cells.new.after updates) = p.keyPair s
  /-- What the bootstrap does when it is driven is more of a career, and what is done to its lease
      and to its hook are the updates of it. -/
  drives : ∀ {W : Type} (env : Surroundings W) (fuel : Nat) (w : W) (notes : List Update),
    ((drive (env.noted s) s fuel p (w, notes)).1 = (drive env s fuel p w).1 ∧
      (drive (env.noted s) s fuel p (w, notes)).2.1 = (drive env s fuel p w).2) ∧
    Drives s acts updates notes (drive (env.noted s) s fuel p (w, notes))

/-- At a moment of a career that is settled the state and the keys are what they will be. -/
theorem Moment.stays {done more rest : List Update} (h : Moment s done (more ++ rest))
    (hsettled : (Cells.new.after done).state.isSettled = true) :
    (Cells.new.after (done ++ more)).state = (Cells.new.after done).state ∧
      (Cells.new.after (done ++ more)).keys = (Cells.new.after done).keys := by
  generalize hrest : more ++ rest = left at h
  cases h with
  | unstarted _ | waiting _ | working _ | leaving _ | kept _ _ => cases hsettled
  | ready record _ | failed reason =>
    obtain ⟨rfl, rfl⟩ := List.append_eq_nil_iff.1 hrest
    rw [List.append_nil]
    exact ⟨rfl, rfl⟩
  | alarming reason =>
    rcases more with _ | ⟨first, more⟩
    · rw [List.append_nil]
      exact ⟨rfl, rfl⟩
    · obtain ⟨rfl, hmore⟩ := List.cons.inj hrest
      obtain ⟨rfl, rfl⟩ := List.append_eq_nil_iff.1 hmore
      exact ⟨rfl, rfl⟩

/-- A bootstrap that is ready has kept its keys. -/
theorem Moment.keys {done rest : List Update} (h : Moment s done rest) {identity : Identity}
    (hready : (Cells.new.after done).state = .ready identity) :
    ∃ keys, (Cells.new.after done).keys = some keys ∧
      keys.publicKey = identity.publicKey ∧ keys = .ofPrivate keys.privateKey := by
  cases h with
  | ready record hkeys =>
    cases hready
    exact ⟨record.keys, rfl, rfl, hkeys⟩
  | _ => cases hready

/-- What was done before an alarm. -/
theorem Moment.alarm {done rest : List Update} {text : String}
    (h : Moment s done (.call text :: rest)) :
    (∃ reason, (Cells.new.after done).state = .failed reason ∧
      text = Bootstrap.alarmText s reason) ∧
    .take ∈ done ∧ (Cells.new.after done).leased = false := by
  cases h with
  | alarming reason => exact ⟨⟨reason, rfl, rfl⟩, by simp [Phase.chronicle], rfl⟩
  | unstarted h | waiting h | working h | leaving h => cases h

/-- The fault of a failed bootstrap is not that of missing keys. -/
theorem failed_ne_keyless (reason : String) :
    Fault.own ("escrow bootstrap failed: " ++ reason) ≠ Cells.keyless := by
  intro h
  have heq : "escrow bootstrap failed: " ++ reason = "escrow ready without key material" :=
    (Fault.internal.inj h).2.1
  have htext := congrArg (fun text : String => text.toList.take 8) heq
  rw [String.toList_append, List.take_append_of_le_length (by decide)] at htext
  exact absurd htext (by decide)

theorem State.identity_cases (s : Settings) (x : State) :
    ((∃ what, x.identity s = .error (.notReady what)) ↔ x = .uninitialised ∨ x = .initialising) ∧
      (∀ identity, x.identity s = .ok identity ↔ x = .ready identity) ∧
      ((∃ text, x.identity s = .error (.own text)) ↔ ∃ reason, x = .failed reason) := by
  cases x <;> simp [State.identity, Fault.own]

/-- **All that callers see of a bootstrap**, whatever it is answered. -/
theorem career_of (h : Phase.Path s acts updates p) : Career s acts updates p := by
  obtain ⟨all, hall, hprefix⟩ := h.isPrefix
  -- every two moments, one after the other, are moments of the whole chronicle
  have hmoment : ∀ done more : List Update, done ++ more <+: updates →
      ∃ rest, Moment s done (more ++ rest) := by
    intro done more hmore
    obtain ⟨rest, rfl⟩ := hmore.trans hprefix
    exact ⟨rest, Chronicle.moment (by rwa [List.append_assoc] at hall)⟩
  have hkeys : ∀ done more identity, done ++ more <+: updates →
      (Cells.new.after done).state = .ready identity →
        ∃ keys, Cells.keyPair s (Cells.new.after done) (Cells.new.after (done ++ more)) =
            .ok keys ∧ keys.publicKey = identity.publicKey ∧
          keys = .ofPrivate keys.privateKey := by
    intro done more identity hmore hready
    obtain ⟨rest, hnow⟩ := hmoment _ _ hmore
    obtain ⟨keys, hkept, hpublic, hmatched⟩ := hnow.keys hready
    have hlater := (hnow.stays (by rw [hready]; rfl)).2
    exact ⟨keys, by rw [Cells.keyPair, hready, hlater, hkept]; rfl, hpublic, hmatched⟩
  obtain ⟨hcount, hfirst⟩ := h.starts
  refine ⟨?_, fun done more hmore hsettled => ?_, fun done hdone => ?_, ⟨?_, hfirst⟩,
    fun done _ => State.identity_cases s _, hkeys, fun done more hmore => ?_,
    fun done text hcall => ?_, ?_, ?_, fun env fuel w notes => ⟨drive_noted fuel p w notes,
      h.drive fuel w notes⟩⟩
  · have hturns := hprefix.filterMap Update.state?
    cases hall with
    | ready record _ =>
      exact ⟨some (.ready record.identity), fun x hx => by cases hx; rfl, hturns⟩
    | failed reason => exact ⟨some (.failed reason), fun x hx => by cases hx; rfl, hturns⟩
  · obtain ⟨rest, hnow⟩ := hmoment _ _ hmore
    exact (hnow.stays hsettled).1
  · obtain ⟨rest, hnow⟩ := hmoment done [] (by rwa [List.append_nil])
    generalize [] ++ rest = left at hnow
    cases hnow <;> simp [Cells.after, Cells.new, Cells.update, Cells.start?, Phase.chronicle]
  · rw [hcount]
    split <;> decide
  · intro hkeyless
    cases hstate : (Cells.new.after done).state with
    | ready identity =>
      obtain ⟨keys, hgot, -⟩ := hkeys done more identity hmore hstate
      rw [hgot] at hkeyless
      cases hkeyless
    | failed reason =>
      rw [Cells.keyPair, hstate] at hkeyless
      exact failed_ne_keyless reason (Except.error.inj hkeyless)
    | uninitialised | initialising =>
      rw [Cells.keyPair, hstate] at hkeyless
      cases hkeyless
  · obtain ⟨rest, hnow⟩ := hmoment _ _ hcall
    exact hnow.alarm
  · obtain ⟨rfl, -⟩ := h.chronicle_eq
    cases p with
    | alarming reason =>
      refine Or.inr ⟨reason, rfl, Or.inr ⟨rfl, fun a p' => ⟨fun hgo => ?_, ?_⟩⟩⟩
      · cases hgo.turn
        exact ⟨rfl, rfl⟩
      · rintro ⟨rfl, rfl⟩
        exact Phase.Turn.alarm.goes
    | failed reason => exact Or.inr ⟨reason, rfl, Or.inl ⟨rfl, rfl⟩⟩
    | _ => exact Or.inl ⟨nofun, rfl⟩
  · obtain ⟨rfl, -⟩ := h.chronicle_eq
    cases p <;> exact ⟨rfl, rfl, rfl⟩

/-- The settings of a bootstrap on the main ledger. -/
def onMain : Settings := .standard .besu "main" 7

/-- A career that gets ready: nothing is found, and the deployment succeeds. -/
theorem path_ready : ∃ acts updates, Phase.Path onMain acts updates
    (.ready ⟨"0xe", .ofPrivate default⟩) := by
  have hlook := ((Phase.Path.new (s := onMain)).act Phase.Turn.start.goes).act
    (@Phase.Turn.lease onMain 0).goes
  have hclaimed := ((hlook.act (@Phase.Turn.looked onMain 0 _ _ none).goes).act
    (@Phase.Turn.priced onMain 7).goes).act Phase.Turn.won.goes
  have hsubmitted := (hclaimed.act (@Phase.Turn.drawn onMain default).goes).act
    (@Phase.Turn.submitted onMain _ "0x1").goes
  have hconfirmed := (hsubmitted.act Phase.Turn.track.goes).act
    (Phase.Turn.receive (.succeeded "0x1" 1 (.ofList [("contractAddress", .text "0xe")]))).goes
  exact ⟨_, _, (hconfirmed.act Phase.Turn.saved.goes).act Phase.Turn.succeed.goes⟩

/-- The reason of a bootstrap whose store fails. -/
def diskReason : String := (Fault.ofStore (.backend "disk full")).message

/-- A career that fails: the store cannot be read. -/
theorem path_failed : ∃ acts updates, Phase.Path onMain acts updates (.failed diskReason) := by
  have hlook := ((Phase.Path.new (s := onMain)).act Phase.Turn.start.goes).act
    (@Phase.Turn.lease onMain 0).goes
  have hblind := hlook.act (Phase.Turn.blind (e := .backend "disk full")).goes
  exact ⟨_, _, (hblind.act Phase.Turn.fail.goes).act Phase.Turn.alarm.goes⟩

/-- One bootstrap gets ready and has its keys; another fails and gives one alarm. -/
theorem career_ends :
    (∃ acts updates, Phase.Path onMain acts updates (.ready ⟨"0xe", .ofPrivate default⟩) ∧
      ∃ keys, Cells.keyPair onMain (Cells.new.after updates) (Cells.new.after updates) =
        .ok keys ∧ keys = .ofPrivate keys.privateKey) ∧
    ∃ acts updates, Phase.Path onMain acts updates (.failed diskReason) ∧
      (Cells.new.after updates).alarms = [Bootstrap.alarmText onMain diskReason] := by
  obtain ⟨acts, updates, hready⟩ := path_ready
  obtain ⟨acts', updates', hfailed⟩ := path_failed
  refine ⟨⟨acts, updates, hready, ?_⟩, ⟨acts', updates', hfailed, ?_⟩⟩
  · have hcareer := career_of hready
    obtain ⟨keys, hgot, -, hmatched⟩ := hcareer.keys updates [] _ (by simp)
      hcareer.agrees.1
    rw [List.append_nil] at hgot
    exact ⟨keys, hgot, hmatched⟩
  · have hcareer := career_of hfailed
    have hstate := hcareer.agrees.1
    obtain ⟨hnot, -⟩ | ⟨reason, -, ⟨hphase, halarms⟩ | ⟨-, hnext⟩⟩ := hcareer.alarms
    · exact absurd hstate (hnot diskReason)
    · obtain rfl := Phase.failed.inj hphase
      exact halarms
    · have hstuck := (hnext (.alarm reason) (.failed reason)).2 ⟨rfl, rfl⟩
      cases hstuck.turn

end LedgerGate.Escrow
