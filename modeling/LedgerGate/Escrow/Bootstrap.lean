/-
  The bootstrap of a ledger's escrow: exactly one contract is deployed, and the
  keys of its owner are kept.

  The key of the record is claimed with a marker before anything is submitted, so
  of several bootstraps on one store one deploys and the others wait for its
  record. A bootstrap that fails gives its claim up and asks for shutdown.

  * `Phase` says where a bootstrap stands, `Phase.state` what others see of it;
  * `Phase.step` says what a bootstrap does next and where every answer leads;
  * `drive` runs a bootstrap in its surroundings until it has to wait;
  * `Phase.answered` takes it on when its ledger answers.
-/
import LedgerGate.Escrow.Record
import LedgerGate.Ledger.Query
import LedgerGate.Receipt.Tracker
import LedgerGate.Store.Query
import LedgerGate.Text.Duration

namespace LedgerGate.Escrow

/-- What a bootstrap is told: the ledger, the fee it must charge, and how often and
    how long to look for the record of another; times in milliseconds. -/
structure Settings where
  brand : Brand
  ledgerId : String
  expectedFee : Nat
  poll : Nat
  timeout : Nat
  deriving Inhabited

namespace Settings

/-- Looks twice a second for ten minutes. -/
def standard (brand : Brand) (ledgerId : String) (expectedFee : Nat) : Settings :=
  ⟨brand, ledgerId, expectedFee, 500, 600000⟩

/-- Where the record is stored. -/
def key (s : Settings) : String := Store.escrowKey s.brand s.ledgerId

end Settings

/-! ## Phases -/

/-- Where a bootstrap stands. While it looks for a record, `contested` says that
    somebody else had the claim when this bootstrap tried to win it. -/
inductive Phase where
  | idle
  | queueing
  | leasing
  | looking (deadline : Nat) (contested : Bool)
  | dozing (deadline : Nat) (contested : Bool)
  | napping (deadline : Nat) (contested : Bool)
  | pricing
  | claiming
  | drawing
  | submitting (keys : Crypto.KeyPair)
  | tracking (keys : Crypto.KeyPair) (workId : WorkId)
  | awaiting (keys : Crypto.KeyPair) (workId : WorkId)
  | recording (record : Record)
  | releasing (fault : Fault)
  | leaving (outcome : Except Fault Record)
  | alarming (reason : String)
  | ready (record : Record)
  | failed (reason : String)

instance : Inhabited Phase := ⟨.idle⟩

/-- What others see of a bootstrap. -/
inductive State where
  | uninitialised
  | initialising
  | ready (identity : Identity)
  | failed (reason : String)
  deriving DecidableEq

/-- Whether nothing will change any more. -/
def State.isSettled : State → Bool
  | ready _ => true
  | failed _ => true
  | _ => false

namespace Phase

def state : Phase → State
  | idle => .uninitialised
  | ready record => .ready record.identity
  | alarming reason => .failed reason
  | failed reason => .failed reason
  | _ => .initialising

/-- The identity of the escrow once it is ready. -/
def identity (s : Settings) (p : Phase) : Except Fault Identity :=
  match p.state with
  | .ready identity => .ok identity
  | .failed reason => .error (.own ("escrow bootstrap failed: " ++ reason))
  | _ => .error (.notReady ("escrow on ledger " ++ s.ledgerId))

/-- The keys of the escrow's owner once it is ready. -/
def keyPair (s : Settings) (p : Phase) : Except Fault Crypto.KeyPair :=
  match p with
  | ready record => .ok record.keys
  | _ => (p.identity s).bind fun _ => .error (.own "escrow ready without key material")

/-- Starts a bootstrap that has not been started. -/
def start? : Phase → Option Phase
  | idle => some queueing
  | _ => none

/-! ## Steps -/

/-- What a bootstrap does next, and the phase after it. -/
inductive Step where
  | rest
  | lease
  | unlease (next : Phase)
  | store (q : Store.Query) (resume : q.Answer → Phase)
  | ledger (q : Ledger.Query) (resume : q.Answer → Phase)
  | draw (resume : Except Crypto.KeyError Crypto.Key → Phase)
  | sleep (duration : Nat) (next : Phase)
  | track (workId : WorkId) (next : Phase)
  | alarm (reason : String) (next : Phase)

/-- The phase in which a bootstrap looks for a record, from now on. -/
def look (s : Settings) (now : Nat) (contested : Bool) : Phase :=
  looking (now + s.timeout) contested

/-- What was found under the key of the record. -/
def found (s : Settings) (now deadline : Nat) (contested : Bool) : Option String → Phase
  | none => if contested then claiming else pricing
  | some text =>
    if text = claimMarker then
      if deadline ≤ now then
        leaving (.error (.own ("escrow deployment claimed elsewhere did not finish within " ++
          Text.durationText s.timeout)))
      else dozing deadline contested
    else leaving (Record.parse text)

/-- The fee that the ledger charges. -/
def priced (s : Settings) (fee : Nat) : Phase :=
  if fee = s.expectedFee then claiming
  else leaving (.error (.own ("ledger fee " ++ toString fee ++
    " does not match the expected fee " ++ toString s.expectedFee)))

/-- The outcome of the deployment. -/
def judged (keys : Crypto.KeyPair) (workId : WorkId) (c : Confirmation) : Phase :=
  if c.success then
    match c.extra.text? "contractAddress" with
    | some address =>
      if address.isEmpty then
        releasing (.malformedConfirmation workId "missing contractAddress")
      else recording ⟨address, keys⟩
    | none => releasing (.malformedConfirmation workId "missing contractAddress")
  else releasing (.own ("escrow deployment " ++ workId ++ " failed: " ++
    c.reason.getD "no reason given"))

/-- What a bootstrap does next. -/
def step (s : Settings) (now : Nat) : Phase → Step
  | idle => .rest
  | queueing => .lease
  | leasing => .rest
  | looking deadline contested =>
    .store (.get s.key) fun
      | .ok text => found s now deadline contested text
      | .error e => leaving (.error (.ofStore e))
  | dozing deadline contested => .sleep s.poll (napping deadline contested)
  | napping _ _ => .rest
  | pricing =>
    .ledger .feePolicy fun
      | .ok fee => priced s fee
      | .error e => leaving (.error (.ofLedger e))
  | claiming =>
    .store (.putIfAbsent s.key claimMarker) fun
      | .ok true => drawing
      | .ok false => look s now true
      | .error e => leaving (.error (.ofStore e))
  | drawing =>
    .draw fun
      | .ok secret => submitting (.ofPrivate secret)
      | .error e => releasing (.ofKey e)
  | submitting keys =>
    .ledger (.submit (.deployEscrow keys.publicKey)) fun
      | .ok workId => tracking keys workId
      | .error e => releasing (.ofLedger e)
  | tracking keys workId => .track workId (awaiting keys workId)
  | awaiting _ _ => .rest
  | recording record =>
    .store (.put s.key record.format) fun
      | .ok _ => leaving (.ok record)
      | .error e => leaving (.error (.ofStore e))
  | releasing fault => .store (.delete s.key) fun _ => leaving (.error fault)
  | leaving (.ok record) => .unlease (ready record)
  | leaving (.error fault) => .unlease (alarming fault.message)
  | alarming reason => .alarm reason (failed reason)
  | ready _ => .rest
  | failed _ => .rest

/-! ## Waking up -/

/-- The phase after the lease was handed over. -/
def granted (s : Settings) (now : Nat) : Phase → Phase
  | leasing => look s now false
  | p => p

/-- The phase after a nap. -/
def awake : Phase → Phase
  | napping deadline contested => looking deadline contested
  | p => p

/-- The phase after the receipt of the deployment. -/
def received (c : Confirmation) : Phase → Phase
  | awaiting keys workId => judged keys workId c
  | p => p

/-- The phase after the handler of that receipt was dropped. -/
def dropped : Phase → Phase
  | awaiting _ _ => releasing (.own "escrow receipt handler dropped")
  | p => p

/-- The phase after the answer to the question that a bootstrap has put to its ledger. -/
def answered {σ : Type} (s : Settings) (now : Nat) (ask : (q : Ledger.Query) → σ → q.Answer × σ)
    (p : Phase) (w : σ) : Phase × σ :=
  match p.step s now with
  | .ledger q resume =>
    let answer := ask q w
    (resume answer.1, answer.2)
  | _ => (p, w)

end Phase

/-! ## Running -/

/-- The surroundings of a bootstrap in a world `W`: how each of its steps is carried
    out. `ledger` gives an answer that comes at once, and `track` says what to look
    forward to. -/
structure Surroundings (W : Type) where
  now : W → Nat
  lease : W → Bool × W
  unlease : W → W
  store : (q : Store.Query) → W → q.Answer × W
  ledger : (q : Ledger.Query) → W → Option q.Answer × W
  draw : W → Except Crypto.KeyError Crypto.Key × W
  sleep : Nat → W → W
  track : WorkId → W → Receipt.Prospect × W
  alarm : String → W → W

/-- Runs a bootstrap until it has to wait, at most `fuel` steps. -/
def drive {W : Type} (env : Surroundings W) (s : Settings) : Nat → Phase → W → Phase × W
  | 0, p, w => (p, w)
  | fuel + 1, p, w =>
    match p.step s (env.now w) with
    | .rest => (p, w)
    | .lease =>
      match env.lease w with
      | (true, w) => drive env s fuel (.look s (env.now w) false) w
      | (false, w) => (.leasing, w)
    | .unlease next => drive env s fuel next (env.unlease w)
    | .store q resume =>
      let answer := env.store q w
      drive env s fuel (resume answer.1) answer.2
    | .ledger q resume =>
      match env.ledger q w with
      | (some answer, w) => drive env s fuel (resume answer) w
      | (none, w) => (p, w)
    | .draw resume =>
      let drawn := env.draw w
      drive env s fuel (resume drawn.1) drawn.2
    | .sleep duration next => (next, env.sleep duration w)
    | .track workId next =>
      match env.track workId w with
      | (.atHand c, w) => drive env s fuel (next.received c) w
      | (.awaited, w) => (next, w)
      | (.dropped, w) => drive env s fuel next.dropped w
    | .alarm reason next => drive env s fuel next (env.alarm reason w)

/-- How many steps a bootstrap takes at most before it waits, as long as nobody
    else writes between its steps. -/
def stretch : Nat := 32

/-! ## What running keeps -/

/-- Whatever is done in the surroundings keeps a property of the world. -/
structure Surroundings.Keeps {W : Type} (env : Surroundings W) (P : W → Prop) : Prop where
  lease : ∀ {w}, P w → P (env.lease w).2
  unlease : ∀ {w}, P w → P (env.unlease w)
  store : ∀ q {w}, P w → P (env.store q w).2
  ledger : ∀ q {w}, P w → P (env.ledger q w).2
  draw : ∀ {w}, P w → P (env.draw w).2
  sleep : ∀ duration {w}, P w → P (env.sleep duration w)
  track : ∀ workId {w}, P w → P (env.track workId w).2
  alarm : ∀ reason {w}, P w → P (env.alarm reason w)

/-- A bootstrap that runs keeps what its surroundings keep. -/
theorem drive_keeps {W : Type} {env : Surroundings W} {P : W → Prop} (henv : env.Keeps P)
    (s : Settings) (fuel : Nat) (p : Phase) {w : W} (hw : P w) :
    P (drive env s fuel p w).2 := by
  induction fuel generalizing p w with
  | zero => exact hw
  | succ fuel ih =>
    unfold drive
    split
    · exact hw
    · have hlease := henv.lease hw
      split <;> rename_i w' h <;> rw [h] at hlease
      · exact ih _ hlease
      · exact hlease
    · exact ih _ (henv.unlease hw)
    · exact ih _ (henv.store _ hw)
    · rename_i q _ _
      have hledger := henv.ledger q hw
      split <;> rename_i h <;> rw [h] at hledger
      · exact ih _ hledger
      · exact hledger
    · exact ih _ (henv.draw hw)
    · exact henv.sleep _ hw
    · rename_i workId _ _
      have htrack := henv.track workId hw
      split <;> rename_i h <;> rw [h] at htrack
      · exact ih _ htrack
      · exact htrack
      · exact ih _ htrack
    · exact ih _ (henv.alarm _ hw)

end LedgerGate.Escrow
