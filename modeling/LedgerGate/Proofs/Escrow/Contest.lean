/-
  A contest: bootstraps that share a store and nothing else, as those of separate
  processes do.

  Every bootstrap goes from phase to phase by itself, so a run is a list of acts, each
  with the bootstrap whose act it was.  What the clock shows at a step, what ledger and
  store answer, which request fails, which handler is dropped and who crashes when is left
  open.

  * `Act`, `Phase.Goes`: one act of a bootstrap, as `Phase.step` has it;
  * `Phase.Turn`: the same as a table of all that can happen (`Phase.goes_iff_turn`);
  * `Standing`, `Advance`: all that an act can mean for the claim (`Goes.advance`);
  * `Contest.Step`, `Run`: bootstraps on one store, act after act;
  * `drive_run`: what is driven in surroundings with such a store is a run.
-/
import LedgerGate.Escrow.Bootstrap
import LedgerGate.Proofs.Store.Contract
import Mathlib.Logic.Function.Basic

namespace LedgerGate.Escrow

/-! ## Acts -/

/-- What a bootstrap does, with the answer it gets. -/
inductive Act where
  | start
  | queue
  | lease
  | unlease
  | store (q : Store.Query) (answer : q.Answer)
  | ledger (q : Ledger.Query) (answer : q.Answer)
  | draw (secret : Except Crypto.KeyError Crypto.Key)
  | doze
  | wake
  | track (workId : WorkId)
  | receive (c : Confirmation)
  | lose
  | alarm (reason : String)
  | crash

namespace Act

/-- The act wins the claim. -/
def wins : Act → Bool
  | store (.putIfAbsent _ _) (.ok true) => true
  | _ => false

/-- The act gives the claim up, be it that the request fails. -/
def yields : Act → Bool
  | store (.put _ _) _ => true
  | store (.delete _) _ => true
  | _ => false

/-- The act submits a deployment, be it that the ledger refuses. -/
def deploys : Act → Bool
  | ledger (.submit (.deployEscrow _)) _ => true
  | _ => false

/-- Whether the claim is held after an act. -/
def holdsAfter (held : Bool) (a : Act) : Bool := a.wins || (held && !a.yields)

/-- Whether the claim is held after some acts: it was won, and not given up since. -/
def holds (acts : List Act) : Bool := acts.foldl holdsAfter false

/-- The values of a store before and after an act. -/
def Changes (before after : String → Option String) : Act → Prop
  | store q answer => q.Serves (before q.key) answer (after q.key) ∧
      ∀ k ≠ q.key, after k = before k
  | _ => after = before

end Act

/-- The ways of a bootstrap from phase to phase. -/
inductive Phase.Goes (s : Settings) : Phase → Act → Phase → Prop
  | start {p p'} : p.start? = some p' → Goes s p .start p'
  | queue {p now} : p.step s now = .lease → Goes s p .queue .leasing
  | lease {p now later} : p.step s now = .lease → Goes s p .lease (.look s later false)
  | granted {now} : Goes s .leasing .lease (Phase.leasing.granted s now)
  | unlease {p now next} : p.step s now = .unlease next → Goes s p .unlease next
  | store {p now q resume} (answer : q.Answer) : p.step s now = .store q resume →
      Goes s p (.store q answer) (resume answer)
  | ledger {p now q resume} (answer : q.Answer) : p.step s now = .ledger q resume →
      Goes s p (.ledger q answer) (resume answer)
  | draw {p now resume} (secret) : p.step s now = .draw resume →
      Goes s p (.draw secret) (resume secret)
  | doze {p now duration next} : p.step s now = .sleep duration next → Goes s p .doze next
  | wake {deadline contested} : Goes s (.napping deadline contested) .wake
      (Phase.napping deadline contested).awake
  | track {p now workId next} : p.step s now = .track workId next → Goes s p (.track workId) next
  | receive {keys workId} (c) : Goes s (.awaiting keys workId) (.receive c)
      ((Phase.awaiting keys workId).received c)
  | lose {keys workId} : Goes s (.awaiting keys workId) .lose
      (Phase.awaiting keys workId).dropped
  | alarm {p now reason next} : p.step s now = .alarm reason next → Goes s p (.alarm reason) next

/-- What a bootstrap can do in each phase, act by act, and where it leads. -/
inductive Phase.Turn (s : Settings) : Phase → Act → Phase → Prop
  | start : Turn s .idle .start .queueing
  | queue : Turn s .queueing .queue .leasing
  | lease {now} : Turn s .queueing .lease (.look s now false)
  | granted {now} : Turn s .leasing .lease (.look s now false)
  | looked {now deadline contested text} :
      Turn s (.looking deadline contested) (.store (.get s.key) (.ok text))
        (.found s now deadline contested text)
  | blind {deadline contested e} :
      Turn s (.looking deadline contested) (.store (.get s.key) (.error e))
        (.leaving (.error (.ofStore e)))
  | doze {deadline contested} :
      Turn s (.dozing deadline contested) .doze (.napping deadline contested)
  | wake {deadline contested} :
      Turn s (.napping deadline contested) .wake (.looking deadline contested)
  | priced {fee} : Turn s .pricing (.ledger .feePolicy (.ok fee)) (.priced s fee)
  | unpriced {e} :
      Turn s .pricing (.ledger .feePolicy (.error e)) (.leaving (.error (.ofLedger e)))
  | won : Turn s .claiming (.store (.putIfAbsent s.key claimMarker) (.ok true)) .drawing
  | lost {now} :
      Turn s .claiming (.store (.putIfAbsent s.key claimMarker) (.ok false)) (.look s now true)
  | unclaimed {e} : Turn s .claiming (.store (.putIfAbsent s.key claimMarker) (.error e))
      (.leaving (.error (.ofStore e)))
  | drawn {secret} : Turn s .drawing (.draw (.ok secret)) (.submitting (.ofPrivate secret))
  | undrawn {e} : Turn s .drawing (.draw (.error e)) (.releasing (.ofKey e))
  | submitted {keys workId} : Turn s (.submitting keys)
      (.ledger (.submit (.deployEscrow keys.publicKey)) (.ok workId)) (.tracking keys workId)
  | unsubmitted {keys e} : Turn s (.submitting keys)
      (.ledger (.submit (.deployEscrow keys.publicKey)) (.error e)) (.releasing (.ofLedger e))
  | track {keys workId} :
      Turn s (.tracking keys workId) (.track workId) (.awaiting keys workId)
  | receive {keys workId} (c) :
      Turn s (.awaiting keys workId) (.receive c) (.judged keys workId c)
  | lose {keys workId} : Turn s (.awaiting keys workId) .lose
      (.releasing (.own "escrow receipt handler dropped"))
  | saved {record} : Turn s (.recording record) (.store (.put s.key record.format) (.ok ()))
      (.leaving (.ok record))
  | unsaved {record e} :
      Turn s (.recording record) (.store (.put s.key record.format) (.error e))
        (.leaving (.error (.ofStore e)))
  | freed {fault} (answer) :
      Turn s (.releasing fault) (.store (.delete s.key) answer) (.leaving (.error fault))
  | succeed {record} : Turn s (.leaving (.ok record)) .unlease (.ready record)
  | fail {fault} : Turn s (.leaving (.error fault)) .unlease (.alarming fault.message)
  | alarm {reason} : Turn s (.alarming reason) (.alarm reason) (.failed reason)

namespace Phase

/-- Where the answers of the store lead. -/
theorem turn_store {s : Settings} {p : Phase} {now : Nat} {q : Store.Query}
    {resume : q.Answer → Phase} (h : p.step s now = .store q resume) (answer : q.Answer) :
    Turn s p (.store q answer) (resume answer) := by
  cases p with
  | looking deadline contested =>
    cases h
    rcases answer with e | text
    · exact .blind
    · exact .looked
  | claiming =>
    cases h
    rcases answer with e | _ | _
    · exact .unclaimed
    · exact .lost
    · exact .won
  | recording record =>
    cases h
    rcases answer with e | _
    · exact .unsaved
    · exact .saved
  | releasing fault => cases h; exact .freed answer
  | leaving outcome => rcases outcome with _ | _ <;> cases h
  | _ => cases h

/-- Where the answers of the ledger lead. -/
theorem turn_ledger {s : Settings} {p : Phase} {now : Nat} {q : Ledger.Query}
    {resume : q.Answer → Phase} (h : p.step s now = .ledger q resume) (answer : q.Answer) :
    Turn s p (.ledger q answer) (resume answer) := by
  cases p with
  | pricing =>
    cases h
    rcases answer with e | fee
    · exact .unpriced
    · exact .priced
  | submitting keys =>
    cases h
    rcases answer with e | workId
    · exact .unsubmitted
    · exact .submitted
  | leaving outcome => rcases outcome with _ | _ <;> cases h
  | _ => cases h

/-- Where a draw leads. -/
theorem turn_draw {s : Settings} {p : Phase} {now : Nat}
    {resume : Except Crypto.KeyError Crypto.Key → Phase} (h : p.step s now = .draw resume)
    (secret : Except Crypto.KeyError Crypto.Key) : Turn s p (.draw secret) (resume secret) := by
  cases p with
  | drawing =>
    cases h
    rcases secret with e | k
    · exact .undrawn
    · exact .drawn
  | leaving outcome => rcases outcome with _ | _ <;> cases h
  | _ => cases h

theorem step_lease {s : Settings} {p : Phase} {now : Nat} (h : p.step s now = .lease) :
    p = .queueing := by
  cases p with
  | queueing => rfl
  | leaving outcome => rcases outcome with _ | _ <;> cases h
  | _ => cases h

theorem step_track {s : Settings} {p next : Phase} {now : Nat} {workId : WorkId}
    (h : p.step s now = .track workId next) :
    ∃ keys, p = .tracking keys workId ∧ next = .awaiting keys workId := by
  cases p with
  | tracking keys workId => cases h; exact ⟨keys, rfl, rfl⟩
  | leaving outcome => rcases outcome with _ | _ <;> cases h
  | _ => cases h

/-- **Every act is one of the turns.** -/
theorem Goes.turn {s : Settings} {p p' : Phase} {a : Act} (h : p.Goes s a p') :
    Turn s p a p' := by
  cases h with
  | start h =>
    cases p with
    | idle => cases h; exact .start
    | _ => cases h
  | queue h =>
    obtain rfl := step_lease h
    exact .queue
  | lease h =>
    obtain rfl := step_lease h
    exact .lease
  | granted => exact .granted
  | @unlease _ now next h =>
    cases p with
    | leaving outcome =>
      rcases outcome with fault | record
      · cases h; exact .fail
      · cases h; exact .succeed
    | _ => cases h
  | store answer h => exact turn_store h answer
  | ledger answer h => exact turn_ledger h answer
  | draw secret h => exact turn_draw h secret
  | @doze _ now duration next h =>
    cases p with
    | dozing deadline contested => cases h; exact .doze
    | leaving outcome => rcases outcome with _ | _ <;> cases h
    | _ => cases h
  | wake => exact .wake
  | track h =>
    obtain ⟨keys, rfl, rfl⟩ := step_track h
    exact .track
  | receive c => exact .receive c
  | lose => exact .lose
  | @alarm _ now reason next h =>
    cases p with
    | alarming reason => cases h; exact .alarm
    | leaving outcome => rcases outcome with _ | _ <;> cases h
    | _ => cases h

/-- Every turn can be taken, at some time or other. -/
theorem Turn.goes {s : Settings} {p p' : Phase} {a : Act} (h : Turn s p a p') :
    p.Goes s a p' := by
  cases h with
  | start => exact .start rfl
  | queue => exact @Goes.queue s _ 0 rfl
  | @lease now => exact @Goes.lease s _ 0 now rfl
  | granted => exact .granted
  | @looked now deadline contested text =>
    exact @Goes.store s (.looking deadline contested) now (.get s.key) _ (.ok text) rfl
  | @blind deadline contested e =>
    exact @Goes.store s (.looking deadline contested) 0 (.get s.key) _ (.error e) rfl
  | doze => exact @Goes.doze s _ 0 _ _ rfl
  | wake => exact .wake
  | @priced fee => exact @Goes.ledger s .pricing 0 .feePolicy _ (.ok fee) rfl
  | @unpriced e => exact @Goes.ledger s .pricing 0 .feePolicy _ (.error e) rfl
  | won => exact @Goes.store s .claiming 0 (.putIfAbsent s.key claimMarker) _ (.ok true) rfl
  | @lost now =>
    exact @Goes.store s .claiming now (.putIfAbsent s.key claimMarker) _ (.ok false) rfl
  | @unclaimed e =>
    exact @Goes.store s .claiming 0 (.putIfAbsent s.key claimMarker) _ (.error e) rfl
  | @drawn secret => exact @Goes.draw s .drawing 0 _ (.ok secret) rfl
  | @undrawn e => exact @Goes.draw s .drawing 0 _ (.error e) rfl
  | @submitted keys workId =>
    exact @Goes.ledger s (.submitting keys) 0 (.submit _) _ (.ok workId) rfl
  | @unsubmitted keys e =>
    exact @Goes.ledger s (.submitting keys) 0 (.submit _) _ (.error e) rfl
  | track => exact @Goes.track s _ 0 _ _ rfl
  | receive c => exact .receive c
  | lose => exact .lose
  | @saved record => exact @Goes.store s (.recording record) 0 (.put _ _) _ (.ok ()) rfl
  | @unsaved record e => exact @Goes.store s (.recording record) 0 (.put _ _) _ (.error e) rfl
  | @freed fault answer => exact @Goes.store s (.releasing fault) 0 (.delete s.key) _ answer rfl
  | @succeed record => exact @Goes.unlease s (.leaving (.ok record)) 0 _ rfl
  | @fail fault => exact @Goes.unlease s (.leaving (.error fault)) 0 _ rfl
  | @alarm reason => exact @Goes.alarm s (.alarming reason) 0 reason _ rfl

/-- A bootstrap that is answered goes on, unless it has not asked. -/
theorem answered_spec {σ : Type} (s : Settings) (now : Nat)
    (ask : (q : Ledger.Query) → σ → q.Answer × σ) (p : Phase) (w : σ) :
    (∃ q, p.Goes s (.ledger q (ask q w).1) (p.answered s now ask w).1 ∧
      (p.answered s now ask w).2 = (ask q w).2) ∨ p.answered s now ask w = (p, w) := by
  unfold answered
  cases hstep : p.step s now with
  | ledger q resume => exact .inl ⟨q, .ledger _ hstep, rfl⟩
  | _ => exact .inr rfl

/-- **The table says all that a bootstrap can do**, and nothing that it cannot. -/
theorem goes_iff_turn {s : Settings} {p p' : Phase} {a : Act} : p.Goes s a p' ↔ Turn s p a p' :=
  ⟨Goes.turn, Turn.goes⟩

end Phase

/-! ## The claim -/

/-- How a bootstrap stands to the claim: it has not won it, it has won it and may deploy,
    it has only to give it up, or it is done with it. -/
inductive Standing where
  | contending
  | claimed
  | spent
  | done
  deriving DecidableEq

/-- Whether the claim is held. -/
def Standing.owns : Standing → Bool
  | claimed => true
  | spent => true
  | _ => false

def Phase.standing : Phase → Standing
  | drawing => .claimed
  | submitting _ => .claimed
  | tracking _ _ => .spent
  | awaiting _ _ => .spent
  | recording _ => .spent
  | releasing _ => .spent
  | leaving _ => .done
  | alarming _ => .done
  | ready _ => .done
  | failed _ => .done
  | _ => .contending

/-- The act changes nothing in the matter of the claim, though a marker may be left behind
    by a request that failed. -/
def Act.Quiet (s : Settings) : Act → Prop
  | store (.get k) _ => k = s.key
  | store (.putIfAbsent k v) answer => k = s.key ∧ v = claimMarker ∧ answer ≠ .ok true
  | store _ _ => False
  | ledger (.submit (.deployEscrow _)) _ => False
  | _ => True

/-- All that an act can mean for the claim. -/
inductive Advance (s : Settings) : Standing → Act → Standing → Prop
  | quiet {x a} : a.Quiet s → Advance s x a x
  | leaves {a} : a.Quiet s → Advance s .contending a .done
  | wins : Advance s .contending (.store (.putIfAbsent s.key claimMarker) (.ok true)) .claimed
  | fails {a} : a.Quiet s → Advance s .claimed a .spent
  | deploys {owner} (answer) :
      Advance s .claimed (.ledger (.submit (.deployEscrow owner)) answer) .spent
  | saves {record : Record} (answer) :
      Advance s .spent (.store (.put s.key record.format) answer) .done
  | frees (answer) : Advance s .spent (.store (.delete s.key) answer) .done

theorem Phase.standing_found (s : Settings) (now deadline : Nat) (contested : Bool)
    (text : Option String) :
    (found s now deadline contested text).standing = .contending ∨
      (found s now deadline contested text).standing = .done := by
  unfold found
  split
  · split <;> exact Or.inl rfl
  · split
    · split
      · exact Or.inr rfl
      · exact Or.inl rfl
    · exact Or.inr rfl

theorem Phase.standing_priced (s : Settings) (fee : Nat) :
    (priced s fee).standing = .contending ∨ (priced s fee).standing = .done := by
  unfold priced
  split
  · exact Or.inl rfl
  · exact Or.inr rfl

theorem Phase.standing_judged (keys : Crypto.KeyPair) (workId : WorkId) (c : Confirmation) :
    (judged keys workId c).standing = .spent := by
  unfold judged
  split
  · split
    · split <;> rfl
    · rfl
  · rfl

/-- A quiet act of a bootstrap that contends leaves it contending, or ends its part. -/
theorem Advance.of_contending {s : Settings} {a : Act} {y : Standing} (ha : a.Quiet s)
    (hy : y = .contending ∨ y = .done) : Advance s .contending a y := by
  rcases hy with rfl | rfl
  · exact .quiet ha
  · exact .leaves ha

/-- **Every act advances the claim** in one of the ways. -/
theorem Phase.Goes.advance {s : Settings} {p p' : Phase} {a : Act} (h : p.Goes s a p') :
    Advance s p.standing a p'.standing := by
  cases h.turn with
  | start => exact .quiet trivial
  | queue => exact .quiet trivial
  | lease => exact .quiet trivial
  | granted => exact .quiet trivial
  | looked => exact .of_contending rfl (Phase.standing_found ..)
  | blind => exact .leaves rfl
  | doze => exact .quiet trivial
  | wake => exact .quiet trivial
  | priced => exact .of_contending trivial (Phase.standing_priced ..)
  | unpriced => exact .leaves trivial
  | won => exact .wins
  | lost => exact .quiet ⟨rfl, rfl, nofun⟩
  | unclaimed => exact .leaves ⟨rfl, rfl, nofun⟩
  | drawn => exact .quiet trivial
  | undrawn => exact .fails trivial
  | submitted => exact .deploys _
  | unsubmitted => exact .deploys _
  | track => exact .quiet trivial
  | receive c =>
    rw [Phase.standing_judged]
    exact .quiet trivial
  | lose => exact .quiet trivial
  | saved => exact .saves _
  | unsaved => exact .saves _
  | freed answer => exact .frees answer
  | succeed => exact .quiet trivial
  | fail => exact .quiet trivial
  | alarm => exact .quiet trivial

/-- A quiet act touches no other key, and under its own it leaves at most a marker where
    there was nothing. -/
theorem Act.Quiet.changes {s : Settings} {a : Act} (ha : a.Quiet s)
    {before after : String → Option String} (h : a.Changes before after) :
    (∀ k ≠ s.key, after k = before k) ∧ (after s.key = before s.key ∨
      before s.key = none ∧ after s.key = some claimMarker) := by
  cases a with
  | store q answer =>
    obtain ⟨hserves, hothers⟩ := h
    cases q with
    | get k =>
      obtain rfl : k = s.key := ha
      refine ⟨hothers, Or.inl ?_⟩
      rcases answer with e | found
      · exact hserves
      · exact hserves.2
    | putIfAbsent k v =>
      obtain ⟨rfl, rfl, hanswer⟩ := ha
      refine ⟨hothers, ?_⟩
      rcases answer with e | _ | _
      · rcases hserves with hsame | hwritten
        · exact Or.inl hsame
        · simp only [Store.Query.key] at hwritten
          rcases hb : before s.key with _ | text
          · exact Or.inr ⟨rfl, by rw [hwritten, hb]; rfl⟩
          · exact Or.inl (by rw [hwritten, hb]; rfl)
      · exact Or.inl hserves.2
      · exact absurd rfl hanswer
    | put k v => cases ha
    | delete k => cases ha
  | _ => exact ⟨fun k _ => congrFun h k, Or.inl (congrFun h s.key)⟩

/-- No act of a bootstrap touches another key than its own. -/
theorem Advance.changes_ne {s : Settings} {x y : Standing} {a : Act} (h : Advance s x a y)
    {before after : String → Option String} (hc : a.Changes before after) :
    ∀ k ≠ s.key, after k = before k := by
  cases h with
  | quiet ha => exact (ha.changes hc).1
  | leaves ha => exact (ha.changes hc).1
  | wins => exact hc.2
  | fails ha => exact (ha.changes hc).1
  | deploys answer => exact fun k _ => congrFun hc k
  | saves answer => exact hc.2
  | frees answer => exact hc.2

/-! ## Runs -/

/-- Bootstraps on one store: what is under every key, how far each bootstrap is, and
    which of them have crashed. -/
structure Contest (I : Type) where
  values : String → Option String
  phase : I → Phase
  crashed : I → Bool

namespace Contest

variable {I : Type} [DecidableEq I]

/-- Nobody was started yet; the store may hold anything. -/
def start (values : String → Option String) : Contest I := ⟨values, fun _ => .idle, fun _ => false⟩

/-- A bootstrap went on to a phase. -/
def goesTo (c : Contest I) (i : I) (values : String → Option String) (p : Phase) : Contest I :=
  ⟨values, Function.update c.phase i p, c.crashed⟩

/-- One bootstrap acts, or crashes and never acts again. -/
inductive Step (settings : I → Settings) : Contest I → I → Act → Contest I → Prop
  | act {c i a p values} : c.crashed i = false → (c.phase i).Goes (settings i) a p →
      a.Changes c.values values → Step settings c i a (c.goesTo i values p)
  | crash {c i} : c.crashed i = false →
      Step settings c i .crash { c with crashed := Function.update c.crashed i true }

section
variable {settings : I → Settings} {c c' : Contest I} {i j : I} {a : Act}

/-- An act is one the bootstrap can do where it is, or it is a crash, which takes it nowhere. -/
theorem Step.goes_or_crash (h : Step settings c i a c') :
    (c.phase i).Goes (settings i) a (c'.phase i) ∨ a = .crash ∧ c'.phase i = c.phase i := by
  cases h with
  | act hc hgo hch => exact Or.inl (by simpa only [goesTo, Function.update_self] using hgo)
  | crash hc => exact Or.inr ⟨rfl, rfl⟩

theorem Step.goes (h : Step settings c i a c') (ha : a ≠ .crash) :
    (c.phase i).Goes (settings i) a (c'.phase i) :=
  h.goes_or_crash.resolve_right fun hcrash => ha hcrash.1

theorem Step.changes (h : Step settings c i a c') : a.Changes c.values c'.values := by
  cases h with
  | act hc hgo hch => exact hch
  | crash hc => rfl

/-- Nobody moves when another acts. -/
theorem Step.phase_ne (h : Step settings c i a c') (hj : j ≠ i) : c'.phase j = c.phase j := by
  cases h with
  | act hc hgo hch => exact Function.update_of_ne hj ..
  | crash hc => rfl

/-- Nobody crashes when another acts. -/
theorem Step.crashed_ne (h : Step settings c i a c') (hj : j ≠ i) :
    c'.crashed j = c.crashed j := by
  cases h with
  | act hc hgo hch => rfl
  | crash hc => exact Function.update_of_ne hj ..

end

/-- A run, with the acts in their order. -/
inductive Run (settings : I → Settings) : Contest I → List (I × Act) → Contest I → Prop
  | refl (c) : Run settings c [] c
  | snoc {c trace c' i a c''} : Run settings c trace c' → Step settings c' i a c'' →
      Run settings c (trace ++ [(i, a)]) c''

/-- The acts of one bootstrap. -/
def actsOf (i : I) (trace : List (I × Act)) : List Act := (trace.filter (·.1 = i)).map (·.2)

@[simp]
theorem actsOf_nil (i : I) : actsOf i [] = [] := rfl

@[simp]
theorem actsOf_concat_self (i : I) (trace : List (I × Act)) (a : Act) :
    actsOf i (trace ++ [(i, a)]) = actsOf i trace ++ [a] := by
  simp [actsOf, List.filter_append]

theorem actsOf_concat_ne {i j : I} (h : i ≠ j) (trace : List (I × Act)) (a : Act) :
    actsOf j (trace ++ [(i, a)]) = actsOf j trace := by
  simp [actsOf, List.filter_append, h]

variable {settings : I → Settings} {c c' c'' : Contest I} {trace t₁ t₂ : List (I × Act)}

theorem Run.append (h₁ : Run settings c t₁ c') (h₂ : Run settings c' t₂ c'') :
    Run settings c (t₁ ++ t₂) c'' := by
  induction h₂ with
  | refl => rwa [List.append_nil]
  | snoc _ hstep ih =>
    rw [← List.append_assoc]
    exact .snoc ih hstep

theorem Run.single {i : I} {a : Act} (h : Step settings c i a c') : Run settings c [(i, a)] c' :=
  .snoc (.refl c) h

theorem Run.cons {i : I} {a : Act} (h : Step settings c i a c') (ht : Run settings c' trace c'') :
    Run settings c ((i, a) :: trace) c'' := (Run.single h).append ht

/-- A run passes through every point between its acts. -/
theorem Run.split (h : Run settings c (t₁ ++ t₂) c'') :
    ∃ c', Run settings c t₁ c' ∧ Run settings c' t₂ c'' := by
  generalize ht : t₁ ++ t₂ = trace at h
  induction h generalizing t₂ with
  | refl =>
    obtain ⟨rfl, rfl⟩ := List.append_eq_nil_iff.1 ht
    exact ⟨_, .refl _, .refl _⟩
  | @snoc _ _ i a _ hrun hstep ih =>
    rcases List.eq_nil_or_concat t₂ with rfl | ⟨t₃, e, rfl⟩
    · rw [List.append_nil] at ht
      subst ht
      exact ⟨_, .snoc hrun hstep, .refl _⟩
    · rw [List.concat_eq_append, ← List.append_assoc] at ht
      obtain ⟨rfl, he⟩ := List.append_inj' ht rfl
      obtain rfl : e = (i, a) := by simpa using he
      obtain ⟨c', h₁, h₂⟩ := ih rfl
      exact ⟨c', h₁, by rw [List.concat_eq_append]; exact .snoc h₂ hstep⟩

/-- The last act of a run. -/
theorem Run.last {i : I} {a : Act} (h : Run settings c (trace ++ [(i, a)]) c'') :
    ∃ c', Run settings c trace c' ∧ Step settings c' i a c'' := by
  generalize ht : trace ++ [(i, a)] = t at h
  cases h with
  | refl => simp at ht
  | snoc hrun hstep =>
    obtain ⟨rfl, he⟩ := List.append_inj' ht rfl
    obtain ⟨rfl, rfl⟩ : i = _ ∧ a = _ := by simpa using he
    exact ⟨_, hrun, hstep⟩

end Contest

/-- Surroundings whose store is `view`: it serves requests, and nothing else that is done
    there changes it. -/
structure Surroundings.OnStore {W : Type} (env : Surroundings W)
    (view : W → String → Option String) : Prop where
  store : ∀ q w, Act.Changes (view w) (view (env.store q w).2) (.store q (env.store q w).1)
  lease : ∀ w, view (env.lease w).2 = view w
  unlease : ∀ w, view (env.unlease w) = view w
  ledger : ∀ q w, view (env.ledger q w).2 = view w
  draw : ∀ w, view (env.draw w).2 = view w
  sleep : ∀ duration w, view (env.sleep duration w) = view w
  track : ∀ workId w, view (env.track workId w).2 = view w
  alarm : ∀ reason w, view (env.alarm reason w) = view w

namespace Contest

variable {I W : Type} [DecidableEq I] {settings : I → Settings} {env : Surroundings W}
  {view : W → String → Option String}

theorem goesTo_goesTo (c : Contest I) (i : I) (v v' : String → Option String) (p p' : Phase) :
    (c.goesTo i v p).goesTo i v' p' = c.goesTo i v' p' := by
  simp only [goesTo, Function.update_idem]

theorem goesTo_self (c : Contest I) (i : I) : c.goesTo i c.values (c.phase i) = c := by
  simp only [goesTo, Function.update_eq_self]

/-- Some acts of a bootstrap take it to a phase and the store to the values of a world. -/
def Drives (settings : I → Settings) (view : W → String → Option String) (c : Contest I) (i : I)
    (result : Phase × W) : Prop :=
  ∃ acts : List Act, Run settings c (acts.map (i, ·)) (c.goesTo i (view result.2) result.1)

section
variable {c : Contest I} {i : I} {p : Phase} {w w' : W} {a : Act}

theorem Drives.refl (hv : c.values = view w) : Drives settings view c i (c.phase i, w) :=
  ⟨[], by rw [← hv, goesTo_self]; exact .refl c⟩

theorem Drives.act (hc : c.crashed i = false) (hgo : (c.phase i).Goes (settings i) a p)
    (hch : a.Changes c.values (view w')) : Drives settings view c i (p, w') :=
  ⟨[a], .single (.act hc hgo hch)⟩

theorem Drives.trans {result : Phase × W} (h₁ : Drives settings view c i (p, w))
    (h₂ : Drives settings view (c.goesTo i (view w) p) i result) :
    Drives settings view c i result := by
  obtain ⟨first, hfirst⟩ := h₁
  obtain ⟨second, hsecond⟩ := h₂
  rw [goesTo_goesTo] at hsecond
  exact ⟨first ++ second, by rw [List.map_append]; exact hfirst.append hsecond⟩

end

/-- **A driven bootstrap takes part in a run**: in surroundings with the contest's store,
    what `drive` does is some acts of that bootstrap. -/
theorem drive_run (henv : env.OnStore view) {c : Contest I} {i : I} (fuel : Nat) (p : Phase)
    {w : W} (hc : c.crashed i = false) (hp : c.phase i = p) (hv : c.values = view w) :
    Drives settings view c i (drive env (settings i) fuel p w) := by
  induction fuel generalizing c p w with
  | zero => exact hp ▸ .refl hv
  | succ fuel ih =>
    subst hp
    -- an act, and then whatever the rest of the drive does
    have go : ∀ {a p w'}, (c.phase i).Goes (settings i) a p → a.Changes c.values (view w') →
        Drives settings view c i (drive env (settings i) fuel p w') :=
      fun hgo hch => .trans (.act hc hgo hch) (ih _ hc (Function.update_self ..) rfl)
    unfold drive
    cases hs : (c.phase i).step (settings i) (env.now w) with
    | rest => exact .refl hv
    | lease =>
      have hl := henv.lease w
      rcases hw : env.lease w with ⟨_ | _, w'⟩ <;> rw [hw] at hl
      · exact .act hc (.queue hs) (hl.trans hv.symm)
      · exact go (.lease hs) (hl.trans hv.symm)
    | unlease next => exact go (.unlease hs) ((henv.unlease w).trans hv.symm)
    | store q resume =>
      have hch := henv.store q w
      rw [← hv] at hch
      exact go (.store _ hs) hch
    | ledger q resume =>
      have hl := henv.ledger q w
      rcases hw : env.ledger q w with ⟨_ | answer, w'⟩ <;> rw [hw] at hl <;> simp only [hw]
      · -- the bootstrap stays where it is until its ledger answers
        exact .refl (hv.trans hl.symm)
      · exact go (.ledger answer hs) (hl.trans hv.symm)
    | draw resume => exact go (.draw _ hs) ((henv.draw w).trans hv.symm)
    | sleep duration next => exact .act hc (.doze hs) ((henv.sleep duration w).trans hv.symm)
    | track workId next =>
      obtain ⟨keys, -, rfl⟩ := Phase.step_track hs
      have ht := henv.track workId w
      rcases hw : env.track workId w with ⟨prospect, w'⟩
      rw [hw] at ht
      simp only [hw]
      have htracked : Drives settings view c i (.awaiting keys workId, w') :=
        .act hc (.track hs) (ht.trans hv.symm)
      -- tracking is followed at once by an act for which the bootstrap need not wait
      have goOn : ∀ {a p}, (Phase.awaiting keys workId).Goes (settings i) a p →
          a.Changes (view w') (view w') →
          Drives settings view c i (drive env (settings i) fuel p w') := by
        intro a p hgo hch
        have hawaiting : (c.goesTo i (view w') (.awaiting keys workId)).phase i =
            .awaiting keys workId := Function.update_self ..
        have hnext : Drives settings view (c.goesTo i (view w') (.awaiting keys workId)) i
            (p, w') := .act hc (hawaiting.symm ▸ hgo) hch
        exact .trans (htracked.trans hnext) (ih _ hc (Function.update_self ..) rfl)
      cases prospect with
      | atHand receipt => exact goOn (.receive receipt) rfl
      | awaited => exact htracked
      | dropped => exact goOn .lose rfl
    | alarm reason next => exact go (.alarm hs) ((henv.alarm reason w).trans hv.symm)

end Contest

end LedgerGate.Escrow
