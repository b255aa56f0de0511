/-
  Restarts: what a bootstrap makes of the record of an earlier deployment.

  Once a bootstrap is ready after a deployment of its own, its record is under the key
  for good.  Whoever starts later reads it, asks the ledger nothing and writes nothing;
  but it ends where the first one stands only if the record reads back as it was.

  * `Phase.Keeps`, `kept_of_run`: what was deployed is what is stored;
  * `Phase.Reopens`: the ways of a bootstrap that finds a record when it starts;
  * `Contest.restart`: **the outcome of every later start**;
  * `drive_restart`: the same when a bootstrap is driven without a break.
-/
import LedgerGate.Proofs.Escrow.Claim
import LedgerGate.Proofs.Escrow.Record

namespace LedgerGate.Escrow

/-! ## What was deployed -/

/-- The record is one that a deployment can yield. -/
def Record.Made (r : Record) : Prop := r.address ≠ "" ∧ ∃ secret, r.keys = .ofPrivate secret

/-- What a bootstrap has in hand of its deployment, with what is under its key; its record
    is its own only if it has won the claim. -/
def Phase.Keeps (won : Prop) (text : Option String) : Phase → Prop
  | submitting keys => ∃ secret, keys = .ofPrivate secret
  | tracking keys _ => ∃ secret, keys = .ofPrivate secret
  | awaiting keys _ => ∃ secret, keys = .ofPrivate secret
  | recording record => record.Made
  | leaving (.ok record) => won → record.Made ∧ text = some record.format
  | ready record => won → record.Made ∧ text = some record.format
  | _ => True

theorem Phase.keeps_found (s : Settings) (now deadline : Nat) (contested : Bool)
    (found : Option String) {won : Prop} (hwon : ¬ won) (text : Option String) :
    (Phase.found s now deadline contested found).Keeps won text := by
  unfold Phase.found
  split
  · split <;> trivial
  · split
    · split <;> trivial
    · generalize Record.parse _ = outcome
      rcases outcome with f | record
      · trivial
      · exact fun h => absurd h hwon

theorem Phase.keeps_judged {keys : Crypto.KeyPair} (hkeys : ∃ secret, keys = .ofPrivate secret)
    (workId : WorkId) (c : Confirmation) (won : Prop) (text : Option String) :
    (Phase.judged keys workId c).Keeps won text := by
  unfold Phase.judged
  split
  · split
    · rename_i address _
      split
      · trivial
      · rename_i hempty
        refine ⟨?_, hkeys⟩
        rwa [String.isEmpty_iff] at hempty
    · trivial
  · trivial

/-- A bootstrap keeps what it has in hand with every act of its own. -/
theorem Phase.Goes.keeps {s : Settings} {p p' : Phase} {a : Act} (h : p.Goes s a p')
    {before after : String → Option String} (hch : a.Changes before after) {won : Prop}
    (hwon : p.standing = .contending → ¬ won) (hk : p.Keeps won (before s.key)) :
    p'.Keeps (won ∨ a.wins) (after s.key) := by
  cases h.turn with
  | looked =>
    refine Phase.keeps_found _ _ _ _ _ (fun hw => ?_) _
    exact hw.elim (hwon rfl) nofun
  | priced => unfold Phase.priced; split <;> trivial
  | drawn => exact ⟨_, rfl⟩
  | submitted => exact hk
  | track => exact hk
  | receive c => exact Phase.keeps_judged hk _ c _ _
  | saved => exact fun _ => ⟨hk, hch.1⟩
  | succeed =>
    obtain rfl : after = before := hch
    exact fun hw => hk (hw.resolve_right nofun)
  | _ => trivial

namespace Contest

variable {I : Type} [DecidableEq I] {settings : I → Settings} {values : String → Option String}
  {trace more : List (I × Act)} {c c' : Contest I}

/-- The record of a bootstrap stays under its key when another acts. -/
theorem Sound.keeps_other (hs : Sound settings trace c) {j : I} {a : Act}
    (hstep : Step settings c j a c') {i : I} (hphase : c'.phase i = c.phase i) {won : Prop}
    (hk : (c.phase i).Keeps won (c.values (settings i).key)) :
    (c'.phase i).Keeps won (c'.values (settings i).key) := by
  have hstays : ∀ record : Record, c.values (settings i).key = some record.format →
      c'.values (settings i).key = some record.format := fun record htext =>
    (hs.settled htext record.format_ne_claimMarker (Run.single hstep)).1
  rw [hphase]
  generalize c.phase i = p at hk
  cases p with
  | leaving outcome =>
    rcases outcome with f | record
    · trivial
    · exact fun hw => ⟨(hk hw).1, hstays record (hk hw).2⟩
  | ready record => exact fun hw => ⟨(hk hw).1, hstays record (hk hw).2⟩
  | _ => exact hk

/-- **What was deployed is what is stored**: in every run every bootstrap that won its
    claim keeps what it has in hand. -/
theorem kept_of_run (h : Run settings (start values) trace c) (i : I) :
    (c.phase i).Keeps (0 < Act.winsOf (actsOf i trace)) (c.values (settings i).key) := by
  induction h with
  | refl => trivial
  | @snoc before c₁ j a c₂ hrun hstep ih =>
    have hs := sound_of_run hrun
    by_cases hj : j = i
    · subst hj
      have hwon : (0 < Act.winsOf (actsOf j (before ++ [(j, a)]))) =
          (0 < Act.winsOf (actsOf j before) ∨ a.wins) := by
        rw [actsOf_concat_self, Act.winsOf_concat]
        cases a.wins <;> simp
      rw [hwon]
      cases hstep with
      | act _ hgo hch =>
        simp only [goesTo, Function.update_self]
        refine hgo.keeps hch (fun hcont => ?_) ih
        have hfits := hs.fits j
        rw [hcont] at hfits
        have := hfits.1
        omega
      | crash => simpa [Act.wins] using ih
    · rw [actsOf_concat_ne hj]
      refine hs.keeps_other hstep ?_ ih
      cases hstep with
      | act => exact Function.update_of_ne (Ne.symm hj) ..
      | crash => rfl

end Contest

/-! ## Starting later -/

/-- The act reads under the key of the bootstrap, or it is neither for the store nor for
    the ledger. -/
def Act.Reads (s : Settings) : Act → Prop
  | store (.get k) _ => k = s.key
  | store _ _ => False
  | ledger _ _ => False
  | _ => True

/-- What a later start may come to: what the record reads as, or a failure to read it. -/
def Record.Outcome (r : Record) (s : Settings) (acts : List Act) (o : Except Fault Record) : Prop :=
  o = r.reread ∨ ∃ e, .store (.get s.key) (.error e) ∈ acts ∧ o = .error (.ofStore e)

theorem Record.Outcome.more {r : Record} {s : Settings} {acts : List Act}
    {o : Except Fault Record} (h : r.Outcome s acts o) (a : Act) : r.Outcome s (acts ++ [a]) o := by
  rcases h with h | ⟨e, he, ho⟩
  · exact Or.inl h
  · exact Or.inr ⟨e, List.mem_append_left _ he, ho⟩

/-- Where a bootstrap can be that finds a record when it starts. -/
def Phase.Reopens (outcome : Except Fault Record → Prop) : Phase → Prop
  | idle => True
  | queueing => True
  | leasing => True
  | looking _ _ => True
  | leaving o => outcome o
  | alarming reason => ∃ f, outcome (.error f) ∧ reason = f.message
  | failed reason => ∃ f, outcome (.error f) ∧ reason = f.message
  | ready record => outcome (.ok record)
  | _ => False

theorem Phase.Reopens.imp {p : Phase} {o o' : Except Fault Record → Prop} (h : p.Reopens o)
    (himp : ∀ x, o x → o' x) : p.Reopens o' := by
  cases p with
  | leaving x => exact himp x h
  | alarming reason =>
    obtain ⟨f, hf, hr⟩ := h
    exact ⟨f, himp _ hf, hr⟩
  | failed reason =>
    obtain ⟨f, hf, hr⟩ := h
    exact ⟨f, himp _ hf, hr⟩
  | ready record => exact himp _ h
  | idle | queueing | leasing | looking => trivial
  | _ => cases h

/-- Whoever looks and finds a record leaves with what it reads as. -/
theorem Phase.found_format (s : Settings) (now deadline : Nat) (contested : Bool) {r : Record}
    (hr : r.Made) : Phase.found s now deadline contested (some r.format) = .leaving r.reread := by
  rw [Phase.found, if_neg r.format_ne_claimMarker, Record.parse_format hr.2]

/-- How many acts are left at most until the end. -/
def Phase.toGo : Phase → Nat
  | idle => 6
  | queueing => 5
  | leasing => 4
  | looking _ _ => 3
  | leaving _ => 2
  | alarming _ => 1
  | _ => 0

/-- A bootstrap that finds a record reads it and comes closer to its end. -/
theorem Phase.Goes.reopens {s : Settings} {p p' : Phase} {a : Act} (h : p.Goes s a p')
    {before after : String → Option String} (hch : a.Changes before after) {r : Record}
    (hr : r.Made) (htext : before s.key = some r.format) {acts : List Act}
    (hp : p.Reopens (r.Outcome s acts)) :
    a.Reads s ∧ p'.toGo < p.toGo ∧ p'.Reopens (r.Outcome s (acts ++ [a])) := by
  cases h.turn with
  | start => exact ⟨trivial, Nat.lt_succ_self _, trivial⟩
  | queue => exact ⟨trivial, Nat.lt_succ_self _, trivial⟩
  | lease => exact ⟨trivial, by simp [Phase.look, Phase.toGo], trivial⟩
  | granted => exact ⟨trivial, Nat.lt_succ_self _, trivial⟩
  | @looked now deadline contested text =>
    have hfound : text = some r.format := hch.1.1.trans htext
    rw [hfound, Phase.found_format s now deadline contested hr]
    exact ⟨rfl, Nat.lt_succ_self _, Or.inl rfl⟩
  | @blind deadline contested e =>
    exact ⟨rfl, Nat.lt_succ_self _, Or.inr ⟨e, by simp, rfl⟩⟩
  | succeed => exact ⟨trivial, Nat.succ_pos _, Record.Outcome.more hp _⟩
  | fail => exact ⟨trivial, Nat.lt_succ_self _, _, Record.Outcome.more hp _, rfl⟩
  | alarm =>
    obtain ⟨f, hf, hreason⟩ := hp
    exact ⟨trivial, Nat.succ_pos _, f, hf.more _, hreason⟩
  | _ => cases hp

namespace Contest

variable {I : Type} [DecidableEq I] {settings : I → Settings} {values : String → Option String}
  {trace more : List (I × Act)} {c c' : Contest I} {i j : I} {r : Record}

/-- What holds of a bootstrap that was started when a record was there: it only reads, it
    is on its way, and it gets on. -/
structure Reopening (settings : I → Settings) (r : Record) (j : I) (acts : List Act)
    (c : Contest I) : Prop where
  reads : ∀ a ∈ acts, a.Reads (settings j)
  reopens : (c.phase j).Reopens (r.Outcome (settings j) acts)
  brisk : acts.length + (c.phase j).toGo ≤ 6 + (c.crashed j).toNat

/-- One more act of some bootstrap. -/
theorem Reopening.step {acts : List (I × Act)} (h : Reopening settings r j (actsOf j acts) c)
    (hr : r.Made) (htext : c.values (settings j).key = some r.format) {a : Act}
    (hstep : Step settings c i a c') :
    Reopening settings r j (actsOf j (acts ++ [(i, a)])) c' := by
  by_cases hij : i = j
  · subst hij
    rw [actsOf_concat_self]
    have hmem : a.Reads (settings i) →
        ∀ b ∈ actsOf i acts ++ [a], b.Reads (settings i) := by
      intro ha b hb
      rcases List.mem_append.1 hb with hb | hb
      · exact h.reads b hb
      · rwa [List.mem_singleton.1 hb]
    have hbrisk := h.brisk
    cases hstep with
    | act hc hgo hch =>
      obtain ⟨hreads, hless, hreopens⟩ := hgo.reopens hch hr htext h.reopens
      refine ⟨hmem hreads, ?_, ?_⟩
      · simpa only [goesTo, Function.update_self] using hreopens
      · simp only [goesTo, Function.update_self, List.length_append, List.length_singleton]
        omega
    | crash hc =>
      refine ⟨hmem trivial, h.reopens.imp fun o ho => ho.more _, ?_⟩
      simp only [Function.update_self, List.length_append, List.length_singleton, Bool.toNat_true]
      rw [hc, Bool.toNat_false] at hbrisk
      omega
  · rw [actsOf_concat_ne hij]
    cases hstep with
    | act hc hgo hch =>
      have hphase : ∀ v p, (c.goesTo i v p).phase j = c.phase j :=
        fun v p => Function.update_of_ne (Ne.symm hij) ..
      exact ⟨h.reads, by rw [hphase]; exact h.reopens, by rw [hphase]; exact h.brisk⟩
    | crash hc =>
      refine ⟨h.reads, h.reopens, ?_⟩
      simp only [Function.update_of_ne (Ne.symm hij)]
      exact h.brisk

/-- A run in which a record is there from the start. -/
theorem reopening_of_run (hs : Sound settings trace c) (hr : r.Made)
    (htext : c.values (settings j).key = some r.format) (hidle : c.phase j = .idle)
    (h : Run settings c more c') : Reopening settings r j (actsOf j more) c' := by
  induction h with
  | refl =>
    refine ⟨fun _ ha => absurd ha List.not_mem_nil, by rw [hidle]; trivial, ?_⟩
    rw [hidle]
    exact Nat.le_add_right 6 _
  | snoc hrun hstep ih =>
    exact ih.step hr (hs.settled htext r.format_ne_claimMarker hrun).1 hstep

/-- On its way a bootstrap can always go on, unless it has crashed. -/
theorem Reopening.live {acts : List Act} (h : Reopening settings r j acts c)
    (hc : c.crashed j = false) (hopen : (c.phase j).state.isSettled = false) :
    ∃ a c', a ≠ .crash ∧ Step settings c j a c' := by
  have act : ∀ (a : Act) {p}, Phase.Turn (settings j) (c.phase j) a p →
      a.Changes c.values c.values → a ≠ .crash → ∃ a c', a ≠ .crash ∧ Step settings c j a c' :=
    fun a _ hturn hch ha => ⟨a, _, ha, .act hc hturn.goes hch⟩
  have hp := h.reopens
  cases hphase : c.phase j with
  | idle =>
    rw [hphase] at act
    exact act .start .start rfl nofun
  | queueing =>
    rw [hphase] at act
    exact act .lease (@Phase.Turn.lease _ 0) rfl nofun
  | leasing =>
    rw [hphase] at act
    exact act .lease (@Phase.Turn.granted _ 0) rfl nofun
  | looking deadline contested =>
    rw [hphase] at act
    exact act (.store (.get (settings j).key) (.ok (c.values (settings j).key)))
      (@Phase.Turn.looked _ 0 _ _ _) ⟨⟨rfl, rfl⟩, fun _ _ => rfl⟩ nofun
  | leaving outcome =>
    rw [hphase] at act
    rcases outcome with fault | record
    · exact act .unlease .fail rfl nofun
    · exact act .unlease .succeed rfl nofun
  | alarming reason => rw [hphase] at hopen; cases hopen
  | ready record => rw [hphase] at hopen; cases hopen
  | failed reason => rw [hphase] at hopen; cases hopen
  | _ => rw [hphase] at hp; cases hp

/-! ## Restarts -/

/-- What becomes of a bootstrap that starts when the record is there; `acts` are its own. -/
structure Restarted (settings : I → Settings) (r : Record) (j : I) (acts : List Act)
    (c : Contest I) : Prop where
  /-- It asks the ledger nothing and writes nothing. -/
  reads : ∀ a ∈ acts, a.Reads (settings j)
  /-- It takes six acts at most. -/
  brisk : c.crashed j = false → acts.length ≤ 6
  /-- It can go on until it has come to its end, unless it has crashed. -/
  live : c.crashed j = false → (c.phase j).state.isSettled = false →
    ∃ a c', a ≠ .crash ∧ Step settings c j a c'
  /-- In the end it is ready with what the record reads as, or it failed because the record
      does not read, or because the store could not be read. -/
  ends : (c.phase j).state.isSettled →
    (∃ r', r.reread = .ok r' ∧ c.phase j = .ready r') ∨
      (∃ f, r.reread = .error f ∧ (c.phase j).state = .failed f.message) ∨
      ∃ e, .store (.get (settings j).key) (.error e) ∈ acts ∧
        (c.phase j).state = .failed (Fault.ofStore e).message
  /-- If the store could be read, it ends with the very same record exactly if the address is
      one line without blanks around it. -/
  same : (c.phase j).state.isSettled →
    (∀ e, .store (.get (settings j).key) (.error e) ∉ acts) →
    (c.phase j = .ready r ↔ '\n' ∉ r.address.toList ∧ Text.trim r.address = r.address)

omit [DecidableEq I] in
theorem Reopening.ends {acts : List Act} (h : Reopening settings r j acts c)
    (hsettled : (c.phase j).state.isSettled) :
    (∃ r', r.reread = .ok r' ∧ c.phase j = .ready r') ∨
      (∃ f, r.reread = .error f ∧ (c.phase j).state = .failed f.message) ∨
      ∃ e, .store (.get (settings j).key) (.error e) ∈ acts ∧
        (c.phase j).state = .failed (Fault.ofStore e).message := by
  have hp := h.reopens
  have hfault : ∀ {f reason}, (c.phase j).state = .failed reason → reason = f.message →
      r.Outcome (settings j) acts (.error f) →
      (∃ f, r.reread = .error f ∧ (c.phase j).state = .failed f.message) ∨
        ∃ e, .store (.get (settings j).key) (.error e) ∈ acts ∧
          (c.phase j).state = .failed (Fault.ofStore e).message := by
    intro f reason hstate hreason hf
    subst hreason
    rcases hf with hf | ⟨e, he, hf⟩
    · exact Or.inl ⟨f, hf.symm, hstate⟩
    · obtain rfl : f = .ofStore e := Except.error.inj hf
      exact Or.inr ⟨e, he, hstate⟩
  cases hphase : c.phase j with
  | ready record =>
    rw [hphase] at hp
    rcases hp with hr | ⟨e, -, hr⟩
    · exact Or.inl ⟨record, hr.symm, rfl⟩
    · cases hr
  | alarming reason =>
    rw [hphase] at hp hfault
    obtain ⟨f, hf, hreason⟩ := hp
    exact Or.inr (hfault rfl hreason hf)
  | failed reason =>
    rw [hphase] at hp hfault
    obtain ⟨f, hf, hreason⟩ := hp
    exact Or.inr (hfault rfl hreason hf)
  | _ => rw [hphase] at hsettled; cases hsettled

/-- **The outcome of every later start.**  Once a bootstrap is ready after a deployment of
    its own, whoever starts with the same key reads its record and writes nothing, whatever
    others do meanwhile; it ends where the first one stands exactly if the address of the
    contract is one line without blanks around it. -/
theorem restart (h : Run settings (start values) trace c) {a : Act} (hmem : (i, a) ∈ trace)
    (ha : a.deploys) (hready : c.phase i = .ready r) (hkey : (settings j).key = (settings i).key)
    (hidle : c.phase j = .idle) (hmore : Run settings c more c') :
    Restarted settings r j (actsOf j more) c' := by
  have hs := sound_of_run h
  have hwon : 0 < Act.winsOf (actsOf i trace) := by
    have hdeploys : 0 < Act.deploysOf (actsOf i trace) := by
      refine List.countP_pos_iff.2 ⟨a, ?_, ha⟩
      exact List.mem_map.2 ⟨(i, a), List.mem_filter.2 ⟨hmem, by simp⟩, rfl⟩
    have := (hs.fits i).deploys_le.1
    omega
  have hkept := kept_of_run h i
  rw [hready] at hkept
  obtain ⟨hmade, htext⟩ := hkept hwon
  rw [← hkey] at htext
  have hopen := reopening_of_run hs hmade htext hidle hmore
  refine ⟨hopen.reads, fun hc => ?_, hopen.live, hopen.ends, fun hsettled hread => ?_⟩
  · have hbrisk := hopen.brisk
    rw [hc, Bool.toNat_false] at hbrisk
    omega
  · rw [← Record.reread_eq_ok_self hmade.1]
    constructor
    · intro hphase
      have hp := hopen.reopens
      rw [hphase] at hp
      rcases hp with hr | ⟨e, he, -⟩
      · exact hr.symm
      · exact absurd he (hread e)
    · intro hr
      rcases hopen.ends hsettled with ⟨r', hr', hphase⟩ | ⟨f, hf, -⟩ | ⟨e, he, -⟩
      · obtain rfl : r = r' := Except.ok.inj (hr.symm.trans hr')
        exact hphase
      · rw [hr] at hf; cases hf
      · exact absurd he (hread e)

/-- The first of two deploys a contract whose address ends in a line break and is ready. -/
def deployment : List (Bool × Act) := winning ++ deploying "0xE\n" ++ [(true, .unlease)]

/-- Then the second starts, reads and fails. -/
def sequel : List (Bool × Act) :=
  [(false, .start), (false, .lease),
    (false, .store (.get (duel false).key) (.ok (some (prize "0xE\n").format))), (false, .unlease)]

theorem run_deployment : Run duel (start fun _ => none) deployment
    (between (some (prize "0xE\n").format) (.ready (prize "0xE\n")) .idle) := by
  have hready : Step duel
      (between (some (prize "0xE\n").format) (.leaving (.ok (prize "0xE\n"))) .idle) true _
      (between (some (prize "0xE\n").format) (.ready (prize "0xE\n")) .idle) :=
    between_first .succeed rfl
  rw [start_between]
  exact ((run_winning _).append (run_deploying rfl _)).append (.single hready)

theorem run_sequel : ∃ reason, Run duel
    (between (some (prize "0xE\n").format) (.ready (prize "0xE\n")) .idle) sequel
    (between (some (prize "0xE\n").format) (.ready (prize "0xE\n")) (.alarming reason)) := by
  have hmade : (prize "0xE\n").Made := ⟨by decide, default, rfl⟩
  have hreread : (prize "0xE\n").reread = .error (Record.malformed "expected three lines") :=
    if_pos (by decide)
  have hfound := @Phase.Turn.looked (duel false) 0 (0 + (duel false).timeout) false
    (some (prize "0xE\n").format)
  rw [Phase.found_format _ _ _ _ hmade, hreread] at hfound
  exact ⟨_,
    .cons (between_second .start rfl) <|
    .cons (between_second (@Phase.Turn.lease _ 0) rfl) <|
    .cons (between_second hfound (between_changes rfl ⟨rfl, rfl⟩)) <|
    .single (between_second .fail rfl)⟩

/-- The first is ready after its own deployment, and the second, which starts later and reads
    without fault, ends elsewhere. -/
theorem restart_sequel : ∃ c', Run duel
    (between (some (prize "0xE\n").format) (.ready (prize "0xE\n")) .idle) sequel c' ∧
      (c'.phase false).state.isSettled ∧ c'.phase false ≠ .ready (prize "0xE\n") := by
  obtain ⟨reason, hsequel⟩ := run_sequel
  have hdeploy : (true, Act.ledger (.submit (.deployEscrow (prize "0xE\n").keys.publicKey))
      (.ok "0x1")) ∈ deployment :=
    List.mem_append_left _ (List.mem_append_right _ (.tail _ (.head _)))
  have h := restart run_deployment hdeploy rfl rfl (j := false) rfl rfl hsequel
  refine ⟨_, hsequel, rfl, fun hready => ?_⟩
  have hread : ∀ e, .store (.get (duel false).key) (.error e) ∉ actsOf false sequel := by
    intro e he
    have hacts : actsOf false sequel = [.start, .lease,
        .store (.get (duel false).key) (.ok (some (prize "0xE\n").format)), .unlease] := rfl
    rw [hacts] at he
    rcases he with _ | ⟨_, _ | ⟨_, _ | ⟨_, _ | ⟨_, ⟨⟩⟩⟩⟩⟩
  have hsame := (h.same rfl hread).1 hready
  exact absurd (by decide : '\n' ∈ "0xE\n".toList) hsame.1

end Contest

/-- **A driven restart**: where a record can be read, a bootstrap goes from its start to its
    end without a break, and all it does to its surroundings is to take the lease, read,
    give the lease up and, if the record does not read, raise the alarm. -/
theorem drive_restart {W : Type} {env : Surroundings W} {s : Settings} {w w₁ w₂ : W} {r : Record}
    (hr : r.Made) (hlease : env.lease w = (true, w₁))
    (hread : env.store (.get s.key) w₁ = (.ok (some r.format), w₂)) (fuel : Nat) :
    drive env s (fuel + 5) .queueing w =
      match r.reread with
      | .ok r' => (.ready r', env.unlease w₂)
      | .error f => (.failed f.message, env.alarm f.message (env.unlease w₂)) := by
  have hleased : drive env s (fuel + 5) .queueing w =
      drive env s (fuel + 4) (.look s (env.now w₁) false) w₁ := by
    rw [drive]
    simp only [Phase.step, hlease]
  have hfound : drive env s (fuel + 4) (.look s (env.now w₁) false) w₁ =
      drive env s (fuel + 3) (.leaving r.reread) w₂ := by
    rw [drive]
    simp only [Phase.step, Phase.look, hread, Phase.found_format s _ _ _ hr]
  rw [hleased, hfound]
  rcases r.reread with f | r' <;> rfl

end LedgerGate.Escrow
