/-
  The claim to a deployment: of the bootstraps that contend for one key at most one holds
  it, only the holder deploys, and what it stored stays.

  The invariant behind all of this is that only the holder of the claim writes or deletes
  under the key, so the marker is there for as long as the claim is held.

  * `Standing.Fits`: what the acts of a bootstrap say about its standing;
  * `Contest.Sound`, `sound_of_run`: the invariant, and that every run keeps it;
  * `Contest.OneDeployment`, `oneDeployment`: **at most one deployment at a time, and none
    after a record is stored.**
-/
import LedgerGate.Proofs.Escrow.Contest

namespace LedgerGate.Escrow

/-! ## The record and the marker -/

/-- No written record is the marker: it has a line break in it. -/
theorem Record.format_ne_claimMarker (r : Record) : r.format ≠ claimMarker := by
  intro h
  have hmem : '\n' ∈ r.format.toList := by simp [Record.format]
  rw [h] at hmem
  exact absurd hmem (by decide)

/-! ## One bootstrap -/

/-- How many of some acts win the claim. -/
def Act.winsOf (acts : List Act) : Nat := acts.countP wins

/-- How many of some acts submit a deployment. -/
def Act.deploysOf (acts : List Act) : Nat := acts.countP deploys

/-- What the acts of a bootstrap so far say about its standing. -/
def Standing.Fits (acts : List Act) : Standing → Prop
  | contending => Act.winsOf acts = 0 ∧ Act.deploysOf acts = 0 ∧ Act.holds acts = false
  | claimed => Act.winsOf acts = 1 ∧ Act.deploysOf acts = 0 ∧ Act.holds acts = true
  | spent => Act.winsOf acts = 1 ∧ Act.deploysOf acts ≤ 1 ∧ Act.holds acts = true
  | done => Act.deploysOf acts ≤ Act.winsOf acts ∧ Act.winsOf acts ≤ 1 ∧
      Act.holds acts = false

theorem Standing.Fits.holds_eq {acts : List Act} {x : Standing} (h : x.Fits acts) :
    Act.holds acts = x.owns := by
  cases x <;> exact h.2.2

theorem Standing.Fits.deploys_le {acts : List Act} {x : Standing} (h : x.Fits acts) :
    Act.deploysOf acts ≤ Act.winsOf acts ∧ Act.winsOf acts ≤ 1 := by
  cases x with
  | contending => obtain ⟨hw, hd, -⟩ := h; omega
  | claimed => obtain ⟨hw, hd, -⟩ := h; omega
  | spent => obtain ⟨hw, hd, -⟩ := h; omega
  | done => exact ⟨h.1, h.2.1⟩

namespace Act

theorem winsOf_concat (acts : List Act) (a : Act) :
    winsOf (acts ++ [a]) = winsOf acts + if a.wins then 1 else 0 := by
  simp [winsOf, List.countP_append, List.countP_singleton]

theorem deploysOf_concat (acts : List Act) (a : Act) :
    deploysOf (acts ++ [a]) = deploysOf acts + if a.deploys then 1 else 0 := by
  simp [deploysOf, List.countP_append, List.countP_singleton]

theorem holds_concat (acts : List Act) (a : Act) :
    holds (acts ++ [a]) = (a.wins || (holds acts && !a.yields)) := by
  simp [holds, holdsAfter, List.foldl_append]

/-- A quiet act neither wins the claim nor gives it up, and submits nothing. -/
theorem Quiet.not {s : Settings} {a : Act} (h : a.Quiet s) :
    a.wins = false ∧ a.yields = false ∧ a.deploys = false := by
  unfold Quiet at h
  split at h
  · exact ⟨rfl, rfl, rfl⟩
  · obtain ⟨-, -, hanswer⟩ := h
    rename_i answer
    rcases answer with e | _ | _
    · exact ⟨rfl, rfl, rfl⟩
    · exact ⟨rfl, rfl, rfl⟩
    · exact absurd rfl hanswer
  · cases h
  · cases h
  · rename_i hget hput hstore hledger
    cases a with
    | store q answer => exact absurd rfl (hstore q answer)
    | ledger q answer =>
      cases q with
      | submit call =>
        cases call with
        | deployEscrow owner => exact absurd rfl (hledger owner answer)
        | invoke sender data => exact ⟨rfl, rfl, rfl⟩
      | _ => exact ⟨rfl, rfl, rfl⟩
    | _ => exact ⟨rfl, rfl, rfl⟩

end Act

/-- A quiet act says nothing new. -/
theorem Standing.Fits.quiet {s : Settings} {acts : List Act} {a : Act} (ha : a.Quiet s)
    {x : Standing} (h : x.Fits acts) : x.Fits (acts ++ [a]) := by
  obtain ⟨hw, hy, hd⟩ := ha.not
  have hwins : Act.winsOf (acts ++ [a]) = Act.winsOf acts := by
    rw [Act.winsOf_concat, hw]; rfl
  have hdeploys : Act.deploysOf (acts ++ [a]) = Act.deploysOf acts := by
    rw [Act.deploysOf_concat, hd]; rfl
  have hholds : Act.holds (acts ++ [a]) = Act.holds acts := by
    rw [Act.holds_concat, hw, hy]; simp
  unfold Fits
  rw [hwins, hdeploys, hholds]
  exact h

/-- Only a bootstrap that holds the claim deploys. -/
theorem Advance.owns_of_deploys {s : Settings} {x y : Standing} {a : Act} (h : Advance s x a y)
    (ha : a.deploys) : x.owns := by
  have hquiet : a.Quiet s → x.owns := by
    intro hq
    rw [hq.not.2.2] at ha
    cases ha
  cases h with
  | quiet hq => exact hquiet hq
  | leaves hq => exact hquiet hq
  | wins => cases ha
  | fails hq => rfl
  | deploys answer => rfl
  | saves answer => rfl
  | frees answer => rfl

/-- The acts of a bootstrap fit its standing, whatever it does next. -/
theorem Advance.fits {s : Settings} {x y : Standing} {a : Act} (h : Advance s x a y)
    {acts : List Act} (hx : x.Fits acts) : y.Fits (acts ++ [a]) := by
  cases h with
  | quiet ha => exact hx.quiet ha
  | leaves ha =>
    obtain ⟨hw, hd, hh⟩ := hx.quiet ha
    exact ⟨by omega, by omega, hh⟩
  | wins =>
    obtain ⟨hw, hd, hh⟩ := hx
    refine ⟨?_, ?_, ?_⟩
    · rw [Act.winsOf_concat, hw]; rfl
    · rw [Act.deploysOf_concat, hd]; rfl
    · rw [Act.holds_concat]; rfl
  | fails ha =>
    obtain ⟨hw, hd, hh⟩ := hx.quiet ha
    exact ⟨hw, by omega, hh⟩
  | deploys answer =>
    obtain ⟨hw, hd, hh⟩ := hx
    refine ⟨?_, ?_, ?_⟩
    · rw [Act.winsOf_concat, hw]; rfl
    · rw [Act.deploysOf_concat, hd]; exact Nat.le_refl 1
    · rw [Act.holds_concat, hh]; rfl
  | saves answer =>
    obtain ⟨hw, hd, hh⟩ := hx
    refine ⟨?_, ?_, ?_⟩
    · rw [Act.winsOf_concat, Act.deploysOf_concat, hw]; exact hd
    · rw [Act.winsOf_concat, hw]; exact Nat.le_refl 1
    · rw [Act.holds_concat, hh]; rfl
  | frees answer =>
    obtain ⟨hw, hd, hh⟩ := hx
    refine ⟨?_, ?_, ?_⟩
    · rw [Act.winsOf_concat, Act.deploysOf_concat, hw]; exact hd
    · rw [Act.winsOf_concat, hw]; exact Nat.le_refl 1
    · rw [Act.holds_concat, hh]; rfl

/-! ## One act and the key -/

section
variable {s : Settings} {x y : Standing} {a : Act} (h : Advance s x a y)
  {before after : String → Option String} (hch : a.Changes before after)
include h hch

/-- Whoever does not hold the claim leaves alone what is under the key. -/
theorem Advance.keeps (hx : x.owns = false) {text : String} (hb : before s.key = some text) :
    after s.key = some text ∧ y.owns = false ∧ a.Quiet s := by
  have hquiet : a.Quiet s → after s.key = some text := by
    intro ha
    rcases (ha.changes hch).2 with hsame | ⟨hnone, -⟩
    · rw [hsame, hb]
    · rw [hb] at hnone; cases hnone
  cases h with
  | quiet ha => exact ⟨hquiet ha, hx, ha⟩
  | leaves ha => exact ⟨hquiet ha, rfl, ha⟩
  | wins =>
    have hnone : before s.key = none := hch.1.1
    rw [hb] at hnone; cases hnone
  | fails ha => cases hx
  | deploys answer => cases hx
  | saves answer => cases hx
  | frees answer => cases hx

/-- Whoever holds the claim after an act has its marker under the key. -/
theorem Advance.marks (hx : x.owns → before s.key = some claimMarker) (hy : y.owns) :
    after s.key = some claimMarker := by
  have hquiet : a.Quiet s → x.owns → after s.key = some claimMarker := by
    intro ha hown
    rcases (ha.changes hch).2 with hsame | ⟨-, hmark⟩
    · rw [hsame, hx hown]
    · exact hmark
  cases h with
  | quiet ha => exact hquiet ha hy
  | leaves ha => cases hy
  | wins => exact hch.1.2
  | fails ha => exact hquiet ha rfl
  | deploys answer => rw [show after = before from hch]; exact hx rfl
  | saves answer => cases hy
  | frees answer => cases hy

/-- The claim is won only when nothing is under the key. -/
theorem Advance.free (hx : x.owns = false) (hy : y.owns) : before s.key = none := by
  cases h with
  | quiet ha => rw [hx] at hy; cases hy
  | leaves ha => cases hy
  | wins => exact hch.1.1
  | fails ha => cases hx
  | deploys answer => cases hx
  | saves answer => cases hy
  | frees answer => cases hy

end

/-! ## All bootstraps -/

namespace Contest

variable {I : Type} [DecidableEq I]

/-- What holds in every run: the acts of every bootstrap fit its standing; the marker is
    under the key of everyone who holds the claim, and no two hold the same. -/
structure Sound (settings : I → Settings) (trace : List (I × Act)) (c : Contest I) : Prop where
  fits : ∀ i, (c.phase i).standing.Fits (actsOf i trace)
  marked : ∀ i, (c.phase i).standing.owns → c.values (settings i).key = some claimMarker
  unique : ∀ i j, (settings i).key = (settings j).key → (c.phase i).standing.owns →
    (c.phase j).standing.owns → i = j

theorem sound_start (settings : I → Settings) (values : String → Option String) :
    Sound settings [] (start values) where
  fits _ := ⟨rfl, rfl, rfl⟩
  marked _ h := by cases h
  unique _ _ _ h := by cases h

section
variable {settings : I → Settings} {trace : List (I × Act)} {c : Contest I} {i : I} {a : Act}
  {p : Phase} {values : String → Option String} (hs : Sound settings trace c)
  (hgo : (c.phase i).Goes (settings i) a p) (hch : a.Changes c.values values)
include hs hgo

theorem Sound.fits_act (j : I) :
    ((c.goesTo i values p).phase j).standing.Fits (actsOf j (trace ++ [(i, a)])) := by
  by_cases hj : j = i
  · subst hj
    simp only [goesTo, Function.update_self, actsOf_concat_self]
    exact hgo.advance.fits (hs.fits j)
  · simp only [goesTo, Function.update_of_ne hj, actsOf_concat_ne (Ne.symm hj)]
    exact hs.fits j

include hch

/-- The marker of an owner stays when another acts. -/
theorem Sound.marked_other {j : I} (hj : j ≠ i) (hown : (c.phase j).standing.owns) :
    values (settings j).key = some claimMarker := by
  have hmark := hs.marked j hown
  by_cases hk : (settings j).key = (settings i).key
  · have hnot : (c.phase i).standing.owns = false := by
      by_contra hi
      exact hj (hs.unique j i hk hown (by simpa using hi))
    rw [hk] at hmark ⊢
    exact (hgo.advance.keeps hch hnot hmark).1
  · rw [hgo.advance.changes_ne hch _ hk, hmark]

/-- Nobody else holds the claim of whoever holds it after an act. -/
theorem Sound.unique_act {j : I} (hj : j ≠ i) (hk : (settings j).key = (settings i).key)
    (hi : p.standing.owns) (hown : (c.phase j).standing.owns) : False := by
  by_cases hbefore : (c.phase i).standing.owns
  · exact hj (hs.unique j i hk hown hbefore)
  · have hnone := hgo.advance.free hch (by simpa using hbefore) hi
    rw [← hk, hs.marked j hown] at hnone
    cases hnone

theorem Sound.act : Sound settings (trace ++ [(i, a)]) (c.goesTo i values p) where
  fits := hs.fits_act hgo
  marked j hown := by
    by_cases hj : j = i
    · subst hj
      simp only [goesTo, Function.update_self] at hown ⊢
      exact hgo.advance.marks hch (hs.marked j) hown
    · simp only [goesTo, Function.update_of_ne hj] at hown ⊢
      exact hs.marked_other hgo hch hj hown
  unique j k hkey hj hk := by
    simp only [goesTo] at hj hk
    by_cases hji : j = i <;> by_cases hki : k = i
    · rw [hji, hki]
    · subst hji
      rw [Function.update_self] at hj
      rw [Function.update_of_ne hki] at hk
      exact (hs.unique_act hgo hch hki hkey.symm hj hk).elim
    · subst hki
      rw [Function.update_of_ne hji] at hj
      rw [Function.update_self] at hk
      exact (hs.unique_act hgo hch hji hkey hk hj).elim
    · rw [Function.update_of_ne hji] at hj
      rw [Function.update_of_ne hki] at hk
      exact hs.unique j k hkey hj hk

end

variable {settings : I → Settings} {trace : List (I × Act)} {c c' : Contest I}

theorem Sound.step (hs : Sound settings trace c) {i : I} {a : Act}
    (h : Step settings c i a c') : Sound settings (trace ++ [(i, a)]) c' := by
  cases h with
  | act _ hgo hch => exact hs.act hgo hch
  | crash _ =>
    refine ⟨fun j => ?_, hs.marked, hs.unique⟩
    by_cases hj : j = i
    · subst hj
      rw [actsOf_concat_self]
      exact (hs.fits j).quiet (s := settings j) (a := .crash) trivial
    · rw [actsOf_concat_ne (Ne.symm hj)]
      exact hs.fits j

/-- A run goes on being sound. -/
theorem Sound.run (hs : Sound settings trace c) {more : List (I × Act)}
    (h : Run settings c more c') : Sound settings (trace ++ more) c' := by
  induction h with
  | refl => rwa [List.append_nil]
  | snoc _ hstep ih =>
    rw [← List.append_assoc]
    exact ih.step hstep

/-- **Every run is sound.** -/
theorem sound_of_run {values : String → Option String}
    (h : Run settings (start values) trace c) : Sound settings trace c :=
  (sound_start settings values).run h

/-- A text that is no marker keeps everybody from the claim: it stays, and all acts under
    its key are quiet. -/
theorem Sound.settled (hs : Sound settings trace c) {key text : String}
    (hc : c.values key = some text) (htext : text ≠ claimMarker) {more : List (I × Act)}
    (h : Run settings c more c') : c'.values key = some text ∧
      ∀ i a, (i, a) ∈ more → (settings i).key = key → a.Quiet (settings i) := by
  induction h with
  | refl => exact ⟨hc, fun _ _ hmem => by cases hmem⟩
  | @snoc more c₁ i a c₂ hrun hstep ih =>
    obtain ⟨hval, hquiet⟩ := ih
    have hstays : c₂.values key = some text ∧ ((settings i).key = key → a.Quiet (settings i)) := by
      cases hstep with
      | crash _ => exact ⟨hval, fun _ => trivial⟩
      | act _ hgo hch =>
        by_cases hk : (settings i).key = key
        · subst hk
          have hnot : (c₁.phase i).standing.owns = false := by
            by_contra hown
            have hmark := (hs.run hrun).marked i (by simpa using hown)
            rw [hval] at hmark
            exact htext (Option.some.inj hmark)
          obtain ⟨hafter, -, ha⟩ := hgo.advance.keeps hch hnot hval
          exact ⟨hafter, fun _ => ha⟩
        · refine ⟨?_, fun hkey => absurd hkey hk⟩
          rw [← hval]
          exact hgo.advance.changes_ne hch key (Ne.symm hk)
    refine ⟨hstays.1, fun j b hmem hkey => ?_⟩
    rcases List.mem_append.1 hmem with hmem | hmem
    · exact hquiet j b hmem hkey
    · obtain ⟨rfl, rfl⟩ : j = i ∧ b = a := by simpa using hmem
      exact hstays.2 hkey

/-! ## One deployment -/

/-- What bootstraps on one store owe to each other when a run has led to `c`. -/
structure OneDeployment (settings : I → Settings) (trace : List (I × Act)) (c : Contest I) :
    Prop where
  /-- Of the bootstraps with one key at most one is between winning the claim and giving
      it up. -/
  exclusive : ∀ i j, (settings i).key = (settings j).key → Act.holds (actsOf i trace) →
    Act.holds (actsOf j trace) → i = j
  /-- A deployment is submitted only while its bootstrap holds the claim. -/
  inside : ∀ before i a after, trace = before ++ (i, a) :: after → a.deploys →
    Act.holds (actsOf i before)
  /-- A bootstrap submits no more deployments than it won claims, and wins at most one. -/
  once : ∀ i, Act.deploysOf (actsOf i trace) ≤ Act.winsOf (actsOf i trace) ∧
    Act.winsOf (actsOf i trace) ≤ 1
  /-- A record, or whatever else that is not the marker, stays under its key for good: from
      then on nobody overwrites it, deletes it, wins its claim or submits a deployment. -/
  final : ∀ key text, c.values key = some text → text ≠ claimMarker →
    ∀ more c', Run settings c more c' → c'.values key = some text ∧
      ∀ i a, (i, a) ∈ more → (settings i).key = key →
        a.wins = false ∧ a.yields = false ∧ a.deploys = false

/-- **At most one deployment at a time, and none after success**, in every run of any
    bootstraps on one store. -/
theorem oneDeployment {values : String → Option String}
    (h : Run settings (start values) trace c) : OneDeployment settings trace c := by
  have hs := sound_of_run h
  refine ⟨fun i j hk hi hj => ?_, fun before i a after ht ha => ?_,
    fun i => (hs.fits i).deploys_le, fun key text hc htext more c' hrun => ?_⟩
  · rw [(hs.fits i).holds_eq] at hi
    rw [(hs.fits j).holds_eq] at hj
    exact hs.unique i j hk hi hj
  · rw [List.append_cons] at ht
    subst ht
    obtain ⟨c₂, hupto, -⟩ := h.split
    obtain ⟨c₁, hbefore, hstep⟩ := hupto.last
    have hfits := (sound_of_run hbefore).fits i
    rw [hfits.holds_eq]
    cases hstep with
    | crash _ => cases ha
    | act _ hgo _ => exact hgo.advance.owns_of_deploys ha
  · obtain ⟨hstays, hquiet⟩ := hs.settled hc htext hrun
    exact ⟨hstays, fun i a hmem hkey => (hquiet i a hmem hkey).not⟩

/-! ## Two bootstraps -/

/-- The settings of two bootstraps of one ledger. -/
def duel : Bool → Settings := fun _ => .standard .besu "main" 7

/-- Two bootstraps of one ledger, with what is under their key. -/
def between (text : Option String) (p q : Phase) : Contest Bool where
  values := Function.update (fun _ => none) (duel true).key text
  phase := fun i => if i then p else q
  crashed := fun _ => false

section
variable {text text' : Option String} {p p' q q' : Phase} {a : Act}

theorem between_first (h : Phase.Turn (duel true) p a p')
    (hch : a.Changes (between text p q).values (between text' p' q).values) :
    Step duel (between text p q) true a (between text' p' q) := by
  have hphase : (fun i => if i then p' else q) =
      Function.update (between text p q).phase true p' := by
    funext i
    cases i <;> rfl
  have hstep : Step duel (between text p q) true a
      ⟨_, Function.update (between text p q).phase true p', _⟩ := .act rfl h.goes hch
  rw [← hphase] at hstep
  exact hstep

theorem between_second (h : Phase.Turn (duel false) q a q')
    (hch : a.Changes (between text p q).values (between text' p q').values) :
    Step duel (between text p q) false a (between text' p q') := by
  have hphase : (fun i => if i then p else q') =
      Function.update (between text p q).phase false q' := by
    funext i
    cases i <;> rfl
  have hstep : Step duel (between text p q) false a
      ⟨_, Function.update (between text p q).phase false q', _⟩ := .act rfl h.goes hch
  rw [← hphase] at hstep
  exact hstep

theorem between_changes {query : Store.Query} {answer : query.Answer}
    (hk : query.key = (duel true).key) (h : query.Serves text answer text') :
    Act.Changes (between text p q).values (between text' p' q').values (.store query answer) := by
  refine ⟨?_, fun k hne => ?_⟩
  · rw [hk]
    simpa only [between, Function.update_self] using h
  · rw [hk] at hne
    simp only [between, Function.update_of_ne hne]

end

/-- The first of the two finds nothing and wins the claim. -/
def winning : List (Bool × Act) :=
  [(true, .start), (true, .lease), (true, .store (.get (duel true).key) (.ok none)),
    (true, .ledger .feePolicy (.ok 7)),
    (true, .store (.putIfAbsent (duel true).key claimMarker) (.ok true))]

theorem run_winning (q : Phase) :
    Run duel (between none .idle q) winning (between (some claimMarker) .drawing q) :=
  .cons (between_first .start rfl) <|
  .cons (between_first (@Phase.Turn.lease _ 0) rfl) <|
  .cons (between_first (@Phase.Turn.looked _ 0 _ _ none) (between_changes rfl ⟨rfl, rfl⟩)) <|
  .cons (between_first (@Phase.Turn.priced _ 7) rfl) <|
  .single (between_first .won (between_changes rfl ⟨rfl, rfl⟩))

/-- The record of a contract, with fixed keys. -/
def prize (address : String) : Record := ⟨address, .ofPrivate default⟩

/-- The first of the two deploys and writes its record. -/
def deploying (address : String) : List (Bool × Act) :=
  [(true, .draw (.ok default)),
    (true, .ledger (.submit (.deployEscrow (prize address).keys.publicKey)) (.ok "0x1")),
    (true, .track "0x1"),
    (true, .receive (.succeeded "0x1" 1 ⟨[("contractAddress", .text address)]⟩)),
    (true, .store (.put (duel true).key (prize address).format) (.ok ()))]

theorem run_deploying {address : String} (h : address.isEmpty = false) (q : Phase) :
    Run duel (between (some claimMarker) .drawing q) (deploying address)
      (between (some (prize address).format) (.leaving (.ok (prize address))) q) := by
  have hjudged : Phase.judged (prize address).keys "0x1"
      (.succeeded "0x1" 1 ⟨[("contractAddress", .text address)]⟩) = .recording (prize address) := by
    simp [Phase.judged, Confirmation.succeeded, Bag.text?, Bag.find?, Entries.find?, BagValue.text?,
      h, prize]
  have hreceive := @Phase.Turn.receive (duel true) (prize address).keys "0x1"
    (.succeeded "0x1" 1 ⟨[("contractAddress", .text address)]⟩)
  rw [hjudged] at hreceive
  exact
    .cons (between_first .drawn rfl) <|
    .cons (between_first .submitted rfl) <|
    .cons (between_first .track rfl) <|
    .cons (between_first hreceive rfl) <|
    .single (between_first .saved (between_changes rfl rfl))

/-- The second of the two comes up to the claim, which the first one wins. -/
def opening : List (Bool × Act) :=
  [(false, .start), (false, .lease), (false, .store (.get (duel true).key) (.ok none)),
    (false, .ledger .feePolicy (.ok 7))] ++ winning ++
  [(false, .store (.putIfAbsent (duel true).key claimMarker) (.ok false))] ++ deploying "0xE"

theorem start_between : start (fun _ => none) = between none .idle .idle := by
  simp only [start, between, Function.update_eq_self, ite_self]

theorem run_opening : Run duel (start fun _ => none) opening
    (between (some (prize "0xE").format) (.leaving (.ok (prize "0xE")))
      (.look (duel false) 0 true)) := by
  have hfirst : Run duel (between none .idle .idle) _ (between none .idle .claiming) :=
    .cons (between_second .start rfl) <|
    .cons (between_second (@Phase.Turn.lease _ 0) rfl) <|
    .cons (between_second (@Phase.Turn.looked _ 0 _ _ none) (between_changes rfl ⟨rfl, rfl⟩)) <|
    .single (between_second (@Phase.Turn.priced _ 7) rfl)
  have hlost : Step duel (between (some claimMarker) .drawing .claiming) false _
      (between (some claimMarker) .drawing (.look (duel false) 0 true)) :=
    between_second .lost (between_changes rfl ⟨nofun, rfl⟩)
  rw [start_between]
  exact ((hfirst.append (run_winning _)).append (.single hlost)).append (run_deploying rfl _)

/-- The first of the two deploys once, and nobody after its record is there. -/
theorem oneDeployment_opening :
    Act.winsOf (actsOf true opening) = 1 ∧ Act.deploysOf (actsOf true opening) = 1 ∧
      ∀ more c', Run duel (between (some (prize "0xE").format) (.leaving (.ok (prize "0xE")))
          (.look (duel false) 0 true)) more c' →
        c'.values (duel true).key = some (prize "0xE").format ∧
          ∀ i a, (i, a) ∈ more → a.deploys = false := by
  have h := oneDeployment run_opening
  refine ⟨rfl, rfl, fun more c' hrun => ?_⟩
  obtain ⟨hstays, hquiet⟩ := h.final (duel true).key (prize "0xE").format
    (by simp only [between, Function.update_self]) (Record.format_ne_claimMarker _) more c' hrun
  exact ⟨hstays, fun i a hmem => (hquiet i a hmem rfl).2.2⟩

end Contest

end LedgerGate.Escrow
