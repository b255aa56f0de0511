/-
  A bag survives its text.

  The compact text of a bag writes its document, so what is read from it is read off that
  document, place by place.  A value without doubles is read as itself wherever it stands, and
  only a bag that is nested too deep is not read at all.

  * `Bag.ofText?`, `Bag.at?`, `Bag.depth`: reading, places and nesting of bags;
  * `depth_document_le`, `Bag.depth_le_of_ofText?`: what is read is nested within the limit;
  * `Bag.at?_again`: **a value without doubles is held again where it was held**;
  * `Bag.survives`: **a bag without doubles is read as itself, unless it is nested too deep**.
-/
import LedgerGate.Proofs.Bag.Places

namespace LedgerGate.BagValue

open Json

/-! ## Nesting -/

mutual

/-- How deep the lists and maps of a value are nested. -/
def depth : BagValue → Nat
  | list xs => depthItems xs + 1
  | map es => depthEntries es + 1
  | _ => 0

def depthItems : List BagValue → Nat
  | [] => 0
  | x :: xs => max (depth x) (depthItems xs)

def depthEntries : List (String × BagValue) → Nat
  | [] => 0
  | (_, v) :: es => max (depth v) (depthEntries es)

end

mutual

theorem depth_toJson : ∀ v : BagValue, v.toJson.depth = v.depth
  | .null | .bool _ | .integer _ | .double _ | .text _ => rfl
  | .list xs => congrArg (· + 1) (depthItems_toJsonItems xs)
  | .map es => congrArg (· + 1) (depthFields_toJsonFields es)

theorem depthItems_toJsonItems : ∀ xs : List BagValue,
    Json.depthItems (toJsonItems xs) = depthItems xs
  | [] => rfl
  | x :: xs => by
    rw [toJsonItems, Json.depthItems, depth_toJson x, depthItems_toJsonItems xs, depthItems]

theorem depthFields_toJsonFields : ∀ es : List (String × BagValue),
    Json.depthFields (toJsonFields es) = depthEntries es
  | [] => rfl
  | (k, v) :: es => by
    rw [toJsonFields, Json.depthFields, depth_toJson v, depthFields_toJsonFields es, depthEntries]

end

theorem depthEntries_insert (es : List (String × BagValue)) (name : String) (v : BagValue) :
    depthEntries (Entries.insert es name v) ≤ max v.depth (depthEntries es) := by
  induction es with
  | nil => exact Nat.le_refl _
  | cons e es ih =>
    obtain ⟨k, w⟩ := e
    unfold Entries.insert
    split
    · simp only [depthEntries]
      omega
    · split
      · exact Nat.le_refl _
      · simp only [depthEntries]
        omega

mutual

/-- Reading nests nothing deeper. -/
theorem depth_ofJson?_le : ∀ {j : Json} {v : BagValue}, ofJson? j = some v → v.depth ≤ j.depth
  | .null, _, h | .bool _, _, h | .double _, _, h | .text _, _, h => by
    cases h
    exact Nat.le_refl 0
  | .integer n, _, h => by
    cases h
    unfold ofInt
    split <;> exact Nat.le_refl 0
  | .list xs, _, h => by
    obtain ⟨vs, hvs, rfl⟩ := Option.map_eq_some_iff.1 h
    exact Nat.succ_le_succ (depthItems_ofItems?_le hvs)
  | .object fs, _, h => by
    obtain ⟨es, hes, rfl⟩ := Option.map_eq_some_iff.1 h
    have hle : depthEntries es ≤ max (depthEntries []) (Json.depthFields fs) :=
      depthEntries_ofFields?_le hes
    rw [depthEntries, Nat.zero_max] at hle
    exact Nat.succ_le_succ hle
  | .invalid, _, h => by cases h

theorem depthItems_ofItems?_le : ∀ {js : List Json} {vs : List BagValue},
    ofItems? js = some vs → depthItems vs ≤ Json.depthItems js
  | [], _, h => by
    cases h
    exact Nat.le_refl 0
  | j :: js, _, h => by
    obtain ⟨v, hv, hrest⟩ := Option.bind_eq_some_iff.1 h
    obtain ⟨vs, hvs, rfl⟩ := Option.map_eq_some_iff.1 hrest
    have hj := depth_ofJson?_le hv
    have hjs := depthItems_ofItems?_le hvs
    rw [depthItems, Json.depthItems]
    omega

theorem depthEntries_ofFields?_le : ∀ {fs : List (String × Json)}
    {acc es : List (String × BagValue)}, ofFields? fs acc = some es →
      depthEntries es ≤ max (depthEntries acc) (Json.depthFields fs)
  | [], _, _, h => by
    cases h
    exact Nat.le_max_left _ _
  | (k, j) :: fs, acc, _, h => by
    obtain ⟨v, hv, hrest⟩ := Option.bind_eq_some_iff.1 h
    have hj := depth_ofJson?_le hv
    have hfs := depthEntries_ofFields?_le hrest
    have hinsert := depthEntries_insert acc k v
    rw [Json.depthFields]
    omega

end

mutual

/-- A value whose document is read is nested within the limit. -/
theorem depth_document_le : ∀ (j : Json) {around : Nat} {v : BagValue}, around ≤ depthLimit →
    ofJson? (j.document.json around) = some v → around + j.depth ≤ depthLimit
  | .null, _, _, hlimit, _ | .bool _, _, _, hlimit, _ | .integer _, _, _, hlimit, _
  | .double _, _, _, hlimit, _ | .text _, _, _, hlimit, _ | .invalid, _, _, hlimit, _ => hlimit
  | .list xs, around, _, _, h => by
    obtain ⟨hlimit, vs, hvs, -⟩ := ofJson?_list h
    have hxs := depthItems_document_le xs hlimit hvs
    rw [Json.depth]
    omega
  | .object fs, around, _, _, h => by
    obtain ⟨hlimit, gs, es, hgs, hes, -⟩ := ofJson?_object h
    have hfs := depthFields_document_le fs hlimit hgs hes
    rw [Json.depth]
    omega

theorem depthItems_document_le : ∀ (xs : List Json) {around : Nat} {vs : List BagValue},
    around ≤ depthLimit → ofItems? (Doc.jsonItems (documentItems xs) around) = some vs →
      around + Json.depthItems xs ≤ depthLimit
  | [], _, _, hlimit, _ => hlimit
  | x :: xs, around, _, hlimit, h => by
    obtain ⟨v, hv, hrest⟩ := Option.bind_eq_some_iff.1 h
    obtain ⟨vs, hvs, -⟩ := Option.map_eq_some_iff.1 hrest
    have hx := depth_document_le x hlimit hv
    have hxs := depthItems_document_le xs hlimit hvs
    rw [Json.depthItems]
    omega

theorem depthFields_document_le : ∀ (fs : List (String × Json)) {around : Nat}
    {gs : List (String × Json)} {acc es : List (String × BagValue)}, around ≤ depthLimit →
      Doc.jsonFields (documentFields fs) around = heldFields gs → ofFields? gs acc = some es →
        around + Json.depthFields fs ≤ depthLimit
  | [], _, _, _, _, hlimit, _, _ => hlimit
  | (k, j) :: fs, around, gs, _, _, hlimit, hgs, h => by
    cases gs with
    | nil => cases hgs
    | cons g gs =>
      obtain ⟨hhead, htail⟩ := List.cons.inj hgs
      obtain ⟨-, hj⟩ := Prod.mk.inj hhead
      obtain ⟨v, hv, hrest⟩ := Option.bind_eq_some_iff.1 h
      have hvalue := depth_document_le j hlimit (hj ▸ hv)
      have hfs := depthFields_document_le fs hlimit htail hrest
      rw [Json.depthFields]
      omega

end

end LedgerGate.BagValue

namespace LedgerGate.Bag

/-! ## Bags -/

/-- The bag that a text is read as. -/
def ofText? (s : String) : Option Bag := (Json.ofText? s).bind ofJson?

/-- What a bag holds at a place. -/
def at? (b : Bag) (bs : List Branch) : Option BagValue := (BagValue.map b.entries).at? bs

/-- How deep lists and maps are nested, the bag among them. -/
def depth (b : Bag) : Nat := (BagValue.map b.entries).depth

theorem ofJson?_eq_some_iff {j : Json} {b : Bag} :
    ofJson? j = some b ↔ BagValue.ofJson? j = some (.map b.entries) := by
  cases j with
  | object fs =>
    rw [ofJson?, BagValue.ofJson?]
    constructor
    · intro h
      obtain ⟨es, hes, rfl⟩ := Option.map_eq_some_iff.1 h
      rw [hes, Option.map_some]
    · intro h
      obtain ⟨es, hes, heq⟩ := Option.map_eq_some_iff.1 h
      cases heq
      rw [hes, Option.map_some]
  | integer n =>
    refine iff_of_false (by rintro ⟨⟩) fun h => ?_
    rw [BagValue.ofJson?, BagValue.ofInt] at h
    split at h <;> cases h
  | list xs =>
    refine iff_of_false (by rintro ⟨⟩) fun h => ?_
    obtain ⟨vs, -, heq⟩ := Option.map_eq_some_iff.1 h
    cases heq
  | null | bool | double | text | invalid => exact iff_of_false (by rintro ⟨⟩) (by rintro ⟨⟩)

/-- A text is read as the map that its document makes. -/
theorem ofText?_of_writes {s : String} {d : Json.Doc} (h : Json.Writes s d) {b : Bag} :
    ofText? s = some b ↔ BagValue.ofJson? (d.json 0) = some (.map b.entries) := by
  rw [ofText?, h.ofText?, Option.bind_some, ofJson?_eq_some_iff]

theorem writes_toJson (b : Bag) :
    Json.Writes b.toJson.compact (BagValue.map b.entries).toJson.document :=
  Json.writes_compact _

/-- What is read from a text is in order. -/
theorem ordered_of_ofText? {s : String} {b : Bag} (h : ofText? s = some b) :
    (BagValue.map b.entries).Ordered := by
  obtain ⟨j, -, hj⟩ := Option.bind_eq_some_iff.1 h
  exact BagValue.ordered_of_ofJson? (ofJson?_eq_some_iff.1 hj)

/-- What is read from a text is nested within the limit. -/
theorem depth_le_of_ofText? {s : String} {b : Bag} (h : ofText? s = some b) :
    b.depth ≤ Json.depthLimit := by
  obtain ⟨j, hj, hb⟩ := Option.bind_eq_some_iff.1 h
  obtain ⟨d, -, rfl⟩ := Json.ofText?_eq_some_iff.1 hj
  have hread : b.depth ≤ (d.json 0).depth :=
    BagValue.depth_ofJson?_le (ofJson?_eq_some_iff.1 hb)
  have hlimit := Json.depth_json_le d (Nat.zero_le _)
  omega

/-- A bag without doubles that is nested within the limit reads back. -/
theorem ofText?_toJson {b : Bag} (h : b.Exact) (hdepth : b.depth ≤ Json.depthLimit) :
    ofText? b.toJson.compact = some b := by
  have hjson : b.toJson.depth = b.depth := BagValue.depth_toJson (.map b.entries)
  rw [ofText?, Json.ofText?_compact (plain_toJson h) (by rwa [hjson]), Option.bind_some,
    ofJson?_toJson h]

/-- **A value without doubles is held again where it was held**, when the text of a bag is
    read. -/
theorem at?_again {b again : Bag} (hb : (BagValue.map b.entries).Ordered)
    (hagain : ofText? b.toJson.compact = some again) {bs : List Branch} {v : BagValue}
    (hv : b.at? bs = some v) (hexact : v.Exact) : again.at? bs = some v := by
  have hread := (ofText?_of_writes b.writes_toJson).1 hagain
  obtain ⟨hlimit, w, hw, hheld⟩ := BagValue.ofJson?_at? (Nat.zero_le _) hread
    (BagValue.document_at? hb hv)
  rw [Json.json_document _ _ (BagValue.plain_toJson v hexact)
    (BagValue.depth_document_le _ hlimit hw), BagValue.ofJson?_toJson v hexact] at hw
  exact hheld.trans hw.symm

/-- **A bag without doubles is read as itself**, unless it is nested too deep. -/
theorem survives {b : Bag} (h : b.Exact) :
    ofText? b.toJson.compact = if b.depth ≤ 127 then some b else none := by
  split
  · rename_i hlimit
    exact ofText?_toJson h hlimit
  · rename_i hdeep
    refine Option.eq_none_iff_forall_ne_some.2 fun again hagain => hdeep ?_
    have hread := (ofText?_of_writes b.writes_toJson).1 hagain
    have hle := BagValue.depth_document_le _ (Nat.zero_le _) hread
    rw [BagValue.depth_toJson, Nat.zero_add] at hle
    exact hle

/-- Texts that look like values of other kinds, the least integer, and names of quotes,
    control characters and letters beyond ASCII. -/
theorem survives_lookalikes : ∃ b : Bag, b.entries =
      [("", .text "12"), ("\"\\\n\x01", .list [.integer Int64.minValue, .text "true",
          .map [("", .null), ("ü", .text "1.5e3")], .bool false]),
        ("null", .text "null"), ("é", .map [])] ∧
    b.Exact ∧ ofText? b.toJson.compact = some b := by
  have hexact : Exact ⟨[("", .text "12"), ("\"\\\n\x01", .list [.integer Int64.minValue,
      .text "true", .map [("", .null), ("ü", .text "1.5e3")], .bool false]),
      ("null", .text "null"), ("é", .map [])]⟩ := by
    simp only [Exact, BagValue.ExactEntries, BagValue.Exact, BagValue.ExactItems,
      Entries.Increasing]
    decide
  exact ⟨_, rfl, hexact, (survives hexact).trans (if_pos (by decide))⟩

end LedgerGate.Bag
