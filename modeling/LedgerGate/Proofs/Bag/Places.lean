/-
  Places in documents and in bags.

  A place is a way down through lists and maps.  What a document has at a place is what the
  bag that is read from it holds there; of two fields with one name the last counts.

  * `Branch`, `Doc.at?`, `BagValue.at?`: places;
  * `ofJson?_child?`, `ofJson?_at?`: **a part of what is read is read, and held in its place**;
  * `Ordered`: the entries of every map are in the order of their names, as in all values
    that are read;
  * `document_at?`: a value stands in its JSON where it is held.
-/
import LedgerGate.Proofs.Bag.Kinds
import LedgerGate.Proofs.Json.RoundTrip

namespace LedgerGate

/-- A way down into a list or a map. -/
inductive Branch where
  | item (index : Nat)
  | entry (name : String)
  deriving DecidableEq

namespace Json.Doc

/-- The last field of a name. -/
def field? : List (Option String × Doc) → String → Option Doc
  | [], _ => none
  | (k, v) :: fs, name => (field? fs name).or (if k = some name then some v else none)

/-- What a document has at a branch. -/
def child? : Doc → Branch → Option Doc
  | list xs, .item i => xs[i]?
  | object fs, .entry name => field? fs name
  | _, _ => none

/-- What a document has at a place. -/
def at? : Doc → List Branch → Option Doc
  | d, [] => some d
  | d, b :: bs => (d.child? b).bind fun c => c.at? bs

end Json.Doc

namespace BagValue

open Json

/-- What a value holds at a branch. -/
def child? : BagValue → Branch → Option BagValue
  | list xs, .item i => xs[i]?
  | map es, .entry name => Entries.find? es name
  | _, _ => none

/-- What a value holds at a place. -/
def at? : BagValue → List Branch → Option BagValue
  | v, [] => some v
  | v, b :: bs => (v.child? b).bind fun c => c.at? bs

/-! ## Places of what is read -/

theorem getElem?_jsonItems (xs : List Doc) (around i : Nat) :
    (Doc.jsonItems xs around)[i]? = xs[i]?.map fun x => x.json around := by
  induction xs generalizing i with
  | nil => rfl
  | cons x xs ih =>
    cases i with
    | zero => rfl
    | succ i => simpa [Doc.jsonItems] using ih i

/-- The items that are read are held in their order. -/
theorem getElem?_ofItems? {js : List Json} {vs : List BagValue} (h : ofItems? js = some vs)
    {i : Nat} {j : Json} (hj : js[i]? = some j) :
    ∃ w, ofJson? j = some w ∧ vs[i]? = some w := by
  induction js generalizing vs i with
  | nil => cases hj
  | cons x js ih =>
    obtain ⟨v, hv, hrest⟩ := Option.bind_eq_some_iff.1 h
    obtain ⟨vs, hvs, rfl⟩ := Option.map_eq_some_iff.1 hrest
    cases i with
    | zero =>
      cases hj
      exact ⟨v, hv, rfl⟩
    | succ i => exact ih hvs hj

/-- What a list is made of if it is no deeper than the limit. -/
theorem ofJson?_list {xs : List Doc} {around : Nat} {v : BagValue}
    (h : ofJson? (Doc.json (.list xs) around) = some v) : around + 1 ≤ depthLimit ∧
      ∃ vs, ofItems? (Doc.jsonItems xs (around + 1)) = some vs ∧ v = .list vs := by
  rw [Doc.json, Frame.close] at h
  split at h
  · rename_i hdepth
    rw [List.reverse_reverse] at h
    obtain ⟨vs, hvs, rfl⟩ := Option.map_eq_some_iff.1 h
    exact ⟨hdepth, vs, hvs, rfl⟩
  · cases h

/-- Likewise for an object. -/
theorem ofJson?_object {fs : List (Option String × Doc)} {around : Nat} {v : BagValue}
    (h : ofJson? (Doc.json (.object fs) around) = some v) : around + 1 ≤ depthLimit ∧
      ∃ gs es, Doc.jsonFields fs (around + 1) = heldFields gs ∧ ofFields? gs [] = some es ∧
        v = .map es := by
  rw [Doc.json, Frame.close] at h
  split at h
  · rename_i hdepth
    split at h
    · rename_i gs hgs
      obtain ⟨es, hes, rfl⟩ := Option.map_eq_some_iff.1 h
      exact ⟨hdepth, gs, es, eq_heldFields hgs, hes, rfl⟩
    · cases h
  · cases h

/-- Of the fields of a name the last is held; a name without a field keeps what it had. -/
theorem find?_ofFields? {fs : List (Option String × Doc)} {around : Nat}
    {gs : List (String × Json)} {acc es : List (String × BagValue)} (name : String)
    (hgs : Doc.jsonFields fs around = heldFields gs) (h : ofFields? gs acc = some es) :
    (∀ d, Doc.field? fs name = some d →
        ∃ w, ofJson? (d.json around) = some w ∧ Entries.find? es name = some w) ∧
      (Doc.field? fs name = none → Entries.find? es name = Entries.find? acc name) := by
  induction fs generalizing gs acc with
  | nil =>
    obtain rfl : gs = [] := List.map_eq_nil_iff.1 hgs.symm
    cases h
    exact ⟨nofun, fun _ => rfl⟩
  | cons f fs ih =>
    obtain ⟨k, d⟩ := f
    cases gs with
    | nil => cases hgs
    | cons g gs =>
      obtain ⟨key, j⟩ := g
      obtain ⟨hhead, htail⟩ := List.cons.inj hgs
      obtain ⟨rfl, rfl⟩ : k = some key ∧ d.json around = j := Prod.mk.inj hhead
      obtain ⟨v, hv, hrest⟩ := Option.bind_eq_some_iff.1 h
      obtain ⟨hsome, hnone⟩ := ih htail hrest
      rw [Doc.field?]
      cases hfield : Doc.field? fs name with
      | some c =>
        rw [Option.some_or]
        refine ⟨fun d hd => ?_, nofun⟩
        cases hd
        exact hsome _ hfield
      | none =>
        rw [Option.none_or, hnone hfield]
        by_cases hkey : key = name
        · subst hkey
          rw [if_pos rfl]
          refine ⟨fun d hd => ?_, nofun⟩
          cases hd
          exact ⟨v, hv, Entries.find?_insert_self acc key v⟩
        · have hother : (some key : Option String) ≠ some name := fun hsame =>
            hkey (Option.some.inj hsame)
          rw [if_neg hother]
          exact ⟨nofun, fun _ => Entries.find?_insert_ne acc v (Ne.symm hkey)⟩

/-- A part of what is read is read, and held at its branch. -/
theorem ofJson?_child? {d c : Doc} {around : Nat} {v : BagValue} {b : Branch}
    (h : ofJson? (d.json around) = some v) (hc : d.child? b = some c) :
    around + 1 ≤ depthLimit ∧
      ∃ w, ofJson? (c.json (around + 1)) = some w ∧ v.child? b = some w := by
  cases d with
  | list xs =>
    cases b with
    | entry name => cases hc
    | item i =>
      obtain ⟨hlimit, vs, hvs, rfl⟩ := ofJson?_list h
      refine ⟨hlimit, getElem?_ofItems? hvs (i := i) ?_⟩
      rw [getElem?_jsonItems, show xs[i]? = some c from hc, Option.map_some]
  | object fs =>
    cases b with
    | item i => cases hc
    | entry name =>
      obtain ⟨hlimit, gs, es, hgs, hes, rfl⟩ := ofJson?_object h
      exact ⟨hlimit, (find?_ofFields? name hgs hes).1 c hc⟩
  | constant | number | text => cases hc

/-- **A part of what is read is read, and held in its place.** -/
theorem ofJson?_at? {d c : Doc} {around : Nat} {v : BagValue} {bs : List Branch}
    (hlimit : around ≤ depthLimit) (h : ofJson? (d.json around) = some v)
    (hc : d.at? bs = some c) : around + bs.length ≤ depthLimit ∧
      ∃ w, ofJson? (c.json (around + bs.length)) = some w ∧ v.at? bs = some w := by
  induction bs generalizing d v around with
  | nil =>
    cases hc
    exact ⟨hlimit, v, h, rfl⟩
  | cons b bs ih =>
    obtain ⟨e, he, hrest⟩ := Option.bind_eq_some_iff.1 hc
    obtain ⟨hdeeper, w, hw, hheld⟩ := ofJson?_child? h he
    obtain ⟨hdepth, x, hx, hat⟩ := ih hdeeper hw hrest
    rw [List.length_cons, Nat.add_comm bs.length 1, ← Nat.add_assoc]
    exact ⟨hdepth, x, hx, by rw [at?, hheld, Option.bind_some, hat]⟩

/-! ## Places of what is written -/

mutual

/-- The entries of every map are in the order of their names. -/
def Ordered : BagValue → Prop
  | list xs => OrderedItems xs
  | map es => Entries.Increasing es ∧ OrderedEntries es
  | _ => True

def OrderedItems : List BagValue → Prop
  | [] => True
  | x :: xs => Ordered x ∧ OrderedItems xs

def OrderedEntries : List (String × BagValue) → Prop
  | [] => True
  | (_, v) :: es => Ordered v ∧ OrderedEntries es

end

theorem OrderedEntries.insert {es : List (String × BagValue)} (hes : OrderedEntries es)
    (name : String) {v : BagValue} (hv : v.Ordered) :
    OrderedEntries (Entries.insert es name v) := by
  induction es with
  | nil => exact ⟨hv, hes⟩
  | cons e es ih =>
    obtain ⟨k, w⟩ := e
    unfold Entries.insert
    split
    · exact ⟨hv, hes.2⟩
    split
    · exact ⟨hv, hes⟩
    · exact ⟨hes.1, ih hes.2⟩

mutual

/-- What is read is in order. -/
theorem ordered_of_ofJson? : ∀ {j : Json} {v : BagValue}, ofJson? j = some v → v.Ordered
  | .null, _, h => by cases h; trivial
  | .bool _, _, h => by cases h; trivial
  | .integer n, _, h => by
    cases h
    unfold ofInt
    split <;> trivial
  | .double _, _, h => by cases h; trivial
  | .text _, _, h => by cases h; trivial
  | .list xs, _, h => by
    obtain ⟨vs, hvs, rfl⟩ := Option.map_eq_some_iff.1 h
    exact orderedItems_of_ofItems? hvs
  | .object fs, _, h => by
    obtain ⟨es, hes, rfl⟩ := Option.map_eq_some_iff.1 h
    exact orderedEntries_of_ofFields? hes List.Pairwise.nil trivial
  | .invalid, _, h => by cases h

theorem orderedItems_of_ofItems? : ∀ {js : List Json} {vs : List BagValue},
    ofItems? js = some vs → OrderedItems vs
  | [], _, h => by cases h; trivial
  | j :: js, _, h => by
    obtain ⟨v, hv, hrest⟩ := Option.bind_eq_some_iff.1 h
    obtain ⟨vs, hvs, rfl⟩ := Option.map_eq_some_iff.1 hrest
    exact ⟨ordered_of_ofJson? hv, orderedItems_of_ofItems? hvs⟩

theorem orderedEntries_of_ofFields? : ∀ {fs : List (String × Json)}
    {acc es : List (String × BagValue)}, ofFields? fs acc = some es → Entries.Increasing acc →
      OrderedEntries acc → Entries.Increasing es ∧ OrderedEntries es
  | [], _, _, h, hacc, hordered => by cases h; exact ⟨hacc, hordered⟩
  | (k, j) :: fs, _, _, h, hacc, hordered => by
    obtain ⟨v, hv, hrest⟩ := Option.bind_eq_some_iff.1 h
    exact orderedEntries_of_ofFields? hrest (hacc.insert k v)
      (hordered.insert k (ordered_of_ofJson? hv))

end

theorem OrderedItems.getElem? {xs : List BagValue} (h : OrderedItems xs) {i : Nat}
    {w : BagValue} (hw : xs[i]? = some w) : w.Ordered ∧
      (documentItems (toJsonItems xs))[i]? = some w.toJson.document := by
  induction xs generalizing i with
  | nil => cases hw
  | cons x xs ih =>
    cases i with
    | zero =>
      cases hw
      exact ⟨h.1, rfl⟩
    | succ i => exact ih h.2 hw

theorem OrderedEntries.find? {es : List (String × BagValue)} (h : OrderedEntries es)
    {name : String} {w : BagValue} (hw : Entries.find? es name = some w) : w.Ordered := by
  induction es with
  | nil => cases hw
  | cons e es ih =>
    obtain ⟨k, v⟩ := e
    rw [Entries.find?] at hw
    split at hw
    · cases hw
      exact h.1
    · exact ih h.2 hw

/-- As no name stands twice, its last field is its only one. -/
theorem field?_documentFields {es : List (String × BagValue)} (h : Entries.Increasing es)
    (name : String) : Doc.field? (documentFields (toJsonFields es)) name =
      (Entries.find? es name).map fun w => w.toJson.document := by
  induction es with
  | nil => rfl
  | cons e es ih =>
    obtain ⟨k, v⟩ := e
    obtain ⟨hk, hes⟩ := List.pairwise_cons.1 h
    rw [toJsonFields, documentFields, Doc.field?, ih hes, Entries.find?]
    by_cases hname : k = name
    · subst hname
      have hnone : Entries.find? es k = none :=
        Entries.find?_eq_none_iff.2 fun hmem => lt_irrefl k (hk k hmem)
      rw [hnone, if_pos rfl, if_pos rfl]
      rfl
    · have hother : (some k : Option String) ≠ some name := fun hsame =>
        hname (Option.some.inj hsame)
      rw [if_neg hother, if_neg hname, Option.or_none]

theorem document_child? {v w : BagValue} {b : Branch} (hv : v.Ordered) (h : v.child? b = some w) :
    w.Ordered ∧ v.toJson.document.child? b = some w.toJson.document := by
  cases v with
  | list xs =>
    cases b with
    | entry name => cases h
    | item i =>
      have hxs : OrderedItems xs := by simpa [Ordered] using hv
      exact hxs.getElem? h
  | map es =>
    cases b with
    | item i => cases h
    | entry name =>
      obtain ⟨hincreasing, hes⟩ : Entries.Increasing es ∧ OrderedEntries es := by
        simpa [Ordered] using hv
      have hfind : Entries.find? es name = some w := h
      refine ⟨hes.find? hfind, ?_⟩
      rw [toJson, document, Doc.child?, field?_documentFields hincreasing, hfind, Option.map_some]
  | null | bool | integer | double | text => cases h

/-- **A value stands in its JSON where it is held.** -/
theorem document_at? {v w : BagValue} {bs : List Branch} (hv : v.Ordered)
    (h : v.at? bs = some w) : v.toJson.document.at? bs = some w.toJson.document := by
  induction bs generalizing v with
  | nil =>
    cases h
    rfl
  | cons b bs ih =>
    obtain ⟨c, hc, hrest⟩ := Option.bind_eq_some_iff.1 h
    obtain ⟨hordered, hchild⟩ := document_child? hv hc
    rw [Doc.at?, hchild, Option.bind_some, ih hordered hrest]

end BagValue

end LedgerGate
