/-
  The kind of a bag's value is read off its shape.

  Values carry no tag. An integer stays inside the signed range, so it is not taken for a
  double; the entries of a map are written in the order in which they are kept, so reading
  them sets one name after the other at the end.

  * `Exact`: a value without doubles whose maps are in order;
  * `ofJson?_toJson`: **a value is read as what it was**;
  * `plain_toJson`: its JSON has a text that says everything about it;
  * `Bag.ofJson?_toJson`, `Bag.plain_toJson`: likewise for bags.
-/
import LedgerGate.Bag
import LedgerGate.Proofs.Entries.Keys
import LedgerGate.Proofs.Json.Plain

namespace LedgerGate.Entries

variable {α : Type}

theorem keys_append (es fs : List (String × α)) : keys (es ++ fs) = keys es ++ keys fs :=
  List.map_append

/-- A name after all others is set at the end. -/
theorem insert_eq_append {es : List (String × α)} {name : String}
    (h : ∀ k ∈ keys es, k < name) (value : α) : insert es name value = es ++ [(name, value)] := by
  induction es with
  | nil => rfl
  | cons e es ih =>
    obtain ⟨k, v⟩ := e
    have hk : k < name := h k List.mem_cons_self
    rw [insert, if_neg (ne_of_lt hk), if_neg (not_lt_of_gt hk),
      ih fun other hother => h other (List.mem_cons_of_mem k hother), List.cons_append]

end LedgerGate.Entries

namespace LedgerGate.BagValue

open Entries

/-! ## Values without doubles -/

mutual

/-- A value without doubles, whose maps have their names in order. -/
def Exact : BagValue → Prop
  | double _ => False
  | list xs => ExactItems xs
  | map es => Increasing es ∧ ExactEntries es
  | _ => True

def ExactItems : List BagValue → Prop
  | [] => True
  | x :: xs => Exact x ∧ ExactItems xs

def ExactEntries : List (String × BagValue) → Prop
  | [] => True
  | (_, v) :: es => Exact v ∧ ExactEntries es

end

theorem ofInt_toInt (n : Int64) : ofInt n.toInt = .integer n := by
  rw [ofInt, if_pos ⟨n.minValue_le_toInt, n.toInt_le⟩, Int64.ofInt_toInt]

@[simp]
theorem keys_toJsonFields (es : List (String × BagValue)) :
    (toJsonFields es).map (·.1) = keys es := by
  induction es with
  | nil => rfl
  | cons e es ih =>
    obtain ⟨k, v⟩ := e
    simp [toJsonFields, ih]

/-! ## Reading back -/

mutual

/-- **A value is read as what it was.** -/
theorem ofJson?_toJson : ∀ v : BagValue, v.Exact → ofJson? v.toJson = some v
  | .null, _ => rfl
  | .bool _, _ => rfl
  | .integer n, _ => by rw [toJson, ofJson?, ofInt_toInt]
  | .double _, h => h.elim
  | .text _, _ => rfl
  | .list xs, h => by
    have hxs : ExactItems xs := by simpa [Exact] using h
    rw [toJson, ofJson?, ofItems?_toJsonItems xs hxs, Option.map_some]
  | .map es, h => by
    obtain ⟨hincreasing, hes⟩ : Increasing es ∧ ExactEntries es := by simpa [Exact] using h
    rw [toJson, ofJson?, ofFields?_toJsonFields es [] hincreasing hes, Option.map_some,
      List.nil_append]

theorem ofItems?_toJsonItems : ∀ xs : List BagValue, ExactItems xs →
    ofItems? (toJsonItems xs) = some xs
  | [], _ => rfl
  | x :: xs, h => by
    obtain ⟨hx, hxs⟩ : x.Exact ∧ ExactItems xs := by simpa [ExactItems] using h
    rw [toJsonItems, ofItems?, ofJson?_toJson x hx, Option.bind_some,
      ofItems?_toJsonItems xs hxs, Option.map_some]

/-- The entries that are read go behind those read before. -/
theorem ofFields?_toJsonFields : ∀ es seen : List (String × BagValue), Increasing (seen ++ es) →
    ExactEntries es → ofFields? (toJsonFields es) seen = some (seen ++ es)
  | [], seen, _, _ => by rw [toJsonFields, ofFields?, List.append_nil]
  | (k, v) :: es, seen, hincreasing, h => by
    obtain ⟨hv, hes⟩ : v.Exact ∧ ExactEntries es := by simpa [ExactEntries] using h
    have hsplit : Increasing ((seen ++ [(k, v)]) ++ es) := by
      rwa [List.append_assoc, List.singleton_append]
    have hlast : ∀ name ∈ keys seen, name < k := by
      rw [Increasing, keys_append] at hincreasing
      exact fun name hname => (List.pairwise_append.1 hincreasing).2.2 name hname k
        List.mem_cons_self
    rw [toJsonFields, ofFields?, ofJson?_toJson v hv, Option.bind_some, insert_eq_append hlast v,
      ofFields?_toJsonFields es _ hsplit hes, List.append_assoc, List.singleton_append]

end

/-! ## Plain JSON -/

mutual

theorem plain_toJson : ∀ v : BagValue, v.Exact → v.toJson.Plain
  | .null, _ => trivial
  | .bool _, _ => trivial
  | .integer n, _ => by
    have hlow := n.minValue_le_toInt
    have hhigh := n.toInt_lt
    rw [Int64.toInt_minValue] at hlow
    simp only [toJson, Json.Plain, Json.InRange]
    omega
  | .double _, h => h.elim
  | .text _, _ => trivial
  | .list xs, h => by
    have hxs : ExactItems xs := by simpa [Exact] using h
    simpa [toJson, Json.Plain] using plainItems_toJsonItems xs hxs
  | .map es, h => by
    obtain ⟨-, hes⟩ : Increasing es ∧ ExactEntries es := by simpa [Exact] using h
    simpa [toJson, Json.Plain] using plainFields_toJsonFields es hes

theorem plainItems_toJsonItems : ∀ xs : List BagValue, ExactItems xs →
    Json.PlainItems (toJsonItems xs)
  | [], _ => trivial
  | x :: xs, h => by
    obtain ⟨hx, hxs⟩ : x.Exact ∧ ExactItems xs := by simpa [ExactItems] using h
    exact ⟨plain_toJson x hx, plainItems_toJsonItems xs hxs⟩

theorem plainFields_toJsonFields : ∀ es : List (String × BagValue), ExactEntries es →
    Json.PlainFields (toJsonFields es)
  | [], _ => trivial
  | (_, v) :: es, h => by
    obtain ⟨hv, hes⟩ : v.Exact ∧ ExactEntries es := by simpa [ExactEntries] using h
    exact ⟨plain_toJson v hv, plainFields_toJsonFields es hes⟩

end

end LedgerGate.BagValue

namespace LedgerGate.Bag

open Entries

/-- A bag without doubles, with the names of it and of its maps in order. -/
def Exact (b : Bag) : Prop := Increasing b.entries ∧ BagValue.ExactEntries b.entries

/-- **A bag is read as what it was.** -/
theorem ofJson?_toJson {b : Bag} (h : b.Exact) : ofJson? b.toJson = some b := by
  rw [toJson, ofJson?, BagValue.ofFields?_toJsonFields b.entries [] h.1 h.2]
  rfl

theorem plain_toJson {b : Bag} (h : b.Exact) : b.toJson.Plain := by
  simpa [toJson, Json.Plain] using BagValue.plainFields_toJsonFields b.entries h.2

end LedgerGate.Bag
