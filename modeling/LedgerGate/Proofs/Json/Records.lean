/-
  Records and tagged records out of objects.

  * `tagged?_cons`: a tag written before the other fields is read unless its name stands
    among them too;
  * `uint64?_ofUInt64`, `uint32?_ofUInt32`: words read back;
  * `sound_of_plain`: every part of a plain value denotes one.
-/
import LedgerGate.Json.Record
import LedgerGate.Proofs.Json.Plain

namespace LedgerGate.Json

/-! ## Words -/

theorem uint64?_ofUInt64 (n : UInt64) : uint64? (ofUInt64 n) = some n := by
  have hlt := n.toNat_lt
  have hbounds : (0 : Int) ≤ n.toNat ∧ (n.toNat : Int) ≤ (UInt64.size : Int) - 1 := by
    have : UInt64.size = 2 ^ 64 := rfl
    omega
  rw [uint64?, ofUInt64, intBetween?, if_pos hbounds, Option.map_some, Int.toNat_natCast,
    UInt64.ofNat_toNat]

theorem uint32?_ofUInt32 (n : UInt32) : uint32? (ofUInt32 n) = some n := by
  have hlt := n.toNat_lt
  have hbounds : (0 : Int) ≤ n.toNat ∧ (n.toNat : Int) ≤ (UInt32.size : Int) - 1 := by
    have : UInt32.size = 2 ^ 32 := rfl
    omega
  rw [uint32?, ofUInt32, intBetween?, if_pos hbounds, Option.map_some, Int.toNat_natCast,
    UInt32.ofNat_toNat]

theorem plain_ofUInt64 (n : UInt64) : (ofUInt64 n).Plain := by
  have hlt := n.toNat_lt
  simp only [ofUInt64, Plain, InRange]
  omega

theorem plain_ofUInt32 (n : UInt32) : (ofUInt32 n).Plain := by
  have hlt := n.toNat_lt
  simp only [ofUInt32, Plain, InRange]
  omega

/-! ## Plain objects -/

theorem plainFields_iff {fs : List (String × Json)} : PlainFields fs ↔ ∀ f ∈ fs, f.2.Plain := by
  induction fs with
  | nil => simp [PlainFields]
  | cons f fs ih =>
    obtain ⟨k, v⟩ := f
    simp [PlainFields, ih]

theorem plain_object {fs : List (String × Json)} : (object fs).Plain ↔ ∀ f ∈ fs, f.2.Plain := by
  rw [Plain, plainFields_iff]

theorem mem_optional {name : String} {value : Option Json} {f : String × Json} :
    f ∈ Json.optional name value ↔ f.1 = name ∧ value = some f.2 := by
  obtain ⟨k, v⟩ := f
  cases value with
  | none => simp [Json.optional]
  | some w => simp [Json.optional, eq_comm]

mutual

/-- Every part of a plain value denotes one. -/
theorem sound_of_plain : ∀ j : Json, j.Plain → j.sound = true
  | .null, _ => rfl
  | .bool _, _ => rfl
  | .integer _, _ => rfl
  | .double _, _ => rfl
  | .text _, _ => rfl
  | .list xs, h => by
    have hxs : PlainItems xs := by simpa [Plain] using h
    rw [sound, soundItems_of_plain xs hxs]
  | .object fs, h => by
    have hfs : PlainFields fs := by simpa [Plain] using h
    rw [sound, soundFields_of_plain fs hfs]
  | .invalid, h => h.elim

theorem soundItems_of_plain : ∀ xs : List Json, PlainItems xs → soundItems xs = true
  | [], _ => rfl
  | x :: xs, h => by
    obtain ⟨hx, hxs⟩ : x.Plain ∧ PlainItems xs := by simpa [PlainItems] using h
    rw [soundItems, sound_of_plain x hx, soundItems_of_plain xs hxs, Bool.and_self]

theorem soundFields_of_plain : ∀ fs : List (String × Json), PlainFields fs →
    soundFields fs = true
  | [], _ => rfl
  | (_, v) :: fs, h => by
    obtain ⟨hv, hfs⟩ : v.Plain ∧ PlainFields fs := by simpa [PlainFields] using h
    rw [soundFields, sound_of_plain v hv, soundFields_of_plain fs hfs, Bool.and_self]

end

/-! ## Opening objects -/

/-- Where null may stand, any other value is read as ever. -/
theorem orNull?_of_ne {α : Type} {read : Json → Option α} {j : Json} (h : j ≠ .null) :
    orNull? read j = (read j).map some := by
  unfold orNull?
  split
  · exact absurd rfl h
  · rfl

/-- A tag written before the other fields is read unless its name stands among them. -/
theorem tagged?_cons (tagName tag : String) (fs : List (String × Json)) :
    tagged? tagName (.object ((tagName, .text tag) :: fs)) =
      if tagName ∈ fs.map (·.1) then none else some (tag, .object fs) := by
  split
  · rename_i h
    obtain ⟨f, hf, hname⟩ := List.mem_map.1 h
    have hmem : f ∈ fs.filter (·.1 == tagName) := List.mem_filter.2 ⟨hf, by simp [hname]⟩
    obtain ⟨g, gs, hcons⟩ := List.exists_cons_of_ne_nil (List.ne_nil_of_mem hmem)
    simp [tagged?, hcons]
  · rename_i h
    have hnone : ∀ f ∈ fs, f.1 ≠ tagName := fun f hf hname => h (List.mem_map.2 ⟨f, hf, hname⟩)
    have hfilter : fs.filter (·.1 == tagName) = [] := by
      simpa [List.filter_eq_nil_iff] using fun k v hf => hnone (k, v) hf
    have hrest : fs.filter (·.1 != tagName) = fs := by
      simpa [List.filter_eq_self] using fun k v hf => hnone (k, v) hf
    simp [tagged?, hfilter, hrest]

end LedgerGate.Json
