/-
  Responses read back from their compact text, unless the bag of a result has an entry of
  the name that the result's tag is written under.

  A result is written as its tag and then its own fields, all in one object. Four kinds of
  results have fields of fixed names, none of them the tag's; a bag has the names that its
  maker chose. With a name of the tag's the object holds that name twice, and a tagged value
  with two tags is refused.

  * `Output.tag`, `Output.parts`, `Output.clashes`: the two parts of a written result, and
    that they share a name;
  * `Output.ofJson?_toJson`, `Response.ofJson?_toJson`: a result, and so a response, reads
    back unless they do;
  * `Response.read_compact`: **the same from the compact text**, with how often the tag
    stands in the result;
  * `Response.read_compact_data`: a bag that clashes and one that does not.
-/
import LedgerGate.Json.Access
import LedgerGate.Message.Envelope
import LedgerGate.Proofs.Bag.Kinds
import LedgerGate.Proofs.Json.Records
import LedgerGate.Proofs.Json.RoundTrip

namespace LedgerGate

open Json

/-! ## Outcomes -/

theorem Bag.isEmpty_iff {b : Bag} : b.isEmpty = true ↔ b = .empty := by
  obtain ⟨entries⟩ := b
  simp [Bag.isEmpty, Bag.empty]

theorem WorkStatus.ofName?_name (s : WorkStatus) : ofName? s.name = some s := by
  cases s <;> rfl

namespace TransactionResult

/-- An outcome reads back from fields that were kept whole until the tag was known. -/
theorem ofJsonWith?_fields {r : TransactionResult} (h : r.extra.Exact) :
    ofJsonWith? heldChoice? (.object r.fields) = some r := by
  obtain ⟨workId, block, status, extra, note⟩ := r
  have hextra : Bag.ofJson? extra.toJson = some extra := Bag.ofJson?_toJson h
  have hblock (n : UInt64) : orNull? uint64? (ofUInt64 n) = some (some n) := by
    rw [orNull?_of_ne (j := ofUInt64 n) nofun, uint64?_ofUInt64, Option.map_some]
  have hnote (s : String) : orNull? text? (.text s) = some (some s) := rfl
  by_cases hempty : extra.isEmpty = true
  · obtain rfl := Bag.isEmpty_iff.1 hempty
    cases block <;> cases note <;>
      simp [ofJsonWith?, fields, record?, repeats, Json.optional, Record.required, Record.find?,
        Record.withDefault, text?, heldChoice?, WorkStatus.toJson, WorkStatus.ofName?_name,
        hempty, hblock, hnote]
  · cases block <;> cases note <;>
      simp [ofJsonWith?, fields, record?, repeats, Json.optional, Record.required, Record.find?,
        Record.withDefault, text?, heldChoice?, WorkStatus.toJson, WorkStatus.ofName?_name,
        hempty, hextra, hblock, hnote]

/-- The fields that an outcome is written with. -/
theorem mem_fields {r : TransactionResult} {f : String × Json} (h : f ∈ r.fields) :
    f = ("workId", .text r.workId) ∨ (∃ n, f = ("block", .ofUInt64 n)) ∨
      f = ("status", r.status.toJson) ∨ f = ("extra", r.extra.toJson) ∨
      ∃ s, f = ("message", .text s) := by
  obtain ⟨workId, block, status, extra, note⟩ := r
  obtain ⟨name, value⟩ := f
  simp only [fields, List.mem_append, List.mem_singleton, mem_optional, Option.map_eq_some_iff]
    at h
  rcases h with (((h | ⟨rfl, n, -, rfl⟩) | h) | h) | ⟨rfl, s, -, rfl⟩
  · exact .inl h
  · exact .inr (.inl ⟨n, rfl⟩)
  · exact .inr (.inr (.inl h))
  · split at h
    · cases h
    · exact .inr (.inr (.inr (.inl (List.mem_singleton.1 h))))
  · exact .inr (.inr (.inr (.inr ⟨s, rfl⟩)))

theorem plain_fields {r : TransactionResult} (h : r.extra.Exact) : ∀ f ∈ r.fields, f.2.Plain := by
  intro f hf
  rcases mem_fields hf with rfl | ⟨n, rfl⟩ | rfl | rfl | ⟨s, rfl⟩
  · trivial
  · exact plain_ofUInt64 n
  · trivial
  · exact Bag.plain_toJson h
  · trivial

theorem tag_not_mem_fields (r : TransactionResult) : "type" ∉ r.fields.map (·.1) := by
  intro h
  obtain ⟨f, hf, hname⟩ := List.mem_map.1 h
  rcases mem_fields hf with rfl | ⟨n, rfl⟩ | rfl | rfl | ⟨s, rfl⟩ <;> simp at hname

end TransactionResult

/-! ## Results -/

namespace Output

/-- The tag of a result. -/
def tag : Output → String
  | pong _ _ => "PONG"
  | blockNumber _ _ => "BLOCK_NUMBER"
  | transaction _ => "TRANSACTION"
  | escrowIdentity _ _ _ => "ESCROW_IDENTITY"
  | data _ => "DATA"

/-- The fields of a result beside its tag. -/
def parts : Output → List (String × Json)
  | pong message time => [("message", .text message), ("time", time.toJson)]
  | blockNumber ledgerId block => [("ledgerId", .text ledgerId), ("block", .ofUInt64 block)]
  | transaction r => r.fields
  | escrowIdentity ledgerId contractAddress publicKey =>
    [("ledgerId", .text ledgerId), ("contractAddress", .text contractAddress),
      ("publicKey", .text publicKey)]
  | data b => BagValue.toJsonFields b.entries

theorem fields_eq (o : Output) : o.fields = ("type", .text o.tag) :: o.parts := by
  cases o <;> rfl

/-- A bag with an entry of the name that the tag is written under. -/
def clashes : Output → Bool
  | data b => b.contains "type"
  | _ => false

/-- The bag of a result is exact. -/
def Exact : Output → Prop
  | transaction r => r.extra.Exact
  | data b => b.Exact
  | _ => True

/-- Only a bag's names can be the tag's. -/
theorem tag_mem_parts (o : Output) : "type" ∈ o.parts.map (·.1) ↔ o.clashes = true := by
  cases o with
  | data b => simp [parts, clashes, Entries.contains_iff, Bag.contains]
  | transaction r => simp [parts, clashes, TransactionResult.tag_not_mem_fields]
  | pong | blockNumber | escrowIdentity => simp [parts, clashes]

theorem plain_parts {o : Output} (h : o.Exact) : ∀ f ∈ o.parts, f.2.Plain := by
  cases o with
  | pong message time => simpa [parts, Plain, Timestamp.toJson] using plain_ofUInt64 time.seconds
  | blockNumber ledgerId block => simpa [parts, Plain] using plain_ofUInt64 block
  | transaction r => exact TransactionResult.plain_fields h
  | escrowIdentity => simp [parts, Plain]
  | data b => exact plainFields_iff.1 (BagValue.plainFields_toJsonFields b.entries h.2)

theorem plain_toJson {o : Output} (h : o.Exact) : o.toJson.Plain := by
  rw [toJson, fields_eq, plain_object]
  exact List.forall_mem_cons.2 ⟨trivial, plain_parts h⟩

/-- A result reads back from its fields beside the tag. -/
theorem ofFields?_parts {o : Output} (h : o.Exact) :
    ofFields? o.tag (.object o.parts) = some o := by
  cases o with
  | pong message time =>
    have htime : Timestamp.ofJson? time.toJson = some time := by
      rw [Timestamp.ofJson?, Timestamp.toJson, uint64?_ofUInt64]
      rfl
    simp [ofFields?, tag, parts, record?, repeats, Record.required, Record.find?, text?, htime]
  | blockNumber ledgerId block =>
    simp [ofFields?, tag, parts, record?, repeats, Record.required, Record.find?, text?,
      uint64?_ofUInt64]
  | transaction r =>
    rw [parts, tag, ofFields?, TransactionResult.ofJsonWith?_fields h, Option.map_some]
  | escrowIdentity =>
    simp [ofFields?, tag, parts, record?, repeats, Record.required, Record.find?, text?]
  | data b =>
    have hb : Bag.ofJson? (.object (parts (.data b))) = some b := Bag.ofJson?_toJson h
    rw [tag, ofFields?, hb, Option.map_some]

/-- **A result reads back unless its bag clashes with its tag.** -/
theorem ofJson?_toJson {o : Output} (h : o.Exact) :
    ofJson? o.toJson = if o.clashes then none else some o := by
  have hsound : (Json.object o.parts).sound = true :=
    sound_of_plain _ (plain_object.2 (plain_parts h))
  by_cases hclash : o.clashes = true
  · simp [ofJson?, toJson, fields_eq, tagged?_cons, tag_mem_parts, hclash]
  · simp [ofJson?, toJson, fields_eq, tagged?_cons, tag_mem_parts, hclash, hsound,
      ofFields?_parts h]

/-- A clash is what makes the tag stand twice. -/
theorem count_tag {o : Output} (h : o.Exact) :
    (o.fields.map (·.1)).count "type" = if o.clashes then 2 else 1 := by
  rw [fields_eq, List.map_cons, List.count_cons_self]
  split
  · rename_i hclash
    obtain ⟨b, rfl⟩ : ∃ b, o = .data b := by
      cases o with
      | data b => exact ⟨b, rfl⟩
      | pong | blockNumber | transaction | escrowIdentity => cases hclash
    have honce : ((parts (.data b)).map (·.1)).Nodup := by
      simpa [parts] using h.1.nodup
    rw [honce.count, if_pos ((tag_mem_parts _).2 hclash)]
  · rename_i hclash
    rw [List.count_eq_zero.2 (mt (tag_mem_parts o).1 hclash)]

theorem toJson_ne_null (o : Output) : o.toJson ≠ .null := Json.noConfusion

end Output

/-! ## Failures -/

namespace ErrorDetails

theorem ofJson?_toJson {d : ErrorDetails} (h : d.parameters.Exact) :
    ofJson? d.toJson = some d := by
  obtain ⟨code, message, parameters⟩ := d
  have hparameters : Bag.ofJson? parameters.toJson = some parameters := Bag.ofJson?_toJson h
  by_cases hempty : parameters.isEmpty = true
  · obtain rfl := Bag.isEmpty_iff.1 hempty
    rfl
  · simp [ofJson?, toJson, record?, repeats, Record.required, Record.find?, Record.withDefault,
      text?, hempty, hparameters]

theorem plain_toJson {d : ErrorDetails} (h : d.parameters.Exact) : d.toJson.Plain := by
  have hparameters : d.parameters.toJson.Plain := Bag.plain_toJson h
  rw [toJson, plain_object]
  intro f hf
  rcases List.mem_append.1 hf with hf | hf
  · simp only [List.mem_cons, List.not_mem_nil, or_false] at hf
    rcases hf with rfl | rfl <;> trivial
  · split at hf
    · cases hf
    · cases List.mem_singleton.1 hf
      exact hparameters

theorem toJson_ne_null (d : ErrorDetails) : d.toJson ≠ .null := Json.noConfusion

end ErrorDetails

/-! ## Responses -/

theorem Correlation.ofJson?_toJson (c : Correlation) : ofJson? c.toJson = some c := by
  obtain ⟨messageId, userId⟩ := c
  cases userId <;> rfl

theorem Correlation.plain_toJson (c : Correlation) : c.toJson.Plain := by
  obtain ⟨messageId, userId⟩ := c
  cases userId <;> simp [toJson, Json.optional, Plain, PlainFields]

namespace Response

/-- The bags of a response are exact. -/
structure Exact (r : Response) : Prop where
  result : ∀ o, r.result = some o → o.Exact
  error : ∀ d, r.error = some d → d.parameters.Exact

/-- The result's bag clashes with its tag. -/
def clashes (r : Response) : Bool :=
  match r.result with
  | some o => o.clashes
  | none => false

theorem plain_toJson {r : Response} (h : r.Exact) : r.toJson.Plain := by
  rw [toJson, plain_object]
  intro f hf
  simp only [List.mem_append, List.mem_cons, List.not_mem_nil, or_false, mem_optional,
    Option.map_eq_some_iff] at hf
  rcases hf with (((rfl | rfl | rfl) | ⟨-, o, ho, hf⟩) | ⟨-, d, hd, hf⟩) | rfl
  · exact Correlation.plain_toJson _
  · trivial
  · trivial
  · exact hf ▸ Output.plain_toJson (h.result o ho)
  · exact hf ▸ ErrorDetails.plain_toJson (h.error d hd)
  · exact plain_ofUInt32 _

/-- **A response reads back unless its result clashes.** -/
theorem ofJson?_toJson {r : Response} (h : r.Exact) :
    ofJson? r.toJson = if r.clashes then none else some r := by
  obtain ⟨inReplyTo, operation, pass, result, error, sequence⟩ := r
  have hreply : Correlation.ofJson? inReplyTo.toJson = some inReplyTo :=
    Correlation.ofJson?_toJson inReplyTo
  have hsequence : uint32? (ofUInt32 sequence) = some sequence := uint32?_ofUInt32 sequence
  have herror (d : ErrorDetails) (hd : error = some d) :
      orNull? ErrorDetails.ofJson? d.toJson = some (some d) := by
    rw [orNull?_of_ne d.toJson_ne_null, ErrorDetails.ofJson?_toJson (h.error d hd),
      Option.map_some]
  cases result with
  | none =>
    cases error <;>
      simp [ofJson?, toJson, record?, repeats, Json.optional, Record.required, Record.find?,
        Record.withDefault, text?, bool?, hreply, hsequence, herror, clashes]
  | some o =>
    have hresult : orNull? Output.ofJson? o.toJson =
        (if o.clashes then none else some o).map some := by
      rw [orNull?_of_ne o.toJson_ne_null, Output.ofJson?_toJson (h.result o rfl)]
    by_cases hclash : o.clashes = true <;> cases error <;>
      simp [ofJson?, toJson, record?, repeats, Json.optional, Record.required, Record.find?,
        Record.withDefault, text?, bool?, hreply, hsequence, herror, hresult, clashes, hclash]

/-- The result stands in a response under its name. -/
theorem field_result {r : Response} {o : Output} (h : r.result = some o) :
    r.toJson.field "result" = .object o.fields := by
  simp [toJson, field, h, Json.optional, Output.toJson]

/-- **A response within the depth limit reads back from its compact text**, unless its result
    is a bag with an entry of the tag's name: then the text holds two tags and is refused. -/
theorem read_compact {r : Response} (h : r.Exact) (hdepth : r.toJson.depth ≤ depthLimit) :
    ∃ j, Json.ofText? r.toJson.compact = some j ∧
      ofJson? j = (if r.clashes then none else some r) ∧
      ∀ o, r.result = some o → ∃ fs, j.field "result" = .object fs ∧
        (fs.map (·.1)).count "type" = if o.clashes then 2 else 1 :=
  ⟨r.toJson, ofText?_compact (plain_toJson h) hdepth, ofJson?_toJson h,
    fun o ho => ⟨o.fields, field_result ho, Output.count_tag (h.result o ho)⟩⟩

/-- A response whose result is a bag with one entry. -/
def ofEntry (name : String) (value : BagValue) : Response :=
  .success ⟨"m", none⟩ "OP" (.data ⟨[(name, value)]⟩) 0

theorem exact_ofEntry (name : String) {value : BagValue} (h : value.Exact) :
    (ofEntry name value).Exact := by
  refine ⟨fun o ho => ?_, nofun⟩
  cases ho
  exact ⟨List.pairwise_singleton _ _, h, trivial⟩

/-- An entry named as the tag is refused, any other reads back. -/
theorem read_compact_data :
    ((ofEntry "type" (.text "x")).Exact ∧
      (ofEntry "type" (.text "x")).toJson.depth ≤ depthLimit ∧
      ∃ j, Json.ofText? (ofEntry "type" (.text "x")).toJson.compact = some j ∧
        ofJson? j = none ∧ ∃ fs, j.field "result" = .object fs ∧
          (fs.map (·.1)).count "type" = 2) ∧
    ((ofEntry "kind" (.list [.integer 7, .null])).Exact ∧
      (ofEntry "kind" (.list [.integer 7, .null])).toJson.depth ≤ depthLimit ∧
      ∃ j, Json.ofText? (ofEntry "kind" (.list [.integer 7, .null])).toJson.compact = some j ∧
        ofJson? j = some (ofEntry "kind" (.list [.integer 7, .null]))) := by
  have hclash : (ofEntry "type" (.text "x")).Exact := exact_ofEntry "type" trivial
  have hplain : (ofEntry "kind" (.list [.integer 7, .null])).Exact :=
    exact_ofEntry "kind" ⟨trivial, trivial, trivial⟩
  have hdepth : (ofEntry "type" (.text "x")).toJson.depth ≤ depthLimit := by decide
  have hdepth' : (ofEntry "kind" (.list [.integer 7, .null])).toJson.depth ≤ depthLimit := by
    decide
  obtain ⟨j, hread, hnone, htag⟩ := read_compact hclash hdepth
  obtain ⟨j', hread', hsome, -⟩ := read_compact hplain hdepth'
  exact ⟨⟨hclash, hdepth, j, hread, hnone, htag _ rfl⟩, hplain, hdepth', j', hread', hsome⟩

end Response

end LedgerGate
