/-
  The store on disk beside the one in memory: what both keep, and where they part.

  Both keep a text, an address and a token under every key, and an operation answers what is
  under its key.  The store on disk looks at a token before it writes it and refuses one that
  is put under another symbol than its own; the store in memory writes whatever it is given.

  * `Operation`: what can be asked of a store with its directories;
  * `Contents`: what is under the keys of the three tables, and what operations do to it;
  * `Durable.perform_spec`, `Volatile.perform_spec`: **each store carries its contents on**;
  * `agreement_of`: **both answer alike exactly as long as no token is put under another
    symbol**, and beyond that the store on disk is the one in memory without such tokens.
-/
import LedgerGate.Proofs.Store.Contract
import LedgerGate.Store.Directory
import Mathlib.Data.List.Induction
import Mathlib.Logic.Function.Basic

namespace LedgerGate.Store

/-! ## Operations -/

/-- What can be asked of a store with its directories. -/
inductive Operation where
  | get (key : String)
  | put (key value : String)
  | putIfAbsent (key value : String)
  | delete (key : String)
  | addressOf (address : String)
  | putAddress (r : AddressRecord)
  | tokenOf (symbol : String)
  | putToken (symbol : String) (r : TokenRecord)

/-- The tables of a store. -/
inductive Table where
  | texts
  | addresses
  | tokens
  deriving DecidableEq

namespace Operation

/-- What an operation gives if it does not fail. -/
abbrev Value : Operation → Type
  | get _ => Option String
  | put _ _ => Unit
  | putIfAbsent _ _ => Bool
  | delete _ => Unit
  | addressOf _ => Option AddressRecord
  | putAddress _ => Unit
  | tokenOf _ => Option TokenRecord
  | putToken _ _ => Unit

/-- The answer to an operation. -/
abbrev Answer (op : Operation) : Type := Except Error op.Value

/-- The key that an operation is about. -/
def key : Operation → String
  | get key => key
  | put key _ => key
  | putIfAbsent key _ => key
  | delete key => key
  | addressOf address => address
  | putAddress r => r.address
  | tokenOf symbol => symbol
  | putToken symbol _ => symbol

/-- The table that an operation is about. -/
def table : Operation → Table
  | addressOf _ => .addresses
  | putAddress _ => .addresses
  | tokenOf _ => .tokens
  | putToken _ _ => .tokens
  | _ => .texts

/-- The key of an operation can be a key on disk. -/
def Fits (op : Operation) : Prop := op.key ≠ "" ∧ op.key.utf8ByteSize ≤ Durable.keyLimit

/-- Whether an operation puts a token under another symbol than its own. -/
def misfiles : Operation → Bool
  | putToken symbol r => r.symbol != symbol
  | _ => false

/-- The token that an operation puts under a symbol. -/
def tokenUnder? (symbol : String) : Operation → Option TokenRecord
  | putToken s r => if s = symbol then some r else none
  | _ => none

end Operation

/-- Two errors are of the same kind. -/
def Error.SameKind : Error → Error → Prop
  | backend _, backend _ => True
  | serialization _, serialization _ => True
  | corruption _, corruption _ => True
  | _, _ => False

/-- Two answers give the same value, or errors of the same kind. -/
def Alike {α : Type} : Except Error α → Except Error α → Prop
  | .ok a, .ok b => a = b
  | .error e, .error f => e.SameKind f
  | _, _ => False

theorem Alike.refl {α : Type} (answer : Except Error α) : Alike answer answer := by
  rcases answer with (_ | _ | _) | _ <;> simp [Alike, Error.SameKind]

/-- The operations that put no token under another symbol than its own. -/
def filed (ops : List Operation) : List Operation := ops.filter (!·.misfiles)

/-- The last token that some operations put under a symbol. -/
def lastToken (ops : List Operation) (symbol : String) : Option TokenRecord :=
  ops.reverse.findSome? (·.tokenUnder? symbol)

/-! ## Contents -/

/-- What is under the keys of the three tables. -/
@[ext]
structure Contents where
  texts : String → Option String
  addresses : String → Option AddressRecord
  tokens : String → Option TokenRecord

namespace Contents

/-- Two contents differ in one table at most. -/
structure SameBeside (t : Table) (c c' : Contents) : Prop where
  texts : t ≠ .texts → c'.texts = c.texts
  addresses : t ≠ .addresses → c'.addresses = c.addresses
  tokens : t ≠ .tokens → c'.tokens = c.tokens

def empty : Contents := ⟨fun _ => none, fun _ => none, fun _ => none⟩

/-- The value of an operation, and the contents after it. -/
def perform (c : Contents) : (op : Operation) → op.Value × Contents
  | .get key => (c.texts key, c)
  | .put key value => ((), { c with texts := Function.update c.texts key (some value) })
  | .putIfAbsent key value =>
    if (c.texts key).isSome then (false, c)
    else (true, { c with texts := Function.update c.texts key (some value) })
  | .delete key => ((), { c with texts := Function.update c.texts key none })
  | .addressOf address => (c.addresses address, c)
  | .putAddress r => ((), { c with addresses := Function.update c.addresses r.address (some r) })
  | .tokenOf symbol => (c.tokens symbol, c)
  | .putToken symbol r => ((), { c with tokens := Function.update c.tokens symbol (some r) })

/-- The contents after some operations. -/
def after (ops : List Operation) : Contents := ops.foldl (fun c op => (c.perform op).2) empty

@[simp]
theorem after_nil : after [] = empty := rfl

@[simp]
theorem after_concat (ops : List Operation) (op : Operation) :
    after (ops ++ [op]) = ((after ops).perform op).2 := by
  simp [after]

/-- An operation puts a token under a symbol, or leaves what is there. -/
theorem tokens_perform (c : Contents) (op : Operation) (symbol : String) :
    (c.perform op).2.tokens symbol = (op.tokenUnder? symbol).or (c.tokens symbol) := by
  cases op with
  | putToken s r =>
    by_cases hs : s = symbol
    · subst hs
      simp [perform, Operation.tokenUnder?]
    · simp [perform, Operation.tokenUnder?, hs, Function.update_of_ne (Ne.symm hs)]
  | putIfAbsent key value =>
    simp only [perform, Operation.tokenUnder?, Option.none_or]
    split <;> rfl
  | _ => rfl

/-- Under a symbol is the token that was put there last. -/
theorem tokens_after (ops : List Operation) (symbol : String) :
    (after ops).tokens symbol = lastToken ops symbol := by
  induction ops using List.reverseRecOn with
  | nil => rfl
  | append_singleton ops op ih =>
    rw [after_concat, tokens_perform, ih, lastToken, lastToken, List.reverse_concat,
      List.findSome?_cons]
    cases op.tokenUnder? symbol <;> rfl

/-- An address is put under itself. -/
theorem address_after {ops : List Operation} {a : String} {r : AddressRecord}
    (h : (after ops).addresses a = some r) : r.address = a := by
  induction ops using List.reverseRecOn with
  | nil => cases h
  | append_singleton ops op ih =>
    rw [after_concat] at h
    cases op with
    | putAddress r' =>
      by_cases ha : a = r'.address
      · subst ha
        simp only [perform, Function.update_self, Option.some.injEq] at h
        rw [← h]
      · simp only [perform, Function.update_of_ne ha] at h
        exact ih h
    | putIfAbsent key value =>
      simp only [perform] at h
      split at h <;> exact ih h
    | _ => exact ih h

end Contents

/-- A token that was filed has the symbol that it is under. -/
theorem symbol_lastToken {ops : List Operation} {symbol : String} {r : TokenRecord}
    (h : lastToken (filed ops) symbol = some r) : r.symbol = symbol := by
  obtain ⟨op, hop, hr⟩ := List.exists_of_findSome?_eq_some h
  have hfiled : op.misfiles = false := by
    simpa using (List.mem_filter.1 (List.mem_reverse.1 hop)).2
  cases op with
  | putToken s r' =>
    simp only [Operation.tokenUnder?, Option.ite_none_right_eq_some, Option.some.injEq] at hr
    obtain ⟨rfl, rfl⟩ := hr
    simpa [Operation.misfiles] using hfiled
  | _ => cases hr

/-! ## Tables as functions -/

theorem find?_insert {α : Type} (entries : List (String × α)) (key : String) (value : α) :
    Entries.find? (Entries.insert entries key value) =
      Function.update (Entries.find? entries) key (some value) := by
  funext other
  by_cases h : other = key
  · subst h
    simp
  · rw [Entries.find?_insert_ne entries value h, Function.update_of_ne h]

theorem find?_erase {α : Type} (entries : List (String × α)) (key : String) :
    Entries.find? (Entries.erase entries key) =
      Function.update (Entries.find? entries) key none := by
  funext other
  by_cases h : other = key
  · subst h
    simp
  · rw [Entries.find?_erase_ne entries h, Function.update_of_ne h]

/-! ## The store on disk -/

namespace Durable

/-- The answer to an operation, and the store after it. -/
def perform (d : Durable) : (op : Operation) → op.Answer × Durable
  | .get key => d.answer (.get key)
  | .put key value => d.answer (.put key value)
  | .putIfAbsent key value => d.answer (.putIfAbsent key value)
  | .delete key => d.answer (.delete key)
  | .addressOf address => (d.addressOf address, d)
  | .putAddress r =>
    match d.putAddress r with
    | .ok next => (.ok (), next)
    | .error e => (.error e, d)
  | .tokenOf symbol => (d.tokenOf symbol, d)
  | .putToken symbol r =>
    match d.putToken symbol r with
    | .ok next => (.ok (), next)
    | .error e => (.error e, d)

/-- The store after some operations. -/
def after (ops : List Operation) : Durable := ops.foldl (fun d op => (d.perform op).2) empty

@[simp]
theorem after_concat (ops : List Operation) (op : Operation) :
    after (ops ++ [op]) = ((after ops).perform op).2 := by
  simp [after]

/-- What is under the keys of a store. -/
def contents (d : Durable) : Contents where
  texts := Entries.find? d.values
  addresses := Entries.find? d.addresses
  tokens := Entries.find? d.tokens

section
variable {α : Type} {key : String} (hkey : key ≠ "") (table : List (String × α))
include hkey

/-- A key that fits is looked up, -/
theorem find_fits : find table key = .ok (Entries.find? table key) := by
  simp [find, hkey]

/-- and can be written. -/
theorem set_fits (hsize : key.utf8ByteSize ≤ keyLimit) (value : α) :
    set table key value = .ok (Entries.insert table key value) := by
  simp [set, hkey, Nat.not_lt.2 hsize]

end

/-- A token under another symbol is refused, and nothing is changed. -/
theorem perform_misfiled (d : Durable) {op : Operation} (h : op.misfiles = true) :
    (∃ text, (d.perform op).1 = .error (.corruption text)) ∧ (d.perform op).2 = d := by
  cases op with
  | putToken symbol r =>
    have hne : r.symbol ≠ symbol := by simpa [Operation.misfiles] using h
    simp [perform, putToken, hne]
  | _ => cases h

/-- **The store on disk carries its contents on**, if the key fits and the token, if it is one,
    is put under its own symbol. -/
theorem perform_spec (d : Durable) {op : Operation} (hfits : op.Fits) (h : op.misfiles = false) :
    (d.perform op).1 = .ok (d.contents.perform op).1 ∧
      (d.perform op).2.contents = (d.contents.perform op).2 := by
  obtain ⟨hkey, hsize⟩ := hfits
  cases op with
  | get key =>
    exact ⟨find_fits hkey d.values, rfl⟩
  | put key value =>
    have hset : set d.values key value = .ok (Entries.insert d.values key value) :=
      set_fits hkey d.values hsize value
    simp [perform, answer, put, hset, Except.map, contents, Contents.perform, find?_insert]
  | putIfAbsent key value =>
    have hfind : find d.values key = .ok (Entries.find? d.values key) :=
      find_fits hkey d.values
    have hset : set d.values key value = .ok (Entries.insert d.values key value) :=
      set_fits hkey d.values hsize value
    cases hfound : Entries.find? d.values key with
    | some v =>
      simp [perform, answer, putIfAbsent, hfind, hfound, Except.bind, contents, Contents.perform]
    | none =>
      simp [perform, answer, putIfAbsent, put, hfind, hset, hfound, Except.bind, Except.map,
        contents, Contents.perform, find?_insert]
  | delete key =>
    have hempty : key.isEmpty = false := by simpa [Operation.key] using hkey
    simp [perform, answer, delete, hempty, contents, Contents.perform, find?_erase]
  | addressOf address =>
    exact ⟨find_fits hkey d.addresses, rfl⟩
  | putAddress r =>
    have hset : set d.addresses r.address r = .ok (Entries.insert d.addresses r.address r) :=
      set_fits hkey d.addresses hsize r
    simp [perform, putAddress, hset, Except.map, contents, Contents.perform, find?_insert]
  | tokenOf symbol =>
    exact ⟨find_fits hkey d.tokens, rfl⟩
  | putToken symbol r =>
    have hset : set d.tokens symbol r = .ok (Entries.insert d.tokens symbol r) :=
      set_fits hkey d.tokens hsize r
    have hsymbol : r.symbol = symbol := by simpa [Operation.misfiles] using h
    simp [perform, putToken, hsymbol, hset, Except.map, contents, Contents.perform, find?_insert]

/-- After operations with keys that fit, the store has the contents of those that filed every
    token under its symbol. -/
theorem contents_after {ops : List Operation} (h : ∀ op ∈ ops, op.Fits) :
    (after ops).contents = Contents.after (filed ops) := by
  induction ops using List.reverseRecOn with
  | nil => rfl
  | append_singleton ops op ih =>
    have ih := ih fun op' hop => h op' (List.mem_append_left _ hop)
    rw [after_concat]
    cases hop : op.misfiles with
    | true =>
      rw [(perform_misfiled _ hop).2, ih]
      simp [filed, hop]
    | false =>
      rw [(perform_spec _ (h op (by simp)) hop).2, ih]
      simp [filed, hop]

/-- After operations with keys that fit, one more is answered out of these contents. -/
theorem answer_after {ops : List Operation} (h : ∀ op ∈ ops, op.Fits) {op : Operation}
    (hfits : op.Fits) (hop : op.misfiles = false) :
    ((after ops).perform op).1 = .ok ((Contents.after (filed ops)).perform op).1 := by
  rw [← contents_after h]
  exact (perform_spec _ hfits hop).1

/-- An operation that fails changes nothing. -/
theorem perform_failed (d : Durable) {op : Operation} {e : Error}
    (h : (d.perform op).1 = .error e) : (d.perform op).2 = d := by
  cases op with
  | get | addressOf | tokenOf => rfl
  | put | putIfAbsent | delete =>
    simp only [perform, answer] at h ⊢
    split at h
    · cases h
    · rfl
  | putAddress | putToken =>
    simp only [perform] at h ⊢
    split at h
    · cases h
    · rfl

/-- An operation leaves the tables alone that it is not about. -/
theorem perform_apart (d : Durable) (op : Operation) :
    Contents.SameBeside op.table d.contents (d.perform op).2.contents := by
  suffices h : (op.table ≠ .texts → (d.perform op).2.values = d.values) ∧
      (op.table ≠ .addresses → (d.perform op).2.addresses = d.addresses) ∧
      (op.table ≠ .tokens → (d.perform op).2.tokens = d.tokens) by
    obtain ⟨htexts, haddresses, htokens⟩ := h
    exact ⟨fun ht => congrArg Entries.find? (htexts ht),
      fun ha => congrArg Entries.find? (haddresses ha),
      fun ht => congrArg Entries.find? (htokens ht)⟩
  cases op with
  | get | addressOf | tokenOf => simp [perform, answer]
  | put key value =>
    cases hset : set d.values key value <;>
      simp [perform, answer, put, hset, Except.map, Operation.table]
  | putIfAbsent key value =>
    rcases hfind : find d.values key with e | _ | found
    · simp [perform, answer, putIfAbsent, hfind, Except.bind]
    · cases hset : set d.values key value <;>
        simp [perform, answer, putIfAbsent, put, hfind, hset, Except.bind, Except.map,
          Operation.table]
    · simp [perform, answer, putIfAbsent, hfind, Except.bind]
  | delete key =>
    cases hkey : key.isEmpty <;> simp [perform, answer, delete, hkey, Operation.table]
  | putAddress r =>
    cases hset : set d.addresses r.address r <;>
      simp [perform, putAddress, hset, Except.map, Operation.table]
  | putToken symbol r =>
    by_cases hsymbol : r.symbol = symbol
    · cases hset : set d.tokens symbol r <;>
        simp [perform, putToken, hsymbol, hset, Except.map, Operation.table]
    · simp [perform, putToken, hsymbol]

end Durable

/-! ## The store in memory -/

/-- A store of texts and directories in memory. -/
structure Volatile where
  texts : Memory
  directory : Directory

namespace Volatile

def empty : Volatile := ⟨.empty, .empty⟩

/-- Asks the store of texts. -/
def access (v : Volatile) (q : Query) : q.Answer × Volatile :=
  ((v.texts.answer q).1, { v with texts := (v.texts.answer q).2 })

/-- The answer to an operation, and the store after it. -/
def perform (v : Volatile) : (op : Operation) → op.Answer × Volatile
  | .get key => v.access (.get key)
  | .put key value => v.access (.put key value)
  | .putIfAbsent key value => v.access (.putIfAbsent key value)
  | .delete key => v.access (.delete key)
  | .addressOf address => (v.directory.answer (.address address), v)
  | .putAddress r => (.ok (), { v with directory := v.directory.putAddress r })
  | .tokenOf symbol => (v.directory.answer (.token symbol), v)
  | .putToken symbol r => (.ok (), { v with directory := v.directory.putToken symbol r })

/-- The store after some operations. -/
def after (ops : List Operation) : Volatile := ops.foldl (fun v op => (v.perform op).2) empty

@[simp]
theorem after_concat (ops : List Operation) (op : Operation) :
    after (ops ++ [op]) = ((after ops).perform op).2 := by
  simp [after]

/-- What is under the keys of a store. -/
def contents (v : Volatile) : Contents where
  texts := Entries.find? v.texts.values
  addresses := Entries.find? v.directory.addresses
  tokens := Entries.find? v.directory.tokens

/-- Nothing is made to fail, and nobody else writes. -/
structure Plain (v : Volatile) : Prop where
  reads : v.texts.readsFail = false
  texts : v.texts.failures = []
  rival : v.texts.rival = none
  lookups : v.directory.failures = []

/-- **The store in memory carries its contents on**, whatever it is asked. -/
theorem perform_spec {v : Volatile} (h : v.Plain) (op : Operation) :
    (v.perform op).1 = .ok (v.contents.perform op).1 ∧
      (v.perform op).2.contents = (v.contents.perform op).2 ∧ (v.perform op).2.Plain := by
  obtain ⟨hreads, htexts, hrival, hlookups⟩ := h
  have hfailure : ∀ method, v.texts.failure? method = none := by
    simp [Memory.failure?, htexts]
  have hlookup : ∀ l, v.directory.failure? l = none := by
    simp [Directory.failure?, hlookups]
  have hplain : v.Plain := ⟨hreads, htexts, hrival, hlookups⟩
  cases op with
  | get key =>
    have hanswer : v.perform (.get key) = (.ok (Entries.find? v.texts.values key), v) := by
      simp [perform, access, Memory.answer, Memory.read, hfailure, hreads]
    rw [hanswer]
    exact ⟨rfl, rfl, hplain⟩
  | put key value =>
    have hanswer : v.perform (.put key value) =
        (.ok (), { v with texts := v.texts.write key value }) := by
      simp [perform, access, Memory.answer, hfailure]
    rw [hanswer]
    refine ⟨rfl, ?_, hreads, htexts, hrival, hlookups⟩
    simp [contents, Contents.perform, Memory.write, find?_insert]
  | putIfAbsent key value =>
    have hanswer : v.perform (.putIfAbsent key value) =
        (.ok (v.texts.writeIfAbsent key value).1,
          { v with texts := (v.texts.writeIfAbsent key value).2 }) := by
      simp [perform, access, Memory.answer, Memory.overtaken, hfailure, hrival]
    rw [hanswer]
    unfold Memory.writeIfAbsent
    by_cases hfound : (Entries.find? v.texts.values key).isSome
    · simp [Entries.contains, contents, Contents.perform, hfound, hplain]
    · refine ⟨?_, ?_, ?_⟩
      · simp [Entries.contains, contents, Contents.perform, hfound]
      · simp [Entries.contains, contents, Contents.perform, hfound, Memory.write, find?_insert]
      · simp only [Entries.contains, hfound]
        exact ⟨hreads, htexts, hrival, hlookups⟩
  | delete key =>
    have hanswer : v.perform (.delete key) = (.ok (), { v with texts := v.texts.erase key }) := by
      simp [perform, access, Memory.answer, hfailure]
    rw [hanswer]
    refine ⟨rfl, ?_, hreads, htexts, hrival, hlookups⟩
    simp [contents, Contents.perform, Memory.erase, find?_erase]
  | addressOf address =>
    refine ⟨?_, rfl, hplain⟩
    simp [perform, Directory.answer, hlookup, contents, Contents.perform]
  | putAddress r =>
    refine ⟨rfl, ?_, hreads, htexts, hrival, hlookups⟩
    simp [perform, Directory.putAddress, contents, Contents.perform, find?_insert]
  | tokenOf symbol =>
    refine ⟨?_, rfl, hplain⟩
    simp [perform, Directory.answer, hlookup, contents, Contents.perform]
  | putToken symbol r =>
    refine ⟨rfl, ?_, hreads, htexts, hrival, hlookups⟩
    simp [perform, Directory.putToken, contents, Contents.perform, find?_insert]

/-- After any operations the store has their contents. -/
theorem contents_after (ops : List Operation) :
    (after ops).Plain ∧ (after ops).contents = Contents.after ops := by
  induction ops using List.reverseRecOn with
  | nil => exact ⟨⟨rfl, rfl, rfl, rfl⟩, rfl⟩
  | append_singleton ops op ih =>
    obtain ⟨hplain, hcontents⟩ := ih
    obtain ⟨-, hnext, hplain'⟩ := perform_spec hplain op
    rw [after_concat]
    exact ⟨hplain', by rw [hnext, hcontents, Contents.after_concat]⟩

/-- After any operations one more is answered out of these contents. -/
theorem answer_after (ops : List Operation) (op : Operation) :
    ((after ops).perform op).1 = .ok ((Contents.after ops).perform op).1 := by
  obtain ⟨hplain, hcontents⟩ := contents_after ops
  rw [← hcontents]
  exact (perform_spec hplain op).1

/-- An operation that fails changes nothing. -/
theorem perform_failed (v : Volatile) {op : Operation} {e : Error}
    (h : (v.perform op).1 = .error e) : (v.perform op).2 = v := by
  cases op with
  | get key =>
    simp only [perform, access, Memory.answer] at h ⊢
    split <;> rfl
  | put | putIfAbsent | delete =>
    simp only [perform, access, Memory.answer] at h ⊢
    split at h
    · rfl
    · cases h
  | addressOf | tokenOf => rfl
  | putAddress | putToken => cases h

/-- An operation leaves the tables alone that it is not about. -/
theorem perform_apart (v : Volatile) (op : Operation) :
    Contents.SameBeside op.table v.contents (v.perform op).2.contents := by
  cases op with
  | get | put | putIfAbsent | delete =>
    exact ⟨fun htable => absurd rfl htable, fun _ => rfl, fun _ => rfl⟩
  | addressOf | putAddress => exact ⟨fun _ => rfl, fun htable => absurd rfl htable, fun _ => rfl⟩
  | tokenOf | putToken => exact ⟨fun _ => rfl, fun _ => rfl, fun htable => absurd rfl htable⟩

end Volatile

/-! ## Both side by side -/

/-- What two stores answer at each step of some operations, one on disk and one in memory. -/
structure Agreement (ops : List Operation) : Prop where
  /-- A token under another symbol than its own is refused on disk, and written in memory. -/
  parts : ∀ before op after, ops = before ++ op :: after → op.misfiles = true →
    (∃ text, ((Durable.after before).perform op).1 = .error (.corruption text)) ∧
      ∃ value, ((Volatile.after before).perform op).1 = .ok value
  /-- Whatever else is asked, the store on disk answers as the one in memory does that was
      never given such a token. -/
  meets : ∀ before op after, ops = before ++ op :: after → op.misfiles = false →
    ((Durable.after before).perform op).1 = ((Volatile.after (filed before)).perform op).1
  /-- So both answer alike at every step exactly if there is no such token. -/
  alike : (∀ before op after, ops = before ++ op :: after →
      Alike ((Durable.after before).perform op).1 ((Volatile.after before).perform op).1) ↔
    ∀ op ∈ ops, op.misfiles = false
  /-- An operation that fails changes nothing. -/
  atomic : ∀ op e,
    (((Durable.after ops).perform op).1 = .error e →
      ((Durable.after ops).perform op).2 = Durable.after ops) ∧
    (((Volatile.after ops).perform op).1 = .error e →
      ((Volatile.after ops).perform op).2 = Volatile.after ops)
  /-- An address that is found is the one that was asked for. -/
  addresses : ∀ a r, ((Durable.after ops).addressOf a = .ok (some r) ∨
    (Volatile.after ops).directory.answer (.address a) = .ok (some r)) → r.address = a
  /-- On disk a token is found under its own symbol only. -/
  tokens : ∀ s r, (Durable.after ops).tokenOf s = .ok (some r) → r.symbol = s
  /-- In memory that token is found which was put under the symbol last, whatever its own is. -/
  remembered : ∀ s, (Volatile.after ops).directory.answer (.token s) = .ok (lastToken ops s)
  /-- No operation affects a table that it is not about. -/
  apart : ∀ op : Operation,
    Contents.SameBeside op.table (Durable.after ops).contents
        ((Durable.after ops).perform op).2.contents ∧
      Contents.SameBeside op.table (Volatile.after ops).contents
        ((Volatile.after ops).perform op).2.contents

theorem filed_eq_self {ops : List Operation} (h : ∀ op ∈ ops, op.misfiles = false) :
    filed ops = ops :=
  List.filter_eq_self.2 fun op hop => by rw [h op hop]; rfl

/-- Both stores answer alike at every step exactly if no token is put under another symbol. -/
theorem alike_iff {ops : List Operation} (h : ∀ op ∈ ops, op.Fits) :
    (∀ before op after, ops = before ++ op :: after →
      Alike ((Durable.after before).perform op).1 ((Volatile.after before).perform op).1) ↔
    ∀ op ∈ ops, op.misfiles = false := by
  constructor
  · intro halike op hop
    obtain ⟨before, after, hops⟩ := List.append_of_mem hop
    by_contra hmisfiled
    obtain ⟨text, hrefused⟩ :=
      (Durable.perform_misfiled (Durable.after before) (by simpa using hmisfiled)).1
    have hboth := halike before op after hops
    rw [hrefused, Volatile.answer_after] at hboth
    exact hboth
  · rintro hall before op after rfl
    obtain ⟨hbefore, hrest⟩ := List.forall_mem_append.1 h
    obtain ⟨hfiled, hnext⟩ := List.forall_mem_append.1 hall
    rw [Durable.answer_after hbefore (hrest op List.mem_cons_self) (hnext op List.mem_cons_self),
      filed_eq_self hfiled, Volatile.answer_after]
    exact .refl _

/-- **The two stores side by side**, from their beginning on, whatever they are asked under keys
    that fit. -/
theorem agreement_of {ops : List Operation} (h : ∀ op ∈ ops, op.Fits) : Agreement ops := by
  constructor
  case parts =>
    intro before op after hops hop
    exact ⟨(Durable.perform_misfiled _ hop).1, _, Volatile.answer_after before op⟩
  case meets =>
    rintro before op after rfl hop
    obtain ⟨hbefore, hrest⟩ := List.forall_mem_append.1 h
    rw [Durable.answer_after hbefore (hrest op List.mem_cons_self) hop, Volatile.answer_after]
  case alike => exact alike_iff h
  case atomic =>
    intro op e
    exact ⟨Durable.perform_failed _, Volatile.perform_failed _⟩
  case addresses =>
    rintro a r (hfound | hfound)
    · have hcontents : (Durable.after ops).contents.addresses a = some r :=
        (Durable.find_ok hfound).symm
      rw [Durable.contents_after h] at hcontents
      exact Contents.address_after hcontents
    · have hcontents := (Volatile.answer_after ops (.addressOf a)).symm.trans hfound
      exact Contents.address_after (Except.ok.inj hcontents)
  case tokens =>
    intro s r hfound
    have hcontents : (Durable.after ops).contents.tokens s = some r :=
      (Durable.find_ok hfound).symm
    rw [Durable.contents_after h, Contents.tokens_after] at hcontents
    exact symbol_lastToken hcontents
  case remembered =>
    intro s
    have hanswer := Volatile.answer_after ops (.tokenOf s)
    exact hanswer.trans (congrArg Except.ok (Contents.tokens_after ops s))
  case apart =>
    intro op
    exact ⟨Durable.perform_apart _ op, Volatile.perform_apart _ op⟩

/-- A token. -/
def bond : TokenRecord := ⟨"BND", "Bond", .besu, none, "0xc0", false, none, none, ⟨0⟩⟩

/-- A token that is put under another symbol: the store on disk refuses it and finds nothing,
    the store in memory takes it and finds it there. -/
theorem agreement_misfiled :
    (∀ op ∈ [Operation.putToken "OTHER" bond, .tokenOf "OTHER"], op.Fits) ∧
      (∃ text, ((Durable.after []).perform (.putToken "OTHER" bond)).1 =
        .error (.corruption text)) ∧
      ((Volatile.after []).perform (.putToken "OTHER" bond)).1 = .ok () ∧
      (Volatile.after [.putToken "OTHER" bond, .tokenOf "OTHER"]).directory.answer
        (.token "OTHER") = .ok (some bond) ∧
      ¬∀ before op after,
        [Operation.putToken "OTHER" bond, .tokenOf "OTHER"] = before ++ op :: after →
        Alike ((Durable.after before).perform op).1 ((Volatile.after before).perform op).1 := by
  have hfits : ∀ op ∈ [Operation.putToken "OTHER" bond, .tokenOf "OTHER"], op.Fits := by
    simp [Operation.Fits, Operation.key]
    decide
  have h := agreement_of hfits
  obtain ⟨hrefused, -⟩ := h.parts [] _ _ rfl rfl
  refine ⟨hfits, hrefused, rfl, h.remembered "OTHER", fun halike => ?_⟩
  have hmisfiled := h.alike.1 halike _ List.mem_cons_self
  cases hmisfiled

end LedgerGate.Store
